import ScriptLexer.Report
import ScriptLexer.Text.Quoted

/-! Diagnostics: what is wrong with a source, where, and what to do about it. Locations of arbitrary
integers can be written, not only those of places in a source. -/
namespace ScriptLexer

structure Location where
  file : Text
  line : Int
  column : Int
  offset : Int
  deriving DecidableEq, Repr

structure Diagnostic where
  message : Text
  location : Location
  severity : Text
  code : Option Text
  help : Option Text
  deriving DecidableEq, Repr

def Location.shown (location : Location) : Text :=
  joinWith [':'] [location.file, signedDecimal location.line, signedDecimal location.column]

def Location.described (location : Location) : Text :=
  "SourceLocation(".toList
    ++ joinWith ", ".toList [
      quoted location.file,
      signedDecimal location.line,
      signedDecimal location.column,
      signedDecimal location.offset]
    ++ [')']

namespace Diagnostic

/-- An empty help text counts as none. -/
def helpLine : Option Text → Text
  | none | some [] => []
  | some help => "  help: ".toList ++ help ++ ['\n']

def shown (d : Diagnostic) : Text :=
  upperCase d.severity ++ ": ".toList ++ d.message ++ '\n'
    :: "  --> ".toList ++ d.location.shown ++ '\n' :: helpLine d.help

def optionalText (text : Option Text) : Text := (text.map quoted).getD "None".toList

def described (d : Diagnostic) : Text :=
  "Diagnostic(".toList
    ++ joinWith ", ".toList [
      "message=".toList ++ quoted d.message,
      "location=".toList ++ d.location.described,
      "severity=".toList ++ quoted d.severity,
      "code=".toList ++ optionalText d.code,
      "help_text=".toList ++ optionalText d.help]
    ++ [')']

def report (d : Diagnostic) : Report := ⟨d.location.line, d.message⟩

/-- An error of a source text. -/
def error (message : Text) (location : Location) (code help : Option Text) : Diagnostic :=
  ⟨message, location, "error".toList, code, help⟩

end Diagnostic

end ScriptLexer
