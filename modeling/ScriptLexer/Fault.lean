import ScriptLexer.Diagnostic

/-! The lexical faults, and the diagnostic each of them gets. -/
namespace ScriptLexer

inductive Fault where
  | unexpected (c : Char)
  | unterminated
  deriving DecidableEq, Repr

namespace Fault

def unexpectedCode : Text := "L001".toList

def unterminatedCode : Text := "L002".toList

/-- Titles of the error codes. -/
def codes : List (Text × Text) := [
  (unexpectedCode, "Unexpected character".toList),
  (unterminatedCode, "Unterminated string literal".toList)]

def unexpectedMessage (found : Text) : Text := "Unexpected character: ".toList ++ found

def printableHelp (found : Text) : Text :=
  "The character ".toList ++ quoted found ++ " is not valid in Tomahawk source code.".toList

def unprintableHelp (c : Char) : Text :=
  "Non-printable character (U+".toList ++ upperCase (hex 4 c.toNat) ++ ") is not allowed.".toList

def message : Fault → Text
  | unexpected c => unexpectedMessage [c]
  | unterminated => "Unterminated string.".toList

def code : Fault → Text
  | unexpected _ => unexpectedCode
  | unterminated => unterminatedCode

def help : Fault → Text
  | unexpected c => if isPrintable c then printableHelp [c] else unprintableHelp c
  | unterminated => "String literals must be closed with a matching \" quote.".toList

def diagnostic (fault : Fault) (location : Location) : Diagnostic :=
  .error fault.message location (some fault.code) (some fault.help)

/-- The diagnostic for found text of any length. Text that cannot be shown is named by its code
point, which only a single character has. -/
def unexpectedText? (found : Text) (location : Location) : Option Diagnostic :=
  match found with
  | [c] => some ((unexpected c).diagnostic location)
  | _ =>
    if found.all isPrintable then
      some (.error (unexpectedMessage found) location (some unexpectedCode)
        (some (printableHelp found)))
    else none

/-- What is said of unprintable text that names no code point. -/
def notCharacterMessage (found : Text) : Text :=
  "ord() expected a character, but string of length ".toList ++ decimal found.length
    ++ " found".toList

end Fault

end ScriptLexer
