import ScriptLexer.Folder
import ScriptLexer.Session
import ScriptLexer.Text.Newline
import ScriptLexer.Text.Utf8

/-! Scripts, given as text or kept in files. Each is scanned by a new session, whose scan never stops short.
In a file a script is text in UTF-8, with any of the usual line ends. -/
namespace ScriptLexer

/-- What stands for the name of a script that has no file. -/
def scriptName : Text := "<script>".toList

/-- The tokens of a script, and what becomes of the collector that is given its reports, if there is one. -/
def scanReporting (collector : Option Collector) (source : Text) : List Token × Option Collector :=
  let s := ({ source, file := scriptName, collector } : Session).scanAll.1
  (s.tokens.toList, s.collector)

/-- The strict form, which gives the tokens only of a script without errors. It fails with the first of
them, though only after the whole scan. -/
def tokenize (file source : Text) : Except Diagnostic (List Token) :=
  let s := ({ source, file } : Session).scanAll.1
  match s.errors.toList with
  | [] => .ok s.tokens.toList
  | first :: _ => .error first

/-- Why a script cannot be read. What a system has to say when it refuses to open a file is up to the
system. -/
inductive Unreadable (ε : Type) where
  | refused (failure : ε)
  | nulInPath
  | malformed (fault : Utf8.Malformed)
  deriving DecidableEq, Repr

def Unreadable.message {ε : Type} (describe : ε → Text) : Unreadable ε → Text
  | refused failure => describe failure
  | nulInPath => "embedded null byte".toList
  | malformed fault => fault.message

abbrev ReadFailure := Unreadable OpenFailure

def ReadFailure.message (failure : ReadFailure) : Text :=
  Unreadable.message OpenFailure.message failure

/-- The text of a script's bytes. -/
def decodeScript (bytes : List UInt8) : Except Utf8.Malformed Text :=
  (Utf8.decode bytes).map unifyNewlines

/-- Reads the script at a path, `openFile` being how files are found. No file has a path with
U+0000 in it. -/
def readScript {ε : Type} (openFile : Text → Except ε (List UInt8)) (path : Text) :
    Except (Unreadable ε) Text :=
  if '\x00' ∈ path then .error .nulInPath
  else
    match openFile path with
    | .error failure => .error (.refused failure)
    | .ok bytes => (decodeScript bytes).mapError .malformed

/-- Why a script in a file has no tokens. -/
inductive ScriptFailure where
  | unreadable (failure : ReadFailure)
  | lexical (diagnostic : Diagnostic)
  deriving DecidableEq, Repr

/-- The tokens of a script without faults; its path names it in the diagnostic of another. -/
def tokenizeFile (openFile : Text → Except OpenFailure (List UInt8)) (path : Text) :
    Except ScriptFailure (List Token) :=
  match readScript openFile path with
  | .error failure => .error (.unreadable failure)
  | .ok source => (tokenize path source).mapError .lexical

end ScriptLexer
