import ScriptLexer.CommandLine.Arguments
import ScriptLexer.Script

/-! What the command writes and how it ends. A script is scanned as a whole; at the prompt every
line is scanned on its own. Tokens go to the standard output, reports to the standard error. -/
namespace ScriptLexer.CommandLine

structure Output where
  out : Text := []
  err : Text := []
  deriving DecidableEq, Repr

/-- How a run ends. `exited` tells whether the arguments alone decided the end. -/
structure Ending where
  code : Nat
  exited : Bool := false
  output : Output
  deriving DecidableEq, Repr

def exitOk : Nat := 0

def exitMisuse : Nat := 2

def exitDataError : Nat := 65

def exitNoInput : Nat := 66

def promptText : Text := "> ".toList

def versionNumber : Text := "0.1.0".toList

def usageText : Text := "usage: tomahawk [-h] [--json] [--version] [script]\n".toList

def helpText : Text := usageText ++ "
Tomahawk scanner: print the tokens of a script

positional arguments:
  script      Script to scan (omit for an interactive prompt)

options:
  -h, --help  show this help message and exit
  --json      Output tokens in JSON format
  --version   show program's version number and exit

Examples:
    tomahawk script.tk            # Print tokens of a file
    tomahawk --json script.tk     # Same, as JSON
    tomahawk                      # Interactive prompt
        \n".toList

def Output.append (output more : Output) : Output :=
  ⟨output.out ++ more.out, output.err ++ more.err⟩

def tokenText (json : Bool) (tokens : List Token) : Text :=
  if json then tokenJson tokens else tokenLines tokens

/-- What a session has found, written out: its tokens, and the reports of its collector. -/
def sessionOutput (json : Bool) (s : Session) : Output :=
  ⟨tokenText json s.tokens.toList, reportLines (s.collector.getD {}).reports.toList⟩

/-- One piece of source, scanned by a session of its own with a collector of its own: what is written,
and whether the collector was given anything. -/
def runSource (json : Bool) (file source : Text) : Output × Bool :=
  let s := ({ source, file, collector := some {} } : Session).scanAll.1
  (sessionOutput json s, (s.collector.getD {}).hadError)

/-- A script that cannot be opened ends the run; other failures of reading are passed on. -/
def runFile {ε : Type} (describe : ε → Text) (json : Bool) (path : Text)
    (script : Except (Unreadable ε) Text) : Except (Unreadable ε) Ending :=
  match script with
  | .ok source =>
    let (output, hadError) := runSource json path source
    .ok { code := if hadError then exitDataError else exitOk, output }
  | .error (.refused failure) => .ok
    { code := exitNoInput
      output := { err := "Cannot read ".toList ++ path ++ ": ".toList ++ describe failure ++ ['\n'] } }
  | .error failure => .error failure

/-- What is typed at the prompt has no file; this stands for its name. -/
def promptFile : Text := "<stdin>".toList

/-- A session at the prompt: what is still to be read, and what has been written. -/
structure Prompt where
  input : Text
  output : Output := {}
  deriving DecidableEq, Repr

namespace Prompt

def write (p : Prompt) (more : Output) : Prompt := { p with output := p.output.append more }

/-- The prompt is shown. -/
def ask (p : Prompt) : Prompt := p.write { out := promptText }

/-- The prompt is shown, and a line is read and run. Where there is none, a line feed is written and the
session ends with a code. -/
def turn (json : Bool) (p : Prompt) : Prompt × Option Nat :=
  match readLine p.ask.input with
  | ([], _) => (p.ask.write { out := ['\n'] }, some exitOk)
  | (line, left) => ({ p.ask with input := left }.write (runSource json promptFile line).1, none)

theorem turn_input_lt {json : Bool} {p p' : Prompt} (h : p.turn json = (p', none)) :
    p'.input.length < p.input.length := by
  have shorter := length_left_readLine_lt p.input
  unfold turn at h
  split at h
  · cases h
  · rename_i line left some read
    rw [show readLine p.input = (line, left) from read] at shorter
    cases h
    exact shorter some

/-- Turns are taken until one ends the session. -/
def run (json : Bool) (p : Prompt) : Prompt × Nat :=
  match _ : p.turn json with
  | (p', some code) => (p', code)
  | (p', none) => p'.run json
termination_by p.input.length
decreasing_by exact turn_input_lt ‹_›

end Prompt

/-- A prompt session over everything that will be typed. -/
def runPrompt (json : Bool) (input : Text) : Ending :=
  let (p, code) := ({ input } : Prompt).run json
  { code, output := p.output }

def misuseOutput (misuse : Misuse) : Output :=
  { err := usageText ++ "tomahawk: error: ".toList ++ misuse.message ++ ['\n'] }

/-- A whole run of the command. -/
def run (openFile : Text → Except OpenFailure (List UInt8)) (input : Text)
    (arguments : List Text) : Except ReadFailure Ending :=
  match request arguments with
  | .help => .ok { code := exitOk, exited := true, output := { out := helpText } }
  | .version => .ok
    { code := exitOk
      exited := true
      output := { out := "tomahawk ".toList ++ versionNumber ++ ['\n'] } }
  | .misuse misuse => .ok { code := exitMisuse, exited := true, output := misuseOutput misuse }
  | .run (some path) json => runFile OpenFailure.message json path (readScript openFile path)
  | .run none json => .ok (runPrompt json (unifyNewlines input))

end ScriptLexer.CommandLine
