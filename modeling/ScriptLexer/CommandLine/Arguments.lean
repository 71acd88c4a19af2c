import ScriptLexer.Text.Digit
import ScriptLexer.Text.Quoted

/-! The arguments of the command. All arguments are classified before any takes effect; then they
take effect from left to right. A lone double hyphen makes every argument after it plain, and is
itself dropped next to the script. -/
namespace ScriptLexer.CommandLine

inductive Switch where
  | help
  | json
  | version
  deriving DecidableEq, Repr

/-- The spellings of the switches, in the order in which they are listed to the user. -/
def spellings : List (Text × Switch) := [
  ("-h".toList, .help), ("--help".toList, .help), ("--json".toList, .json),
  ("--version".toList, .version)]

/-- What a complaint calls a switch: all its spellings. -/
def Switch.title (switch : Switch) : Text :=
  joinWith ['/'] ((spellings.filter fun entry => entry.2 == switch).map Prod.fst)

inductive Misuse where
  | ambiguous (argument : Text) (candidates : List Text)
  | attachedValue (switch : Switch) (value : Text)
  | unrecognized (arguments : List Text)
  deriving DecidableEq, Repr

def Misuse.message : Misuse → Text
  | ambiguous argument candidates =>
    "ambiguous option: ".toList ++ argument ++ " could match ".toList
      ++ joinWith ", ".toList candidates
  | attachedValue switch value =>
    "argument ".toList ++ switch.title ++ ": ignored explicit argument ".toList ++ quoted value
  | unrecognized arguments =>
    "unrecognized arguments: ".toList ++ joinWith [' '] arguments

/-- What an argument is. A switch may have a value attached, which no switch takes. Letters attached
to the short switch may be further short switches. -/
inductive Piece where
  | plain (text : Text)
  | separator
  | switch (switch : Switch) (value : Option Text)
  | short (value : Text)
  | unknown (text : Text)
  deriving DecidableEq, Repr

/-- Negative numbers look like switches but are plain. A single line feed may follow one. -/
def isNegativeNumber (argument : Text) : Bool :=
  let isDigit (c : Char) := (digitValue? c).isSome
  match argument with
  | '-' :: rest =>
    let number := if rest.getLast? = some '\n' then rest.dropLast else rest
    match number.dropWhile isDigit with
    | [] => !number.isEmpty
    | '.' :: fraction => !fraction.isEmpty && fraction.all isDigit
    | _ => false
  | _ => false

/-- An argument up to its first equals sign, and what follows the sign, if there is one. -/
def splitValue (argument : Text) : Text × Option Text :=
  match argument.dropWhile (· != '=') with
  | [] => (argument, none)
  | _ :: value => (argument.takeWhile (· != '='), some value)

/-- A switch spelled in full, perhaps with a value after an equals sign. -/
def exactSwitch? (argument : Text) : Option Piece :=
  match spellings.lookup argument, splitValue argument with
  | some switch, _ => some (.switch switch none)
  | none, (_, none) => none
  | none, (name, some value) =>
    if name = "-h".toList then some (.short value)
    else (spellings.lookup name).map (.switch · (some value))

/-- The spellings that begin with the given text. -/
def completions (start : Text) : List (Text × Switch) :=
  spellings.filter fun entry => start.isPrefixOf entry.1

/-- A long switch may be cut short as long as only one spelling begins like it; a short one may
have further letters attached. -/
def abbreviated? (argument : Text) : Except Misuse (Option Piece) :=
  match argument with
  | '-' :: '-' :: _ =>
    let (start, value) := splitValue argument
    match completions start with
    | [] => .ok none
    | [(_, switch)] => .ok (some (.switch switch value))
    | several => .error (.ambiguous argument (several.map Prod.fst))
  | '-' :: 'h' :: value => .ok (some (.short value))
  | _ => .ok none

/-- An argument that looks like a switch and is none is plain if it is a negative number or holds a
space. -/
def classify (argument : Text) : Except Misuse Piece :=
  match argument with
  | '-' :: _ :: _ =>
    match exactSwitch? argument with
    | some piece => .ok piece
    | none =>
      match abbreviated? argument with
      | .error misuse => .error misuse
      | .ok (some piece) => .ok piece
      | .ok none =>
        if isNegativeNumber argument || argument.contains ' ' then .ok (.plain argument)
        else .ok (.unknown argument)
  | _ => .ok (.plain argument)

def pieces : List Text → Except Misuse (List Piece)
  | [] => .ok []
  | argument :: rest =>
    if argument = "--".toList then .ok (.separator :: rest.map .plain)
    else do
      let piece ← classify argument
      return piece :: (← pieces rest)

/-- The letters attached to a short switch, less those that are short switches themselves; nothing
when all of them are. -/
def refusedLetters : Text → Option Text
  | [] => some []
  | ['h'] => none
  | 'h' :: rest => refusedLetters rest
  | letters => some letters

/-- What the arguments ask for. -/
inductive Request where
  | run (script : Option Text) (json : Bool)
  | help
  | version
  | misuse (misuse : Misuse)
  deriving DecidableEq, Repr

/-- What has been seen so far. The script is settled by the first plain argument, together with a
separator on either side of it. -/
structure Progress where
  settled : Bool := false
  script : Option Text := none
  json : Bool := false
  surplus : List Text := []
  deriving DecidableEq, Repr

def Progress.settle (progress : Progress) (script : Option Text) : Progress :=
  { progress with settled := true, script }

def Progress.refuse (progress : Progress) (argument : Text) : Progress :=
  { progress with surplus := progress.surplus ++ [argument] }

def Progress.request (progress : Progress) : Request :=
  if progress.surplus = [] then .run progress.script progress.json
  else .misuse (.unrecognized progress.surplus)

def follow (progress : Progress) : List Piece → Request
  | [] => progress.request
  | .switch switch (some value) :: _ => .misuse (.attachedValue switch value)
  | .switch .help none :: _ => .help
  | .switch .version none :: _ => .version
  | .switch .json none :: rest => follow { progress with json := true } rest
  | .short value :: _ =>
    match refusedLetters value with
    | none => .help
    | some letters => .misuse (.attachedValue .help letters)
  | .unknown argument :: rest => follow (progress.refuse argument) rest
  | .plain argument :: .separator :: rest =>
    if progress.settled then follow ((progress.refuse argument).refuse "--".toList) rest
    else follow (progress.settle (some argument)) rest
  | .plain argument :: rest =>
    if progress.settled then follow (progress.refuse argument) rest
    else follow (progress.settle (some argument)) rest
  | .separator :: .plain argument :: rest =>
    if progress.settled then follow ((progress.refuse "--".toList).refuse argument) rest
    else follow (progress.settle (some argument)) rest
  | .separator :: rest =>
    if progress.settled then follow (progress.refuse "--".toList) rest
    else follow (progress.settle none) rest

def request (arguments : List Text) : Request :=
  match pieces arguments with
  | .error misuse => .misuse misuse
  | .ok pieces => follow {} pieces

end ScriptLexer.CommandLine
