import ScriptLexer.Session.Reading

/-! Whole scans of a session, and its operations as data. A scan goes through the same operations as
single steps. -/
namespace ScriptLexer

namespace Session

/-- Marks the start of a lexeme, scans it and records the fault it may hold. -/
def scanNext (s : Session) : Outcome Unit :=
  match s.mark.scanLexeme with
  | (s', .error (.fault diagnostic)) => (s'.record diagnostic, .ok ())
  | outcome => outcome

theorem scanNext_moves_marked (s : Session) : Moves s.mark s.scanNext.1 := by
  have moved := s.mark.scanLexeme_moves
  unfold scanNext
  split
  · rename_i step
    rw [step] at moved
    exact moved.tail (.record ..)
  · exact moved

theorem scanNext_moves (s : Session) : Moves s s.scanNext.1 :=
  (Move.mark s).moves.trans s.scanNext_moves_marked

theorem scanNext_current_lt (s : Session) (h : s.current < s.source.length) :
    s.current < s.scanNext.1.current := by
  have moved := scanLexeme_current_lt s.mark h
  unfold scanNext
  split
  · rename_i step
    rw [step] at moved
    exact moved
  · exact moved

theorem scanNext_remaining {s s' : Session} {answer : Except Stop Unit}
    (h : s.current < s.source.length) (step : s.scanNext = (s', answer)) :
    s'.source.length - s'.current < s.source.length - s.current := by
  have source := s.scanNext_moves.source
  have progress := s.scanNext_current_lt h
  rw [step] at source progress
  dsimp only at source progress
  rw [source]
  omega

/-- The state with nothing scanned. The line of the mark and earlier reports stay. -/
def rewound (s : Session) : Session :=
  { s with start := 0, current := 0, line := 1, tokens := #[], errors := #[] }

/-- Scans lexemes up to the end of the source. -/
def scanRest (s : Session) : Outcome Unit :=
  if _ : s.current < s.source.length then
    match _ : s.scanNext with
    | (s', .ok ()) => s'.scanRest
    | (s', .error stop) => (s', .error stop)
  else (s, .ok ())
termination_by s.source.length - s.current
decreasing_by exact scanNext_remaining ‹_› ‹_›

/-- A whole scan from the beginning, closed by the token for the end of the source. -/
def scanAll (s : Session) : Outcome Unit :=
  match s.rewound.scanRest with
  | (s', .ok ()) => ({ s' with tokens := s'.tokens.push (endToken s'.line) }, .ok ())
  | failed => failed

end Session

/-- One operation on a session. -/
inductive Action where
  | mark
  | seek (offset : Nat)
  | setSource (source : Text)
  | advance
  | peek
  | peekNext
  | atEnd
  | advanceIf (expected : Text)
  | skipLine
  | scanLexeme
  | readString
  | readNumber
  | readWord
  | addToken (kind : TokenKind) (literal : Option Literal)
  | location (offset : Int)
  | hasErrors
  | diagnostics
  | scanAll
  deriving DecidableEq, Repr

inductive Answer where
  | done
  | character (c : Char)
  | flag (value : Bool)
  | location (location : Location)
  | diagnostics (found : List Diagnostic)
  | tokens (found : List Token)
  deriving DecidableEq, Repr

namespace Session

def act (s : Session) : Action → Outcome Answer
  | .mark => (s.mark, .ok .done)
  | .seek offset => (s.seek offset, .ok .done)
  | .setSource source => (s.setSource source, .ok .done)
  | .advance => let (s', result) := s.advance; (s', result.map .character)
  | .peek => (s, .ok (.character s.peek))
  | .peekNext => (s, .ok (.character s.peekNext))
  | .atEnd => (s, .ok (.flag s.atEnd))
  | .advanceIf expected => let (s', moved) := s.advanceIf expected; (s', .ok (.flag moved))
  | .skipLine => let (s', result) := s.skipLine; (s', result.map fun _ => .done)
  | .scanLexeme => let (s', result) := s.scanLexeme; (s', result.map fun _ => .done)
  | .readString => let (s', result) := s.readString; (s', result.map fun _ => .done)
  | .readNumber => let (s', result) := s.readNumber; (s', result.map fun _ => .done)
  | .readWord => let (s', result) := s.readWord; (s', result.map fun _ => .done)
  | .addToken kind literal => (s.addToken kind literal, .ok .done)
  | .location offset => (s, .ok (.location (s.location offset)))
  | .hasErrors => (s, .ok (.flag s.hasErrors))
  | .diagnostics => (s, .ok (.diagnostics s.errors.toList))
  | .scanAll => let (s', result) := s.scanAll; (s', result.map fun _ => .tokens s'.tokens.toList)

/-- Performs an action and keeps the fault it may end with among the errors. -/
def actRecording (s : Session) (action : Action) : Outcome Answer :=
  match s.act action with
  | (s', .error (.fault diagnostic)) => (s'.record diagnostic, .error (.fault diagnostic))
  | outcome => outcome

end Session

end ScriptLexer
