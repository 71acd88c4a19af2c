import ScriptLexer.Column
import ScriptLexer.Double.Numeral
import ScriptLexer.Fault
import ScriptLexer.Token.Basic

/-! A scanner moved by hand. A session holds a source, a mark where the current lexeme starts, a
cursor, and what has been found so far. It may have been given a collector for its reports. Every
operation works from any state, also one no scan would reach: with the cursor past the end, or before
the mark. -/
namespace ScriptLexer

structure Session where
  source : Text
  file : Text
  start : Nat := 0
  current : Nat := 0
  line : Nat := 1
  startLine : Nat := 1
  tokens : Array Token := #[]
  errors : Array Diagnostic := #[]
  collector : Option Collector := none
  deriving DecidableEq, Repr

/-- Why an operation stopped short. -/
inductive Stop where
  | fault (diagnostic : Diagnostic)
  | endOfSource
  | offsetTooWide
  | notNumeral (text : Text)
  deriving DecidableEq, Repr

def Stop.message : Stop → Text
  | fault diagnostic => diagnostic.shown
  | endOfSource => "string index out of range".toList
  | offsetTooWide => "cannot fit 'int' into an index-sized integer".toList
  | notNumeral text => Double.refusalMessage text

/-- The state an operation ends in, with its answer or why it stopped short. What was changed before
it stopped stays changed. -/
abbrev Outcome (α : Type) := Session × Except Stop α

def Outcome.andThen {α β : Type} (outcome : Outcome α) (next : Session → α → Outcome β) :
    Outcome β :=
  match outcome with
  | (s, .ok answer) => next s answer
  | (s, .error stop) => (s, .error stop)

namespace Session

/-- The widest offset a character can be asked for at. -/
def widestOffset : Nat := Nat.pow 2 63 - 1

def unread (s : Session) : Text := s.source.drop s.current

/-- The text from the mark to the cursor; empty when the cursor is not past the mark. -/
def lexeme (s : Session) : Text := slice s.source s.start s.current

/-- The lexeme without its first and last character. -/
def innerText (s : Session) : Text := slice s.source (s.start + 1) (s.current - 1)

def atEnd (s : Session) : Bool := s.source.length ≤ s.current

/-- The next character, or U+0000 when there is none. -/
def peek (s : Session) : Char := s.unread.headD '\x00'

def peekNext (s : Session) : Char := s.unread.tail.headD '\x00'

def mark (s : Session) : Session := { s with start := s.current, startLine := s.line }

def seek (s : Session) (offset : Nat) : Session := { s with current := offset }

def setSource (s : Session) (source : Text) : Session := { s with source }

/-- One more line is begun. -/
def countLine (s : Session) : Session := { s with line := s.line + 1 }

/-- The place of an offset in the source, on the line the session has reached. -/
def location (s : Session) (offset : Int) : Location :=
  ⟨s.file, s.line, columnOf s.source offset, offset⟩

/-- The token of a kind for the current lexeme stands on the line of the mark. -/
def addToken (s : Session) (kind : TokenKind) (literal : Option Literal) : Session :=
  { s with tokens := s.tokens.push ⟨kind, s.lexeme, literal, s.startLine⟩ }

/-- An error is kept, and reported where there is a collector. -/
def record (s : Session) (diagnostic : Diagnostic) : Session :=
  { s with
    errors := s.errors.push diagnostic
    collector := s.collector.map (·.add diagnostic.report) }

def hasErrors (s : Session) : Bool := !s.errors.isEmpty

/-- Why there is no character at the cursor. -/
def exhausted (s : Session) : Stop :=
  if widestOffset < s.current then .offsetTooWide else .endOfSource

def advance (s : Session) : Outcome Char :=
  match s.unread with
  | c :: _ => ({ s with current := s.current + 1 }, .ok c)
  | [] => (s, .error s.exhausted)

/-- Consumes the next character only if it alone is the expected text. -/
def advanceIf (s : Session) (expected : Text) : Session × Bool :=
  match s.unread with
  | c :: _ => if [c] = expected then ({ s with current := s.current + 1 }, true) else (s, false)
  | [] => (s, false)

theorem exists_unread {s : Session} (h : s.current < s.source.length) :
    ∃ c rest, s.unread = c :: rest := by
  apply List.exists_cons_of_ne_nil
  intro none
  exact absurd h (Nat.not_lt.2 (List.drop_eq_nil_iff.1 none))

theorem advance_ok {s s' : Session} {c : Char} (h : s.advance = (s', .ok c)) :
    s.current < s.source.length ∧ s' = { s with current := s.current + 1 } := by
  unfold advance unread at h
  split at h
  · rename_i ahead
    have inside := congrArg List.length ahead
    simp only [List.length_drop, List.length_cons] at inside
    cases h
    exact ⟨by omega, rfl⟩
  · cases h

end Session

end ScriptLexer
