import ScriptLexer.Session.Move

/-! Reading one lexeme, a character at a time. A loop looks at the next character only by `peek`,
which shows U+0000 also where the source has ended, and consumes it by `advance`, which stops short
there; a character that is there may be U+0000 too. -/
namespace ScriptLexer

/-- What follows an operation extends its moves. -/
theorem Outcome.andThen_moves {α β : Type} {s : Session} {outcome : Outcome α}
    {next : Session → α → Outcome β} (first : Session.Moves s outcome.1)
    (second : ∀ s' answer, Session.Moves s' (next s' answer).1) :
    Session.Moves s (outcome.andThen next).1 := by
  rcases outcome with ⟨s', answer | stop⟩
  · exact first
  · exact first.trans (second _ _)

namespace Session

/-- Counts the line that a line feed ahead ends, if lines are to be counted. -/
def countAhead (s : Session) (counting : Bool) : Session :=
  if counting && isNewline s.peek then s.countLine else s

theorem countAhead_moves (s : Session) (counting : Bool) : Moves s (s.countAhead counting) := by
  unfold countAhead
  split
  · exact (Move.countLine s).moves
  · exact .refl s

/-- Consumes characters while the test holds, counting lines where asked to. -/
def advanceWhile (counting : Bool) (test : Session → Bool) (s : Session) : Outcome Unit :=
  if test s then
    match _ : (s.countAhead counting).advance with
    | (s', .ok _) => s'.advanceWhile counting test
    | (s', .error stop) => (s', .error stop)
  else (s, .ok ())
termination_by s.source.length - s.current
decreasing_by
  obtain ⟨inside, rfl⟩ := advance_ok ‹_›
  have source := (s.countAhead_moves counting).source
  have current := (s.countAhead_moves counting).current_le
  dsimp only
  rw [source] at inside ⊢
  omega

/-- The rest of a string whose opening quote is consumed. -/
def readString (s : Session) : Outcome Unit :=
  (s.advanceWhile true fun s => s.peek != '\x22' && !s.atEnd).andThen fun s _ =>
    if s.atEnd then (s, .error (.fault (Fault.unterminated.diagnostic (s.location s.current))))
    else
      s.advance.andThen fun s _ => (s.addToken .string (some (.text s.innerText)), .ok ())

def readDigits (s : Session) : Outcome Unit := s.advanceWhile false fun s => s.peek.isDigit

/-- A point is consumed only with a digit after it. -/
def readFraction (s : Session) : Outcome Unit :=
  if s.peek == '.' && s.peekNext.isDigit then s.advance.andThen fun s _ => s.readDigits
  else (s, .ok ())

/-- The number token of the current lexeme, which has to be a written double. -/
def addNumber (s : Session) : Outcome Unit :=
  match Double.read? s.lexeme with
  | some value => (s.addToken .number (some (.number value)), .ok ())
  | none => (s, .error (.notNumeral s.lexeme))

def readNumber (s : Session) : Outcome Unit :=
  s.readDigits.andThen fun s _ => s.readFraction.andThen fun s _ => s.addNumber

/-- The lexeme reaches back to the mark, which may lie elsewhere than at the first character
consumed here, and it is looked up as a whole. -/
def readWord (s : Session) : Outcome Unit :=
  (s.advanceWhile false fun s => isWordChar s.peek).andThen fun s _ =>
    (s.addToken (.ofWord s.lexeme) none, .ok ())

/-- The line feed that ends the line is left. -/
def skipLine (s : Session) : Outcome Unit :=
  s.advanceWhile false fun s => !isNewline s.peek && !s.atEnd

/-- What follows a consumed first character. -/
def readAfter (s : Session) (c : Char) : Outcome Unit :=
  match TokenKind.symbol? c with
  | some kind => (s.addToken kind none, .ok ())
  | none =>
    match TokenKind.operator? c with
    | some (alone, withEqual) =>
      let (s', matched) := s.advanceIf ['=']
      (s'.addToken (if matched then withEqual else alone) none, .ok ())
    | none =>
      if c == '/' then
        let (s', matched) := s.advanceIf ['/']
        if matched then s'.skipLine else (s'.addToken .slash none, .ok ())
      else if isBlank c then (s, .ok ())
      else if isNewline c then (s.countLine, .ok ())
      else if c == '\x22' then s.readString
      else if c.isDigit then s.readNumber
      else if isLetter c then s.readWord
      else (s, .error (.fault ((Fault.unexpected c).diagnostic (s.location s.start))))

/-- One lexeme of any form. The mark stays where it is. -/
def scanLexeme (s : Session) : Outcome Unit := s.advance.andThen readAfter

theorem advanceWhile_moves (counting : Bool) (test : Session → Bool) (s : Session) :
    Moves s (s.advanceWhile counting test).1 := by
  fun_induction advanceWhile counting test s with
  | case1 s _ s' c step ih =>
    exact ((s.countAhead_moves counting).tail (.advance step)).trans ih
  | case2 s _ s' stop step =>
    have moved := (s.countAhead counting).advance_moves
    rw [step] at moved
    exact (s.countAhead_moves counting).trans moved
  | case3 s _ => exact .refl s

theorem readString_moves (s : Session) : Moves s s.readString.1 := by
  apply Outcome.andThen_moves (advanceWhile_moves ..)
  intro s' _
  split
  · exact .refl s'
  · exact Outcome.andThen_moves s'.advance_moves fun s'' _ => (Move.addToken ..).moves

theorem readFraction_moves (s : Session) : Moves s s.readFraction.1 := by
  unfold readFraction
  split
  · exact Outcome.andThen_moves s.advance_moves fun s' _ => advanceWhile_moves ..
  · exact .refl s

theorem addNumber_moves (s : Session) : Moves s s.addNumber.1 := by
  unfold addNumber
  split
  · exact (Move.addToken ..).moves
  · exact .refl s

theorem readNumber_moves (s : Session) : Moves s s.readNumber.1 :=
  Outcome.andThen_moves (advanceWhile_moves ..) fun s' _ =>
    Outcome.andThen_moves s'.readFraction_moves fun s'' _ => s''.addNumber_moves

theorem readWord_moves (s : Session) : Moves s s.readWord.1 :=
  Outcome.andThen_moves (advanceWhile_moves ..) fun _ _ => (Move.addToken ..).moves

theorem readAfter_moves (s : Session) (c : Char) : Moves s (s.readAfter c).1 := by
  unfold readAfter
  split
  · exact (Move.addToken ..).moves
  split
  · exact (s.advanceIf_moves _).trans (Move.addToken ..).moves
  split
  · have slash := s.advanceIf_moves ['/']
    dsimp only
    split
    · exact slash.trans (advanceWhile_moves ..)
    · exact slash.trans (Move.addToken ..).moves
  split
  · exact .refl s
  split
  · exact (Move.countLine s).moves
  split
  · exact s.readString_moves
  split
  · exact s.readNumber_moves
  split
  · exact s.readWord_moves
  · exact .refl s

theorem scanLexeme_moves (s : Session) : Moves s s.scanLexeme.1 :=
  Outcome.andThen_moves s.advance_moves readAfter_moves

/-- A lexeme takes at least its first character. -/
theorem scanLexeme_current_lt (s : Session) (h : s.current < s.source.length) :
    s.current < s.scanLexeme.1.current := by
  obtain ⟨c, rest, ahead⟩ := exists_unread h
  rw [scanLexeme, advance, ahead]
  exact (readAfter_moves { s with current := s.current + 1 } c).current_le

end Session

end ScriptLexer
