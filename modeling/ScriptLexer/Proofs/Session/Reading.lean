import ScriptLexer.Session.Reading
import ScriptLexer.Proofs.Cutting.Position
import ScriptLexer.Proofs.MaximalMunch

/-! A session reads its lexemes a character at a time, and yet takes what a cut of the unread text takes
in one piece. This holds from every state, with the mark anywhere and the cursor also past the end. -/
namespace ScriptLexer.Session

/-- Moves the cursor past a text, counting its lines where asked to. -/
def consume (s : Session) (counting : Bool) (text : Text) : Session :=
  { s with
    current := s.current + text.length
    line := s.line + if counting then newlines text else 0 }

/-- What a lexeme of the form comes to once its characters are consumed. -/
def conclude (s : Session) : LexemeForm → Outcome Unit
  | .fixed kind => (s.addToken kind none, .ok ())
  | .word => (s.addToken (.ofWord s.lexeme) none, .ok ())
  | .string => (s.addToken .string (some (.text s.innerText)), .ok ())
  | .number => s.addNumber
  | .blank | .comment => (s, .ok ())
  | .unexpected c => (s, .error (.fault ((Fault.unexpected c).diagnostic (s.location s.start))))
  | .unterminated => (s, .error (.fault (Fault.unterminated.diagnostic (s.location s.current))))

def accept (s : Session) (cut : Cut) : Outcome Unit := (s.consume true cut.taken).conclude cut.form

@[simp] theorem consume_nil (s : Session) (counting : Bool) : s.consume counting [] = s := by
  cases counting <;> rfl

theorem consume_append (s : Session) (counting : Bool) (text more : Text) :
    s.consume counting (text ++ more) = (s.consume counting text).consume counting more := by
  cases counting <;> simp [consume, newlines, Nat.add_assoc]

theorem consume_of_no_newline (s : Session) (text : Text) (h : ∀ c ∈ text, isNewline c = false)
    (counting : Bool) : s.consume counting text = s.consume true text := by
  have none : newlines text = 0 := by
    apply List.countP_eq_zero.2
    intro c member
    rw [h c member]
    exact Bool.false_ne_true
  cases counting <;> simp [consume, none]

theorem unread_consume {s : Session} {text rest : Text} (h : s.unread = text ++ rest)
    (counting : Bool) : (s.consume counting text).unread = rest := by
  have dropped : (s.source.drop s.current).drop text.length = rest := by
    rw [show s.source.drop s.current = text ++ rest from h, List.drop_left]
  rwa [List.drop_drop] at dropped

theorem unread_consume_one {s : Session} {c : Char} {rest : Text} (h : s.unread = c :: rest)
    (counting : Bool) : (s.consume counting [c]).unread = rest := by
  rw [← List.singleton_append] at h
  exact unread_consume h counting

theorem advance_eq {s : Session} {c : Char} {rest : Text} (h : s.unread = c :: rest) :
    s.advance = (s.consume false [c], .ok c) := by
  simp only [advance, h, consume, List.length_singleton, Bool.false_eq_true, if_false, Nat.add_zero]

theorem atEnd_eq (s : Session) : s.atEnd = s.unread.isEmpty := by
  rw [Bool.eq_iff_iff]
  simp [atEnd, unread]

/-- A class without U+0000 fails at the end of the source, where nothing else marks the end. -/
theorem peek_test {p : Char → Bool} (sentinel : p '\x00' = false) (s : Session) :
    p s.peek = s.unread.head?.any p := by
  cases unread : s.unread with
  | nil => simpa [peek, unread] using sentinel
  | cons c rest => simp [peek, unread]

theorem peek_atEnd_test (p : Char → Bool) (s : Session) :
    (p s.peek && !s.atEnd) = s.unread.head?.any p := by
  cases unread : s.unread with
  | nil => simp [atEnd_eq, unread]
  | cons c rest => simp [peek, atEnd_eq, unread]

theorem advance_countAhead {s : Session} {c : Char} {rest : Text} (h : s.unread = c :: rest)
    (counting : Bool) : (s.countAhead counting).advance = (s.consume counting [c], .ok c) := by
  have next : s.peek = c := by simp [peek, h]
  have counted : s.countLine.unread = c :: rest := h
  cases counting with
  | false => exact advance_eq h
  | true =>
    cases line : isNewline c with
    | false =>
      have same := s.consume_of_no_newline [c] (by simpa using line) false
      rw [countAhead, if_neg (by simp [next, line]), advance_eq h, same]
    | true =>
      rw [countAhead, if_pos (by simp [next, line]), advance_eq counted]
      simp [consume, countLine, newlines, line]

/-- A loop consumes the longest run of characters of a class, if its test shows the class of the next
character and fails at the end of the source. -/
theorem advanceWhile_eq {test : Session → Bool} {p : Char → Bool}
    (ahead : ∀ s : Session, test s = s.unread.head?.any p) (counting : Bool) (s : Session) :
    s.advanceWhile counting test = (s.consume counting (s.unread.takeWhile p), .ok ()) := by
  generalize unread : s.unread = text
  induction text generalizing s with
  | nil =>
    rw [advanceWhile, if_neg (by simp [ahead, unread]), List.takeWhile_nil, consume_nil]
  | cons c rest ih =>
    rw [advanceWhile]
    cases inside : p c with
    | false =>
      rw [if_neg (by simp [ahead, unread, inside]), List.takeWhile_cons_of_neg (by simp [inside]),
        consume_nil]
    | true =>
      have step := advance_countAhead unread counting
      rw [if_pos (by simp [ahead, unread, inside]), List.takeWhile_cons_of_pos inside]
      split
      · rename_i s' c' step'
        rw [step] at step'
        cases step'
        have later := ih _ (unread_consume_one unread counting)
        rw [later, ← consume_append]
        rfl
      · rename_i step'
        rw [step] at step'
        cases step'

theorem isNewline_of_isWordChar {c : Char} (h : isWordChar c) : isNewline c = false :=
  beq_eq_false_of_isWordChar h rfl

theorem consume_takeWhile {p : Char → Bool} (lineless : ∀ c, p c → isNewline c = false) (s : Session)
    (text : Text) : s.consume false (text.takeWhile p) = s.consume true (text.takeWhile p) := by
  apply consume_of_no_newline
  intro c member
  exact lineless c (List.mem_takeWhile_imp member)

theorem readDigits_eq (s : Session) :
    s.readDigits = (s.consume true (s.unread.takeWhile (·.isDigit)), .ok ()) := by
  rw [readDigits, advanceWhile_eq (peek_test (by decide)), consume_takeWhile]
  intro c digit
  exact isNewline_of_isWordChar (isWordChar_of_isDigit digit)

theorem readFraction_eq (s : Session) :
    s.readFraction = (s.consume true (Cut.fraction s.unread).1, .ok ()) := by
  unfold Cut.fraction
  split
  · rename_i digit rest unread
    have point : (s.peek == '.') = true := by simp [peek, unread]
    have next : s.peekNext = digit := by simp [peekNext, unread]
    cases follows : digit.isDigit with
    | true =>
      have ahead := unread_consume_one unread false
      have noLine := s.consume_of_no_newline ['.'] (by decide) false
      rw [readFraction, if_pos (by simp [point, next, follows]), advance_eq unread, Outcome.andThen,
        readDigits_eq, ahead, noLine, ← consume_append, if_pos rfl,
        List.takeWhile_cons_of_pos follows]
      rfl
    | false =>
      rw [readFraction, if_neg (by simp [next, follows]), if_neg (by simp), consume_nil]
  · rename_i other
    have test : (s.peek == '.' && s.peekNext.isDigit) = false := by
      cases unread : s.unread with
      | nil => simp [peek, unread]
      | cons c rest =>
        cases rest with
        | nil =>
          have sentinel : '\x00'.isDigit = false := by decide
          simp [peekNext, unread, sentinel]
        | cons digit rest =>
          have point : c ≠ '.' := by
            rintro rfl
            exact other digit rest unread
          simp [peek, unread, point]
    rw [readFraction, if_neg (by simp [test]), consume_nil]

theorem readNumber_eq (s : Session) : s.readNumber = s.accept (Cut.number s.unread) := by
  have split : s.unread = s.unread.takeWhile (·.isDigit) ++ s.unread.dropWhile (·.isDigit) :=
    List.takeWhile_append_dropWhile.symm
  simp only [readNumber, readDigits_eq, readFraction_eq, Outcome.andThen, accept, Cut.number,
    consume_append, unread_consume split]
  rfl

theorem readWord_eq (s : Session) : s.readWord = s.accept (Cut.word s.unread) := by
  have lineless : ∀ c, isWordChar c → isNewline c = false := fun _ => isNewline_of_isWordChar
  rw [readWord, advanceWhile_eq (peek_test (by decide)), consume_takeWhile lineless]
  rfl

theorem skipLine_eq (s : Session) : s.skipLine = s.accept (Cut.restOfLine s.unread) := by
  have lineless : ∀ c, (!isNewline c) → isNewline c = false := by simp
  rw [skipLine, advanceWhile_eq (peek_atEnd_test (!isNewline ·)), consume_takeWhile lineless]
  rfl

theorem readString_eq (s : Session) : s.readString = s.accept (Cut.string s.unread) := by
  rw [readString, advanceWhile_eq (peek_atEnd_test (· != '\x22'))]
  rcases Cut.string_cases s.unread with ⟨body, left, free, closing, cut⟩ | ⟨free, cut⟩
  · have taken : s.unread.takeWhile (· != '\x22') = body := by
      simp [closing, List.takeWhile_append_of_pos (Cut.bne_quote free)]
    have ahead := unread_consume closing true
    have noLine := (s.consume true body).consume_of_no_newline ['\x22'] (by decide) false
    simp only [taken, cut, Outcome.andThen, atEnd_eq, ahead, advance_eq ahead, noLine, accept,
      consume_append]
    rfl
  · have taken : s.unread.takeWhile (· != '\x22') = s.unread :=
      List.takeWhile_eq_self_iff.2 (Cut.bne_quote free)
    have ahead := unread_consume (List.append_nil s.unread).symm true
    simp only [taken, cut, Outcome.andThen, atEnd_eq, ahead]
    rfl

theorem advanceIf_cases (s : Session) (expected : Char) (line : isNewline expected = false) :
    (∃ rest, s.unread = expected :: rest ∧
      s.advanceIf [expected] = (s.consume true [expected], true)) ∨
    (s.unread.head? ≠ some expected ∧ s.advanceIf [expected] = (s, false)) := by
  have noLine := s.consume_of_no_newline [expected] (by simpa using line) false
  unfold advanceIf
  cases unread : s.unread with
  | nil => exact .inr ⟨by simp, rfl⟩
  | cons c rest =>
    by_cases same : c = expected
    · rw [same, ← noLine]
      exact .inl ⟨rest, rfl, by simp [consume]⟩
    · exact .inr ⟨by simpa using same, by simp [same]⟩

theorem readOperator_eq (s : Session) (alone withEqual : TokenKind) :
    ((s.advanceIf ['=']).1.addToken (if (s.advanceIf ['=']).2 then withEqual else alone) none,
      .ok ()) = s.accept (Cut.operator alone withEqual s.unread) := by
  rcases s.advanceIf_cases '=' (by decide) with ⟨rest, unread, step⟩ | ⟨other, step⟩
  · rw [step, unread]
    rfl
  · rw [step, Cut.operator_other other]
    rfl

theorem readSlash_eq (s : Session) :
    (if (s.advanceIf ['/']).2 then (s.advanceIf ['/']).1.skipLine
      else ((s.advanceIf ['/']).1.addToken .slash none, .ok ()))
      = s.accept (Cut.slash s.unread) := by
  rcases s.advanceIf_cases '/' (by decide) with ⟨rest, unread, step⟩ | ⟨other, step⟩
  · have ahead := unread_consume_one unread true
    rw [step, if_pos rfl, skipLine_eq, ahead, unread, accept, accept, ← consume_append]
    rfl
  · rw [step, if_neg Bool.false_ne_true, Cut.slash_other other]
    rfl

theorem readAfter_eq (s : Session) (c : Char) :
    s.readAfter c = (if isNewline c then s.countLine else s).accept (Cut.following c s.unread) := by
  cases line : isNewline c with
  | true =>
    rw [beq_iff_eq.1 line]
    rfl
  | false =>
    unfold readAfter Cut.following
    cases TokenKind.symbol? c with
    | some kind => rfl
    | none =>
      cases TokenKind.operator? c with
      | some kinds => exact s.readOperator_eq kinds.1 kinds.2
      | none =>
        simp only [line, Bool.or_false, Bool.false_eq_true, if_false]
        split
        · exact s.readSlash_eq
        split
        · rfl
        split
        · exact s.readString_eq
        split
        · exact s.readNumber_eq
        split
        · exact s.readWord_eq
        · rfl

/-- A lexeme read a character at a time is the first cut of the unread text. -/
theorem scanLexeme_eq {s : Session} {c : Char} {rest : Text} (unread : s.unread = c :: rest) :
    s.scanLexeme = s.accept (Cut.first c rest) := by
  have ahead := unread_consume_one unread false
  have counted : (if isNewline c then (s.consume false [c]).countLine else s.consume false [c])
      = s.consume true [c] := by
    cases line : isNewline c <;> simp [consume, countLine, newlines, line]
  rw [scanLexeme, advance_eq unread, Outcome.andThen, readAfter_eq, ahead, counted, accept, accept,
    ← consume_append]
  rfl

theorem scanLexeme_atEnd {s : Session} (unread : s.unread = []) :
    s.scanLexeme = (s, .error s.exhausted) := by
  simp only [scanLexeme, advance, unread, Outcome.andThen]

end ScriptLexer.Session
