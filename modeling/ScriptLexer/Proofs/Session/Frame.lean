import ScriptLexer.Proofs.Session.Reading

/-! What a reading may change, from every state: with the mark anywhere, the cursor also past the end
and anything found before. A reading moves the cursor on, counts the lines it passes and adds at most
one token. One that stops short has moved the cursor and counted lines, and has changed nothing else. -/
namespace ScriptLexer.Session

/-- The text between the cursors of two states. -/
def passed (s s' : Session) : Text := slice s.source s.current s'.current

/-- A reading that is completed adds one token or none, and one that stops short adds none. -/
def AddsAtMostOne (s : Session) (outcome : Outcome Unit) : Prop :=
  match outcome.2 with
  | .ok () => outcome.1.tokens = s.tokens ∨ ∃ token, outcome.1.tokens = s.tokens.push token
  | .error _ => outcome.1.tokens = s.tokens

/-- How a reading that begins in a state may end. -/
structure Framed (s : Session) (outcome : Outcome Unit) : Prop where
  forward : s.current ≤ outcome.1.current
  line : outcome.1.line = s.line + newlines (s.passed outcome.1)
  rest : outcome.1 = { s with
    current := outcome.1.current, line := outcome.1.line, tokens := outcome.1.tokens }
  tokens : s.AddsAtMostOne outcome
  inside : s.current < s.source.length → outcome.1.current ≤ s.source.length

/-- Once its characters are consumed, a lexeme changes nothing but the tokens. -/
theorem conclude_rest (s : Session) (form : LexemeForm) :
    (s.conclude form).1 = { s with tokens := (s.conclude form).1.tokens } := by
  cases form with
  | fixed | word | string | blank | comment | unexpected | unterminated => rfl
  | number =>
    rw [conclude, addNumber]
    split <;> rfl

theorem conclude_addsAtMostOne (s : Session) (form : LexemeForm) :
    s.AddsAtMostOne (s.conclude form) := by
  cases form with
  | fixed | word | string => exact .inr ⟨_, rfl⟩
  | blank | comment => exact .inl rfl
  | unexpected | unterminated => rfl
  | number =>
    rw [conclude, addNumber]
    cases Double.read? s.lexeme with
    | some value => exact .inr ⟨_, rfl⟩
    | none => rfl

theorem passed_consume {s : Session} {text rest : Text} (unread : s.unread = text ++ rest)
    (counting : Bool) : s.passed (s.consume counting text) = text := by
  have width : s.current + text.length - s.current = text.length := Nat.add_sub_cancel_left ..
  rw [passed, slice, consume]
  dsimp only
  rw [width, show s.source.drop s.current = text ++ rest from unread, List.take_left]

theorem passed_accept {s : Session} {cut : Cut} (unread : s.unread = cut.taken ++ cut.left) :
    s.passed (s.accept cut).1 = cut.taken := by
  rw [accept, conclude_rest]
  exact passed_consume unread true

theorem line_accept (s : Session) (cut : Cut) :
    (s.accept cut).1.line = s.line + newlines cut.taken := by
  rw [accept, conclude_rest]
  rfl

theorem accept_framed {s : Session} {cut : Cut} (unread : s.unread = cut.taken ++ cut.left) :
    s.Framed (s.accept cut) := by
  have same := conclude_rest (s.consume true cut.taken) cut.form
  constructor
  · rw [accept, same]
    exact Nat.le_add_right ..
  · rw [passed_accept unread, line_accept]
  · rw [accept, same]
    rfl
  · exact conclude_addsAtMostOne (s.consume true cut.taken) cut.form
  · intro inside
    have lengths := congrArg List.length unread
    rw [Session.unread, List.length_drop, List.length_append] at lengths
    rw [accept, same]
    change s.current + cut.taken.length ≤ s.source.length
    omega

/-- Where no character is left, nothing is read. -/
theorem exhausted_framed (s : Session) : s.Framed (s, .error s.exhausted) where
  forward := Nat.le_refl _
  line := by simp [passed, slice, newlines]
  rest := rfl
  tokens := rfl
  inside := Nat.le_of_lt

theorem scanLexeme_framed (s : Session) : s.Framed s.scanLexeme := by
  cases unread : s.unread with
  | nil =>
    rw [scanLexeme_atEnd unread]
    exact s.exhausted_framed
  | cons c rest =>
    rw [scanLexeme_eq unread]
    exact accept_framed (unread.trans (Cut.first_append c rest).symm)

theorem newlines_takeWhile {p : Char → Bool} (h : p '\n' = false) (text : Text) :
    newlines (text.takeWhile p) = 0 := by
  apply newlines_eq_zero_iff.2
  intro member
  have inside := List.mem_takeWhile_imp member
  rw [h] at inside
  cases inside

theorem newlines_number (text : Text) : newlines (Cut.number text).taken = 0 := by
  have split : newlines (Cut.number text).taken = newlines (text.takeWhile (·.isDigit))
      + newlines (Cut.fraction (text.dropWhile (·.isDigit))).1 := List.countP_append
  rw [split, newlines_takeWhile rfl, Nat.zero_add]
  rcases Cut.fraction_cases (text.dropWhile (·.isDigit)) with none | ⟨decimals, digits, some⟩
  · rw [none]
    rfl
  · rw [some]
    apply newlines_eq_zero_iff.2
    intro member
    rcases List.mem_cons.1 member with point | later
    · exact absurd point (by decide)
    · exact absurd (digits.digits _ later) (by decide)

theorem newlines_word (text : Text) : newlines (Cut.word text).taken = 0 := newlines_takeWhile rfl text

theorem newlines_restOfLine (text : Text) : newlines (Cut.restOfLine text).taken = 0 :=
  newlines_takeWhile rfl text

/-- Each reading, from every state, ends as the frame allows: the cursor and the line never go back, the
lines counted are those passed, and nothing else changes but that a completed reading may add a token.
Numbers, words and the rest of a line pass no line end. -/
theorem reading_frame (s : Session) :
    s.Framed s.scanLexeme ∧ s.Framed s.readString ∧
    (s.Framed s.readNumber ∧ s.readNumber.1.line = s.line) ∧
    (s.Framed s.readWord ∧ s.readWord.1.line = s.line) ∧
    s.Framed s.skipLine ∧ s.skipLine.1.line = s.line := by
  rw [readString_eq, readNumber_eq, readWord_eq, skipLine_eq]
  simp only [line_accept, newlines_number, newlines_word, newlines_restOfLine, Nat.add_zero, and_true]
  refine ⟨s.scanLexeme_framed, ?_, ?_, ?_, ?_⟩
  · exact accept_framed (Cut.string_append _).symm
  · exact accept_framed (Cut.number_append _).symm
  · exact accept_framed (Cut.word_append _).symm
  · exact accept_framed (Cut.restOfLine_append _).symm

end ScriptLexer.Session
