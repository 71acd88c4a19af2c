import ScriptLexer.Proofs.Session.Reading

/-! One lexeme of a session, read with the mark at the cursor. It is the longest one that the grammar
has there, and it leaves behind what the grammar says it stands for; where the grammar has none,
the reading stops at a fault. -/
namespace ScriptLexer.Session

theorem lexeme_consume {s : Session} {text rest : Text} (marked : s.start = s.current)
    (unread : s.unread = text ++ rest) (counting : Bool) :
    (s.consume counting text).lexeme = text := by
  have width : s.current + text.length - s.current = text.length := by omega
  rw [lexeme, slice, consume]
  dsimp only
  rw [marked, width, show s.source.drop s.current = text ++ rest from unread, List.take_left]

theorem innerText_eq {s : Session} (inside : s.current ≤ s.source.length) :
    s.innerText = inner s.lexeme := by
  have within : (s.source.drop (s.start + 1)).length = s.source.length - (s.start + 1) :=
    List.length_drop
  rw [innerText, lexeme, slice, slice, inner, List.dropLast_eq_take, ← List.drop_one, List.drop_take,
    List.drop_drop, List.take_take, List.length_take, within]
  congr 1
  omega

/-- What an entry of the grammar leaves behind: the cursor past the lexeme, its lines counted, and its
token added on the line of the mark. -/
def withEntry (s : Session) (lexeme : Text) (entry : Entry) : Session :=
  { s.consume true lexeme with
    tokens := s.tokens ++ (entry.token? lexeme s.startLine).toArray }

theorem accept_first {s : Session} {c : Char} {rest : Text} (marked : s.start = s.current)
    (unread : s.unread = c :: rest) (found : (Cut.first c rest).isFault = false) :
    s.accept (Cut.first c rest)
      = (s.withEntry (Cut.first c rest).taken (Cut.first c rest).entry, .ok ()) := by
  have rule := Cut.first_rule c rest found
  have split := unread.trans (Cut.first_append c rest).symm
  have lexeme := lexeme_consume marked split true
  have inside : (s.consume true (Cut.first c rest).taken).current ≤ s.source.length := by
    have lengths := congrArg List.length split
    simp only [Session.unread, List.length_drop, List.length_append] at lengths
    have started := congrArg List.length unread
    simp only [Session.unread, List.length_drop, List.length_cons] at started
    simp only [consume]
    omega
  unfold accept withEntry
  revert rule found
  rw [Cut.entry, Cut.isFault]
  cases (Cut.first c rest).form with
  | fixed kind =>
    intro _ _
    simp only [conclude, addToken, lexeme]
    rfl
  | word =>
    intro _ _
    simp only [conclude, addToken, lexeme]
    rfl
  | number =>
    intro _ rule
    obtain ⟨n, d, numeral⟩ := numeral_of_rule rule
    simp only [conclude, addNumber, addToken, lexeme, Double.read?_eq numeral, numeral.entry]
    rfl
  | string =>
    intro _ _
    simp only [conclude, addToken, innerText_eq inside, lexeme]
    rfl
  | blank | comment => exact fun _ _ => rfl
  | unexpected | unterminated =>
    intro fault _
    cases fault

/-- The session reads the longest lexeme at its cursor, which is the only such lexeme, and what it
stands for. -/
def ReadsLongest (s : Session) : Prop :=
  ∃ lexeme entry, Longest s.unread lexeme entry ∧
    (∀ other entry', Longest s.unread other entry' → other = lexeme ∧ entry' = entry) ∧
    s.scanLexeme = (s.withEntry lexeme entry, .ok ())

/-- The session reads a quote and on to the end of the source, where the string is unterminated. -/
def FindsUnterminated (s : Session) : Prop :=
  let finished := s.consume true s.unread
  s.unread.head? = some '\x22' ∧ finished.current = s.source.length ∧
    ∃ d, s.scanLexeme = (finished, .error (.fault d)) ∧
      d.code = some "L002".toList ∧ d.message = "Unterminated string.".toList ∧
      d.location = finished.location s.source.length ∧ d = Fault.unterminated.diagnostic d.location

/-- The session reads one character, and it is unexpected. -/
def FindsUnexpected (s : Session) : Prop :=
  ∃ c, s.unread.head? = some c ∧ c ≠ '\x22' ∧
    ∃ d, s.scanLexeme = ({ s with current := s.current + 1 }, .error (.fault d)) ∧
      d.code = some "L001".toList ∧ d.message = "Unexpected character: ".toList ++ [c] ∧
      d.location = s.location s.current ∧ d = (Fault.unexpected c).diagnostic d.location

/-- Maximal munch: with the mark at the cursor, the lexeme read is the longest match of the grammar
with what the grammar says it stands for. Where nothing matches, no token is added and a fault stops
the reading. -/
theorem scanLexeme_longest (s : Session) (marked : s.start = s.current)
    (inside : s.current < s.source.length) :
    s.ReadsLongest ∨ Unmatched s.unread ∧ (s.FindsUnterminated ∨ s.FindsUnexpected) := by
  obtain ⟨c, rest, unread⟩ := exists_unread inside
  have read := scanLexeme_eq unread
  cases fault : (Cut.first c rest).isFault with
  | false =>
    refine .inl ⟨_, _, ?_, ?_, read.trans (accept_first marked unread fault)⟩
    · rw [unread]
      exact longest_first fault
    · intro other entry' longest
      rw [unread] at longest
      exact longest.eq_first
  | true =>
    have unmatched := unmatched_iff.2 fault
    rw [← unread] at unmatched
    refine .inr ⟨unmatched, ?_⟩
    rcases Cut.first_fault fault with ⟨quote, free, cut⟩ | ⟨other, line, cut⟩
    · have finish : (s.consume true s.unread).current = s.source.length := by
        simp only [consume, Session.unread, List.length_drop]
        omega
      have stops : s.scanLexeme = (s.consume true s.unread, .error (.fault
          (Fault.unterminated.diagnostic ((s.consume true s.unread).location s.source.length)))) := by
        rw [read, accept, cut, ← unread, ← finish]
        rfl
      exact .inl ⟨by rw [unread, quote]; rfl, finish, _, stops, rfl, rfl, rfl, rfl⟩
    · have noLine := s.consume_of_no_newline [c] (by simpa using line) false
      have stops : s.scanLexeme = ({ s with current := s.current + 1 }, .error (.fault
          ((Fault.unexpected c).diagnostic (s.location s.current)))) := by
        rw [read, accept, cut, ← noLine]
        change (s.consume false [c], _) = _
        rw [show (s.consume false [c]).start = s.current from marked]
        rfl
      exact .inr ⟨c, by rw [unread]; rfl, other, _, stops, rfl, rfl, rfl, rfl⟩

theorem scanLexeme_longest_fraction :
    let s : Session := { source := "x=1.5.y".toList, file := [], start := 2, current := 2 }
    s.start = s.current ∧ s.current < s.source.length ∧
      (s.ReadsLongest ∨ Unmatched s.unread ∧ (s.FindsUnterminated ∨ s.FindsUnexpected)) :=
  ⟨rfl, by decide, scanLexeme_longest _ rfl (by decide)⟩

end ScriptLexer.Session
