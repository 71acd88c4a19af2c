import ScriptLexer.Proofs.MaximalMunch

/-! Lexemes next to each other. A lexeme is cut off alone unless it sticks to what follows it, and the
first characters of what follows tell whether it does. The kind of a token determines which first
characters its lexeme may have. -/
namespace ScriptLexer

/-- Identifiers and reserved words. -/
def TokenKind.isWord (kind : TokenKind) : Bool := kind == .identifier || kind.isReserved

/-- How the text after a lexeme may make it longer. -/
inductive Growth where
  | word
  | number
  | operator
  | slash
  | none
  deriving DecidableEq

def TokenKind.growth (kind : TokenKind) : Growth :=
  match kind with
  | .number => .number
  | .bang | .equal | .less | .greater => .operator
  | .slash => .slash
  | _ => if kind.isWord then .word else .none

/-- The characters that a lexeme takes along. -/
def Growth.takes : Growth → Char → Bool
  | word => isWordChar
  | number => (·.isDigit)
  | operator => (· == '=')
  | slash => (· == '/')
  | none => fun _ => false

/-- The kinds of lexemes that start with such a character. -/
def Growth.joins : Growth → TokenKind → Bool
  | word => fun kind => kind.isWord || kind == .number
  | number => (· == .number)
  | operator => fun kind => kind == .equal || kind == .equalEqual
  | slash => (· == .slash)
  | none => fun _ => false

theorem takes_blank (growth : Growth) : ∀ c ∈ [' ', '\t', '\r', '\n'], growth.takes c = false := by
  cases growth <;> decide

def startsFraction : Text → Bool
  | '.' :: digit :: _ => digit.isDigit
  | _ => false

/-- A lexeme sticks to the text after it if it takes along the next character, or if it is a number
without a point and a fraction follows. -/
def sticks (kind : TokenKind) (lexeme after : Text) : Bool :=
  after.head?.any kind.growth.takes
    || (kind == .number && !lexeme.contains '.' && startsFraction after)

theorem TokenKind.growth_eq_number_iff {kind : TokenKind} : kind.growth = .number ↔ kind = .number := by
  cases kind <;> decide

theorem sticks_of_growth {kind : TokenKind} {growth : Growth} (h : kind.growth = growth)
    (other : growth ≠ .number) (lexeme after : Text) :
    sticks kind lexeme after = after.head?.any growth.takes := by
  have differs : (kind == .number) = false := by
    apply beq_eq_false_iff_ne.2
    intro same
    rw [← h] at other
    exact other (TokenKind.growth_eq_number_iff.2 same)
  rw [sticks, h, differs, Bool.false_and, Bool.false_and, Bool.or_false]

theorem takeWhile_eq_nil_iff {p : Char → Bool} {text : Text} :
    text.takeWhile p = [] ↔ text.head?.any p = false := by
  cases text with
  | nil => exact ⟨fun _ => rfl, fun _ => rfl⟩
  | cons c rest => cases inside : p c <;> simp [inside]

theorem fraction_eq_nil_iff {text : Text} :
    (Cut.fraction text).1 = [] ↔ startsFraction text = false := by
  unfold Cut.fraction
  split
  · rename_i digit rest
    change _ ↔ digit.isDigit = false
    cases follows : digit.isDigit <;> simp
  · rename_i other
    unfold startsFraction
    split
    · exact absurd rfl (other _ _)
    · exact ⟨fun _ => rfl, fun _ => rfl⟩

theorem word_taken_iff {word : Text} (h : isWord word) (after : Text) :
    (Cut.word (word ++ after)).taken = word ↔ after.head?.any isWordChar = false := by
  rw [Cut.word_taken h, List.append_right_eq_self]
  exact takeWhile_eq_nil_iff

theorem number_taken_nil_iff {text : Text} :
    (Cut.number text).taken = [] ↔ (text.head?.any (·.isDigit) || startsFraction text) = false := by
  rw [Cut.number, List.append_eq_nil_iff, takeWhile_eq_nil_iff, Bool.or_eq_false_iff,
    ← fraction_eq_nil_iff]
  apply and_congr_right
  intro head
  have whole := List.takeWhile_append_dropWhile (p := (·.isDigit)) (l := text)
  rw [takeWhile_eq_nil_iff.2 head, List.nil_append] at whole
  rw [whole]

theorem number_taken_iff {text : Text} {n d : Nat} (h : Numeral text n d) (after : Text) :
    (Cut.number (text ++ after)).taken = text ↔ sticks .number text after = false := by
  cases h with
  | whole digits =>
    have free : text.contains '.' = false := by
      apply Bool.eq_false_iff.2
      intro member
      have digit := digits.digits '.' (List.contains_iff_mem.1 member)
      exact absurd digit (by decide)
    rw [Cut.number_whole digits, List.append_right_eq_self, number_taken_nil_iff, sticks, free]
    exact Iff.rfl
  | @fraction whole decimals left right =>
    have point : (whole ++ '.' :: decimals).contains '.' = true := by simp
    rw [Cut.number_fraction left right, List.append_right_eq_self, takeWhile_eq_nil_iff, sticks, point,
      Bool.not_true, Bool.and_false, Bool.false_and, Bool.or_false]
    exact Iff.rfl

theorem operator_taken_iff (alone withEqual : TokenKind) (after : Text) :
    (Cut.operator alone withEqual after).taken = [] ↔ after.head?.any (· == '=') = false := by
  cases after with
  | nil => exact ⟨fun _ => rfl, fun _ => rfl⟩
  | cons c rest =>
    by_cases same : c = '='
    · simp [same, Cut.operator]
    · rw [Cut.operator_other (by simpa using same)]
      simpa using same

theorem slash_taken_iff (after : Text) :
    (Cut.slash after).taken = [] ↔ after.head?.any (· == '/') = false := by
  cases after with
  | nil => exact ⟨fun _ => rfl, fun _ => rfl⟩
  | cons c rest =>
    by_cases same : c = '/'
    · simp [same, Cut.slash, Cut.cons]
    · rw [Cut.slash_other (by simpa using same)]
      simpa using same

theorem fixed_taken_iff {text after : Text} {kind : TokenKind} {c : Char} {rest : Text}
    (h : (text, kind) ∈ fixedSpellings) (split : c :: rest = text ++ after) :
    (Cut.first c rest).taken = text ↔ sticks kind text after = false := by
  have symbols : ∀ entry ∈ TokenKind.symbols, entry.2.growth = .none := by decide
  have operators : ∀ entry ∈ TokenKind.operators,
      entry.2.1.growth = .operator ∧ entry.2.2.growth = .none := by decide
  rcases fixedSpellings_cases h with ⟨c', rfl, symbol⟩ | ⟨c', other, rfl, none, operator⟩ |
    ⟨c', other, rfl, none, operator⟩ | ⟨rfl, rfl⟩
  · obtain ⟨rfl, rfl⟩ := List.cons.inj split
    rw [sticks_of_growth (symbols _ (mem_of_lookup symbol)) (by decide), Cut.first,
      Cut.following_symbol symbol]
    simp [Cut.cons, Growth.takes]
  · obtain ⟨rfl, rfl⟩ := List.cons.inj split
    rw [sticks_of_growth (operators _ (mem_of_lookup operator)).1 (by decide), Cut.first,
      Cut.following_operator none operator]
    exact (List.cons_inj_right c).trans (operator_taken_iff kind other _)
  · obtain ⟨rfl, rfl⟩ := List.cons.inj split
    rw [sticks_of_growth (operators _ (mem_of_lookup operator)).2 (by decide), Cut.first,
      Cut.following_operator none operator]
    simp [Cut.cons, Cut.operator, Growth.takes]
  · obtain ⟨rfl, rfl⟩ := List.cons.inj split
    rw [sticks_of_growth rfl (by decide)]
    exact (List.cons_inj_right '/').trans (slash_taken_iff _)

/-- A lexeme before other text is cut off alone exactly when it does not stick to that text. -/
theorem first_taken_iff {lexeme after : Text} {kind : TokenKind} {literal : Option Literal} {c : Char}
    {rest : Text} (rule : Rule lexeme (some (kind, literal))) (split : c :: rest = lexeme ++ after) :
    (Cut.first c rest).taken = lexeme ↔ sticks kind lexeme after = false := by
  cases rule with
  | fixed member => exact fixed_taken_iff member split
  | string free =>
    obtain ⟨rfl, rfl⟩ := List.cons.inj split
    have plain : TokenKind.string.growth = .none := rfl
    rw [List.append_eq, List.append_assoc, List.singleton_append, Cut.first_string free,
      sticks_of_growth plain (by decide)]
    simp [Growth.takes]
  | number numeral =>
    rw [Cut.first_numeral numeral split]
    exact number_taken_iff numeral after
  | reserved member =>
    have table : ∀ entry ∈ TokenKind.reservedWords, entry.2.growth = .word := by decide
    rw [sticks_of_growth (table _ member) (by decide), Cut.first_word (isWord_reserved member) split]
    exact word_taken_iff (isWord_reserved member) after
  | identifier isWord =>
    rw [sticks_of_growth rfl (by decide), Cut.first_word isWord split]
    exact word_taken_iff isWord after

/-- The kind of a token tells whether its lexeme starts in a class of characters, if it does so for
the fixed spellings and reserved words and the class takes quotes, digits and letters all or none. -/
theorem Rule.head?_any {p : Char → Bool} {q : TokenKind → Bool}
    (fixed : ∀ entry ∈ fixedSpellings, entry.1.head?.any p = q entry.2)
    (reserved : ∀ entry ∈ TokenKind.reservedWords, entry.1.head?.any p = q entry.2)
    (string : p '\x22' = q .string) (number : ∀ c, c.isDigit → p c = q .number)
    (identifier : ∀ c, isLetter c → p c = q .identifier) {lexeme : Text} {kind : TokenKind}
    {literal : Option Literal} (rule : Rule lexeme (some (kind, literal))) :
    lexeme.head?.any p = q kind := by
  cases rule with
  | fixed member => exact fixed _ member
  | string => exact string
  | number numeral =>
    obtain ⟨c, rest, rfl, digit⟩ := numeral.exists_cons
    exact number c digit
  | reserved member => exact reserved _ member
  | identifier word =>
    obtain ⟨c, rest, rfl, letter, -⟩ := exists_cons_of_isWord word
    exact identifier c letter

variable {lexeme : Text} {kind : TokenKind} {literal : Option Literal}

theorem Rule.head?_beq (rule : Rule lexeme (some (kind, literal))) (c : Char) {q : TokenKind → Bool}
    (other : isWordChar c = false) (unlisted : q .number = false ∧ q .identifier = false)
    (fixed : ∀ entry ∈ fixedSpellings, entry.1.head?.any (· == c) = q entry.2)
    (reserved : ∀ entry ∈ TokenKind.reservedWords, entry.1.head?.any (· == c) = q entry.2)
    (string : ('\x22' == c) = q .string) : lexeme.head?.any (· == c) = q kind := by
  apply rule.head?_any fixed reserved string
  · intro d digit
    rw [unlisted.1]
    exact beq_eq_false_of_isWordChar (isWordChar_of_isDigit digit) other
  · intro d letter
    rw [unlisted.2]
    exact beq_eq_false_of_isWordChar (isWordChar_of_isLetter letter) other

theorem Rule.head?_takes (rule : Rule lexeme (some (kind, literal))) (growth : Growth) :
    lexeme.head?.any growth.takes = growth.joins kind := by
  cases growth with
  | word =>
    apply rule.head?_any (by decide) (by decide) rfl
    · intro c digit
      simp [Growth.takes, Growth.joins, isWordChar, digit]
    · intro c letter
      simp [Growth.takes, Growth.joins, isWordChar, letter, TokenKind.isWord]
  | number =>
    apply rule.head?_any (by decide) (by decide) rfl
    · intro c digit
      exact digit
    · intro c letter
      exact isDigit_of_isLetter letter
  | operator => exact rule.head?_beq '=' rfl ⟨rfl, rfl⟩ (by decide) (by decide) rfl
  | slash => exact rule.head?_beq '/' rfl ⟨rfl, rfl⟩ (by decide) (by decide) rfl
  | none => exact Option.any_false

theorem Rule.head?_point (rule : Rule lexeme (some (kind, literal))) :
    lexeme.head?.any (· == '.') = (kind == .dot) :=
  rule.head?_beq '.' (q := (· == .dot)) rfl ⟨rfl, rfl⟩ (by decide) (by decide) rfl

theorem Rule.eq_point (rule : Rule lexeme (some (.dot, literal))) : lexeme = ['.'] := by
  cases rule with
  | fixed member =>
    have table : ∀ entry ∈ fixedSpellings, entry.2 = .dot → entry.1 = ['.'] := by decide
    exact table _ member rfl
  | reserved member =>
    have table : ∀ entry ∈ TokenKind.reservedWords, entry.2 ≠ .dot := by decide
    exact absurd rfl (table _ member)

end ScriptLexer
