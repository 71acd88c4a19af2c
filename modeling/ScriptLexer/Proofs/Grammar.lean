import ScriptLexer.Proofs.Cutting.Lexeme
import ScriptLexer.Proofs.Numeral

/-! The lexical grammar: which texts are lexemes and what each of them stands for. It says nothing of
how lexemes are found; where several rules match the front of a text, the longest match counts. -/
namespace ScriptLexer

/-- What a lexeme stands for: the kind and the literal of a token, or no token at all. -/
abbrev Entry := Option (TokenKind × Option Literal)

/-- The token a lexeme becomes on a line. -/
def Entry.token? (entry : Entry) (lexeme : Text) (line : Nat) : Option Token :=
  entry.map fun (kind, literal) => ⟨kind, lexeme, literal, line⟩

theorem Entry.token?_eq_some {entry : Entry} {lexeme : Text} {line : Nat} {token : Token}
    (h : entry.token? lexeme line = some token) :
    token.lexeme = lexeme ∧ entry = some (token.kind, token.literal) := by
  obtain ⟨⟨kind, literal⟩, rfl, rfl⟩ := Option.map_eq_some_iff.1 h
  exact ⟨rfl, rfl⟩

/-- Punctuation and operators, each written in one way only. -/
def fixedSpellings : List (Text × TokenKind) := [
  (['('], .leftParen), ([')'], .rightParen), (['\x7b'], .leftBrace), (['\x7d'], .rightBrace),
  ([','], .comma), (['.'], .dot), (['-'], .minus), (['+'], .plus), ([';'], .semicolon),
  (['*'], .star), (['!'], .bang), (['!', '='], .bangEqual), (['='], .equal),
  (['=', '='], .equalEqual), (['<'], .less), (['<', '='], .lessEqual), (['>'], .greater),
  (['>', '='], .greaterEqual), (['/'], .slash)]

/-- A letter or an underscore, then any number of those and digits. -/
def isWord : Text → Bool
  | [] => false
  | c :: rest => isLetter c && rest.all isWordChar

inductive Rule : Text → Entry → Prop
  | fixed {text kind} : (text, kind) ∈ fixedSpellings → Rule text (some (kind, none))
  | blank {c} : c ∈ [' ', '\t', '\r', '\n'] → Rule [c] none
  | comment {body} : '\n' ∉ body → Rule ('/' :: '/' :: body) none
  | string {body} : '\x22' ∉ body →
      Rule ('\x22' :: (body ++ ['\x22'])) (some (.string, some (.text body)))
  | number {text n d} : Numeral text n d →
      Rule text (some (.number, some (.number (.ofRatio n d))))
  | reserved {word kind} : (word, kind) ∈ TokenKind.reservedWords → Rule word (some (kind, none))
  | identifier {word} : isWord word → (∀ kind, (word, kind) ∉ TokenKind.reservedWords) →
      Rule word (some (.identifier, none))

/-- The longest lexeme at the front of a text, and what it stands for. -/
structure Longest (text lexeme : Text) (entry : Entry) : Prop where
  rule : Rule lexeme entry
  front : lexeme <+: text
  longest : ∀ {other entry'}, Rule other entry' → other <+: text → other.length ≤ lexeme.length

/-- No lexeme is at the front of the text. -/
def Unmatched (text : Text) : Prop := ∀ lexeme entry, Rule lexeme entry → ¬ lexeme <+: text

theorem isWordChar_of_isLetter {c : Char} (h : isLetter c) : isWordChar c := by
  simp [isWordChar, h]

theorem isWordChar_of_isDigit {c : Char} (h : c.isDigit) : isWordChar c := by
  simp [isWordChar, h]

theorem isDigit_of_isLetter {c : Char} (h : isLetter c) : c.isDigit = false := by
  have table : ∀ c ∈ numeralChars, isLetter c = false := by decide
  apply Bool.eq_false_iff.2
  intro digit
  rw [table c (mem_numeralChars_of_isDigit digit)] at h
  exact absurd h (by decide)

theorem beq_eq_false_of_isWordChar {c d : Char} (h : isWordChar c) (other : isWordChar d = false) :
    (c == d) = false := by
  apply beq_eq_false_iff_ne.2
  rintro rfl
  exact absurd h (by simp [other])

theorem exists_cons_of_isWord {word : Text} (h : isWord word) :
    ∃ c rest, word = c :: rest ∧ isLetter c ∧ ∀ d ∈ word, isWordChar d := by
  cases word with
  | nil => cases h
  | cons c rest =>
    obtain ⟨letter, others⟩ : isLetter c ∧ ∀ d ∈ rest, isWordChar d := by simpa [isWord] using h
    refine ⟨c, rest, rfl, letter, ?_⟩
    intro d member
    rcases List.mem_cons.1 member with rfl | later
    · exact isWordChar_of_isLetter letter
    · exact others d later

theorem mem_of_lookup {α β : Type} [BEq α] [LawfulBEq α] {table : List (α × β)} {key : α} {value : β}
    (h : table.lookup key = some value) : (key, value) ∈ table := by
  obtain ⟨before, after, rfl, -⟩ := List.lookup_eq_some_iff.1 h
  exact List.mem_append_right _ List.mem_cons_self

theorem lookup_eq_none_of_isWordChar {β : Type} {table : List (Char × β)} {c : Char}
    (h : isWordChar c) (others : ∀ entry ∈ table, isWordChar entry.1 = false) :
    table.lookup c = none := by
  apply List.lookup_eq_none_iff.2
  intro entry member
  rw [bne, beq_eq_false_of_isWordChar h (others entry member)]
  rfl

theorem fixedSpellings_cases {text : Text} {kind : TokenKind} (h : (text, kind) ∈ fixedSpellings) :
    (∃ c, text = [c] ∧ TokenKind.symbol? c = some kind) ∨
    (∃ c withEqual, text = [c] ∧ TokenKind.symbol? c = none ∧
      TokenKind.operator? c = some (kind, withEqual)) ∨
    (∃ c alone, text = [c, '='] ∧ TokenKind.symbol? c = none ∧
      TokenKind.operator? c = some (alone, kind)) ∨
    (text = ['/'] ∧ kind = .slash) := by
  simp only [fixedSpellings, List.mem_cons, List.not_mem_nil, or_false, Prod.mk.injEq] at h
  rcases h with ⟨rfl, rfl⟩ | ⟨rfl, rfl⟩ | ⟨rfl, rfl⟩ | ⟨rfl, rfl⟩ | ⟨rfl, rfl⟩ | ⟨rfl, rfl⟩ |
    ⟨rfl, rfl⟩ | ⟨rfl, rfl⟩ | ⟨rfl, rfl⟩ | ⟨rfl, rfl⟩ | ⟨rfl, rfl⟩ | ⟨rfl, rfl⟩ | ⟨rfl, rfl⟩ |
    ⟨rfl, rfl⟩ | ⟨rfl, rfl⟩ | ⟨rfl, rfl⟩ | ⟨rfl, rfl⟩ | ⟨rfl, rfl⟩ | ⟨rfl, rfl⟩
  all_goals first
    | exact .inl ⟨_, rfl, rfl⟩
    | exact .inr (.inl ⟨_, _, rfl, rfl, rfl⟩)
    | exact .inr (.inr (.inl ⟨_, _, rfl, rfl, rfl⟩))
    | exact .inr (.inr (.inr ⟨rfl, rfl⟩))

theorem symbol_fixed {c : Char} {kind : TokenKind} (h : TokenKind.symbol? c = some kind) :
    ([c], kind) ∈ fixedSpellings := by
  have table : ∀ entry ∈ TokenKind.symbols, ([entry.1], entry.2) ∈ fixedSpellings := by decide
  exact table _ (mem_of_lookup h)

theorem operator_fixed {c : Char} {alone withEqual : TokenKind}
    (h : TokenKind.operator? c = some (alone, withEqual)) :
    ([c], alone) ∈ fixedSpellings ∧ ([c, '='], withEqual) ∈ fixedSpellings := by
  have table : ∀ entry ∈ TokenKind.operators,
      ([entry.1], entry.2.1) ∈ fixedSpellings ∧ ([entry.1, '='], entry.2.2) ∈ fixedSpellings := by
    decide
  exact table _ (mem_of_lookup h)

theorem ofWord_reserved {word : Text} {kind : TokenKind}
    (h : (word, kind) ∈ TokenKind.reservedWords) : TokenKind.ofWord word = kind := by
  have table : ∀ entry ∈ TokenKind.reservedWords, TokenKind.ofWord entry.1 = entry.2 := by decide
  exact table _ h

theorem isWord_reserved {word : Text} {kind : TokenKind}
    (h : (word, kind) ∈ TokenKind.reservedWords) : isWord word := by
  have table : ∀ entry ∈ TokenKind.reservedWords, isWord entry.1 := by decide
  exact table _ h

theorem ofWord_identifier {word : Text} (h : ∀ kind, (word, kind) ∉ TokenKind.reservedWords) :
    TokenKind.ofWord word = .identifier := by
  have absent : TokenKind.reserved? word = none := by
    apply List.lookup_eq_none_iff.2
    intro entry member
    have other : word ≠ entry.1 := by
      rintro rfl
      exact h entry.2 member
    simpa using other
  rw [TokenKind.ofWord, absent, Option.getD_none]

theorem Rule.word {word : Text} (h : isWord word) : Rule word (some (.ofWord word, none)) := by
  by_cases listed : ∃ kind, (word, kind) ∈ TokenKind.reservedWords
  · obtain ⟨kind, member⟩ := listed
    rw [ofWord_reserved member]
    exact .reserved member
  · have free := not_exists.1 listed
    rw [ofWord_identifier free]
    exact .identifier h free

theorem Rule.kind_ne_endOfInput {text : Text} {kind : TokenKind} {literal : Option Literal}
    (h : Rule text (some (kind, literal))) : kind ≠ .endOfInput := by
  cases h with
  | fixed member =>
    have table : ∀ entry ∈ fixedSpellings, entry.2 ≠ .endOfInput := by decide
    exact table _ member
  | reserved member =>
    have table : ∀ entry ∈ TokenKind.reservedWords, entry.2 ≠ .endOfInput := by decide
    exact table _ member
  | string | number | identifier => decide

theorem Rule.ne_nil {text : Text} {entry : Entry} (h : Rule text entry) : text ≠ [] := by
  cases h with
  | fixed member =>
    have table : ∀ entry ∈ fixedSpellings, entry.1 ≠ [] := by decide
    exact table _ member
  | reserved member =>
    have table : ∀ entry ∈ TokenKind.reservedWords, entry.1 ≠ [] := by decide
    exact table _ member
  | number numeral =>
    obtain ⟨c, rest, rfl, -⟩ := numeral.exists_cons
    exact List.cons_ne_nil c rest
  | identifier word =>
    rintro rfl
    cases word
  | blank | comment | string => exact List.cons_ne_nil _ _

theorem number_of_rule {text : Text} {literal : Option Literal}
    (rule : Rule text (some (.number, literal))) :
    ∃ n d, Numeral text n d ∧ literal = some (.number (.ofRatio n d)) := by
  cases rule with
  | fixed member =>
    have table : ∀ entry ∈ fixedSpellings, entry.2 ≠ .number := by decide
    exact absurd rfl (table _ member)
  | number numeral => exact ⟨_, _, numeral, rfl⟩
  | reserved member =>
    have table : ∀ entry ∈ TokenKind.reservedWords, entry.2 ≠ .number := by decide
    exact absurd rfl (table _ member)

theorem numeral_of_rule {text : Text} {literal : Option Literal}
    (rule : Rule text (some (.number, literal))) : ∃ n d, Numeral text n d := by
  obtain ⟨n, d, numeral, -⟩ := number_of_rule rule
  exact ⟨n, d, numeral⟩

end ScriptLexer
