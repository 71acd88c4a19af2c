import ScriptLexer.Proofs.Grammar

/-! Cutting the first lexeme of a text finds the longest lexeme the grammar has there. A cut that is no
fault takes a lexeme of the grammar, and every lexeme at the front of the text is the front of what
the cut takes. -/
namespace ScriptLexer

/-- An unexpected character and an unterminated string are no lexemes. -/
def LexemeForm.isFault : LexemeForm → Bool
  | unexpected _ | unterminated => true
  | _ => false

def LexemeForm.entry (form : LexemeForm) (text : Text) : Entry :=
  (form.tokenKind? text).map fun kind => (kind, form.literal? text)

theorem Numeral.entry {text : Text} {n d : Nat} (h : Numeral text n d) :
    LexemeForm.number.entry text = some (.number, some (.number (.ofRatio n d))) := by
  simp [LexemeForm.entry, LexemeForm.tokenKind?, LexemeForm.literal?, Double.ofNumeral_eq h]

namespace Cut

def isFault (cut : Cut) : Bool := cut.form.isFault

def entry (cut : Cut) : Entry := cut.form.entry cut.taken

theorem following_symbol {c : Char} {kind : TokenKind} (h : TokenKind.symbol? c = some kind)
    (rest : Text) : following c rest = ⟨.fixed kind, [], rest⟩ := by
  simp only [following, h]

theorem following_operator {c : Char} {alone withEqual : TokenKind}
    (none : TokenKind.symbol? c = none) (h : TokenKind.operator? c = some (alone, withEqual))
    (rest : Text) : following c rest = operator alone withEqual rest := by
  simp only [following, none, h]

theorem following_wordChar {c : Char} (h : isWordChar c) (rest : Text) :
    following c rest = if c.isDigit then number rest else word rest := by
  have symbol : TokenKind.symbol? c = none := lookup_eq_none_of_isWordChar h (by decide)
  have operator : TokenKind.operator? c = none := lookup_eq_none_of_isWordChar h (by decide)
  have differs {d : Char} : isWordChar d = false → (c == d) = false := beq_eq_false_of_isWordChar h
  have blank : isBlank c = false := by
    rw [isBlank, differs rfl, differs rfl, differs rfl]
    rfl
  have newline : isNewline c = false := differs rfl
  have slash : (c == '/') = false := differs rfl
  have quote : (c == '\x22') = false := differs rfl
  simp only [following, symbol, operator, blank, newline, slash, quote]
  cases digit : c.isDigit with
  | true => rfl
  | false =>
    have letter : isLetter c = true := by simpa [isWordChar, digit] using h
    simp [letter]

theorem cons_number {c : Char} (h : c.isDigit) (rest : Text) :
    (number rest).cons c = number (c :: rest) := by
  simp [h, number, cons]

theorem cons_word {c : Char} (h : isLetter c) (rest : Text) : (word rest).cons c = word (c :: rest) := by
  simp [word, cons, isWordChar_of_isLetter h]

theorem first_digit {c : Char} (h : c.isDigit) (rest : Text) : first c rest = number (c :: rest) := by
  rw [first, following_wordChar (isWordChar_of_isDigit h), if_pos h, cons_number h]

theorem first_letter {c : Char} (h : isLetter c) (rest : Text) : first c rest = word (c :: rest) := by
  rw [first, following_wordChar (isWordChar_of_isLetter h), isDigit_of_isLetter h,
    if_neg (by decide), cons_word h]

theorem operator_other {text : Text} (h : text.head? ≠ some '=') (alone withEqual : TokenKind) :
    operator alone withEqual text = ⟨.fixed alone, [], text⟩ := by
  unfold operator
  split
  · exact absurd rfl h
  · rfl

theorem slash_other {text : Text} (h : text.head? ≠ some '/') :
    slash text = ⟨.fixed .slash, [], text⟩ := by
  unfold slash
  split
  · exact absurd rfl h
  · rfl

theorem digits_takeWhile {c : Char} (h : c.isDigit) (rest : Text) :
    Digits ((c :: rest).takeWhile (·.isDigit)) :=
  ⟨by simp [h], fun _ => List.mem_takeWhile_imp⟩

theorem fraction_cases (text : Text) :
    (fraction text).1 = [] ∨ ∃ decimals, Digits decimals ∧ (fraction text).1 = '.' :: decimals := by
  unfold fraction
  split
  · rename_i digit rest
    split
    · rename_i h
      refine .inr ⟨_, digits_takeWhile h rest, ?_⟩
      rw [List.takeWhile_cons_of_pos h]
    · exact .inl rfl
  · exact .inl rfl

theorem number_rule {c : Char} (h : c.isDigit) (rest : Text) :
    Rule (number (c :: rest)).taken (number (c :: rest)).entry := by
  have whole := digits_takeWhile h rest
  suffices ∃ n d, Numeral (number (c :: rest)).taken n d by
    obtain ⟨n, d, numeral⟩ := this
    have rule := Rule.number numeral
    rwa [← numeral.entry] at rule
  rcases fraction_cases ((c :: rest).dropWhile (·.isDigit)) with none | ⟨decimals, digits, some⟩
  · simp only [number, none, List.append_nil]
    exact ⟨_, _, .whole whole⟩
  · simp only [number, some]
    exact ⟨_, _, .fraction whole digits⟩

theorem word_rule {c : Char} (h : isLetter c) (rest : Text) :
    Rule (word (c :: rest)).taken (word (c :: rest)).entry := by
  apply Rule.word
  simp [word, isWordChar, isWord, h]

theorem operator_rule {c : Char} {alone withEqual : TokenKind}
    (h : TokenKind.operator? c = some (alone, withEqual)) (rest : Text) :
    Rule ((operator alone withEqual rest).cons c).taken
      ((operator alone withEqual rest).cons c).entry := by
  have spelled := operator_fixed h
  unfold operator
  split
  · exact .fixed spelled.2
  · exact .fixed spelled.1

theorem slash_rule (rest : Text) : Rule ((slash rest).cons '/').taken ((slash rest).cons '/').entry := by
  have spelled : (['/'], .slash) ∈ fixedSpellings := by decide
  unfold slash
  split
  · apply Rule.comment
    intro member
    have inside := List.mem_takeWhile_imp member
    exact absurd inside (by decide)
  · exact .fixed spelled

theorem bne_quote {body : Text} (h : '\x22' ∉ body) : ∀ c ∈ body, (c != '\x22') = true := by
  intro c member
  exact bne_iff_ne.2 (ne_of_mem_of_not_mem member h)

theorem string_cases (text : Text) :
    (∃ body left, '\x22' ∉ body ∧ text = body ++ '\x22' :: left ∧
      string text = ⟨.string, body ++ ['\x22'], left⟩) ∨
    ('\x22' ∉ text ∧ string text = ⟨.unterminated, text, []⟩) := by
  have body : '\x22' ∉ text.takeWhile (· != '\x22') := by
    intro member
    exact absurd (List.mem_takeWhile_imp member) (by decide)
  have whole := List.takeWhile_append_dropWhile (p := (· != '\x22')) (l := text)
  unfold string
  split
  · rename_i quote left ahead
    have closing : quote = '\x22' := by
      have stopped := List.head?_dropWhile_not (· != '\x22') text
      rw [ahead] at stopped
      simpa using stopped
    rw [ahead, closing] at whole
    rw [closing]
    exact .inl ⟨_, left, body, whole.symm, rfl⟩
  · rename_i none
    rw [none, List.append_nil] at whole
    rw [whole] at body
    exact .inr ⟨body, rfl⟩

theorem entry_string (body : Text) :
    LexemeForm.string.entry ('\x22' :: (body ++ ['\x22'])) = some (.string, some (.text body)) := by
  simp [LexemeForm.entry, LexemeForm.tokenKind?, LexemeForm.literal?, inner]

theorem string_rule (rest : Text) (h : ((string rest).cons '\x22').isFault = false) :
    Rule ((string rest).cons '\x22').taken ((string rest).cons '\x22').entry := by
  rcases string_cases rest with ⟨body, left, free, -, closed⟩ | ⟨-, unclosed⟩
  · rw [closed]
    have rule := Rule.string free
    rwa [← entry_string body] at rule
  · rw [unclosed] at h
    cases h

theorem first_rule (c : Char) (rest : Text) :
    (first c rest).isFault = false → Rule (first c rest).taken (first c rest).entry := by
  unfold first following
  split
  · rename_i symbol
    intro _
    exact .fixed (symbol_fixed symbol)
  split
  · rename_i operator
    intro _
    exact operator_rule operator rest
  split
  · rename_i slash
    rw [beq_iff_eq] at slash
    rw [slash]
    intro _
    exact slash_rule rest
  split
  · rename_i blank
    intro _
    apply Rule.blank
    simpa [isBlank, isNewline, or_comm, or_assoc, or_left_comm] using blank
  split
  · rename_i quote
    rw [beq_iff_eq] at quote
    rw [quote]
    exact string_rule rest
  split
  · rename_i digit
    rw [cons_number digit]
    intro _
    exact number_rule digit rest
  split
  · rename_i letter
    rw [cons_word letter]
    intro _
    exact word_rule letter rest
  · intro fault
    exact absurd fault.symm Bool.false_ne_true

/-- The faults: a quote that nothing closes takes the whole text, any other character only itself. -/
theorem first_fault {c : Char} {rest : Text} : (first c rest).isFault = true →
    (c = '\x22' ∧ '\x22' ∉ rest ∧ first c rest = ⟨.unterminated, c :: rest, []⟩) ∨
    (c ≠ '\x22' ∧ isNewline c = false ∧ first c rest = ⟨.unexpected c, [c], rest⟩) := by
  unfold first following
  split
  · intro fault
    exact absurd fault Bool.false_ne_true
  split
  · unfold operator
    split <;> exact fun fault => absurd fault Bool.false_ne_true
  split
  · unfold slash
    split <;> exact fun fault => absurd fault Bool.false_ne_true
  split
  · intro fault
    exact absurd fault Bool.false_ne_true
  split
  · rename_i quote
    rcases string_cases rest with ⟨body, left, free, -, closed⟩ | ⟨free, unclosed⟩
    · rw [closed]
      intro fault
      exact absurd fault Bool.false_ne_true
    · rw [unclosed]
      intro _
      exact .inl ⟨beq_iff_eq.1 quote, free, rfl⟩
  split
  · intro fault
    exact absurd fault Bool.false_ne_true
  split
  · intro fault
    exact absurd fault Bool.false_ne_true
  · rename_i blank quote _ _
    simp only [Bool.or_eq_true, not_or, Bool.not_eq_true] at blank
    intro _
    exact .inr ⟨by simpa using quote, blank.2, rfl⟩

/-- A cut that is no fault, starts with the lexeme, and stands for the same if it takes no more. -/
structure Extends (cut : Cut) (lexeme : Text) (entry : Entry) : Prop where
  found : cut.isFault = false
  front : lexeme <+: cut.taken
  same : cut.taken = lexeme → cut.entry = entry

theorem extends_fixed {text : Text} {kind : TokenKind} (h : (text, kind) ∈ fixedSpellings)
    {c : Char} {rest : Text} (front : text <+: c :: rest) :
    (first c rest).Extends text (some (kind, none)) := by
  rcases fixedSpellings_cases h with ⟨c', rfl, symbol⟩ | ⟨c', other, rfl, none, operator'⟩ |
    ⟨c', other, rfl, none, operator'⟩ | ⟨rfl, rfl⟩
  · obtain ⟨rfl, -⟩ := List.cons_prefix_cons.1 front
    rw [first, following_symbol symbol]
    exact ⟨rfl, List.prefix_rfl, fun _ => rfl⟩
  · obtain ⟨rfl, -⟩ := List.cons_prefix_cons.1 front
    rw [first, following_operator none operator']
    unfold operator
    split
    · exact ⟨rfl, ⟨['='], rfl⟩, fun same => absurd same (by simp [cons])⟩
    · exact ⟨rfl, List.prefix_rfl, fun _ => rfl⟩
  · obtain ⟨rfl, ⟨more, rfl⟩⟩ := List.cons_prefix_cons.1 front
    rw [first, following_operator none operator']
    exact ⟨rfl, List.prefix_rfl, fun _ => rfl⟩
  · obtain ⟨rfl, -⟩ := List.cons_prefix_cons.1 front
    have after : following '/' rest = slash rest := rfl
    rw [first, after]
    unfold slash
    split
    · exact ⟨rfl, ⟨_, rfl⟩, fun same => absurd same (by simp [cons])⟩
    · exact ⟨rfl, List.prefix_rfl, fun _ => rfl⟩

theorem first_blank {c : Char} (h : c ∈ [' ', '\t', '\r', '\n']) (rest : Text) :
    first c rest = ⟨.blank, [c], rest⟩ := by
  simp only [List.mem_cons, List.not_mem_nil, or_false] at h
  rcases h with rfl | rfl | rfl | rfl <;> rfl

theorem extends_blank {c : Char} (h : c ∈ [' ', '\t', '\r', '\n']) (rest : Text) :
    (first c rest).Extends [c] none := by
  rw [first_blank h]
  exact ⟨rfl, List.prefix_rfl, fun _ => rfl⟩

theorem first_slash_slash (rest : Text) :
    first '/' ('/' :: rest) = ((restOfLine rest).cons '/').cons '/' := rfl

theorem extends_comment {body more : Text} (h : '\n' ∉ body) :
    (first '/' ('/' :: (body ++ more))).Extends ('/' :: '/' :: body) none := by
  have inside : ∀ c ∈ body, !isNewline c := by
    intro c member
    have other : c ≠ '\n' := ne_of_mem_of_not_mem member h
    simpa [isNewline] using other
  rw [first_slash_slash]
  refine ⟨rfl, ?_, fun _ => rfl⟩
  simp [cons, restOfLine, List.takeWhile_append_of_pos inside]

theorem first_string {body : Text} (h : '\x22' ∉ body) (more : Text) :
    first '\x22' (body ++ '\x22' :: more) = ⟨.string, '\x22' :: (body ++ ['\x22']), more⟩ := by
  have opening : first '\x22' (body ++ '\x22' :: more) = (string (body ++ '\x22' :: more)).cons '\x22' := rfl
  have cut : string (body ++ '\x22' :: more) = ⟨.string, body ++ ['\x22'], more⟩ := by
    simp [string, List.takeWhile_append_of_pos (bne_quote h),
      List.dropWhile_append_of_pos (bne_quote h)]
  rw [opening, cut]
  rfl

theorem extends_string {body : Text} (h : '\x22' ∉ body) (more : Text) :
    (first '\x22' (body ++ '\x22' :: more)).Extends ('\x22' :: (body ++ ['\x22']))
      (some (.string, some (.text body))) := by
  rw [first_string h]
  exact ⟨rfl, List.prefix_rfl, fun _ => entry_string body⟩

theorem fraction_digits {decimals : Text} (h : Digits decimals) (more : Text) :
    (fraction ('.' :: (decimals ++ more))).1 = '.' :: (decimals ++ more.takeWhile (·.isDigit)) := by
  obtain ⟨digit, rest, rfl⟩ := List.exists_cons_of_ne_nil h.nonempty
  have later : ∀ c ∈ rest, c.isDigit := by
    intro c member
    exact h.digits c (List.mem_cons_of_mem _ member)
  simp [fraction, h.head, List.takeWhile_append_of_pos later]

theorem number_whole {digits : Text} (h : Digits digits) (more : Text) :
    (number (digits ++ more)).taken = digits ++ (number more).taken := by
  simp only [number, List.takeWhile_append_of_pos h.digits, List.dropWhile_append_of_pos h.digits,
    List.append_assoc]

theorem number_fraction {whole decimals : Text} (left : Digits whole) (right : Digits decimals)
    (more : Text) : (number (whole ++ '.' :: decimals ++ more)).taken
      = whole ++ '.' :: decimals ++ more.takeWhile (·.isDigit) := by
  have taken : (number ('.' :: (decimals ++ more))).taken
      = '.' :: (decimals ++ more.takeWhile (·.isDigit)) := fraction_digits right more
  rw [List.append_assoc, List.cons_append, number_whole left, taken, List.append_assoc,
    List.cons_append]

theorem number_front {text : Text} {n d : Nat} (h : Numeral text n d) (more : Text) :
    text <+: (number (text ++ more)).taken := by
  cases h with
  | whole digits =>
    rw [number_whole digits]
    exact List.prefix_append ..
  | fraction left right =>
    rw [number_fraction left right]
    exact List.prefix_append ..

theorem first_numeral {text more : Text} {n d : Nat} (h : Numeral text n d) {c : Char} {rest : Text}
    (split : c :: rest = text ++ more) : first c rest = number (text ++ more) := by
  obtain ⟨c', later, rfl, digit⟩ := h.exists_cons
  obtain ⟨rfl, -⟩ := List.cons.inj split
  rw [first_digit digit, split]

theorem extends_number {text : Text} {n d : Nat} (h : Numeral text n d) {c : Char} {rest : Text}
    (front : text <+: c :: rest) :
    (first c rest).Extends text (some (.number, some (.number (.ofRatio n d)))) := by
  obtain ⟨more, whole⟩ := front
  rw [first_numeral h whole.symm]
  refine ⟨rfl, number_front h more, ?_⟩
  intro same
  rw [← h.entry, entry, same]
  rfl

theorem first_word {text more : Text} (h : isWord text) {c : Char} {rest : Text}
    (split : c :: rest = text ++ more) : first c rest = word (text ++ more) := by
  obtain ⟨c', later, rfl, letter, -⟩ := exists_cons_of_isWord h
  obtain ⟨rfl, -⟩ := List.cons.inj split
  rw [first_letter letter, split]

theorem word_taken {text : Text} (h : isWord text) (more : Text) :
    (word (text ++ more)).taken = text ++ more.takeWhile isWordChar := by
  obtain ⟨c, rest, -, -, inside⟩ := exists_cons_of_isWord h
  exact List.takeWhile_append_of_pos inside

theorem extends_word {text : Text} (h : isWord text) {c : Char} {rest : Text}
    (front : text <+: c :: rest) : (first c rest).Extends text (some (.ofWord text, none)) := by
  obtain ⟨more, whole⟩ := front
  rw [first_word h whole.symm]
  refine ⟨rfl, ?_, ?_⟩
  · rw [word_taken h]
    exact List.prefix_append ..
  · intro same
    rw [entry, same]
    rfl

theorem first_extends {lexeme : Text} {entry : Entry} (rule : Rule lexeme entry) {c : Char}
    {rest : Text} (front : lexeme <+: c :: rest) : (first c rest).Extends lexeme entry := by
  cases rule with
  | fixed member => exact extends_fixed member front
  | blank member =>
    obtain ⟨rfl, -⟩ := List.cons_prefix_cons.1 front
    exact extends_blank member rest
  | comment free =>
    obtain ⟨more, whole⟩ := front
    obtain ⟨rfl, rfl⟩ := List.cons.inj whole
    exact extends_comment free
  | string free =>
    obtain ⟨more, whole⟩ := front
    obtain ⟨rfl, rfl⟩ := List.cons.inj whole
    have extended := Cut.extends_string free more
    simpa only [List.append_eq, List.append_assoc, List.singleton_append] using extended
  | number numeral => exact extends_number numeral front
  | reserved member =>
    rw [← ofWord_reserved member]
    exact extends_word (isWord_reserved member) front
  | identifier isWord free =>
    rw [← ofWord_identifier free]
    exact extends_word isWord front

end Cut

theorem longest_first {c : Char} {rest : Text} (found : (Cut.first c rest).isFault = false) :
    Longest (c :: rest) (Cut.first c rest).taken (Cut.first c rest).entry where
  rule := Cut.first_rule c rest found
  front := ⟨_, Cut.first_append c rest⟩
  longest rule front := (Cut.first_extends rule front).front.length_le

theorem Longest.eq_first {c : Char} {rest lexeme : Text} {entry : Entry}
    (h : Longest (c :: rest) lexeme entry) :
    lexeme = (Cut.first c rest).taken ∧ entry = (Cut.first c rest).entry := by
  -- Both are longest, so neither is longer than the other.
  have extended := Cut.first_extends h.rule h.front
  have whole := longest_first extended.found
  have same : lexeme = (Cut.first c rest).taken :=
    extended.front.eq_of_length_le (h.longest whole.rule whole.front)
  exact ⟨same, (extended.same same.symm).symm⟩

theorem unmatched_iff {c : Char} {rest : Text} :
    Unmatched (c :: rest) ↔ (Cut.first c rest).isFault = true := by
  constructor
  · intro none
    by_contra found
    have whole := longest_first (Bool.eq_false_iff.2 found)
    exact none _ _ whole.rule whole.front
  · intro fault lexeme entry rule front
    have found := (Cut.first_extends rule front).found
    rw [fault] at found
    cases found

end ScriptLexer
