import ScriptLexer.Proofs.Numeral

/-! The texts that are JSON: words, numbers, strings, and arrays and objects of these, with blanks between
them. No letter of a name other than the three words stands outside the strings. -/
namespace ScriptLexer.JsonText

structure Blanks where
  text : Text
  blank : ∀ c ∈ text, c ∈ [' ', '\t', '\n', '\r']

/-- A text with the blanks around it. -/
structure Padded where
  before : Blanks
  text : Text
  after : Blanks

def Padded.whole (padded : Padded) : Text := padded.before.text ++ (padded.text ++ padded.after.text)

structure Member where
  key : Padded
  value : Padded

def Member.whole (member : Member) : Text := member.key.whole ++ ':' :: member.value.whole

/-- The blanks make up an array without items; after the last item they are but more blanks. -/
def arrayText (items : List Padded) (blanks : Blanks) : Text :=
  '[' :: (joinWith [','] (items.map Padded.whole) ++ (blanks.text ++ [']']))

def objectText (members : List Member) (blanks : Blanks) : Text :=
  '\x7b' :: (joinWith [','] (members.map Member.whole) ++ (blanks.text ++ ['\x7d']))

def hexDigits : Text := "0123456789abcdefABCDEF".toList

/-- A character of a string, or an escape for one. -/
inductive IsStringPart : Text → Prop
  | plain {c : Char} : 0x20 ≤ c.toNat → c ≠ '\x22' → c ≠ '\\' → IsStringPart [c]
  | escape {c} : c ∈ ['\x22', '\\', '/', 'b', 'f', 'n', 'r', 't'] → IsStringPart ['\\', c]
  | unit {digits : Text} : digits.length = 4 → (∀ c ∈ digits, c ∈ hexDigits) →
      IsStringPart ('\\' :: 'u' :: digits)

inductive IsString : Text → Prop
  | quoted {parts : List Text} : (∀ part ∈ parts, IsStringPart part) →
      IsString ('\x22' :: (parts.flatten ++ ['\x22']))

/-- Digits, of which the first is zero only if it is the only one. -/
inductive IsWhole : Text → Prop
  | zero : IsWhole ['0']
  | digits {text} : Digits text → text.head? ≠ some '0' → IsWhole text

inductive IsFraction : Text → Prop
  | none : IsFraction []
  | point {digits} : Digits digits → IsFraction ('.' :: digits)

inductive IsExponent : Text → Prop
  | none : IsExponent []
  | mark {mark sign digits} : mark ∈ ['e', 'E'] → sign ∈ [[], ['+'], ['-']] → Digits digits →
      IsExponent (mark :: (sign ++ digits))

inductive IsMagnitude : Text → Prop
  | parts {whole fraction exponent} : IsWhole whole → IsFraction fraction → IsExponent exponent →
      IsMagnitude (whole ++ (fraction ++ exponent))

inductive IsNumber : Text → Prop
  | plain {text} : IsMagnitude text → IsNumber text
  | minus {text} : IsMagnitude text → IsNumber ('-' :: text)

inductive IsValue : Text → Prop
  | word {text} : text ∈ ["null".toList, "true".toList, "false".toList] → IsValue text
  | number {text} : IsNumber text → IsValue text
  | string {text} : IsString text → IsValue text
  | array {items : List Padded} {blanks} : (∀ item ∈ items, IsValue item.text) →
      IsValue (arrayText items blanks)
  | object {members : List Member} {blanks} : (∀ member ∈ members, IsString member.key.text) →
      (∀ member ∈ members, IsValue member.value.text) → IsValue (objectText members blanks)

inductive IsDocument : Text → Prop
  | padded {padded : Padded} : IsValue padded.text → IsDocument padded.whole

theorem IsWhole.isMagnitude {text : Text} (h : IsWhole text) : IsMagnitude text := by
  have magnitude := IsMagnitude.parts h .none .none
  rwa [List.append_nil, List.append_nil] at magnitude

theorem IsWhole.isMagnitude_point {whole decimals : Text} (h : IsWhole whole) (h' : Digits decimals) :
    IsMagnitude (whole ++ '.' :: decimals) := by
  have magnitude := IsMagnitude.parts h (.point h') .none
  rwa [List.append_nil] at magnitude

/-- The characters outside the strings of a text, read from outside or from within a string. -/
def outside : (within : Bool) → Text → Text
  | _, [] => []
  | false, c :: rest => if c = '\x22' then outside true rest else c :: outside false rest
  | true, '\\' :: _ :: rest => outside true rest
  | true, c :: rest => outside (c != '\x22') rest

theorem outside_free {text : Text} (free : '\x22' ∉ text) (rest : Text) :
    outside false (text ++ rest) = text ++ outside false rest := by
  induction text with
  | nil => rfl
  | cons c text ih =>
    obtain ⟨other, free⟩ := not_or.1 (List.mem_cons.not.1 free)
    rw [List.cons_append, outside, if_neg (Ne.symm other), ih free]
    rfl

theorem outside_plain {c : Char} (quote : c ≠ '\x22') (backslash : c ≠ '\\') (rest : Text) :
    outside true (c :: rest) = outside true rest := by
  have going : (c != '\x22') = true := bne_iff_ne.2 quote
  simp [outside, backslash, going]

theorem outside_hexDigits {digits : Text} (hex : ∀ c ∈ digits, c ∈ hexDigits) (rest : Text) :
    outside true (digits ++ rest) = outside true rest := by
  induction digits with
  | nil => rfl
  | cons c digits ih =>
    obtain ⟨first, later⟩ := List.forall_mem_cons.1 hex
    have table : ∀ c ∈ hexDigits, c ≠ '\x22' ∧ c ≠ '\\' := by decide
    obtain ⟨quote, backslash⟩ := table c first
    rw [List.cons_append, outside_plain quote backslash, ih later]

theorem IsStringPart.outside_eq {part : Text} (h : IsStringPart part) (rest : Text) :
    outside true (part ++ rest) = outside true rest := by
  cases h with
  | plain _ quote backslash => exact outside_plain quote backslash rest
  | escape => rfl
  | unit _ hex => exact outside_hexDigits hex rest

theorem IsString.outside_eq {text : Text} (h : IsString text) (rest : Text) :
    outside false (text ++ rest) = outside false rest := by
  obtain ⟨parts⟩ := h
  rename_i list
  rw [List.cons_append, outside, if_pos rfl, List.append_assoc]
  induction list with
  | nil => rfl
  | cons part list ih =>
    obtain ⟨first, later⟩ := List.forall_mem_cons.1 parts
    rw [List.flatten_cons, List.append_assoc, first.outside_eq, ih later]

/-- Whether a letter that starts the name of a value without digits stands outside the strings. -/
def Names (text : Text) (named : Prop) : Prop :=
  ∃ bare, (∀ rest, outside false (text ++ rest) = bare ++ outside false rest) ∧
    ((∃ c ∈ bare, c ∈ ['I', 'N']) ↔ named)

namespace Names

theorem unique {text : Text} {named named' : Prop} (h : Names text named) (h' : Names text named') :
    named ↔ named' := by
  obtain ⟨bare, seen, letter⟩ := h
  obtain ⟨bare', seen', letter'⟩ := h'
  have same : bare = bare' := by simpa [outside] using (seen []).symm.trans (seen' [])
  rw [← letter, ← letter', same]

theorem congr {text : Text} {named named' : Prop} (h : Names text named) (same : named ↔ named') :
    Names text named' := by
  obtain ⟨bare, seen, letter⟩ := h
  exact ⟨bare, seen, letter.trans same⟩

theorem append {text text' : Text} {named named' : Prop} (h : Names text named)
    (h' : Names text' named') : Names (text ++ text') (named ∨ named') := by
  obtain ⟨bare, seen, letter⟩ := h
  obtain ⟨bare', seen', letter'⟩ := h'
  refine ⟨bare ++ bare', ?_, ?_⟩
  · intro rest
    rw [List.append_assoc, seen, seen', List.append_assoc]
  · rw [← letter, ← letter']
    simp only [List.mem_append, or_and_right, exists_or]

theorem of_free {text : Text} (free : '\x22' ∉ text) : Names text (∃ c ∈ text, c ∈ ['I', 'N']) :=
  ⟨text, outside_free free, Iff.rfl⟩

theorem silent {text : Text} (free : ∀ c ∈ text, c ∉ ['\x22', 'I', 'N']) : Names text False := by
  have quoteless : '\x22' ∉ text := fun member => free _ member List.mem_cons_self
  refine (of_free quoteless).congr ⟨?_, False.elim⟩
  rintro ⟨c, member, letter⟩
  exact free c member (List.mem_cons_of_mem _ letter)

theorem loud {text : Text} (free : '\x22' ∉ text) {c : Char} (inside : c ∈ text)
    (letter : c ∈ ['I', 'N']) : Names text True :=
  (of_free free).congr (iff_true_intro ⟨c, inside, letter⟩)

theorem string {text : Text} (h : IsString text) : Names text False :=
  ⟨[], h.outside_eq, by simp⟩

theorem blanks (blanks : Blanks) : Names blanks.text False := by
  apply silent
  intro c member
  have table : ∀ c ∈ [' ', '\t', '\n', '\r'], c ∉ ['\x22', 'I', 'N'] := by decide
  exact table c (blanks.blank c member)

theorem padded {padded : Padded} {named : Prop} (h : Names padded.text named) :
    Names padded.whole named :=
  ((blanks padded.before).append (h.append (blanks padded.after))).congr (by simp)

section

variable {α : Type} {parts : List α} {named : α → Prop}

theorem joined {text : α → Text} (h : ∀ part ∈ parts, Names (text part) (named part)) :
    Names (joinWith [','] (parts.map text)) (∃ part ∈ parts, named part) := by
  have nothing : Names [] False := silent (by decide)
  have comma : Names [','] False := silent (by decide)
  induction parts with
  | nil => exact nothing.congr (by simp)
  | cons part rest ih =>
    obtain ⟨first, later⟩ := List.forall_mem_cons.1 h
    cases rest with
    | nil => exact first.congr (by simp)
    | cons next rest => exact ((first.append comma).append (ih later)).congr (by simp)

theorem array {item : α → Padded} (h : ∀ part ∈ parts, Names (item part).text (named part))
    (blanks' : Blanks) : Names (arrayText (parts.map item) blanks') (∃ part ∈ parts, named part) := by
  have opening : Names ['['] False := silent (by decide)
  have closing : Names [']'] False := silent (by decide)
  have inside := joined fun part member => (h part member).padded
  rw [arrayText, List.map_map]
  exact (opening.append (inside.append ((blanks blanks').append closing))).congr (by simp)

theorem object {member : α → Member} (keys : ∀ part ∈ parts, IsString (member part).key.text)
    (h : ∀ part ∈ parts, Names (member part).value.text (named part)) (blanks' : Blanks) :
    Names (objectText (parts.map member) blanks') (∃ part ∈ parts, named part) := by
  have opening : Names ['\x7b'] False := silent (by decide)
  have closing : Names ['\x7d'] False := silent (by decide)
  have colon : Names [':'] False := silent (by decide)
  have inside : ∀ part ∈ parts, Names (member part).whole (named part) := by
    intro part member
    have key := (string (keys part member)).padded
    exact (key.append (colon.append (h part member).padded)).congr (by simp)
  rw [objectText, List.map_map]
  exact (opening.append ((joined inside).append ((blanks blanks').append closing))).congr (by simp)

end

end Names

def numberChars : Text := "0123456789.+-eE".toList

theorem subset_of_digits {digits : Text} (h : Digits digits) : digits ⊆ numberChars := by
  have table : ∀ c ∈ numeralChars, c ∈ numberChars := by decide
  exact fun c member => table c (mem_numeralChars_of_isDigit (h.digits c member))

theorem IsWhole.subset {text : Text} (h : IsWhole text) : text ⊆ numberChars := by
  cases h with
  | zero => decide
  | digits digits => exact subset_of_digits digits

theorem IsFraction.subset {text : Text} (h : IsFraction text) : text ⊆ numberChars := by
  cases h with
  | none => exact List.nil_subset _
  | point digits => exact List.cons_subset.2 ⟨by decide, subset_of_digits digits⟩

theorem IsExponent.subset {text : Text} (h : IsExponent text) : text ⊆ numberChars := by
  cases h with
  | none => exact List.nil_subset _
  | @mark mark sign _ marked signed digits =>
    have marks : ∀ mark ∈ ['e', 'E'], mark ∈ numberChars := by decide
    have signs : ∀ sign ∈ [[], ['+'], ['-']], sign ⊆ numberChars := by decide
    exact List.cons_subset.2 ⟨marks mark marked,
      List.append_subset.2 ⟨signs sign signed, subset_of_digits digits⟩⟩

theorem IsMagnitude.subset {text : Text} (h : IsMagnitude text) : text ⊆ numberChars := by
  obtain ⟨whole, fraction, exponent⟩ := h
  simp only [List.append_subset]
  exact ⟨whole.subset, fraction.subset, exponent.subset⟩

theorem IsNumber.subset {text : Text} (h : IsNumber text) : text ⊆ numberChars := by
  cases h with
  | plain magnitude => exact magnitude.subset
  | minus magnitude => exact List.cons_subset.2 ⟨by decide, magnitude.subset⟩

theorem IsValue.names {text : Text} (h : IsValue text) : Names text False := by
  induction h with
  | word member =>
    have table : ∀ text ∈ ["null".toList, "true".toList, "false".toList],
        ∀ c ∈ text, c ∉ ['\x22', 'I', 'N'] := by decide
    exact .silent (table _ member)
  | number number =>
    have table : ∀ c ∈ numberChars, c ∉ ['\x22', 'I', 'N'] := by decide
    exact .silent fun c member => table c (number.subset member)
  | string string => exact .string string
  | @array items blanks _ ih =>
    rw [← List.map_id items]
    exact (Names.array ih blanks).congr (by simp)
  | @object members blanks keys _ ih =>
    rw [← List.map_id members]
    exact (Names.object keys ih blanks).congr (by simp)

theorem IsDocument.names {text : Text} (h : IsDocument text) : Names text False := by
  obtain ⟨value⟩ := h
  exact value.names.padded

end ScriptLexer.JsonText
