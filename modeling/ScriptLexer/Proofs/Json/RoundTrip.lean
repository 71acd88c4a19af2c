import ScriptLexer.Proofs.Json.Reader
import ScriptLexer.Proofs.Json.Rendering

/-! Rendered values are read back, also where names stand for doubles. Whatever the texts in a value hold,
nothing in them ends a string or a level. -/
namespace ScriptLexer

open JsonText

namespace JsonText

/-- The UTF-16 units of a character. -/
def utf16 (c : Char) : List Nat :=
  let code := c.toNat
  if code < 0x10000 then [code]
  else [0xD800 + (code - 0x10000) / 0x400, 0xDC00 + (code - 0x10000) % 0x400]

theorem joinUnits?_char {code : Nat} {c : Char} (h : char? code = some c) (rest : List Nat) :
    joinUnits? (code :: rest) = (joinUnits? rest).map (c :: ·) := by
  -- The code of a character is no unit of a pair.
  have single : isHigh code = false := by
    rw [isHigh, decide_eq_false_iff_not]
    intro high
    have valid : code.isValidChar := by
      by_contra invalid
      rw [char?, if_neg invalid] at h
      cases h
    rcases valid with low | above <;> omega
  cases rest with
  | nil => simp [joinUnits?, h]
  | cons next rest => simp [joinUnits?, single, h]

theorem joinUnits?_utf16 (c : Char) (rest : List Nat) :
    joinUnits? (utf16 c ++ rest) = (joinUnits? rest).map (c :: ·) := by
  have bound := toNat_lt c
  unfold utf16
  dsimp only
  split
  · exact joinUnits?_char (char?_toNat c) rest
  · rename_i wide
    have high : isHigh (0xD800 + (c.toNat - 0x10000) / 0x400) := by
      simp only [isHigh, decide_eq_true_eq]
      omega
    have low : isLow (0xDC00 + (c.toNat - 0x10000) % 0x400) := by
      simp only [isLow, decide_eq_true_eq]
      omega
    have code : pairCode (0xD800 + (c.toNat - 0x10000) / 0x400) (0xDC00 + (c.toNat - 0x10000) % 0x400)
        = c.toNat := by
      unfold pairCode
      omega
    simp [joinUnits?, high, low, code, char?_toNat]

theorem joinUnits?_flatMap (value : Text) : joinUnits? (value.flatMap utf16) = some value := by
  induction value with
  | nil => rfl
  | cons c value ih => rw [List.flatMap_cons, joinUnits?_utf16, ih, Option.map_some]

theorem read?_unitEscape {unit : Nat} (h : unit < 0x10000) (rest : Text) :
    stringSpelling.read? '\x22' (Json.unitEscape unit ++ rest)
      = (stringSpelling.read? '\x22' rest).map (Spelling.prepend [unit]) :=
  Spelling.read?_hex (by decide) rfl rfl (by decide) h rest

theorem read?_unicodeEscape (c : Char) (rest : Text) :
    stringSpelling.read? '\x22' (Json.unicodeEscape c.toNat ++ rest)
      = (stringSpelling.read? '\x22' rest).map (Spelling.prepend (utf16 c)) := by
  have bound := toNat_lt c
  unfold Json.unicodeEscape utf16
  dsimp only
  split
  · rename_i basic
    exact read?_unitEscape basic rest
  · have high : 0xD800 + (c.toNat - 0x10000) / 0x400 < 0x10000 := by omega
    have low : 0xDC00 + (c.toNat - 0x10000) % 0x400 < 0x10000 := by omega
    rw [List.append_assoc, read?_unitEscape high, read?_unitEscape low, Option.map_map]
    rfl

theorem read?_escaped (c : Char) (rest : Text) : stringSpelling.read? '\x22' (Json.escaped c ++ rest)
    = (stringSpelling.read? '\x22' rest).map (Spelling.prepend (utf16 c)) := by
  rcases Json.escaped_cases c with ⟨letter, entry, written⟩ | ⟨printable, quote, backslash, written⟩ | written
  · have table : ∀ entry ∈ Json.shortEscapes, stringSpelling.letters.lookup entry.1 = some entry.2 ∧
        utf16 entry.2 = [entry.2.toNat] := by
      decide
    obtain ⟨known, basic⟩ := table _ entry
    rw [written, basic]
    exact Spelling.read?_letter (by decide) known rest
  · have plain : stringSpelling.plain c := decide_eq_true printable.1
    have basic : utf16 c = [c.toNat] := if_pos (Nat.lt_trans printable.2 (by decide))
    rw [written, basic]
    exact Spelling.read?_plain quote backslash plain rest
  · rw [written]
    exact read?_unicodeEscape c rest

theorem string?_flatMap (value rest : Text) :
    string? (value.flatMap Json.escaped ++ '\x22' :: rest) = some (value, rest) := by
  unfold string?
  rw [Spelling.read?_flatMap read?_escaped]
  simp [joinUnits?_flatMap]

end JsonText

theorem exists_mark_positional (digits : Text) (place : Int) : '.' ∈ Double.positional digits place := by
  unfold Double.positional
  split
  · split
    · simp
    split <;> simp
  · simp

theorem exists_mark_magnitudeText (rank : Nat) : ∃ c ∈ Double.magnitudeText rank, c ∈ doubleMarks := by
  have point : '.' ∈ doubleMarks := by decide
  have power : 'e' ∈ doubleMarks := by decide
  unfold Double.magnitudeText
  split
  · exact ⟨'.', by decide, point⟩
  dsimp only
  split
  · exact ⟨'.', exists_mark_positional _ _, point⟩
  · exact ⟨'e', by simp [Double.scientific, Double.exponentText], power⟩

theorem numberValue?_doubleText {d : Double} (h : d.isFinite) :
    numberValue? (Json.doubleText d) = some (.double d) := by
  cases d with
  | nan => cases h
  | signed negative rank =>
    obtain ⟨c, inside, mark⟩ := exists_mark_magnitudeText rank
    obtain ⟨plain, minus⟩ := Double.read?_magnitudeText rank
    rw [doubleText_signed, if_neg (bne_iff_ne.1 h), numberValue?, if_pos]
    · cases negative with
      | false => exact congrArg (Option.map Json.double) plain
      | true => exact congrArg (Option.map Json.double) minus
    · exact List.any_eq_true.2 ⟨c, List.mem_append_right _ inside, decide_eq_true mark⟩

theorem numberValue?_signedDecimal (n : Int) : numberValue? (signedDecimal n) = some (.integer n) := by
  have unmarked : (signedDecimal n).any (· ∈ doubleMarks) = false := by
    have table : ∀ c ∈ doubleMarks, c.isDigit = false ∧ c ≠ '-' := by decide
    have digits (n : Nat) : ∀ c ∈ decimal n, c ∉ doubleMarks := by
      intro c member mark
      have digit := (digits_decimal n).digits c member
      rw [(table c mark).1] at digit
      cases digit
    rw [List.any_eq_false]
    intro c member
    rw [decide_eq_true_eq]
    cases n with
    | ofNat n => exact digits n c member
    | negSucc n =>
      rcases List.mem_cons.1 member with rfl | member
      · exact fun mark => (table _ mark).2 rfl
      · exact digits (n + 1) c member
  rw [numberValue?, unmarked, integerValue_signedDecimal]
  rfl

theorem value?_number {text : Text} (h : IsNumber text) {value : Json} (read : numberValue? text = some value)
    {rest : Text} (ends : Ends rest) (fuel : Nat) : value? (fuel + 1) (text ++ rest) = some (value, rest) := by
  have table : ∀ c ∈ numberChars, c ∉ blanks ∧ c ≠ '\x22' ∧ c ≠ '[' ∧ c ≠ '\x7b' := by decide
  have number := number?_append h ends
  have inside := h.subset
  cases text with
  | nil => exact absurd (isNumber_of_isNumber h) (by decide)
  | cons c text =>
    obtain ⟨blank, quote, bracket, brace⟩ := table c (inside List.mem_cons_self)
    rw [read, List.cons_append] at number
    rw [List.cons_append, value?, skipBlanks_cons blank]
    simp [quote, bracket, brace, number]

theorem value?_word : ∀ entry ∈ words, ∀ (fuel : Nat) (rest : Text),
    value? (fuel + 1) (entry.1 ++ rest) = some (entry.2, rest) := by
  intro entry member fuel rest
  simp only [words, List.mem_cons, List.not_mem_nil, or_false] at member
  rcases member with rfl | rfl | rfl | rfl <;> rfl

theorem value?_doubleText (d : Double) {rest : Text} (ends : Ends rest) (fuel : Nat) :
    value? (fuel + 1) (Json.doubleText d ++ rest) = some (.double d, rest) := by
  cases finite : d.isFinite with
  | true => exact value?_number (isNumber_doubleText finite) (numberValue?_doubleText finite) ends fuel
  | false =>
    have special := doubleText_mem_specialTexts finite
    have word : (Json.doubleText d, Json.double d) ∈ words :=
      List.mem_cons_of_mem _ (List.mem_map_of_mem (f := Prod.map id Json.double) special)
    exact value?_word _ word fuel rest

theorem ends_cons {c : Char} (h : c ∉ numberChars) (rest : Text) : Ends (c :: rest) := by
  rintro _ ⟨⟩
  exact h

theorem ends_append {gap : Text} (h : ∀ c ∈ gap, c ∈ blanks) {rest : Text} (ends : Ends rest) :
    Ends (gap ++ rest) := by
  have table : ∀ c ∈ blanks, c ∉ numberChars := by decide
  cases gap with
  | nil => exact ends
  | cons c gap => exact ends_cons (table c (h c List.mem_cons_self)) _

/-- The marks that end a level. -/
def closingMarks : Text := [']', '\x7d']

theorem closingMarks_apart : ∀ c ∈ closingMarks, c ∉ blanks ∧ c ∉ numberChars ∧ c ≠ ',' := by decide

theorem skipBlanks_of_afterMark? {mark : Char} {text rest : Text} (h : afterMark? mark text = some rest) :
    skipBlanks text = mark :: rest := by
  unfold afterMark? at h
  split at h
  · cases h
  · rename_i c rest' next
    split at h
    · rename_i same
      rw [next, same, Option.some.inj h]
    · cases h

/-- No value starts where an array ends. -/
theorem value?_of_close {text rest : Text} (next : afterMark? ']' text = some rest) (fuel : Nat) :
    value? fuel text = none := by
  cases fuel with
  | zero => rfl
  | succ fuel =>
    rw [value?, skipBlanks_of_afterMark? next]
    rfl

theorem member?_of_close {text rest : Text} (next : afterMark? '\x7d' text = some rest)
    (read : Text → Option (Json × Text)) : member? read text = none := by
  rw [member?, afterMark?, skipBlanks_of_afterMark? next]
  rfl

section

variable {α : Type} {read : Text → Option (α × Text)} {write : α → Text} {close : Char} {gap : Text}

/-- The text is read as the value, whatever comes after it and does not go on with a number. -/
def Reads (read : Text → Option (α × Text)) (text : Text) (value : α) : Prop :=
  ∀ rest, Ends rest → read (text ++ rest) = some (value, rest)

theorem parts?_joinWith (mark : close ∈ closingMarks) (blank : ∀ c ∈ gap, c ∈ blanks) {parts : List α}
    (some' : parts ≠ [])
    (each : ∀ part ∈ parts, Reads read (write part) part)
    {fuel : Nat} (enough : parts.length ≤ fuel) (rest : Text) :
    parts? read close fuel (joinWith [','] (parts.map write) ++ (gap ++ close :: rest))
      = some (parts, rest) := by
  obtain ⟨visible, apart, other⟩ := closingMarks_apart close mark
  induction parts generalizing fuel with
  | nil => exact absurd rfl some'
  | cons part parts ih =>
    obtain ⟨first, later⟩ := List.forall_mem_cons.1 each
    obtain ⟨fuel, rfl⟩ := Nat.exists_eq_add_of_le' (Nat.le_trans (Nat.le_add_left 1 _) enough)
    cases parts with
    | nil =>
      have last := first _ (ends_append blank (ends_cons apart rest))
      simp [joinWith, parts?, last, afterMark?_append blank visible, other]
    | cons next parts =>
      have comma (rest : Text) : afterMark? ',' (',' :: rest) = some rest :=
        afterMark?_cons (by decide) ',' rest
      have more := ih (by simp) later (Nat.le_of_succ_le_succ enough)
      have this (rest : Text) := first (',' :: rest) (ends_cons (by decide) rest)
      simp only [List.map_cons] at more
      simp [joinWith, parts?, this, comma, more]

theorem group?_joinWith (mark : close ∈ closingMarks) (blank : ∀ c ∈ gap, c ∈ blanks) {parts : List α}
    (each : ∀ part ∈ parts, Reads read (write part) part)
    (silent : ∀ text rest, afterMark? close text = some rest → read text = none)
    {fuel : Nat} (enough : parts.length ≤ fuel) (rest : Text) :
    group? read close fuel (joinWith [','] (parts.map write) ++ (gap ++ close :: rest))
      = some (parts, rest) := by
  unfold group?
  by_cases none : parts = []
  · subst none
    rw [List.map_nil, joinWith, List.nil_append,
      afterMark?_append blank (closingMarks_apart close mark).1, if_pos rfl]
  · have inside := parts?_joinWith mark blank none each enough rest
    split
    · rename_i left closed
      -- Where the level ended at once, there would be no first part to read.
      cases fuel with
      | zero => cases inside
      | succ fuel => simp [parts?, silent _ left closed] at inside
    · exact inside

end

theorem length_le_length_joinWith {separator part : Text} {parts : List Text} (h : part ∈ parts) :
    part.length ≤ (joinWith separator parts).length := by
  induction parts with
  | nil => cases h
  | cons first rest ih =>
    cases rest with
    | nil => rw [List.mem_singleton.1 h, joinWith]
    | cons next rest =>
      rw [joinWith, List.length_append, List.length_append]
      rcases List.mem_cons.1 h with rfl | later
      · omega
      · have inside := ih later
        omega

theorem length_le_length_joinWith_succ (c : Char) (parts : List Text) :
    parts.length ≤ (joinWith [c] parts).length + 1 := by
  induction parts with
  | nil => exact Nat.zero_le _
  | cons first rest ih =>
    cases rest with
    | nil => simp
    | cons next rest =>
      rw [joinWith, List.length_append, List.length_append]
      simp only [List.length_cons, List.length_nil] at ih ⊢
      omega

/-- What a level takes is enough for its parts. -/
theorem exists_fuel {opening closing : Char} {parts : List Text} {gap : Text} {fuel : Nat}
    (enough : (opening :: (joinWith [','] parts ++ (gap ++ [closing]))).length ≤ fuel) :
    ∃ left, fuel = left + 1 ∧ parts.length ≤ left + 1 ∧ ∀ part ∈ parts, part.length ≤ left := by
  have many := length_le_length_joinWith_succ ',' parts
  simp only [List.length_cons, List.length_append, List.length_nil] at enough
  refine ⟨fuel - 1, by omega, by omega, ?_⟩
  intro part inside
  have long : part.length ≤ (joinWith [','] parts).length := length_le_length_joinWith inside
  omega

theorem Reads.item {value : Json} {indent fuel : Nat} (h : Reads (value? fuel) (value.render indent) value) :
    Reads (value? fuel) (Json.item indent value).whole value := by
  intro rest ends
  have line := (Json.lineBlanks indent).blank
  have form : (Json.item indent value).whole ++ rest
      = (Json.lineBlanks indent).text ++ (value.render indent ++ rest) := by
    simp [Json.item, Padded.whole, Json.noBlanks]
  rw [form, value?_append line]
  exact h rest ends

theorem length_render_le_item (value : Json) (indent : Nat) :
    (value.render indent).length ≤ (Json.item indent value).whole.length := by
  simp only [Json.item, Padded.whole, List.length_append]
  omega

theorem length_render_le_member (field : Text × Json) (indent : Nat) :
    (field.2.render indent).length ≤ (Json.member indent field).whole.length := by
  simp only [Json.member, Member.whole, Padded.whole, List.length_append, List.length_cons]
  omega

theorem Reads.member {field : Text × Json} {indent fuel : Nat}
    (h : Reads (value? fuel) (field.2.render indent) field.2) :
    Reads (member? (value? fuel)) (Json.member indent field).whole field := by
  intro rest ends
  have form : (Json.member indent field).whole ++ rest = (Json.lineBlanks indent).text
      ++ '\x22' :: (field.1.flatMap Json.escaped
      ++ '\x22' :: ':' :: (Json.oneBlank.text ++ (field.2.render indent ++ rest))) := by
    simp [Json.member, Member.whole, Padded.whole, Json.noBlanks, Json.oneBlank, Json.stringText]
  have key := afterMark?_append (Json.lineBlanks indent).blank (by decide : '\x22' ∉ blanks) '\x22'
  have colon := afterMark?_cons (by decide : ':' ∉ blanks) ':'
  have value := value?_append Json.oneBlank.blank fuel
  rw [form, member?, key]
  simp [string?_flatMap, colon, value, h rest ends]

theorem reads_render (value : Json) {indent fuel : Nat} (enough : (value.render indent).length ≤ fuel) :
    Reads (value? (fuel + 1)) (value.render indent) value := by
  induction value using Json.induction_on generalizing indent fuel with
  | null => exact fun rest _ => value?_word ("null".toList, .null) (by simp [words]) fuel rest
  | text value =>
    intro rest _
    have read := string?_flatMap value rest
    have form : (Json.text value).render indent ++ rest
        = '\x22' :: (value.flatMap Json.escaped ++ '\x22' :: rest) := by
      simp [Json.render, Json.stringText]
    rw [form, value?, skipBlanks_cons (by decide)]
    simp [read]
  | integer value =>
    intro rest ends
    exact value?_number (isNumber_signedDecimal value) (numberValue?_signedDecimal value) ends fuel
  | double value => exact fun rest ends => value?_doubleText value ends fuel
  | array items ih =>
    intro rest _
    obtain ⟨gap, whole⟩ := Json.exists_render_array indent items
    rw [whole] at enough ⊢
    obtain ⟨fuel, rfl, many, long⟩ := exists_fuel enough
    have each : ∀ value ∈ items, Reads (value? (fuel + 1)) (Json.item (indent + 2) value).whole value := by
      intro value inside
      have short := long _ (List.mem_map_of_mem (List.mem_map_of_mem inside))
      exact (ih value inside (Nat.le_trans (length_render_le_item value _) short)).item
    have closed (text rest) (next : afterMark? ']' text = some rest) : value? (fuel + 1) text = none :=
      value?_of_close next _
    have level := group?_joinWith (by decide) gap.blank each closed (by simpa using many) rest
    have form : arrayText (items.map (Json.item (indent + 2))) gap ++ rest
        = '[' :: (joinWith [','] (items.map fun value => (Json.item (indent + 2) value).whole)
          ++ (gap.text ++ ']' :: rest)) := by
      simp [arrayText, Function.comp_def]
    rw [form, value?, skipBlanks_cons (by decide)]
    simp [level]
  | object fields ih =>
    intro rest _
    obtain ⟨gap, whole⟩ := Json.exists_render_object indent fields
    rw [whole] at enough ⊢
    obtain ⟨fuel, rfl, many, long⟩ := exists_fuel enough
    have each : ∀ field ∈ fields,
        Reads (member? (value? (fuel + 1))) (Json.member (indent + 2) field).whole field := by
      intro field inside
      have short := long _ (List.mem_map_of_mem (List.mem_map_of_mem inside))
      exact (ih field inside (Nat.le_trans (length_render_le_member field _) short)).member
    have closed (text rest) (next : afterMark? '\x7d' text = some rest) :
        member? (value? (fuel + 1)) text = none :=
      member?_of_close next _
    have level := group?_joinWith (by decide) gap.blank each closed (by simpa using many) rest
    have form : objectText (fields.map (Json.member (indent + 2))) gap ++ rest
        = '\x7b' :: (joinWith [','] (fields.map fun field => (Json.member (indent + 2) field).whole)
          ++ (gap.text ++ '\x7d' :: rest)) := by
      simp [objectText, Function.comp_def]
    rw [form, value?, skipBlanks_cons (by decide)]
    simp [level]

/-- A value is read back, with blanks after it or without. -/
theorem read?_render (value : Json) {gap : Text} (blank : ∀ c ∈ gap, c ∈ blanks) :
    read? (value.render 0 ++ gap) = some value := by
  have enough : (value.render 0).length ≤ (value.render 0 ++ gap).length := by simp
  have ends : Ends gap := by
    have nothing : Ends [] := by simp [Ends]
    have whole := ends_append blank nothing
    rwa [List.append_nil] at whole
  have finished : skipBlanks gap = [] := by
    have whole := skipBlanks_append blank []
    rwa [List.append_nil] at whole
  rw [read?, reads_render value enough gap ends]
  simp [finished]

end ScriptLexer
