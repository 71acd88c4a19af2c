import ScriptLexer.Json
import ScriptLexer.Proofs.Json.Number
import ScriptLexer.Proofs.Text.StringReader

/-! Rendered values are ASCII, and JSON exactly when all their doubles are finite: infinities and the value that
is no number are written as names, and JSON has no such names. -/
namespace ScriptLexer

open JsonText

/-- Letters after a backslash, and the characters that they stand for. -/
def Json.shortEscapes : List (Char × Char) := [('\x22', '\x22'), ('\\', '\\'), ('n', '\n'), ('r', '\r'),
  ('t', '\t'), ('b', '\x08'), ('f', '\x0c')]

/-- A character is written with a letter, as itself, or by its units. -/
theorem Json.escaped_cases (c : Char) :
    (∃ letter, (letter, c) ∈ Json.shortEscapes ∧ Json.escaped c = ['\\', letter]) ∨
    ((0x20 ≤ c.toNat ∧ c.toNat < 0x7F) ∧ c ≠ '\x22' ∧ c ≠ '\\' ∧ Json.escaped c = [c]) ∨
    Json.escaped c = Json.unicodeEscape c.toNat := by
  unfold Json.escaped
  split
  · subst c
    exact .inl ⟨'\x22', by decide, rfl⟩
  rename_i quote
  split
  · subst c
    exact .inl ⟨'\\', by decide, rfl⟩
  rename_i backslash
  split
  · subst c
    exact .inl ⟨'n', by decide, rfl⟩
  split
  · subst c
    exact .inl ⟨'r', by decide, rfl⟩
  split
  · subst c
    exact .inl ⟨'t', by decide, rfl⟩
  split
  · subst c
    exact .inl ⟨'b', by decide, rfl⟩
  split
  · subst c
    exact .inl ⟨'f', by decide, rfl⟩
  split
  · rename_i printable
    exact .inr (.inl ⟨printable, quote, backslash, rfl⟩)
  · exact .inr (.inr rfl)

theorem isStringPart_unitEscape {unit : Nat} (h : unit < 0x10000) :
    IsStringPart (Json.unitEscape unit) := by
  have table : ∀ n < 16, n.digitChar ∈ hexDigits := by decide
  have four : (hex 4 unit).length = 4 := length_hex (by decide) h
  exact .unit four (forall_mem_hex table 4 unit)

/-- Texts that may stand between the quotes of a string. -/
def IsStringBody (text : Text) : Prop :=
  ∃ parts : List Text, (∀ part ∈ parts, IsStringPart part) ∧ text = parts.flatten

theorem IsStringBody.part {text : Text} (h : IsStringPart text) : IsStringBody text :=
  ⟨[text], by simpa using h, by simp⟩

theorem IsStringBody.append {text text' : Text} (h : IsStringBody text) (h' : IsStringBody text') :
    IsStringBody (text ++ text') := by
  obtain ⟨parts, each, rfl⟩ := h
  obtain ⟨parts', each', rfl⟩ := h'
  exact ⟨parts ++ parts', List.forall_mem_append.2 ⟨each, each'⟩, by simp⟩

theorem isStringBody_unicodeEscape {code : Nat} (h : code < 0x110000) :
    IsStringBody (Json.unicodeEscape code) := by
  unfold Json.unicodeEscape
  split
  · rename_i basic
    exact .part (isStringPart_unitEscape basic)
  · have high : 0xD800 + (code - 0x10000) / 0x400 < 0x10000 := by omega
    have low : 0xDC00 + (code - 0x10000) % 0x400 < 0x10000 := by omega
    exact .append (.part (isStringPart_unitEscape high)) (.part (isStringPart_unitEscape low))

theorem isStringBody_escaped (c : Char) : IsStringBody (Json.escaped c) := by
  rcases Json.escaped_cases c with ⟨letter, entry, written⟩ | ⟨printable, quote, backslash, written⟩ | written
  · have table : ∀ entry ∈ Json.shortEscapes, entry.1 ∈ ['\x22', '\\', '/', 'b', 'f', 'n', 'r', 't'] := by
      decide
    rw [written]
    exact .part (.escape (table _ entry))
  · rw [written]
    exact .part (.plain printable.1 quote backslash)
  · rw [written]
    exact isStringBody_unicodeEscape (toNat_lt c)

theorem isStringBody_flatMap_escaped (text : Text) : IsStringBody (text.flatMap Json.escaped) := by
  induction text with
  | nil => exact ⟨[], by simp, rfl⟩
  | cons c rest ih => exact (isStringBody_escaped c).append ih

theorem isString_stringText (text : Text) : IsString (Json.stringText text) := by
  obtain ⟨parts, each, body⟩ := isStringBody_flatMap_escaped text
  rw [Json.stringText, body]
  exact .quoted each

def Double.isFinite : Double → Bool
  | .nan => false
  | .signed _ rank => rank.val != infinityRank

theorem doubleText_signed (negative : Bool) (rank : Fin (infinityRank + 1)) :
    Json.doubleText (.signed negative rank) = (if negative then ['-'] else [])
      ++ if rank.val = infinityRank then "Infinity".toList else Double.magnitudeText rank := rfl

theorem isNumber_doubleText {d : Double} (h : d.isFinite) : IsNumber (Json.doubleText d) := by
  cases d with
  | nan => cases h
  | signed negative rank =>
    have magnitude := Double.isMagnitude_magnitudeText rank
    rw [doubleText_signed, if_neg (bne_iff_ne.1 h)]
    cases negative with
    | false => exact .plain magnitude
    | true => exact .minus magnitude

/-- The names of the doubles that no number denotes. -/
def specialTexts : List (Text × Double) := [
  ("NaN".toList, .nan),
  ("Infinity".toList, .infinity),
  ("-Infinity".toList, .signed true (Fin.last infinityRank))]

theorem doubleText_mem_specialTexts {d : Double} (h : d.isFinite = false) :
    (Json.doubleText d, d) ∈ specialTexts := by
  cases d with
  | nan => exact List.mem_cons_self
  | signed negative rank =>
    have infinite : rank.val = infinityRank := by simpa [Double.isFinite] using h
    have last : rank = Fin.last infinityRank := Fin.ext infinite
    rw [last]
    cases negative with
    | false => exact List.mem_cons_of_mem _ List.mem_cons_self
    | true => exact List.mem_cons_of_mem _ (List.mem_cons_of_mem _ List.mem_cons_self)

theorem names_doubleText {d : Double} (h : d.isFinite = false) : Names (Json.doubleText d) True := by
  have table : ∀ entry ∈ specialTexts, '\x22' ∉ entry.1 ∧ ('I' ∈ entry.1 ∨ 'N' ∈ entry.1) := by decide
  obtain ⟨free, infinity | nan⟩ := table _ (doubleText_mem_specialTexts h)
  · exact .loud free infinity (by decide)
  · exact .loud free nan (by decide)

namespace Json

def lineBlanks (indent : Nat) : Blanks where
  text := lineBreak indent
  blank := by
    have newline : '\n' ∈ [' ', '\t', '\n', '\r'] := by decide
    have space : ' ' ∈ [' ', '\t', '\n', '\r'] := by decide
    intro c member
    rcases List.mem_cons.1 member with rfl | member
    · exact newline
    · rwa [List.eq_of_mem_replicate member]

def noBlanks : Blanks := ⟨[], by simp⟩

def oneBlank : Blanks := ⟨[' '], by simp⟩

/-- An item on a line of its own. -/
def item (indent : Nat) (value : Json) : Padded := ⟨lineBlanks indent, value.render indent, noBlanks⟩

def member (indent : Nat) (field : Text × Json) : Member where
  key := ⟨lineBlanks indent, stringText field.1, noBlanks⟩
  value := ⟨oneBlank, field.2.render indent, noBlanks⟩

theorem joinWith_cons (separator part : Text) (rest : List Text) :
    joinWith separator (part :: rest) = part ++ rest.flatMap (separator ++ ·) := by
  induction rest generalizing part with
  | nil => simp [joinWith]
  | cons next rest ih => simp [joinWith, ih]

theorem renderItems_eq (indent : Nat) (rest : List Json) :
    renderItems indent rest = (rest.map (render indent)).flatMap ((',' :: lineBreak indent) ++ ·) := by
  induction rest with
  | nil => rfl
  | cons value rest ih => simp [renderItems, ih]

theorem renderFields_eq (indent : Nat) (rest : List (Text × Json)) : renderFields indent rest
    = (rest.map (renderField indent)).flatMap ((',' :: lineBreak indent) ++ ·) := by
  induction rest with
  | nil => rfl
  | cons field rest ih => simp [renderFields, ih]

theorem render_array_cons (indent : Nat) (first : Json) (rest : List Json) :
    (array (first :: rest)).render indent = '[' :: lineBreak (indent + 2)
      ++ joinWith (',' :: lineBreak (indent + 2)) ((first :: rest).map (render (indent + 2)))
      ++ lineBreak indent ++ [']'] := by
  rw [render, renderItems_eq, List.map_cons, joinWith_cons]
  simp

theorem render_object_cons (indent : Nat) (first : Text × Json) (rest : List (Text × Json)) :
    (object (first :: rest)).render indent = '\x7b' :: lineBreak (indent + 2)
      ++ joinWith (',' :: lineBreak (indent + 2)) ((first :: rest).map (renderField (indent + 2)))
      ++ lineBreak indent ++ ['\x7d'] := by
  rw [render, renderFields_eq, List.map_cons, joinWith_cons]
  simp

theorem renderField_eq (indent : Nat) (field : Text × Json) :
    lineBreak indent ++ renderField indent field = (member indent field).whole := by
  obtain ⟨key, value⟩ := field
  rw [renderField]
  simp [member, Member.whole, Padded.whole, lineBlanks, noBlanks, oneBlank]

theorem exists_render_array (indent : Nat) (items : List Json) :
    ∃ blanks, (array items).render indent = arrayText (items.map (item (indent + 2))) blanks := by
  cases items with
  | nil => exact ⟨noBlanks, rfl⟩
  | cons first rest =>
    refine ⟨lineBlanks indent, ?_⟩
    rw [render_array_cons, arrayText, List.map_cons, List.map_cons, List.map_cons, joinWith_cons, joinWith_cons]
    simp [item, Padded.whole, lineBlanks, noBlanks, List.flatMap_map]

theorem exists_render_object (indent : Nat) (fields : List (Text × Json)) :
    ∃ blanks, (object fields).render indent = objectText (fields.map (member (indent + 2))) blanks := by
  cases fields with
  | nil => exact ⟨noBlanks, rfl⟩
  | cons first rest =>
    refine ⟨lineBlanks indent, ?_⟩
    rw [render_object_cons, objectText, List.map_cons, List.map_cons, List.map_cons, joinWith_cons,
      joinWith_cons]
    simp [← renderField_eq, lineBlanks, List.flatMap_map]

/-- All doubles in the value are finite. -/
inductive Finite : Json → Prop
  | null : Finite .null
  | text {value} : Finite (.text value)
  | integer {value} : Finite (.integer value)
  | double {value : Double} : value.isFinite → Finite (.double value)
  | array {items : List Json} : (∀ item ∈ items, Finite item) → Finite (.array items)
  | object {fields : List (Text × Json)} : (∀ field ∈ fields, Finite field.2) →
      Finite (.object fields)

theorem finite_double {value : Double} : (double value).Finite ↔ value.isFinite :=
  ⟨fun | .double finite => finite, .double⟩

theorem finite_array {items : List Json} : (array items).Finite ↔ ∀ item ∈ items, item.Finite :=
  ⟨fun | .array each => each, .array⟩

theorem finite_object {fields : List (Text × Json)} :
    (object fields).Finite ↔ ∀ field ∈ fields, field.2.Finite :=
  ⟨fun | .object each => each, .object⟩

theorem Finite.isValue_render {value : Json} (h : value.Finite) (indent : Nat) :
    IsValue (value.render indent) := by
  induction h generalizing indent with
  | null =>
    have word : "null".toList ∈ ["null".toList, "true".toList, "false".toList] := by decide
    exact .word word
  | text => exact .string (isString_stringText _)
  | integer => exact .number (isNumber_signedDecimal _)
  | double finite => exact .number (isNumber_doubleText finite)
  | @array items _ ih =>
    obtain ⟨blanks, whole⟩ := exists_render_array indent items
    rw [whole]
    exact .array (List.forall_mem_map.2 fun value inside => ih value inside (indent + 2))
  | @object fields _ ih =>
    obtain ⟨blanks, whole⟩ := exists_render_object indent fields
    rw [whole]
    refine .object (List.forall_mem_map.2 fun field _ => isString_stringText field.1) ?_
    exact List.forall_mem_map.2 fun field inside => ih field inside (indent + 2)

/-- Induction from the items and the fields of a value to the value. -/
@[elab_as_elim]
theorem induction_on {motive : Json → Prop} (null : motive .null) (text : ∀ value, motive (.text value))
    (integer : ∀ value, motive (.integer value)) (double : ∀ value, motive (.double value))
    (array : ∀ items : List Json, (∀ item ∈ items, motive item) → motive (.array items))
    (object : ∀ fields : List (Text × Json), (∀ field ∈ fields, motive field.2) →
      motive (.object fields)) : ∀ value, motive value
  | .null => null
  | .text value => text value
  | .integer value => integer value
  | .double value => double value
  | .array items => array items fun item _ =>
    induction_on null text integer double array object item
  | .object fields => object fields fun field _ =>
    induction_on null text integer double array object field.2
termination_by value => value
decreasing_by
  · have item := List.sizeOf_lt_of_mem ‹_ ∈ items›
    simp only [Json.array.sizeOf_spec]
    omega
  · have entry := List.sizeOf_lt_of_mem ‹_ ∈ fields›
    obtain ⟨key, value⟩ := field
    simp only [Json.object.sizeOf_spec, Prod.mk.sizeOf_spec] at entry ⊢
    omega

theorem Finite.names_render {value : Json} (h : value.Finite) (indent : Nat) :
    Names (value.render indent) (¬ value.Finite) :=
  (h.isValue_render indent).names.congr (by simp [h])

theorem names_render (value : Json) (indent : Nat) : Names (value.render indent) (¬ value.Finite) := by
  induction value using induction_on generalizing indent with
  | null => exact Finite.null.names_render indent
  | text => exact Finite.text.names_render indent
  | integer => exact Finite.integer.names_render indent
  | double value =>
    cases finite : value.isFinite with
    | true => exact (Finite.double finite).names_render indent
    | false => exact (names_doubleText finite).congr (by simp [finite_double, finite])
  | array items ih =>
    obtain ⟨blanks, whole⟩ := exists_render_array indent items
    have each : ∀ value ∈ items, Names (item (indent + 2) value).text (¬ value.Finite) :=
      fun value inside => ih value inside (indent + 2)
    rw [whole]
    exact (Names.array each blanks).congr (by simp [finite_array])
  | object fields ih =>
    obtain ⟨blanks, whole⟩ := exists_render_object indent fields
    have keys : ∀ field ∈ fields, IsString (member (indent + 2) field).key.text :=
      fun field _ => isString_stringText field.1
    have each : ∀ field ∈ fields, Names (member (indent + 2) field).value.text (¬ field.2.Finite) :=
      fun field inside => ih field inside (indent + 2)
    rw [whole]
    exact (Names.object keys each blanks).congr (by simp [finite_object])

end Json

theorem getLast?_render_array (items : List Json) (indent : Nat) :
    ((Json.array items).render indent).getLast? = some ']' := by
  obtain ⟨gap, whole⟩ := Json.exists_render_array indent items
  rw [whole, arrayText, ← List.append_assoc, ← List.cons_append, List.getLast?_concat]

/-- Every character is one of ASCII. -/
def IsAscii (text : Text) : Prop := ∀ c ∈ text, c.toNat < 0x80

instance decidableIsAscii (text : Text) : Decidable (IsAscii text) := decidableForallMem _ text

theorem IsAscii.append {text text' : Text} (h : IsAscii text) (h' : IsAscii text') : IsAscii (text ++ text') :=
  List.forall_mem_append.2 ⟨h, h'⟩

theorem IsAscii.joinWith {separator : Text} (h : IsAscii separator) {parts : List Text}
    (h' : ∀ part ∈ parts, IsAscii part) : IsAscii (joinWith separator parts) := by
  induction parts with
  | nil => exact (by decide : IsAscii [])
  | cons first rest ih =>
    obtain ⟨ascii, later⟩ := List.forall_mem_cons.1 h'
    cases rest with
    | nil => exact ascii
    | cons next rest => exact (ascii.append h).append (ih later)

theorem isAscii_blanks (gap : Blanks) : IsAscii gap.text := by
  have table : ∀ c ∈ [' ', '\t', '\n', '\r'], c.toNat < 0x80 := by decide
  exact fun c member => table c (gap.blank c member)

theorem IsAscii.padded {padded : Padded} (h : IsAscii padded.text) : IsAscii padded.whole :=
  (isAscii_blanks padded.before).append (h.append (isAscii_blanks padded.after))

theorem isAscii_of_isNumber {text : Text} (h : IsNumber text) : IsAscii text := by
  have table : ∀ c ∈ numberChars, c.toNat < 0x80 := by decide
  exact fun c member => table c (h.subset member)

theorem isAscii_unitEscape (unit : Nat) : IsAscii (Json.unitEscape unit) := by
  have digits : ∀ n < 16, n.digitChar.toNat < 0x80 := by decide
  have start : IsAscii ['\\', 'u'] := by decide
  exact start.append (forall_mem_hex digits 4 unit)

theorem isAscii_unicodeEscape (code : Nat) : IsAscii (Json.unicodeEscape code) := by
  unfold Json.unicodeEscape
  split
  · exact isAscii_unitEscape code
  · exact (isAscii_unitEscape _).append (isAscii_unitEscape _)

theorem isAscii_escaped (c : Char) : IsAscii (Json.escaped c) := by
  rcases Json.escaped_cases c with ⟨letter, entry, written⟩ | ⟨printable, -, -, written⟩ | written
  · have table : ∀ entry ∈ Json.shortEscapes, IsAscii ['\\', entry.1] := by decide
    rw [written]
    exact table _ entry
  · rw [written]
    exact List.forall_mem_singleton.2 (Nat.lt_succ_of_lt printable.2)
  · rw [written]
    exact isAscii_unicodeEscape c.toNat

theorem isAscii_stringText (value : Text) : IsAscii (Json.stringText value) := by
  have quote : IsAscii ['\x22'] := by decide
  have body : IsAscii (value.flatMap Json.escaped) := by
    intro c member
    obtain ⟨source, -, written⟩ := List.mem_flatMap.1 member
    exact isAscii_escaped source c written
  exact quote.append (body.append quote)

theorem isAscii_doubleText (d : Double) : IsAscii (Json.doubleText d) := by
  cases finite : d.isFinite with
  | true => exact isAscii_of_isNumber (isNumber_doubleText finite)
  | false =>
    have table : ∀ entry ∈ specialTexts, IsAscii entry.1 := by decide
    exact table _ (doubleText_mem_specialTexts finite)

theorem isAscii_render (value : Json) (indent : Nat) : IsAscii (value.render indent) := by
  have comma : IsAscii [','] := by decide
  induction value using Json.induction_on generalizing indent with
  | null => exact (by decide : IsAscii "null".toList)
  | text value => exact isAscii_stringText value
  | integer value => exact isAscii_of_isNumber (isNumber_signedDecimal value)
  | double value => exact isAscii_doubleText value
  | array items ih =>
    obtain ⟨gap, whole⟩ := Json.exists_render_array indent items
    have opening : IsAscii ['['] := by decide
    have closing : IsAscii [']'] := by decide
    rw [whole, arrayText, List.map_map]
    refine opening.append ((comma.joinWith ?_).append ((isAscii_blanks gap).append closing))
    intro part member
    obtain ⟨value, inside, rfl⟩ := List.mem_map.1 member
    exact IsAscii.padded (ih value inside (indent + 2))
  | object fields ih =>
    obtain ⟨gap, whole⟩ := Json.exists_render_object indent fields
    have opening : IsAscii ['\x7b'] := by decide
    have closing : IsAscii ['\x7d'] := by decide
    have colon : IsAscii [':'] := by decide
    rw [whole, objectText, List.map_map]
    refine opening.append ((comma.joinWith ?_).append ((isAscii_blanks gap).append closing))
    intro part member
    obtain ⟨field, inside, rfl⟩ := List.mem_map.1 member
    have key : IsAscii (Json.member (indent + 2) field).key.whole :=
      IsAscii.padded (isAscii_stringText field.1)
    have value : IsAscii (Json.member (indent + 2) field).value.whole :=
      IsAscii.padded (ih field inside (indent + 2))
    exact key.append (colon.append value)

end ScriptLexer
