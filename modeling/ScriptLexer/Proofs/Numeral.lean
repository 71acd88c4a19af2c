import Mathlib.Data.List.TakeWhile
import ScriptLexer.Double.Numeral

/-! Numerals of a script: digits, with or without a point and further digits. Each denotes a fraction,
and the wider grammar of written doubles reads it as the double nearest to that fraction. -/
namespace ScriptLexer

/-- A run and what follows it are cut apart where the run ends. -/
theorem takeWhile_append_stop {p : Char → Bool} {run rest : Text} (inside : ∀ c ∈ run, p c)
    (stop : ∀ c ∈ rest.head?, p c = false) : (run ++ rest).takeWhile p = run := by
  rw [List.takeWhile_append_of_pos inside]
  cases rest with
  | nil => exact List.append_nil run
  | cons c rest => simp [stop c rfl]

theorem dropWhile_append_stop {p : Char → Bool} {run rest : Text} (inside : ∀ c ∈ run, p c)
    (stop : ∀ c ∈ rest.head?, p c = false) : (run ++ rest).dropWhile p = rest := by
  rw [List.dropWhile_append_of_pos inside]
  cases rest with
  | nil => rfl
  | cons c rest => simp [stop c rfl]

/-- At least one digit, and nothing else. -/
structure Digits (text : Text) : Prop where
  nonempty : text ≠ []
  digits : ∀ c ∈ text, c.isDigit

/-- `Numeral text n d`: the text is a numeral and denotes the fraction `n / d`. -/
inductive Numeral : Text → Nat → Nat → Prop
  | whole {digits} : Digits digits → Numeral digits (Double.digitsValue digits) 1
  | fraction {whole decimals} : Digits whole → Digits decimals →
      Numeral (whole ++ '.' :: decimals) (Double.digitsValue (whole ++ decimals))
        (Nat.pow 10 decimals.length)

def numeralChars : Text := "0123456789.".toList

theorem mem_numeralChars_of_isDigit {c : Char} (h : c.isDigit) : c ∈ numeralChars := by
  have bounds : 48 ≤ c.toNat ∧ c.toNat ≤ 57 := by
    simpa [Char.isDigit, UInt32.le_iff_toNat_le] using h
  have table : ∀ code ∈ List.range' 48 10, Char.ofNat code ∈ numeralChars := by decide
  have member := table c.toNat (List.mem_range'_1.2 (by omega))
  rwa [Char.ofNat_toNat] at member

theorem Digits.head {c : Char} {rest : Text} (h : Digits (c :: rest)) : c.isDigit :=
  h.digits c List.mem_cons_self

theorem Digits.takeWhile {digits : Text} (h : Digits digits) : digits.takeWhile (·.isDigit) = digits :=
  List.takeWhile_eq_self_iff.2 h.digits

theorem Digits.dropWhile {digits : Text} (h : Digits digits) : digits.dropWhile (·.isDigit) = [] :=
  List.dropWhile_eq_nil_iff.2 h.digits

theorem digits_decimal (n : Nat) : Digits (decimal n) where
  nonempty := Nat.toDigits_ne_nil
  digits _ member := Nat.isDigit_of_mem_toDigits (b := 10) (by decide) (by decide) member

theorem digitsValue_decimal (n : Nat) : Double.digitsValue (decimal n) = n := Nat.ofDigitChars_ten_toDigits

/-- The value of digits, negative after a minus sign. -/
def integerValue : Text → Int
  | '-' :: digits => -Double.digitsValue digits
  | digits => Double.digitsValue digits

theorem integerValue_of_digits {digits : Text} (h : Digits digits) :
    integerValue digits = Double.digitsValue digits := by
  unfold integerValue
  split
  · exact absurd h.head (by decide)
  · rfl

theorem integerValue_signedDecimal (n : Int) : integerValue (signedDecimal n) = n := by
  cases n with
  | ofNat n =>
    have value := integerValue_of_digits (digits_decimal n)
    rw [digitsValue_decimal] at value
    exact value
  | negSucc n => exact congrArg (-Int.ofNat ·) (digitsValue_decimal (n + 1))

namespace Numeral

theorem mem_numeralChars {text : Text} {n d : Nat} (h : Numeral text n d) :
    ∀ c ∈ text, c ∈ numeralChars := by
  intro c member
  cases h with
  | whole digits => exact mem_numeralChars_of_isDigit (digits.digits c member)
  | fraction whole decimals =>
    rcases List.mem_append.1 member with left | right
    · exact mem_numeralChars_of_isDigit (whole.digits c left)
    · rcases List.mem_cons.1 right with rfl | right
      · decide
      · exact mem_numeralChars_of_isDigit (decimals.digits c right)

theorem exists_cons {text : Text} {n d : Nat} (h : Numeral text n d) :
    ∃ c rest, text = c :: rest ∧ c.isDigit := by
  cases h with
  | whole digits =>
    obtain ⟨c, rest, rfl⟩ := List.exists_cons_of_ne_nil digits.nonempty
    exact ⟨c, rest, rfl, digits.head⟩
  | fraction whole decimals =>
    obtain ⟨c, rest, rfl⟩ := List.exists_cons_of_ne_nil whole.nonempty
    exact ⟨c, _, rfl, whole.head⟩

end Numeral

namespace Double

/-- The correctly rounded value of a numeral: digits, or digits, a point and digits. -/
def ofNumeral (text : Text) : Double :=
  let whole := text.takeWhile (·.isDigit)
  let fraction := (text.dropWhile (·.isDigit)).drop 1
  ofRatio (digitsValue (whole ++ fraction)) (Nat.pow 10 fraction.length)

theorem ofNumeral_eq {text : Text} {n d : Nat} (h : Numeral text n d) : ofNumeral text = ofRatio n d := by
  cases h with
  | whole digits =>
    simp only [ofNumeral, digits.takeWhile, digits.dropWhile, List.drop_nil, List.append_nil,
      List.length_nil]
  | @fraction whole decimals left right =>
    have point : ('.' :: decimals).takeWhile (·.isDigit) = [] := rfl
    have rest : ('.' :: decimals).dropWhile (·.isDigit) = '.' :: decimals := rfl
    simp only [ofNumeral, List.takeWhile_append_of_pos left.digits,
      List.dropWhile_append_of_pos left.digits, point, rest, List.append_nil, List.drop_one,
      List.tail_cons]

theorem trimmed_eq {text : Text} (h : ∀ c ∈ text, isPadding c = false) : trimmed text = text := by
  have kept {text : Text} (h : ∀ c ∈ text, isPadding c = false) : text.dropWhile isPadding = text := by
    cases text with
    | nil => rfl
    | cons c rest => exact List.dropWhile_cons_of_neg (by simp [h c])
  have turned : ∀ c ∈ text.reverse, isPadding c = false := fun c member =>
    h c (List.mem_reverse.1 member)
  simp only [trimmed, kept h, kept turned, List.reverse_reverse]

theorem withoutUnderscores?_eq {previous : Char} {text : Text} (before : previous ≠ '_')
    (h : ∀ c ∈ text, c ≠ '_') : withoutUnderscores? previous text = some text := by
  induction text generalizing previous with
  | nil => simp [withoutUnderscores?, before]
  | cons c rest ih =>
    have this := h c List.mem_cons_self
    have later := ih this fun c member => h c (List.mem_cons_of_mem _ member)
    simp [withoutUnderscores?, before, this, later]

theorem map_latinDigit_eq {text : Text} (h : ∀ c ∈ text, c ∈ numeralChars) :
    text.map latinDigit = text := by
  have same : ∀ c ∈ numeralChars, latinDigit c = c := by decide
  calc
    text.map latinDigit = text.map id := List.map_congr_left fun c member => same c (h c member)
    _ = text := List.map_id text

theorem ofScaled_boundedExponent (digits : Nat) {places count : Nat} (h : places ≤ count) :
    ofScaled digits (boundedExponent count (0 - places)) = ofRatio digits (Nat.pow 10 places) := by
  -- The bounds are wide enough for the places after the point.
  have bounded : boundedExponent count (0 - places) = -(places : Int) := by
    unfold boundedExponent
    omega
  rw [bounded]
  cases places with
  | zero => simp [ofScaled]
  | succ places => rfl

theorem unsignedDecimal?_eq {text : Text} {n d : Nat} (h : Numeral text n d) :
    unsignedDecimal? text = some (ofRatio n d) := by
  unfold unsignedDecimal?
  cases h with
  | whole digits =>
    have scaled := ofScaled_boundedExponent (digitsValue text) (Nat.zero_le text.length)
    simpa [digits.takeWhile, digits.dropWhile, fractionPart, exponent?, digits.nonempty] using scaled
  | @fraction whole decimals left right =>
    have scaled := ofScaled_boundedExponent (digitsValue (whole ++ decimals))
      (Nat.le_add_left decimals.length whole.length)
    simpa [List.takeWhile_append_of_pos left.digits, List.dropWhile_append_of_pos left.digits,
      fractionPart, right.takeWhile, right.dropWhile, exponent?, left.nonempty] using scaled

/-- A numeral has nothing that the wider grammar of written doubles adds: no blanks, sign,
underscore, exponent or word. -/
theorem read?_eq {text : Text} {n d : Nat} (h : Numeral text n d) : read? text = some (ofRatio n d) := by
  have chars := h.mem_numeralChars
  obtain ⟨c, rest, rfl, digit⟩ := h.exists_cons
  have unpadded : ∀ c ∈ numeralChars, isPadding c = false := by decide
  have joined : ∀ c ∈ numeralChars, c ≠ '_' := by decide
  have unsigned : ∀ c ∈ numeralChars,
      c ≠ '-' ∧ c ≠ '+' ∧ c.toLower ≠ 'i' ∧ c.toLower ≠ 'n' := by decide
  obtain ⟨minus, plus, infinite, nan⟩ := unsigned c (mem_numeralChars_of_isDigit digit)
  have plain : withoutUnderscores? ' ' ((trimmed (c :: rest)).map latinDigit) = some (c :: rest) := by
    rw [trimmed_eq fun c member => unpadded c (chars c member), map_latinDigit_eq chars]
    exact withoutUnderscores?_eq (by decide) fun c member => joined c (chars c member)
  have value : unsigned? (c :: rest) = some (ofRatio n d) := by
    simp [unsigned?, infinite, nan, unsignedDecimal?_eq h]
  simp [read?, plain, minus, plus, value]

end Double

end ScriptLexer
