import Mathlib.Algebra.Group.Nat.Defs
import ScriptLexer.Proofs.Numeral

/-! Reading text between quotes. A backslash and a letter stand for a character, or announce a code with a
fixed number of hexadecimal digits; other characters stand for themselves. What is read are codes, for a
writer may need more than one of them for a character. -/
namespace ScriptLexer

/-- Digits of either case. -/
def hexDigit? (c : Char) : Option Nat :=
  if c.isDigit then some (c.toNat - 48)
  else if 'a' ≤ c ∧ c ≤ 'f' then some (c.toNat - 87)
  else if 'A' ≤ c ∧ c ≤ 'F' then some (c.toNat - 55)
  else none

def hexValue? (digits : Text) : Option Nat :=
  digits.foldlM (fun value c => (hexDigit? c).map (16 * value + ·)) 0

theorem hexDigit?_digitChar : ∀ n < 16, hexDigit? n.digitChar = some n := by decide

theorem hexValue?_append_digit {digits : Text} {value n : Nat} (h : hexValue? digits = some value)
    (small : n < 16) : hexValue? (digits ++ [n.digitChar]) = some (16 * value + n) := by
  unfold hexValue? at h ⊢
  simp [List.foldlM_append, h, hexDigit?_digitChar n small]

theorem hexValue?_zeros_append (count : Nat) (digits : Text) :
    hexValue? (List.replicate count '0' ++ digits) = hexValue? digits := by
  induction count with
  | zero => rfl
  | succ count ih => exact ih

theorem hexValue?_toDigits (n : Nat) : hexValue? (Nat.toDigits 16 n) = some n := by
  induction n using Nat.strong_induction_on with
  | _ n ih =>
    rcases Nat.lt_or_ge n 16 with small | large
    · have digit := hexValue?_append_digit (rfl : hexValue? [] = some 0) small
      rw [Nat.toDigits_of_lt_base small]
      simpa using digit
    · have front := ih (n / 16) (Nat.div_lt_self (by omega) (by decide))
      have digit := hexValue?_append_digit front (Nat.mod_lt n (by decide))
      rw [Nat.toDigits_of_base_le (by decide) large, digit, Nat.div_add_mod]

theorem hexValue?_hex (width n : Nat) : hexValue? (hex width n) = some n :=
  (hexValue?_zeros_append _ _).trans (hexValue?_toDigits n)

theorem length_hex {width n : Nat} (h : 0 < width) (fits : n < 16 ^ width) : (hex width n).length = width := by
  have short := (Nat.length_toDigits_le_iff (b := 16) (by decide) h).2 fits
  simp only [hex, List.length_append, List.length_replicate]
  omega

/-- What holds of each digit holds throughout a number. -/
theorem forall_mem_hex {p : Char → Prop} (each : ∀ n < 16, p n.digitChar) (width n : Nat) :
    ∀ c ∈ hex width n, p c := by
  have digits : ∀ c ∈ Nat.toDigits 16 n, p c := by
    induction n using Nat.strong_induction_on with
    | _ n ih =>
      rcases Nat.lt_or_ge n 16 with small | large
      · rw [Nat.toDigits_of_lt_base small]
        exact List.forall_mem_singleton.2 (each n small)
      · rw [Nat.toDigits_of_base_le (by decide) large, List.forall_mem_append]
        refine ⟨ih (n / 16) (Nat.div_lt_self (by omega) (by decide)), ?_⟩
        exact List.forall_mem_singleton.2 (each (n % 16) (Nat.mod_lt n (by decide)))
  refine List.forall_mem_append.2 ⟨?_, digits⟩
  intro c filled
  rw [List.eq_of_mem_replicate filled]
  exact each 0 (by decide)

/-- The character with the code, if there is one. -/
def char? (code : Nat) : Option Char := if code.isValidChar then some (Char.ofNat code) else none

theorem isValidChar_toNat (c : Char) : c.toNat.isValidChar := c.valid

theorem toNat_lt (c : Char) : c.toNat < 0x110000 := by
  rcases isValidChar_toNat c with low | high
  · exact Nat.lt_trans low (by decide)
  · exact high.2

theorem char?_toNat (c : Char) : char? c.toNat = some c := by
  rw [char?, if_pos (isValidChar_toNat c), Char.ofNat_toNat]

/-- How characters are written between quotes: which stand for themselves, which letters stand for a
character after a backslash, and which announce so many digits. -/
structure Spelling where
  plain : Char → Bool
  letters : List (Char × Char)
  widths : List (Char × Nat)

namespace Spelling

/-- The code that an escape with digits stands for. -/
def code? (width : Nat) (text : Text) : Option Nat :=
  let digits := text.take width
  if digits.length = width then hexValue? digits else none

/-- What an escape stands for, read after its backslash, and how many characters belong to it. -/
def escape? (spelling : Spelling) : Text → Option (Nat × Nat)
  | [] => none
  | letter :: rest =>
    match spelling.letters.lookup letter with
    | some c => some (c.toNat, 1)
    | none => (spelling.widths.lookup letter).bind fun width => (code? width rest).map (·, width + 1)

def prepend (codes : List Nat) (read : List Nat × Text) : List Nat × Text := (codes ++ read.1, read.2)

/-- The codes up to the quote, and what follows the quote. -/
def read? (spelling : Spelling) (quote : Char) : Text → Option (List Nat × Text)
  | [] => none
  | c :: rest =>
    if c = quote then some ([], rest)
    else if c = '\\' then
      (spelling.escape? rest).bind fun (code, width) =>
        (spelling.read? quote (rest.drop width)).map (prepend [code])
    else if spelling.plain c then (spelling.read? quote rest).map (prepend [c.toNat])
    else none
termination_by text => text.length
decreasing_by
  · simp only [List.length_drop, List.length_cons]
    omega
  · exact Nat.lt_succ_self _

section

variable {spelling : Spelling} {quote : Char}

theorem read?_quote (rest : Text) : spelling.read? quote (quote :: rest) = some ([], rest) := by
  rw [read?, if_pos rfl]

theorem read?_plain {c : Char} (other : c ≠ quote) (backslash : c ≠ '\\') (plain : spelling.plain c)
    (rest : Text) : spelling.read? quote (c :: rest)
      = (spelling.read? quote rest).map (prepend [c.toNat]) := by
  rw [read?, if_neg other, if_neg backslash, if_pos plain]

theorem read?_letter {letter c : Char} (other : '\\' ≠ quote) (h : spelling.letters.lookup letter = some c)
    (rest : Text) : spelling.read? quote ('\\' :: letter :: rest)
      = (spelling.read? quote rest).map (prepend [c.toNat]) := by
  rw [read?, if_neg other, if_pos rfl]
  simp [escape?, h]

theorem read?_hex {letter : Char} {width code : Nat} (other : '\\' ≠ quote)
    (none : spelling.letters.lookup letter = none) (h : spelling.widths.lookup letter = some width)
    (positive : 0 < width) (fits : code < 16 ^ width) (rest : Text) :
    spelling.read? quote ('\\' :: letter :: (hex width code ++ rest))
      = (spelling.read? quote rest).map (prepend [code]) := by
  have length := length_hex positive fits
  have taken : (hex width code ++ rest).take width = hex width code := List.take_left' length
  have left : (hex width code ++ rest).drop width = rest := List.drop_left' length
  rw [read?, if_neg other, if_pos rfl]
  simp [escape?, none, h, code?, taken, left, length, hexValue?_hex]

/-- Where each character is written so that its codes are read back, so is a text. -/
theorem read?_flatMap {write : Char → Text} {codes : Char → List Nat}
    (each : ∀ c rest, spelling.read? quote (write c ++ rest)
      = (spelling.read? quote rest).map (prepend (codes c))) (text rest : Text) :
    spelling.read? quote (text.flatMap write ++ quote :: rest) = some (text.flatMap codes, rest) := by
  induction text with
  | nil => exact read?_quote rest
  | cons c text ih =>
    rw [List.flatMap_cons, List.append_assoc, each, ih]
    rfl

end

end Spelling

end ScriptLexer
