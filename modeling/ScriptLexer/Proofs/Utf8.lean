import Mathlib.Algebra.Group.Nat.Defs
import ScriptLexer.Text.Utf8

/-! Decoding undoes encoding, and nothing else is decoded: the bytes of each text are read back as that
text, and bytes that no text is encoded by are refused. -/
namespace ScriptLexer.Utf8

/-- The continuation bytes of a code point: each holds six bits, the lowest ones last. `wanted` counts
the bytes after the first of them. -/
def tailBytes : (wanted code : Nat) → List UInt8
  | 0, code => [UInt8.ofNat (code % 64 + 0x80)]
  | wanted + 1, code => UInt8.ofNat (code / 64 ^ (wanted + 1) % 64 + 0x80) :: tailBytes wanted code

namespace Pending

/-- The code point begins as the pending character does, and its next byte is one that may follow. -/
structure Fits (pending : Pending) (code : Nat) : Prop where
  front : code / 64 ^ (pending.wanted + 1) = pending.code
  low : pending.low ≤ code / 64 ^ pending.wanted % 64 + 0x80
  high : code / 64 ^ pending.wanted % 64 + 0x80 ≤ pending.high

/-- Only continuation bytes are waited for, and there is one that may follow. -/
structure Waits (pending : Pending) : Prop where
  low : 0x80 ≤ pending.low
  some : pending.low ≤ pending.high
  high : pending.high ≤ 0xBF

/-- What is pending after one more continuation byte. -/
def next (pending : Pending) (byte : UInt8) (wanted : Nat) : Pending :=
  { pending with
    taken := pending.taken + 1
    code := pending.code * 64 + (byte.toNat - 0x80)
    wanted
    low := 0x80
    high := 0xBF }

theorem add_of_last {pending : Pending} {byte : UInt8} (last : pending.wanted = 0)
    (low : pending.low ≤ byte.toNat) (high : byte.toNat ≤ pending.high) :
    pending.add byte = .complete (Char.ofNat (pending.code * 64 + (byte.toNat - 0x80))) := by
  simp only [add, low, high, and_self, if_true, last]

theorem add_of_more {pending : Pending} {byte : UInt8} {wanted : Nat}
    (more : pending.wanted = wanted + 1) (low : pending.low ≤ byte.toNat)
    (high : byte.toNat ≤ pending.high) : pending.add byte = .more (pending.next byte wanted) := by
  simp only [add, low, high, and_self, if_true, more]
  rfl

theorem add_of_outside {pending : Pending} {byte : UInt8}
    (outside : ¬ (pending.low ≤ byte.toNat ∧ byte.toNat ≤ pending.high)) :
    pending.add byte = .refused := by
  simp only [add, if_neg outside]

theorem waits_next (pending : Pending) (byte : UInt8) (wanted : Nat) :
    (pending.next byte wanted).Waits := ⟨Nat.le_refl _, Nat.le_add_left .., Nat.le_refl _⟩

/-- The last byte settles which of the code points that fit it is. -/
theorem Waits.fits_last {pending : Pending} {byte : UInt8} (waits : pending.Waits)
    (last : pending.wanted = 0) (low : pending.low ≤ byte.toNat) (high : byte.toNat ≤ pending.high) :
    pending.Fits (pending.code * 64 + (byte.toNat - 0x80)) ∧
      (pending.code * 64 + (byte.toNat - 0x80)) % 64 + 0x80 = byte.toNat := by
  obtain ⟨least, -, most⟩ := waits
  refine ⟨⟨?_, ?_, ?_⟩, by omega⟩
  · rw [last, Nat.zero_add, Nat.pow_one]
    omega
  · rw [last, Nat.pow_zero, Nat.div_one]
    omega
  · rw [last, Nat.pow_zero, Nat.div_one]
    omega

/-- A code point that fits goes on to fit once its next byte is added. -/
theorem Fits.next {pending : Pending} {byte : UInt8} {wanted code : Nat} (fits : pending.Fits code)
    (more : pending.wanted = wanted + 1) (h : code / 64 ^ (wanted + 1) % 64 + 0x80 = byte.toNat) :
    (pending.next byte wanted).Fits code := by
  obtain ⟨front, -, -⟩ := fits
  rw [more, Nat.pow_succ, ← Nat.div_div_eq_div_mul] at front
  refine ⟨?_, Nat.le_add_left .., ?_⟩
  · change code / 64 ^ (wanted + 1) = pending.code * 64 + (byte.toNat - 0x80)
    omega
  · change code / 64 ^ wanted % 64 + 0x80 ≤ 0xBF
    omega

/-- Only a code point that fitted before, and has the byte as its next one, fits after it. -/
theorem Fits.of_next {pending : Pending} {byte : UInt8} {wanted code : Nat}
    (fits : (pending.next byte wanted).Fits code) (waits : pending.Waits)
    (more : pending.wanted = wanted + 1) (low : pending.low ≤ byte.toNat)
    (high : byte.toNat ≤ pending.high) :
    pending.Fits code ∧ code / 64 ^ (wanted + 1) % 64 + 0x80 = byte.toNat := by
  obtain ⟨least, -, most⟩ := waits
  have front : code / 64 ^ (wanted + 1) = pending.code * 64 + (byte.toNat - 0x80) := fits.front
  refine ⟨⟨?_, ?_, ?_⟩, by omega⟩
  · rw [more, Nat.pow_succ, ← Nat.div_div_eq_div_mul]
    omega
  · rw [more]
    omega
  · rw [more]
    omega

end Pending

theorem toNat_tailByte (code : Nat) : (UInt8.ofNat (code % 64 + 0x80)).toNat = code % 64 + 0x80 := by
  rw [UInt8.toNat_ofNat']
  omega

theorem tailBytes_of_more (wanted code : Nat) : tailBytes (wanted + 1) code
    = UInt8.ofNat (code / 64 ^ (wanted + 1) % 64 + 0x80) :: tailBytes wanted code := rfl

theorem exists_of_map_eq_ok {result : Except Malformed Text} {c : Char} {text : Text}
    (h : result.map (c :: ·) = .ok text) : ∃ later, result = .ok later ∧ text = c :: later := by
  cases result with
  | error => cases h
  | ok later =>
    cases h
    exact ⟨later, rfl, rfl⟩

theorem exists_cons_of_decodeFrom {pending : Pending} {next : Nat} {bytes : List UInt8} {text : Text}
    (h : decodeFrom next (some pending) bytes = .ok text) : ∃ byte rest, bytes = byte :: rest ∧
      pending.low ≤ byte.toNat ∧ byte.toNat ≤ pending.high := by
  cases bytes with
  | nil => cases h
  | cons byte rest =>
    refine ⟨byte, rest, rfl, ?_⟩
    by_cases inside : pending.low ≤ byte.toNat ∧ byte.toNat ≤ pending.high
    · exact inside
    · rw [decodeFrom, Pending.add_of_outside inside] at h
      cases h

theorem decodeFrom_tailBytes {pending : Pending} {code : Nat} (fits : pending.Fits code) (next : Nat)
    (rest : List UInt8) :
    decodeFrom next (some pending) (tailBytes pending.wanted code ++ rest)
      = (decodeFrom (next + pending.wanted + 1) none rest).map (Char.ofNat code :: ·) := by
  generalize count : pending.wanted = wanted
  induction wanted generalizing pending next with
  | zero =>
    obtain ⟨front, low, high⟩ := fits
    rw [count, Nat.pow_zero, Nat.div_one, ← toNat_tailByte] at low high
    have added := Pending.add_of_last count low high
    have whole : pending.code * 64 + ((UInt8.ofNat (code % 64 + 0x80)).toNat - 0x80) = code := by
      rw [count, Nat.zero_add, Nat.pow_one] at front
      rw [toNat_tailByte]
      omega
    rw [whole] at added
    simp only [tailBytes, List.singleton_append, decodeFrom, added, Nat.add_zero]
  | succ wanted ih =>
    have fits' := fits.next count (toNat_tailByte _).symm
    obtain ⟨-, low, high⟩ := fits
    rw [count, ← toNat_tailByte] at low high
    have added := Pending.add_of_more count low high
    have later := ih fits' (next + 1) rfl
    rw [tailBytes_of_more, List.cons_append, decodeFrom, added]
    dsimp only
    rw [later]
    congr 2
    omega

theorem ofNat_tailByte {code : Nat} (byte : UInt8) (h : code % 64 + 0x80 = byte.toNat) :
    UInt8.ofNat (code % 64 + 0x80) = byte := by
  rw [h, UInt8.ofNat_toNat]

/-- Where a character that has begun is decoded, its continuation bytes are those of a code point. -/
theorem exists_tailBytes_of_decodeFrom {pending : Pending} (waits : pending.Waits) {next : Nat}
    {bytes : List UInt8} {text : Text} (h : decodeFrom next (some pending) bytes = .ok text) :
    ∃ code rest later, pending.Fits code ∧ bytes = tailBytes pending.wanted code ++ rest ∧
      text = Char.ofNat code :: later ∧ decodeFrom (next + pending.wanted + 1) none rest = .ok later := by
  generalize count : pending.wanted = wanted
  induction wanted generalizing pending next bytes with
  | zero =>
    obtain ⟨byte, rest, rfl, low, high⟩ := exists_cons_of_decodeFrom h
    obtain ⟨fits, value⟩ := waits.fits_last count low high
    rw [decodeFrom, Pending.add_of_last count low high] at h
    obtain ⟨later, decoded, rfl⟩ := exists_of_map_eq_ok h
    refine ⟨_, rest, later, fits, ?_, rfl, decoded⟩
    rw [tailBytes, ofNat_tailByte byte value, List.singleton_append]
  | succ wanted ih =>
    obtain ⟨byte, rest, rfl, low, high⟩ := exists_cons_of_decodeFrom h
    rw [decodeFrom, Pending.add_of_more count low high] at h
    obtain ⟨code, rest', later, fits', split, whole, decoded⟩ :=
      ih (pending.waits_next byte wanted) h rfl
    obtain ⟨fits, value⟩ := fits'.of_next waits count low high
    refine ⟨code, rest', later, fits, ?_, whole, ?_⟩
    · rw [tailBytes_of_more, ofNat_tailByte byte value, split, List.cons_append]
    · rw [← decoded]
      congr 1
      omega

/-- The byte begins the sequence of a code point that takes more than one byte. -/
inductive Leads (byte : UInt8) (code : Nat) : (wanted : Nat) → Prop
  | two : 0x80 ≤ code → code ≤ 0x7FF → byte.toNat = code / 64 + 0xC0 → Leads byte code 0
  | three : 0x800 ≤ code → code ≤ 0xFFFF → code.isValidChar → byte.toNat = code / 4096 + 0xE0 →
    Leads byte code 1
  | four : 0x10000 ≤ code → code ≤ 0x10FFFF → byte.toNat = code / 262144 + 0xF0 → Leads byte code 2

theorem Leads.begin? {byte : UInt8} {code wanted : Nat} (h : Leads byte code wanted) :
    ∃ pending, begin? byte = some pending ∧ pending.wanted = wanted ∧ pending.Fits code := by
  unfold Utf8.begin?
  cases h with
  | two low high lead =>
    rw [lead, if_neg (by omega), if_pos (by omega)]
    refine ⟨_, rfl, rfl, ?_, ?_, ?_⟩ <;> dsimp only <;> omega
  | three low high valid lead =>
    -- Surrogates would be the upper half of what 0xED leads.
    have plain : code < 0xD800 ∨ 0xDFFF < code := valid.imp_right And.left
    rw [lead, if_neg (by omega), if_neg (by omega)]
    split
    · refine ⟨_, rfl, rfl, ?_, ?_, ?_⟩ <;> dsimp only <;> omega
    split
    · refine ⟨_, rfl, rfl, ?_, ?_, ?_⟩ <;> dsimp only <;> omega
    · rw [if_pos (by omega)]
      refine ⟨_, rfl, rfl, ?_, ?_, ?_⟩ <;> dsimp only <;> omega
  | four low high lead =>
    rw [lead, if_neg (by omega), if_neg (by omega), if_neg (by omega), if_neg (by omega),
      if_neg (by omega)]
    split
    · refine ⟨_, rfl, rfl, ?_, ?_, ?_⟩ <;> dsimp only <;> omega
    split
    · refine ⟨_, rfl, rfl, ?_, ?_, ?_⟩ <;> dsimp only <;> omega
    · rw [if_pos (by omega)]
      refine ⟨_, rfl, rfl, ?_, ?_, ?_⟩ <;> dsimp only <;> omega

/-- The rows of the table of first bytes. -/
theorem begin?_eq_some {byte : UInt8} {pending : Pending} (h : begin? byte = some pending) :
    (∃ code, byte.toNat = code + 0xC0 ∧ 2 ≤ code ∧ code < 0x20 ∧
      pending = ⟨byte, 1, code, 0, 0x80, 0xBF⟩) ∨
    (∃ code low high, byte.toNat = code + 0xE0 ∧ code < 0x10 ∧
      pending = ⟨byte, 1, code, 1, low, high⟩ ∧ 0x80 ≤ low ∧ low ≤ high ∧ high ≤ 0xBF ∧
      (code = 0 → low = 0xA0) ∧ (code = 0xD → high = 0x9F)) ∨
    (∃ code low high, byte.toNat = code + 0xF0 ∧ code ≤ 4 ∧
      pending = ⟨byte, 1, code, 2, low, high⟩ ∧ 0x80 ≤ low ∧ low ≤ high ∧ high ≤ 0xBF ∧
      (code = 0 → low = 0x90) ∧ (code = 4 → high = 0x8F)) := by
  have bound := byte.toNat_lt
  unfold begin? at h
  dsimp only at h
  split at h
  · cases h
  split at h
  · cases h
    exact .inl ⟨_, by omega, by omega, by omega, rfl⟩
  split at h
  · rename_i first
    cases h
    exact .inr (.inl ⟨0, 0xA0, 0xBF, by omega, by omega, rfl, by omega, by omega, by omega, by omega,
      by omega⟩)
  split at h
  · rename_i first
    cases h
    exact .inr (.inl ⟨0xD, 0x80, 0x9F, by omega, by omega, rfl, by omega, by omega, by omega, by omega,
      by omega⟩)
  split at h
  · cases h
    exact .inr (.inl ⟨_, _, _, by omega, by omega, rfl, by omega, by omega, by omega, by omega,
      by omega⟩)
  split at h
  · cases h
    exact .inr (.inr ⟨0, 0x90, 0xBF, by omega, by omega, rfl, by omega, by omega, by omega, by omega,
      by omega⟩)
  split at h
  · cases h
    exact .inr (.inr ⟨_, _, _, by omega, by omega, rfl, by omega, by omega, by omega, by omega,
      by omega⟩)
  split at h
  · cases h
    exact .inr (.inr ⟨4, 0x80, 0x8F, by omega, by omega, rfl, by omega, by omega, by omega, by omega,
      by omega⟩)
  · cases h

theorem Pending.Fits.leads {byte : UInt8} {pending : Pending} {code : Nat} (fits : pending.Fits code)
    (h : begin? byte = some pending) : Leads byte code pending.wanted := by
  obtain ⟨front, low, high⟩ := fits
  rcases begin?_eq_some h with ⟨first, lead, least, most, rfl⟩ |
    ⟨first, least, most, lead, short, rfl, above, -, below, overlong, surrogate⟩ |
    ⟨first, least, most, lead, short, rfl, above, -, below, overlong, beyond⟩
  · dsimp only at front low high
    exact .two (by omega) (by omega) (by omega)
  · dsimp only at front low high
    have valid : code.isValidChar := by
      by_cases before : code < 0xD800
      · exact .inl before
      · exact .inr ⟨by omega, by omega⟩
    exact .three (by omega) (by omega) valid (by omega)
  · dsimp only at front low high
    exact .four (by omega) (by omega) (by omega)

theorem Pending.waits_of_begin? {byte : UInt8} {pending : Pending} (h : begin? byte = some pending) :
    pending.Waits := by
  rcases begin?_eq_some h with ⟨_, -, -, -, rfl⟩ | ⟨_, _, _, -, -, rfl, above, some, below, -⟩ |
    ⟨_, _, _, -, -, rfl, above, some, below, -⟩
  · exact ⟨Nat.le_refl _, Nat.le_add_left .., Nat.le_refl _⟩
  · exact ⟨above, some, below⟩
  · exact ⟨above, some, below⟩

theorem Leads.isValidChar {byte : UInt8} {code wanted : Nat} (h : Leads byte code wanted) :
    code.isValidChar := by
  cases h with
  | two low high => exact .inl (by omega)
  | three low _ valid => exact valid
  | four low high => exact .inr ⟨by omega, by omega⟩

theorem length_tailBytes (wanted code : Nat) : (tailBytes wanted code).length = wanted + 1 := by
  induction wanted with
  | zero => rfl
  | succ wanted ih => rw [tailBytes_of_more, List.length_cons, ih]

theorem exists_leads {c : Char} (h : 0x80 ≤ c.toNat) : ∃ byte wanted, Leads byte c.toNat wanted := by
  have lead (n : Nat) (small : n < 0x100) : ∃ byte : UInt8, byte.toNat = n :=
    ⟨UInt8.ofNat n, by rw [UInt8.toNat_ofNat']; omega⟩
  have valid : c.toNat.isValidChar := c.valid
  by_cases two : c.toNat ≤ 0x7FF
  · obtain ⟨byte, value⟩ := lead (c.toNat / 64 + 0xC0) (by omega)
    exact ⟨byte, 0, .two h two value⟩
  by_cases three : c.toNat ≤ 0xFFFF
  · obtain ⟨byte, value⟩ := lead (c.toNat / 4096 + 0xE0) (by omega)
    exact ⟨byte, 1, .three (by omega) three valid value⟩
  · have bound : c.toNat ≤ 0x10FFFF := by
      rcases valid with small | ⟨-, large⟩ <;> omega
    obtain ⟨byte, value⟩ := lead (c.toNat / 262144 + 0xF0) (by omega)
    exact ⟨byte, 2, .four (by omega) bound value⟩

theorem Leads.encodeChar {byte : UInt8} {c : Char} {wanted : Nat} (h : Leads byte c.toNat wanted) :
    String.utf8EncodeChar c = byte :: tailBytes wanted c.toNat := by
  have lead {n : Nat} (value : byte.toNat = n) : UInt8.ofNat n = byte := by
    rw [← value, UInt8.ofNat_toNat]
  unfold String.utf8EncodeChar
  rw [Char.toNat_val]
  cases h with
  | two low high value =>
    rw [if_neg (by omega), if_pos high, lead (by rw [value]; omega)]
    rfl
  | three low high _ value =>
    rw [if_neg (by omega), if_neg (by omega), if_pos high, lead (by rw [value]; omega)]
    rfl
  | four low high value =>
    rw [if_neg (by omega), if_neg (by omega), if_neg (by omega), lead (by rw [value]; omega)]
    rfl

theorem toNat_ofNat_of_isValidChar {code : Nat} (valid : code.isValidChar) :
    (Char.ofNat code).toNat = code := by
  rw [Char.ofNat, dif_pos valid]
  rfl

theorem encodeChar_of_lt {c : Char} (small : c.toNat < 0x80) :
    String.utf8EncodeChar c = [UInt8.ofNat c.toNat] := by
  unfold String.utf8EncodeChar
  rw [Char.toNat_val]
  exact if_pos (by omega)

theorem encodeChar_of_byte {byte : UInt8} (small : byte.toNat < 0x80) :
    String.utf8EncodeChar (Char.ofNat byte.toNat) = [byte] := by
  have value := toNat_ofNat_of_isValidChar (.inl (by omega) : byte.toNat.isValidChar)
  rw [encodeChar_of_lt (by rwa [value]), value, UInt8.ofNat_toNat]

/-- A byte below 0x80 is a character alone. -/
theorem decodeFrom_of_lt {byte : UInt8} (small : byte.toNat < 0x80) (next : Nat) (rest : List UInt8) :
    decodeFrom next none (byte :: rest)
      = (decodeFrom (next + 1) none rest).map (Char.ofNat byte.toNat :: ·) := by
  rw [decodeFrom, if_pos small]

theorem decodeFrom_of_begin? {byte : UInt8} (large : ¬ byte.toNat < 0x80) (next : Nat)
    (rest : List UInt8) : decodeFrom next none (byte :: rest)
      = match begin? byte with
        | some pending => decodeFrom (next + 1) (some pending) rest
        | none => .error ⟨next, byte, 1, .invalidStart⟩ := by
  rw [decodeFrom]
  exact if_neg large

theorem Leads.not_lt {byte : UInt8} {code wanted : Nat} (h : Leads byte code wanted) :
    ¬ byte.toNat < 0x80 := by
  cases h <;> omega

/-- The first character of encoded text is decoded, and decoding goes on after it. -/
theorem decodeFrom_encodeChar (next : Nat) (c : Char) (rest : List UInt8) :
    decodeFrom next none (String.utf8EncodeChar c ++ rest)
      = (decodeFrom (next + (String.utf8EncodeChar c).length) none rest).map (c :: ·) := by
  by_cases small : c.toNat < 0x80
  · have value : (UInt8.ofNat c.toNat).toNat = c.toNat := by
      rw [UInt8.toNat_ofNat']
      omega
    rw [encodeChar_of_lt small, List.singleton_append, decodeFrom_of_lt (by rwa [value]), value,
      Char.ofNat_toNat]
    rfl
  · obtain ⟨byte, wanted, leads⟩ := exists_leads (Nat.not_lt.1 small)
    obtain ⟨pending, begun, rfl, fits⟩ := leads.begin?
    rw [leads.encodeChar, List.cons_append, decodeFrom_of_begin? leads.not_lt, begun]
    dsimp only
    rw [decodeFrom_tailBytes fits, Char.ofNat_toNat, List.length_cons, length_tailBytes]
    congr 2
    omega

theorem decodeFrom_encode (next : Nat) (text : Text) : decodeFrom next none (encode text) = .ok text := by
  induction text generalizing next with
  | nil => rfl
  | cons c rest ih =>
    rw [encode, List.flatMap_cons, decodeFrom_encodeChar, ← encode, ih]
    rfl

theorem decode_encode (text : Text) : decode (encode text) = .ok text := decodeFrom_encode 0 text

/-- What is decoded begins with an encoded character. -/
theorem exists_encodeChar_of_decodeFrom {next : Nat} {byte : UInt8} {bytes : List UInt8} {text : Text}
    (h : decodeFrom next none (byte :: bytes) = .ok text) :
    ∃ c rest later next', byte :: bytes = String.utf8EncodeChar c ++ rest ∧ text = c :: later ∧
      decodeFrom next' none rest = .ok later := by
  by_cases small : byte.toNat < 0x80
  · rw [decodeFrom_of_lt small] at h
    obtain ⟨later, decoded, rfl⟩ := exists_of_map_eq_ok h
    refine ⟨_, bytes, later, _, ?_, rfl, decoded⟩
    rw [encodeChar_of_byte small, List.singleton_append]
  · rw [decodeFrom_of_begin? small] at h
    split at h
    · rename_i pending begun
      obtain ⟨code, rest, later, fits, split, rfl, decoded⟩ :=
        exists_tailBytes_of_decodeFrom (Pending.waits_of_begin? begun) h
      have leads := fits.leads begun
      have value := toNat_ofNat_of_isValidChar leads.isValidChar
      rw [← value] at leads
      refine ⟨_, rest, later, _, ?_, rfl, decoded⟩
      rw [leads.encodeChar, value, split, List.cons_append]
    · cases h

theorem eq_encode_of_decodeFrom {next : Nat} {bytes : List UInt8} {text : Text}
    (h : decodeFrom next none bytes = .ok text) : bytes = encode text := by
  induction text generalizing next bytes with
  | nil =>
    cases bytes with
    | nil => rfl
    | cons byte bytes =>
      obtain ⟨c, rest, later, next', -, whole, -⟩ := exists_encodeChar_of_decodeFrom h
      cases whole
  | cons c text ih =>
    cases bytes with
    | nil => cases h
    | cons byte bytes =>
      obtain ⟨c', rest, later, next', split, whole, decoded⟩ := exists_encodeChar_of_decodeFrom h
      cases whole
      rw [split, ih decoded, encode, encode, List.flatMap_cons]

/-- Exactly the bytes of a text are decoded as that text. -/
theorem decode_eq_ok_iff {bytes : List UInt8} {text : Text} :
    decode bytes = .ok text ↔ bytes = encode text := by
  constructor
  · exact eq_encode_of_decodeFrom
  · rintro rfl
    exact decode_encode text

end ScriptLexer.Utf8
