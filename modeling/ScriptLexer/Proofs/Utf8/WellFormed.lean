import ScriptLexer.Proofs.Utf8

/-! Well-formed bytes, said without encoding or decoding anything: a row of sequences, each for one code
point. The bytes of texts are exactly the well-formed ones. -/
namespace ScriptLexer.Utf8

/-- A byte that goes on with a sequence. It holds six bits. -/
structure IsTail (byte : UInt8) : Prop where
  low : 0x80 ≤ byte.toNat
  high : byte.toNat < 0xC0

/-- The bytes that stand for a code point. Their first one says how many there are. A sequence is not
longer than its code point needs, and stands for no surrogate and nothing above U+10FFFF. -/
inductive Sequence : List UInt8 → (code : Nat) → Prop
  | one {a code} : a.toNat = code → code < 0x80 → Sequence [a] code
  | two {a b code} : 0xC0 ≤ a.toNat → a.toNat < 0xE0 → IsTail b →
      code = (a.toNat - 0xC0) * 0x40 + (b.toNat - 0x80) → 0x80 ≤ code → Sequence [a, b] code
  | three {a b c code} : 0xE0 ≤ a.toNat → a.toNat < 0xF0 → IsTail b → IsTail c →
      code = (a.toNat - 0xE0) * 0x1000 + (b.toNat - 0x80) * 0x40 + (c.toNat - 0x80) →
      0x800 ≤ code → code < 0xD800 ∨ 0xDFFF < code → Sequence [a, b, c] code
  | four {a b c d code} : 0xF0 ≤ a.toNat → a.toNat < 0xF8 → IsTail b → IsTail c → IsTail d →
      code = (a.toNat - 0xF0) * 0x40000 + (b.toNat - 0x80) * 0x1000 + (c.toNat - 0x80) * 0x40
        + (d.toNat - 0x80) →
      0x10000 ≤ code → code ≤ 0x10FFFF → Sequence [a, b, c, d] code

/-- Sequences one after the other. -/
inductive WellFormed : List UInt8 → Prop
  | nil : WellFormed []
  | append {sequence code rest} : Sequence sequence code → WellFormed rest → WellFormed (sequence ++ rest)

/-- The front of a sequence, which may be all of it. -/
def Begins (front : List UInt8) : Prop := ∃ rest code, Sequence (front ++ rest) code

theorem isTail_tailByte (code : Nat) : IsTail (UInt8.ofNat (code % 64 + 0x80)) := by
  constructor <;> rw [toNat_tailByte] <;> omega

theorem Leads.encodeChar_ofNat {byte : UInt8} {code wanted : Nat} (h : Leads byte code wanted) :
    String.utf8EncodeChar (Char.ofNat code) = byte :: tailBytes wanted code := by
  have value := toNat_ofNat_of_isValidChar h.isValidChar
  rw [← value] at h
  rw [h.encodeChar, value]

theorem Sequence.encodeChar {bytes : List UInt8} {code : Nat} (h : Sequence bytes code) :
    code.isValidChar ∧ bytes = String.utf8EncodeChar (Char.ofNat code) := by
  cases h with
  | @one a _ same small =>
    rw [← same] at small ⊢
    exact ⟨.inl (by omega), (encodeChar_of_byte small).symm⟩
  | @two a b _ low high tail value least =>
    obtain ⟨above, below⟩ := tail
    have leads : Leads a code 0 := .two least (by omega) (by omega)
    refine ⟨leads.isValidChar, ?_⟩
    rw [leads.encodeChar_ofNat, tailBytes, ofNat_tailByte b (by omega)]
  | @three a b c _ low high tail tail' value least plain =>
    obtain ⟨above, below⟩ := tail
    obtain ⟨above', below'⟩ := tail'
    have valid : code.isValidChar := plain.imp_right fun past => ⟨past, by omega⟩
    have leads : Leads a code 1 := .three least (by omega) valid (by omega)
    refine ⟨valid, ?_⟩
    rw [leads.encodeChar_ofNat, tailBytes, tailBytes, ofNat_tailByte b (by omega),
      ofNat_tailByte c (by omega)]
  | @four a b c d _ low high tail tail' tail'' value least most =>
    obtain ⟨above, below⟩ := tail
    obtain ⟨above', below'⟩ := tail'
    obtain ⟨above'', below''⟩ := tail''
    have leads : Leads a code 2 := .four least most (by omega)
    refine ⟨leads.isValidChar, ?_⟩
    rw [leads.encodeChar_ofNat, tailBytes, tailBytes, tailBytes, ofNat_tailByte b (by omega),
      ofNat_tailByte c (by omega), ofNat_tailByte d (by omega)]

theorem sequence_encodeChar (c : Char) : Sequence (String.utf8EncodeChar c) c.toNat := by
  by_cases small : c.toNat < 0x80
  · rw [encodeChar_of_lt small]
    refine .one ?_ small
    rw [UInt8.toNat_ofNat']
    omega
  · obtain ⟨byte, wanted, leads⟩ := exists_leads (Nat.not_lt.1 small)
    rw [leads.encodeChar]
    cases leads with
    | two low high lead =>
      refine .two (by omega) (by omega) (isTail_tailByte _) ?_ low
      rw [toNat_tailByte]
      omega
    | three low high valid lead =>
      refine .three (by omega) (by omega) (isTail_tailByte _) (isTail_tailByte _) ?_ low
        (valid.imp_right And.left)
      simp only [toNat_tailByte, Nat.reduceAdd, Nat.reducePow]
      omega
    | four low high lead =>
      refine .four (by omega) (by omega) (isTail_tailByte _) (isTail_tailByte _) (isTail_tailByte _) ?_
        low high
      simp only [toNat_tailByte, Nat.reduceAdd, Nat.reducePow]
      omega

theorem begins_iff {front : List UInt8} : Begins front ↔ ∃ c, front <+: String.utf8EncodeChar c := by
  constructor
  · rintro ⟨rest, code, sequence⟩
    exact ⟨Char.ofNat code, rest, sequence.encodeChar.2⟩
  · rintro ⟨c, rest, whole⟩
    refine ⟨rest, c.toNat, ?_⟩
    rw [whole]
    exact sequence_encodeChar c

theorem wellFormed_encode (text : Text) : WellFormed (encode text) := by
  induction text with
  | nil => exact .nil
  | cons c rest ih => exact .append (sequence_encodeChar c) ih

theorem wellFormed_iff {bytes : List UInt8} : WellFormed bytes ↔ ∃ text, bytes = encode text := by
  constructor
  · intro h
    induction h with
    | nil => exact ⟨[], rfl⟩
    | @append _ code _ sequence _ ih =>
      obtain ⟨text, rfl⟩ := ih
      refine ⟨Char.ofNat code :: text, ?_⟩
      rw [sequence.encodeChar.2]
      rfl
  · rintro ⟨text, rfl⟩
    exact wellFormed_encode text

theorem encode_injective {text text' : Text} (h : encode text = encode text') : text = text' := by
  have same := decode_eq_ok_iff.2 h
  rw [decode_encode] at same
  exact Except.ok.inj same

end ScriptLexer.Utf8
