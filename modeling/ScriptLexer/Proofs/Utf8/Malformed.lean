import ScriptLexer.Proofs.Utf8.WellFormed

/-! Where decoding stops. The bytes before the fault are the longest well-formed ones at the front, and
the range of the fault is as much as could still begin a sequence there. -/
namespace ScriptLexer.Utf8

/-- The fault at the front of some bytes: what is there of the front of a sequence, or else a single
byte. -/
structure Malformed.AtFront (m : Malformed) (bytes : List UInt8) : Prop where
  lead : bytes.head? = some m.lead
  pos : 0 < m.length
  inside : m.length ≤ bytes.length
  begins : m.length = 1 ∨ Begins (bytes.take m.length)
  longest : ∀ front, front <+: bytes → Begins front → front.length ≤ m.length
  flaw : match m.flaw with
    | .invalidStart => ¬ Begins [m.lead]
    | .invalidContinuation => Begins [m.lead] ∧ ¬ Begins bytes
    | .unexpectedEnd => Begins bytes

/-- The fault that follows the longest well-formed front of some bytes. -/
structure Malformed.FirstOf (m : Malformed) (bytes : List UInt8) : Prop where
  before : WellFormed (bytes.take m.position)
  longest : ∀ front, front <+: bytes → WellFormed front → front.length ≤ m.position
  fault : m.AtFront (bytes.drop m.position)

theorem Begins.of_prefix {front front' : List UInt8} (h : Begins front') (shorter : front <+: front') :
    Begins front := by
  obtain ⟨c, whole⟩ := begins_iff.1 h
  exact begins_iff.2 ⟨c, shorter.trans whole⟩

theorem Begins.lead {bytes : List UInt8} {byte : UInt8} (h : Begins bytes)
    (lead : bytes.head? = some byte) : Begins [byte] := by
  cases bytes with
  | nil => cases lead
  | cons first rest =>
    cases lead
    exact h.of_prefix ⟨rest, rfl⟩

/-- A pending character has begun with the bytes taken so far: the code points that fit are the ones whose
sequences begin so. -/
structure Begun (pending : Pending) (taken : List UInt8) : Prop where
  lead : taken.head? = some pending.lead
  length : taken.length = pending.taken
  waits : pending.Waits
  encode : ∀ {code}, pending.Fits code →
    String.utf8EncodeChar (Char.ofNat code) = taken ++ tailBytes pending.wanted code
  fits : ∀ {c : Char}, taken <+: String.utf8EncodeChar c → pending.Fits c.toNat

theorem Pending.Waits.exists_fits {pending : Pending} (waits : pending.Waits) :
    ∃ code, pending.Fits code := by
  obtain ⟨least, some, most⟩ := waits
  have next : (pending.code * 64 + (pending.low - 0x80)) * 64 ^ pending.wanted / 64 ^ pending.wanted
      = pending.code * 64 + (pending.low - 0x80) := Nat.mul_div_cancel _ (Nat.pow_pos (by decide))
  refine ⟨(pending.code * 64 + (pending.low - 0x80)) * 64 ^ pending.wanted, ?_, ?_, ?_⟩
  · rw [Nat.pow_succ, ← Nat.div_div_eq_div_mul, next]
    omega
  · rw [next]
    omega
  · rw [next]
    omega

theorem tailByte_of_prefix {byte : UInt8} {wanted code : Nat} (h : [byte] <+: tailBytes wanted code) :
    code / 64 ^ wanted % 64 + 0x80 = byte.toNat := by
  cases wanted with
  | zero =>
    rw [(List.cons_prefix_cons.1 h).1, toNat_tailByte, Nat.pow_zero, Nat.div_one]
  | succ wanted =>
    rw [(List.cons_prefix_cons.1 h).1, toNat_tailByte]

/-- The byte that begins the sequence of a longer character begins a character that fits it. -/
theorem exists_begin?_of_prefix {byte : UInt8} {c : Char} (large : ¬ byte.toNat < 0x80)
    (h : [byte] <+: String.utf8EncodeChar c) :
    ∃ pending, begin? byte = some pending ∧ pending.Fits c.toNat := by
  by_cases small : c.toNat < 0x80
  · rw [encodeChar_of_lt small] at h
    rw [(List.cons_prefix_cons.1 h).1, UInt8.toNat_ofNat'] at large
    omega
  · obtain ⟨first, wanted, leads⟩ := exists_leads (Nat.not_lt.1 small)
    rw [leads.encodeChar] at h
    obtain ⟨pending, begun, -, fits⟩ := leads.begin?
    exact ⟨pending, (List.cons_prefix_cons.1 h).1 ▸ begun, fits⟩

theorem begun_of_begin? {byte : UInt8} {pending : Pending} (large : ¬ byte.toNat < 0x80)
    (h : begin? byte = some pending) : Begun pending [byte] := by
  have fields : pending.lead = byte ∧ pending.taken = 1 := by
    rcases begin?_eq_some h with ⟨_, -, -, -, rfl⟩ | ⟨_, _, _, -, -, rfl, -⟩ | ⟨_, _, _, -, -, rfl, -⟩
    all_goals exact ⟨rfl, rfl⟩
  refine ⟨congrArg some fields.1.symm, fields.2.symm, Pending.waits_of_begin? h, ?_, ?_⟩
  · intro code fits
    exact (fits.leads h).encodeChar_ofNat
  · intro c front
    obtain ⟨pending', begun, fits⟩ := exists_begin?_of_prefix large front
    rw [h] at begun
    cases begun
    exact fits

namespace Begun

variable {pending : Pending} {taken : List UInt8} (begun : Begun pending taken)
include begun

theorem begins : Begins taken := by
  obtain ⟨code, fits⟩ := begun.waits.exists_fits
  exact begins_iff.2 ⟨Char.ofNat code, _, (begun.encode fits).symm⟩

/-- The next byte of a sequence that begins so. -/
theorem of_prefix {byte : UInt8} {c : Char} (front : taken ++ [byte] <+: String.utf8EncodeChar c) :
    pending.Fits c.toNat ∧ c.toNat / 64 ^ pending.wanted % 64 + 0x80 = byte.toNat := by
  have fits := begun.fits ((List.prefix_append ..).trans front)
  have whole := begun.encode fits
  rw [Char.ofNat_toNat] at whole
  rw [whole] at front
  exact ⟨fits, tailByte_of_prefix ((List.prefix_append_right_inj taken).1 front)⟩

theorem last {byte : UInt8} (last : pending.wanted = 0) (low : pending.low ≤ byte.toNat)
    (high : byte.toNat ≤ pending.high) :
    String.utf8EncodeChar (Char.ofNat (pending.code * 64 + (byte.toNat - 0x80))) = taken ++ [byte] := by
  obtain ⟨fits, value⟩ := begun.waits.fits_last last low high
  rw [begun.encode fits, last, tailBytes, ofNat_tailByte byte value]

theorem next {byte : UInt8} {wanted : Nat} (more : pending.wanted = wanted + 1)
    (low : pending.low ≤ byte.toNat) (high : byte.toNat ≤ pending.high) :
    Begun (pending.next byte wanted) (taken ++ [byte]) where
  lead := by
    rw [List.head?_append, begun.lead]
    rfl
  length := by
    rw [List.length_append, begun.length]
    rfl
  waits := pending.waits_next byte wanted
  encode := by
    intro code fits'
    obtain ⟨fits, value⟩ := fits'.of_next begun.waits more low high
    rw [begun.encode fits, more, tailBytes_of_more, ofNat_tailByte byte value, List.append_assoc]
    rfl
  fits := by
    intro c front
    obtain ⟨fits, value⟩ := begun.of_prefix front
    rw [more] at value
    exact fits.next more value

/-- A character that cannot go on is a fault from its first byte up to where it stops. -/
theorem atFront {next : Nat} {flaw : Flaw} {bytes : List UInt8}
    (longest : ∀ front, front <+: taken ++ bytes → Begins front → front.length ≤ taken.length)
    (cause : match flaw with
      | .invalidStart => ¬ Begins [pending.lead]
      | .invalidContinuation => Begins [pending.lead] ∧ ¬ Begins (taken ++ bytes)
      | .unexpectedEnd => Begins (taken ++ bytes)) :
    (pending.malformed next flaw).AtFront (taken ++ bytes) := by
  have range : (pending.malformed next flaw).length = taken.length := begun.length.symm
  have lead := begun.lead
  refine ⟨?_, ?_, ?_, .inr ?_, ?_, cause⟩
  · rw [List.head?_append, lead]
    rfl
  · rw [range]
    cases taken with
    | nil => cases lead
    | cons => exact Nat.succ_pos _
  · rw [range, List.length_append]
    exact Nat.le_add_right ..
  · rw [range, List.take_left]
    exact begun.begins
  · rw [range]
    exact longest

theorem position (start : Nat) (flaw : Flaw) :
    (pending.malformed (start + taken.length) flaw).position = start := by
  rw [begun.length]
  exact Nat.add_sub_cancel ..

theorem ended (next : Nat) : (pending.malformed next .unexpectedEnd).AtFront taken := by
  have whole := List.append_nil taken
  rw [← whole]
  apply begun.atFront
  · intro front shorter _
    rw [whole] at shorter
    exact shorter.length_le
  · rw [whole]
    exact begun.begins

theorem refused (next : Nat) {byte : UInt8} (rest : List UInt8)
    (outside : ¬ (pending.low ≤ byte.toNat ∧ byte.toNat ≤ pending.high)) :
    (pending.malformed next .invalidContinuation).AtFront (taken ++ byte :: rest) := by
  have one : taken ++ [byte] <+: taken ++ byte :: rest := ⟨rest, by simp⟩
  have stuck : ¬ Begins (taken ++ [byte]) := by
    intro begins
    obtain ⟨c, front⟩ := begins_iff.1 begins
    obtain ⟨fits, value⟩ := begun.of_prefix front
    rw [← value] at outside
    exact outside ⟨fits.low, fits.high⟩
  apply begun.atFront
  · intro front shorter begins
    apply Nat.le_of_not_lt
    intro longer
    have inside : taken ++ [byte] <+: front := by
      apply List.prefix_of_prefix_length_le one shorter
      rw [List.length_append]
      exact longer
    exact stuck (begins.of_prefix inside)
  · refine ⟨begun.begins.lead begun.lead, ?_⟩
    intro begins
    exact stuck (begins.of_prefix one)

end Begun

theorem encode_cons (c : Char) (text : Text) :
    encode (c :: text) = String.utf8EncodeChar c ++ encode text := rfl

theorem decodeFrom_encode_append (next : Nat) (text : Text) (rest : List UInt8) :
    decodeFrom next none (encode text ++ rest)
      = (decodeFrom (next + (encode text).length) none rest).map (text ++ ·) := by
  induction text generalizing next with
  | nil =>
    change _ = (decodeFrom next none rest).map id
    rw [Except.map_id]
    rfl
  | cons c text ih =>
    rw [encode_cons, List.append_assoc, decodeFrom_encodeChar, ih, List.length_append, ← Nat.add_assoc]
    cases decodeFrom _ none rest <;> rfl

theorem eq_error_of_map {result : Except Malformed Text} {more : Text → Text} {m : Malformed}
    (h : result.map more = .error m) : result = .error m := by
  cases result with
  | error => exact h
  | ok => cases h

/-- A character that has begun is completed, or it is the fault. -/
theorem Begun.decodeFrom_error {pending : Pending} {taken : List UInt8} (begun : Begun pending taken)
    {start : Nat} {bytes : List UInt8} {m : Malformed}
    (h : decodeFrom (start + taken.length) (some pending) bytes = .error m) :
    (m.position = start ∧ m.AtFront (taken ++ bytes)) ∨
    ∃ c rest, taken ++ bytes = String.utf8EncodeChar c ++ rest ∧
      decodeFrom (start + (String.utf8EncodeChar c).length) none rest = .error m := by
  induction bytes generalizing pending taken with
  | nil =>
    cases h
    rw [List.append_nil]
    exact .inl ⟨begun.position start _, begun.ended _⟩
  | cons byte rest ih =>
    have later : start + taken.length + 1 = start + (taken ++ [byte]).length := by
      rw [List.length_append, ← Nat.add_assoc]
      rfl
    have shifted : taken ++ byte :: rest = taken ++ [byte] ++ rest := by simp
    by_cases inside : pending.low ≤ byte.toNat ∧ byte.toNat ≤ pending.high
    · obtain ⟨low, high⟩ := inside
      cases count : pending.wanted with
      | zero =>
        have whole := begun.last count low high
        rw [decodeFrom, Pending.add_of_last count low high, later] at h
        have completed := eq_error_of_map h
        rw [← whole] at completed
        refine .inr ⟨_, rest, ?_, completed⟩
        rw [whole, shifted]
      | succ wanted =>
        rw [decodeFrom, Pending.add_of_more count low high, later] at h
        rw [shifted]
        exact ih (begun.next count low high) h
    · rw [decodeFrom, Pending.add_of_outside inside] at h
      cases h
      exact .inl ⟨begun.position start _, begun.refused _ rest inside⟩

theorem atFront_of_begin?_eq_none {byte : UInt8} (large : ¬ byte.toNat < 0x80) (none : begin? byte = none)
    (next : Nat) (rest : List UInt8) :
    Malformed.AtFront ⟨next, byte, 1, .invalidStart⟩ (byte :: rest) := by
  have stuck : ¬ Begins [byte] := by
    intro begins
    obtain ⟨c, front⟩ := begins_iff.1 begins
    obtain ⟨pending, begun, -⟩ := exists_begin?_of_prefix large front
    rw [none] at begun
    cases begun
  refine ⟨rfl, Nat.one_pos, Nat.succ_pos _, .inl rfl, ?_, stuck⟩
  intro front shorter begins
  cases front with
  | nil => exact Nat.zero_le 1
  | cons first more =>
    rw [(List.cons_prefix_cons.1 shorter).1] at begins
    exact absurd (begins.of_prefix ⟨more, rfl⟩) stuck

/-- A character is read from the front, or the fault is there. -/
theorem decodeFrom_error {next : Nat} {bytes : List UInt8} {m : Malformed}
    (h : decodeFrom next none bytes = .error m) : (m.position = next ∧ m.AtFront bytes) ∨
      ∃ c rest, bytes = String.utf8EncodeChar c ++ rest ∧
        decodeFrom (next + (String.utf8EncodeChar c).length) none rest = .error m := by
  cases bytes with
  | nil => cases h
  | cons byte rest =>
    by_cases small : byte.toNat < 0x80
    · have whole := encodeChar_of_byte small
      rw [decodeFrom_of_lt small] at h
      refine .inr ⟨Char.ofNat byte.toNat, rest, ?_, ?_⟩
      · rw [whole, List.singleton_append]
      · rw [whole]
        exact eq_error_of_map h
    · rw [decodeFrom_of_begin? small] at h
      split at h
      · rename_i begun
        exact (begun_of_begin? small begun).decodeFrom_error h
      · rename_i none
        cases h
        exact .inl ⟨rfl, atFront_of_begin?_eq_none small none next rest⟩

/-- Up to where decoding stops there is a text, and from there on a fault. -/
theorem exists_text_of_decodeFrom {next : Nat} {bytes : List UInt8} {m : Malformed}
    (h : decodeFrom next none bytes = .error m) : ∃ text rest, bytes = encode text ++ rest ∧
      m.position = next + (encode text).length ∧ m.AtFront rest := by
  induction count : bytes.length using Nat.strongRecOn generalizing next bytes with
  | ind n ih =>
    rcases decodeFrom_error h with ⟨place, fault⟩ | ⟨c, left, rfl, stopped⟩
    · exact ⟨[], bytes, rfl, place, fault⟩
    · have some := String.length_utf8EncodeChar c ▸ c.utf8Size_pos
      have shorter : left.length < n := by
        rw [← count, List.length_append]
        omega
      obtain ⟨text, rest, rfl, place, fault⟩ := ih _ shorter stopped rfl
      refine ⟨c :: text, rest, ?_, ?_, fault⟩
      · rw [encode_cons, List.append_assoc]
      · rw [place, encode_cons, List.length_append, Nat.add_assoc]

theorem Malformed.FirstOf.of_decode {m : Malformed} {bytes : List UInt8} (h : decode bytes = .error m) :
    m.FirstOf bytes := by
  obtain ⟨text, rest, whole, place, fault⟩ := exists_text_of_decodeFrom h
  rw [Nat.zero_add] at place
  constructor
  · rw [whole, place, List.take_left]
    exact wellFormed_encode text
  · rintro front ⟨left, split⟩ wellFormed
    obtain ⟨text', rfl⟩ := wellFormed_iff.1 wellFormed
    rw [decode, ← split, decodeFrom_encode_append, Nat.zero_add] at h
    obtain ⟨_, _, _, later, _⟩ := exists_text_of_decodeFrom (eq_error_of_map h)
    omega
  · rw [whole, place, List.drop_left]
    exact fault

namespace Malformed

/-- Of two faults at the front of the same bytes, neither is longer. -/
theorem AtFront.length_le {m m' : Malformed} {bytes : List UInt8} (h : m.AtFront bytes)
    (h' : m'.AtFront bytes) : m.length ≤ m'.length := by
  rcases h.begins with one | begins
  · rw [one]
    exact h'.pos
  · have longest := h'.longest _ (List.take_prefix ..) begins
    rwa [List.length_take, Nat.min_eq_left h.inside] at longest

theorem AtFront.flaw_eq {m m' : Malformed} {bytes : List UInt8} (h : m.AtFront bytes)
    (h' : m'.AtFront bytes) (lead : m.lead = m'.lead) : m.flaw = m'.flaw := by
  have begins (whole : Begins bytes) : Begins [m.lead] := whole.lead h.lead
  have cause := h.flaw
  have cause' := h'.flaw
  rw [← lead] at cause'
  revert cause cause'
  cases m.flaw <;> cases m'.flaw <;> intro cause cause'
  case invalidStart.invalidStart | invalidContinuation.invalidContinuation |
    unexpectedEnd.unexpectedEnd => rfl
  case invalidStart.invalidContinuation => exact absurd cause'.1 cause
  case invalidStart.unexpectedEnd => exact absurd (begins cause') cause
  case invalidContinuation.invalidStart => exact absurd cause.1 cause'
  case invalidContinuation.unexpectedEnd => exact absurd cause' cause.2
  case unexpectedEnd.invalidStart => exact absurd (begins cause) cause'
  case unexpectedEnd.invalidContinuation => exact absurd cause cause'.2

theorem FirstOf.position_lt {m : Malformed} {bytes : List UInt8} (h : m.FirstOf bytes) :
    m.position < bytes.length := by
  apply Nat.lt_of_not_le
  intro past
  have lead := h.fault.lead
  rw [List.drop_of_length_le past] at lead
  cases lead

theorem FirstOf.position_le {m m' : Malformed} {bytes : List UInt8} (h : m.FirstOf bytes)
    (h' : m'.FirstOf bytes) : m.position ≤ m'.position := by
  have longest := h'.longest _ (List.take_prefix ..) h.before
  rwa [List.length_take, Nat.min_eq_left (Nat.le_of_lt h.position_lt)] at longest

/-- The bytes settle what their first fault is. -/
theorem FirstOf.unique {m m' : Malformed} {bytes : List UInt8} (h : m.FirstOf bytes)
    (h' : m'.FirstOf bytes) : m = m' := by
  have place : m.position = m'.position := Nat.le_antisymm (h.position_le h') (h'.position_le h)
  have fault := h.fault
  have fault' := h'.fault
  rw [← place] at fault'
  have lead : m.lead = m'.lead := Option.some.inj (fault.lead.symm.trans fault'.lead)
  have length : m.length = m'.length := Nat.le_antisymm (fault.length_le fault') (fault'.length_le fault)
  have flaw : m.flaw = m'.flaw := fault.flaw_eq fault' lead
  cases m
  cases m'
  cases place
  cases lead
  cases length
  cases flaw
  rfl

end Malformed

/-- Exactly the first fault of the bytes is reported. -/
theorem decode_eq_error_iff {bytes : List UInt8} {m : Malformed} :
    decode bytes = .error m ↔ m.FirstOf bytes := by
  constructor
  · exact Malformed.FirstOf.of_decode
  · intro h
    cases decoded : decode bytes with
    | ok text =>
      have whole := wellFormed_iff.2 ⟨text, decode_eq_ok_iff.1 decoded⟩
      exact absurd (h.longest bytes (List.prefix_refl _) whole) (Nat.not_le.2 h.position_lt)
    | error m' => rw [h.unique (.of_decode decoded)]

end ScriptLexer.Utf8
