import Mathlib.Data.List.DropRight
import ScriptLexer.Double.Decimal
import ScriptLexer.Proofs.Double.Rounding
import ScriptLexer.Proofs.Json.Grammar

/-! The texts of integers and of finite doubles are JSON numbers. The digits of a double are those of a
positive integer, for zero digits read back as zero; so they start with a digit that is not zero. -/
namespace ScriptLexer

open JsonText

/-- Digits that start with another digit than zero. -/
structure Leading (text : Text) : Prop extends Digits text where
  head : text.head? ≠ some '0'

theorem Leading.isWhole {text : Text} (h : Leading text) : IsWhole text := .digits h.toDigits h.head

theorem leading_decimal {n : Nat} (h : 0 < n) : Leading (decimal n) := by
  refine ⟨digits_decimal n, ?_⟩
  induction n using Nat.strong_induction_on with
  | _ n ih =>
    unfold decimal at ih ⊢
    rcases Nat.lt_or_ge n 10 with small | large
    · have table : ∀ n < 10, 0 < n → Nat.digitChar n ≠ '0' := by decide
      rw [Nat.toDigits_of_lt_base small]
      exact fun zero => table n small h (Option.some.inj zero)
    · rw [Nat.toDigits_of_base_le (by decide) large, List.head?_append_of_ne_nil _ Nat.toDigits_ne_nil]
      exact ih (n / 10) (Nat.div_lt_self h (by decide)) (Nat.div_pos large (by decide))

theorem isWhole_decimal (n : Nat) : IsWhole (decimal n) := by
  cases n with
  | zero => exact .zero
  | succ n => exact (leading_decimal n.succ_pos).isWhole

theorem isNumber_signedDecimal (n : Int) : IsNumber (signedDecimal n) := by
  cases n with
  | ofNat n => exact .plain (isWhole_decimal n).isMagnitude
  | negSucc n => exact .minus (isWhole_decimal (n + 1)).isMagnitude

theorem Digits.append {left right : Text} (h : Digits right) (digits : ∀ c ∈ left, c.isDigit) :
    Digits (left ++ right) :=
  ⟨fun none => h.nonempty (List.append_eq_nil_iff.1 none).2,
    fun c member => (List.mem_append.1 member).elim (digits c) (h.digits c)⟩

theorem Leading.append {left right : Text} (h : Leading left) (digits : ∀ c ∈ right, c.isDigit) :
    Leading (left ++ right) where
  nonempty none := h.nonempty (List.append_eq_nil_iff.1 none).1
  digits c member := (List.mem_append.1 member).elim (h.digits c) (digits c)
  head := by
    rw [List.head?_append_of_ne_nil _ h.nonempty]
    exact h.head

theorem Leading.take {text : Text} (h : Leading text) {n : Nat} (some : 0 < n) : Leading (text.take n) where
  nonempty none := by
    rcases List.take_eq_nil_iff.1 none with nothing | empty
    · exact absurd some (nothing ▸ Nat.lt_irrefl 0)
    · exact h.nonempty empty
  digits c member := h.digits c (List.mem_of_mem_take member)
  head := by
    rw [List.head?_take, if_neg (Nat.ne_of_gt some)]
    exact h.head

theorem Digits.drop {text : Text} (h : Digits text) {n : Nat} (more : n < text.length) :
    Digits (text.drop n) where
  nonempty none := absurd (List.drop_eq_nil_iff.1 none) (Nat.not_le_of_lt more)
  digits c member := h.digits c (List.mem_of_mem_drop member)

namespace Double

theorem isDigit_of_mem_zeros {count : Nat} {c : Char} (h : c ∈ zeros count) : c.isDigit := by
  rw [List.eq_of_mem_replicate h]
  decide

theorem nearestRank_zero (d : Nat) : nearestRank 0 d = 0 := by
  have round (d : Nat) : roundHalfEven 0 d = 0 := by simp [roundHalfEven]
  unfold nearestRank
  dsimp only
  rw [Nat.zero_mul, Nat.zero_div, Nat.log2_zero, Nat.zero_sub, Nat.zero_mul, Nat.zero_add, round,
    Nat.min_zero]

theorem ofScaled_zero (exponent : Int) : ofScaled 0 exponent = .signed false 0 := by
  have ratio (d : Nat) : ofRatio 0 d = .signed false 0 :=
    congrArg (Double.signed false) (Fin.ext (nearestRank_zero d))
  cases exponent with
  | ofNat e =>
    rw [ofScaled, Nat.zero_mul]
    exact ratio 1
  | negSucc e => exact ratio _

theorem digits_pos_of_readsBack {rank : Nat} {candidate : Scaled} (positive : 0 < rank)
    (h : readsBack rank candidate) : 0 < candidate.digits := by
  obtain ⟨digits, exponent⟩ := candidate
  apply Nat.pos_of_ne_zero
  rintro rfl
  rw [readsBack, ofScaled_zero] at h
  exact Nat.ne_of_lt positive (beq_iff_eq.1 h)

theorem readsBack_neighbour? {rank : Nat} {exponent : Int} {found : Scaled}
    (h : neighbour? rank exponent = some found) : readsBack rank found := by
  unfold neighbour? at h
  generalize scaledDown (units rank) exponent = ratio at h
  obtain ⟨n, d⟩ := ratio
  dsimp only at h
  split at h
  · rename_i below above
    have nearer := roundHalfEven_cases n d
    generalize roundHalfEven n d = digits at h nearer
    cases h
    rcases nearer with rfl | rfl
    · exact below
    · exact above
  · rename_i below _
    cases h
    exact below
  · rename_i _ above
    cases h
    exact above
  · cases h

theorem getD_cases {α : Type} (found? : Option α) (fallback : α) :
    found?.getD fallback = fallback ∨ found? = some (found?.getD fallback) := by
  cases found? with
  | none => exact .inl rfl
  | some found => exact .inr rfl

/-- The digits that are written read back, or they are those of the exact value. -/
theorem shortest_cases (rank : Nat) : shortest rank = exactDigits rank ∨ readsBack rank (shortest rank) := by
  rw [shortest]
  refine (getD_cases _ _).imp_right ?_
  intro search
  obtain ⟨n, -, near⟩ := List.exists_of_findSome?_eq_some search
  exact readsBack_neighbour? near

theorem units_pos {rank : Nat} (h : 0 < rank) : 0 < units rank := by
  have power (n : Nat) : 0 < Nat.pow 2 n := Nat.pow_pos (by decide)
  unfold units
  dsimp only
  split
  · rename_i small
    have whole := Nat.div_add_mod rank (Nat.pow 2 fractionBits)
    rw [small, Nat.mul_zero, Nat.zero_add] at whole
    rwa [whole]
  · exact Nat.mul_pos (Nat.add_pos_left (power _) _) (power _)

theorem digits_pos_exactDigits {rank : Nat} (h : 0 < rank) : 0 < (exactDigits rank).digits := by
  have power (n : Nat) : 0 < Nat.pow 5 n := Nat.pow_pos (by decide)
  exact Nat.mul_pos (units_pos h) (power unitBits)

theorem digits_pos_shortest {rank : Nat} (h : 0 < rank) : 0 < (shortest rank).digits := by
  rcases shortest_cases rank with exact | read
  · rw [exact]
    exact digits_pos_exactDigits h
  · exact digits_pos_of_readsBack h read

theorem leading_significantDigits {scaled : Scaled} (h : 0 < scaled.digits) :
    Leading (significantDigits scaled) := by
  have leading := leading_decimal h
  obtain ⟨rest, whole⟩ : significantDigits scaled <+: decimal scaled.digits :=
    List.rdropWhile_prefix (· == '0') (decimal scaled.digits)
  have some : significantDigits scaled ≠ [] := by
    intro none
    obtain ⟨c, later, text⟩ := List.exists_cons_of_ne_nil leading.nonempty
    have zeros := List.rdropWhile_eq_nil_iff.1 none c (by rw [text]; exact List.mem_cons_self)
    have head := leading.head
    rw [text, beq_iff_eq.1 zeros] at head
    exact head rfl
  refine ⟨⟨some, fun c member => leading.digits c ?_⟩, ?_⟩
  · rw [← whole]
    exact List.mem_append_left _ member
  · have same : (significantDigits scaled ++ rest).head? = (significantDigits scaled).head? :=
      List.head?_append_of_ne_nil _ some
    rw [← same, whole]
    exact leading.head

theorem isMagnitude_positional {digits : Text} (h : Leading digits) (place : Int) :
    IsMagnitude (positional digits place) := by
  unfold positional
  split
  · rename_i place
    split
    · exact IsWhole.zero.isMagnitude_point h.toDigits
    · rename_i some
      split
      · have zero : Digits ['0'] := digits_decimal 0
        exact (h.append fun _ => isDigit_of_mem_zeros).isWhole.isMagnitude_point zero
      · rename_i more
        exact (h.take (Nat.pos_of_ne_zero some)).isWhole.isMagnitude_point
          (h.toDigits.drop (Nat.lt_of_not_le more))
  · exact IsWhole.zero.isMagnitude_point (h.toDigits.append fun _ => isDigit_of_mem_zeros)

theorem isExponent_exponentText (exponent : Int) : IsExponent (exponentText exponent) := by
  have digits (count : Nat) : Digits (zeros count ++ decimal exponent.natAbs) :=
    (digits_decimal _).append fun _ => isDigit_of_mem_zeros
  have sign : [if exponent < 0 then '-' else '+'] ∈ [[], ['+'], ['-']] := by
    split <;> decide
  exact .mark (by decide) sign (digits _)

theorem isMagnitude_scientific {digits : Text} (h : Leading digits) (exponent : Int) :
    IsMagnitude (scientific digits exponent) := by
  have tail := isExponent_exponentText exponent
  obtain ⟨first, rest, rfl⟩ := List.exists_cons_of_ne_nil h.nonempty
  have whole : Leading [first] := h.take (n := 1) (by decide)
  cases rest with
  | nil => exact .parts whole.isWhole .none tail
  | cons next rest =>
    have decimals : Digits (next :: rest) := h.toDigits.drop (n := 1) (by simp)
    exact .parts whole.isWhole (.point decimals) tail

theorem isMagnitude_magnitudeText (rank : Nat) : IsMagnitude (magnitudeText rank) := by
  unfold magnitudeText
  split
  · exact IsWhole.zero.isMagnitude_point (digits_decimal 0)
  · rename_i positive
    have leading := leading_significantDigits (digits_pos_shortest (Nat.pos_of_ne_zero positive))
    dsimp only
    split
    · exact isMagnitude_positional leading _
    · exact isMagnitude_scientific leading _

end Double

end ScriptLexer
