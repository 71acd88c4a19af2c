import ScriptLexer.Double.Rounding

/-! Rounding depends on the quotient alone and leaves every double where it is. Past the largest double
there is only infinity, and below half of the smallest one only zero. -/
namespace ScriptLexer

theorem roundHalfEven_mul (n d : Nat) {k : Nat} (h : 0 < k) :
    roundHalfEven (n * k) (d * k) = roundHalfEven n d := by
  have twice : 2 * (n % d * k) = 2 * (n % d) * k := by rw [Nat.mul_assoc]
  simp only [roundHalfEven, Nat.mul_div_mul_right n d h, Nat.mul_mod_mul_right, twice,
    Nat.mul_lt_mul_right h]

theorem roundHalfEven_of_dvd (q : Nat) {d : Nat} (h : 0 < d) : roundHalfEven (q * d) d = q := by
  simp [roundHalfEven, Nat.mul_div_cancel q h, h]

theorem roundHalfEven_cases (n d : Nat) : roundHalfEven n d = n / d ∨ roundHalfEven n d = n / d + 1 := by
  unfold roundHalfEven
  dsimp only
  split
  · exact .inl rfl
  · split
    · exact .inr rfl
    · omega

theorem roundHalfEven_of_lt {n d : Nat} (h : 2 * n < d) : roundHalfEven n d = 0 := by
  have below : n < d := by omega
  simp [roundHalfEven, Nat.div_eq_of_lt below, Nat.mod_eq_of_lt below, h]

namespace Double

theorem two_pow_pos (n : Nat) : 0 < Nat.pow 2 n := Nat.pow_pos (by decide)

theorem mul_two_pow_zero (n : Nat) : n * Nat.pow 2 0 = n := Nat.mul_one n

theorem nearestRank_mul (n d : Nat) {k : Nat} (h : 0 < k) :
    nearestRank (n * k) (d * k) = nearestRank n d := by
  have scaled : n * k * Nat.pow 2 unitBits = n * Nat.pow 2 unitBits * k := Nat.mul_right_comm ..
  have grid (shift : Nat) : d * k * Nat.pow 2 shift = d * Nat.pow 2 shift * k := Nat.mul_right_comm ..
  simp only [nearestRank, scaled, grid, Nat.mul_div_mul_right _ _ h, roundHalfEven_mul _ _ h]

theorem nearestRank_congr {n d n' d' : Nat} (h : 0 < d) (h' : 0 < d') (same : n * d' = n' * d) :
    nearestRank n d = nearestRank n' d' := by
  calc
    nearestRank n d = nearestRank (n * d') (d * d') := (nearestRank_mul n d h').symm
    _ = nearestRank (n' * d) (d' * d) := by rw [same, Nat.mul_comm d d']
    _ = nearestRank n' d' := nearestRank_mul n' d' h

theorem ofRatio_congr {n d n' d' : Nat} (h : 0 < d) (h' : 0 < d') (same : n * d' = n' * d) :
    ofRatio n d = ofRatio n' d' :=
  congrArg (Double.signed false) (Fin.ext (nearestRank_congr h h' same))

/-- A rank is an exponent field before a fraction field; the least exponent has no leading bit. -/
theorem units_cases (rank : Nat) :
    (rank < Nat.pow 2 fractionBits ∧ units rank = rank) ∨
    ∃ shift fraction, fraction < Nat.pow 2 fractionBits ∧
      rank = shift * Nat.pow 2 fractionBits + (Nat.pow 2 fractionBits + fraction) ∧
      units rank = (Nat.pow 2 fractionBits + fraction) * Nat.pow 2 shift := by
  have whole := Nat.div_add_mod rank (Nat.pow 2 fractionBits)
  have fraction := Nat.mod_lt rank (two_pow_pos fractionBits)
  unfold units
  cases exponent : rank / Nat.pow 2 fractionBits with
  | zero =>
    rw [exponent, Nat.mul_zero, Nat.zero_add] at whole
    exact .inl ⟨whole ▸ fraction, by simpa using whole⟩
  | succ shift =>
    refine .inr ⟨shift, _, fraction, ?_, by simp⟩
    rw [exponent, Nat.mul_succ] at whole
    rw [Nat.mul_comm shift, ← Nat.add_assoc, whole]

theorem log2_units {shift fraction : Nat} (h : fraction < Nat.pow 2 fractionBits) :
    ((Nat.pow 2 fractionBits + fraction) * Nat.pow 2 shift).log2 - fractionBits = shift := by
  have lower : 2 ^ (fractionBits + shift) ≤ (2 ^ fractionBits + fraction) * 2 ^ shift := by
    rw [Nat.pow_add]
    exact Nat.mul_le_mul_right _ (Nat.le_add_right ..)
  have upper : (2 ^ fractionBits + fraction) * 2 ^ shift < 2 ^ (fractionBits + shift + 1) := by
    rw [Nat.add_right_comm, Nat.pow_add, Nat.pow_succ, Nat.mul_two]
    exact Nat.mul_lt_mul_of_pos_right (Nat.add_lt_add_left h _) (Nat.two_pow_pos _)
  have some : (2 ^ fractionBits + fraction) * 2 ^ shift ≠ 0 :=
    Nat.ne_of_gt (Nat.lt_of_lt_of_le (Nat.two_pow_pos _) lower)
  have exact : ((2 ^ fractionBits + fraction) * 2 ^ shift).log2 = fractionBits + shift :=
    (Nat.log2_eq_iff some).2 ⟨lower, upper⟩
  simp only [Nat.pow_eq, exact, Nat.add_sub_cancel_left]

theorem nearestRank_units {rank : Nat} (h : rank ≤ infinityRank) :
    nearestRank (units rank) (Nat.pow 2 unitBits) = rank := by
  have positive := two_pow_pos unitBits
  unfold nearestRank
  dsimp only
  rw [Nat.mul_div_cancel _ positive]
  rcases units_cases rank with ⟨small, value⟩ | ⟨shift, fraction, below, place, value⟩
  · have none : rank.log2 - fractionBits = 0 := by
      rcases Nat.eq_zero_or_pos rank with rfl | some
      · rfl
      · exact Nat.sub_eq_zero_of_le (Nat.le_of_lt ((Nat.log2_lt (Nat.ne_of_gt some)).2 small))
    rw [value, none, mul_two_pow_zero, roundHalfEven_of_dvd _ positive, Nat.zero_mul, Nat.zero_add,
      Nat.min_eq_right h]
  · have grid : (Nat.pow 2 fractionBits + fraction) * Nat.pow 2 shift * Nat.pow 2 unitBits
        = (Nat.pow 2 fractionBits + fraction) * (Nat.pow 2 unitBits * Nat.pow 2 shift) := by
      rw [Nat.mul_assoc, Nat.mul_comm (Nat.pow 2 shift)]
    rw [value, log2_units below, grid,
      roundHalfEven_of_dvd _ (Nat.mul_pos positive (two_pow_pos shift)), ← place, Nat.min_eq_right h]

theorem nearestRank_eq_zero {n d : Nat} (h : 2 * (n * Nat.pow 2 unitBits) < d) : nearestRank n d = 0 := by
  have none : n * Nat.pow 2 unitBits / d = 0 := Nat.div_eq_of_lt (by omega)
  unfold nearestRank
  dsimp only
  rw [none, Nat.log2_zero, Nat.zero_sub, mul_two_pow_zero, roundHalfEven_of_lt h, Nat.zero_mul, Nat.min_zero]

theorem nearestRank_eq_infinityRank {n d k : Nat} (h : 0 < d) (huge : 1024 ≤ k)
    (large : d * Nat.pow 2 k ≤ n) : nearestRank n d = infinityRank := by
  have quotient : 2 ^ (k + unitBits) ≤ n * Nat.pow 2 unitBits / d := by
    apply (Nat.le_div_iff_mul_le h).2
    calc
      2 ^ (k + unitBits) * d = d * Nat.pow 2 k * Nat.pow 2 unitBits := by
        rw [Nat.pow_eq, Nat.pow_eq, Nat.pow_add, Nat.mul_comm, Nat.mul_assoc]
      _ ≤ n * Nat.pow 2 unitBits := Nat.mul_le_mul_right _ large
  unfold nearestRank
  dsimp only
  generalize n * Nat.pow 2 unitBits = scaled at quotient ⊢
  have some : scaled / d ≠ 0 := Nat.ne_of_gt (Nat.lt_of_lt_of_le (Nat.two_pow_pos _) quotient)
  have exponent : k + unitBits ≤ (scaled / d).log2 := (Nat.le_log2 some).2 quotient
  have leading := Nat.log2_self_le some
  have bits : unitBits = 1074 ∧ fractionBits = 52 := ⟨rfl, rfl⟩
  obtain ⟨shift, whole⟩ : ∃ shift, (scaled / d).log2 = fractionBits + shift :=
    Nat.exists_eq_add_of_le (by omega)
  have significand : Nat.pow 2 fractionBits ≤ scaled / (d * Nat.pow 2 shift) := by
    rw [← Nat.div_div_eq_div_mul, Nat.le_div_iff_mul_le (two_pow_pos shift)]
    rwa [whole, Nat.pow_add] at leading
  have rounded := roundHalfEven_cases scaled (d * Nat.pow 2 shift)
  have fields : 2046 * Nat.pow 2 fractionBits ≤ shift * Nat.pow 2 fractionBits :=
    Nat.mul_le_mul_right _ (by omega)
  have infinite : infinityRank = 2046 * Nat.pow 2 fractionBits + Nat.pow 2 fractionBits := rfl
  rw [whole, Nat.add_sub_cancel_left]
  exact Nat.min_eq_left (by omega)

end Double

end ScriptLexer
