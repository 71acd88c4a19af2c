import Mathlib.Algebra.Order.Ring.Unbundled.Rat
import Mathlib.Tactic.Linarith
import Mathlib.Tactic.Positivity
import ScriptLexer.Proofs.Double.Rounding

/-! Correct rounding. A number is rounded to a multiple of the spacing of its own binade, and the error is at
most half a spacing, so no other multiple is nearer; the doubles of a smaller spacing all lie below the
binade. Together with the bounds where zero and infinity take over, this is what rounding to nearest with
ties to even means, and it leaves only one double to round to. -/
namespace ScriptLexer

/-- The integer is nearest to the number, and even if another is as near. -/
structure NearestEven (x : ℚ) (r : ℕ) : Prop where
  error : |x - r| ≤ 1 / 2
  even : |x - r| = 1 / 2 → r % 2 = 0

namespace NearestEven

variable {x x' : ℚ} {r r' : ℕ}

theorem natCast (k : ℕ) : NearestEven k k := by
  constructor
  · simp
  · intro tie
    simp at tie

theorem le_add_half (h : NearestEven x r) : x ≤ r + 1 / 2 := by
  have := (abs_le.1 h.error).2
  linarith

theorem sub_half_le (h : NearestEven x r) : r - 1 / 2 ≤ x := by
  have := (abs_le.1 h.error).1
  linarith

/-- Two numbers in order round to integers in order. If they did not, both would be halfway between the same
two integers, and these would both be even. -/
theorem le (h : NearestEven x r) (h' : NearestEven x' r') (order : x ≤ x') : r ≤ r' := by
  by_contra turned
  have below := h.sub_half_le
  have above := h'.le_add_half
  have next : (r' : ℚ) + 1 ≤ r := by exact_mod_cast Nat.lt_of_not_le turned
  have halfway : x - r = -(1 / 2) := by linarith
  have halfway' : x' - r' = 1 / 2 := by linarith
  have same : (r : ℚ) = r' + 1 := by linarith
  have even := h.even (by rw [halfway, abs_neg, abs_of_pos one_half_pos])
  have even' := h'.even (by rw [halfway', abs_of_pos one_half_pos])
  have successor : r = r' + 1 := by exact_mod_cast same
  omega

theorem half_le_of_ne (h : NearestEven x r) {k : ℕ} (other : k ≠ r) : 1 / 2 ≤ |x - k| := by
  have below := h.sub_half_le
  have above := h.le_add_half
  rcases Nat.lt_or_gt_of_ne other with less | more
  · have next : (k : ℚ) + 1 ≤ r := by exact_mod_cast less
    exact le_trans (by linarith) (le_abs_self (x - k))
  · have next : (r : ℚ) + 1 ≤ k := by exact_mod_cast more
    exact le_trans (by linarith) (neg_le_abs (x - k))

theorem nearest (h : NearestEven x r) (k : ℕ) :
    |x - r| ≤ |x - k| ∧ (|x - k| = |x - r| → k = r ∨ r % 2 = 0) := by
  by_cases same : k = r
  · subst same
    exact ⟨le_refl _, fun _ => .inl rfl⟩
  · have apart := h.half_le_of_ne same
    refine ⟨le_trans h.error apart, ?_⟩
    intro tie
    exact .inr (h.even (le_antisymm h.error (tie ▸ apart)))

end NearestEven

theorem div_eq_floor_add (n : ℕ) {d : ℕ} (h : 0 < d) :
    (n : ℚ) / d = (n / d : ℕ) + (n % d : ℕ) / d := by
  have positive : (d : ℚ) ≠ 0 := by exact_mod_cast h.ne'
  have whole : (d : ℚ) * (n / d : ℕ) + (n % d : ℕ) = n := by exact_mod_cast Nat.div_add_mod n d
  rw [← whole, add_div, mul_div_cancel_left₀ _ positive]

theorem roundHalfEven_nearestEven (n : ℕ) {d : ℕ} (h : 0 < d) :
    NearestEven (n / d) (roundHalfEven n d) := by
  have positive : (0 : ℚ) < d := by exact_mod_cast h
  have floor := div_eq_floor_add n h
  have start : 0 ≤ ((n % d : ℕ) : ℚ) / d := by positivity
  have stop : ((n % d : ℕ) : ℚ) / d < 1 := by
    rw [div_lt_one positive]
    exact_mod_cast Nat.mod_lt n h
  unfold roundHalfEven
  dsimp only
  split
  · rename_i less
    have low : ((n % d : ℕ) : ℚ) / d < 1 / 2 := by
      rw [div_lt_div_iff₀ positive two_pos]
      exact_mod_cast (by omega : n % d * 2 < 1 * d)
    have size : |(n : ℚ) / d - (n / d : ℕ)| < 1 / 2 := by
      rw [floor, add_sub_cancel_left, abs_of_nonneg start]
      exact low
    exact ⟨size.le, fun tie => absurd tie size.ne⟩
  · split
    · rename_i more
      have high : 1 / 2 < ((n % d : ℕ) : ℚ) / d := by
        rw [div_lt_div_iff₀ two_pos positive]
        exact_mod_cast (by omega : 1 * d < n % d * 2)
      have size : |(n : ℚ) / d - (n / d + 1 : ℕ)| < 1 / 2 := by
        rw [floor, abs_lt]
        push_cast
        constructor <;> linarith
      exact ⟨size.le, fun tie => absurd tie size.ne⟩
    · have half : ((n % d : ℕ) : ℚ) / d = 1 / 2 := by
        rw [div_eq_div_iff positive.ne' two_ne_zero]
        exact_mod_cast (by omega : n % d * 2 = 1 * d)
      have even : (n / d + n / d % 2) % 2 = 0 := by omega
      refine ⟨?_, fun _ => even⟩
      rw [floor, half]
      rcases Nat.mod_two_eq_zero_or_one (n / d) with zero | one
      · rw [zero, Nat.add_zero, add_sub_cancel_left, abs_of_pos one_half_pos]
      · rw [one, abs_le]
        push_cast
        constructor <;> linarith

namespace Double

def value (rank : ℕ) : ℚ := units rank / 2 ^ unitBits

/-- A number that is neither negative nor infinite and that a double can hold. -/
def IsFiniteValue (v : ℚ) : Prop := ∃ m e : ℕ, m < 2 ^ 53 ∧ e ≤ 2045 ∧ v = m * 2 ^ e / 2 ^ 1074

theorem two_pow_fractionBits : Nat.pow 2 fractionBits = 2 ^ 52 := rfl

theorem infinityRank_eq : infinityRank = 2045 * Nat.pow 2 fractionBits + 2 ^ 53 := rfl

theorem units_fields {shift r : ℕ} (high : r ≤ 2 ^ 53) (low : shift = 0 ∨ 2 ^ 52 ≤ r) :
    units (shift * Nat.pow 2 fractionBits + r) = r * 2 ^ shift := by
  unfold units
  dsimp only
  rw [two_pow_fractionBits]
  rcases Nat.lt_or_ge r (2 ^ 52) with small | large
  · obtain rfl : shift = 0 := low.resolve_right (Nat.not_le_of_lt small)
    have field : (0 * 2 ^ 52 + r) / 2 ^ 52 = 0 := by omega
    have fraction : (0 * 2 ^ 52 + r) % 2 ^ 52 = r := by omega
    rw [field, fraction, if_pos rfl, pow_zero, mul_one]
  · rcases Nat.lt_or_eq_of_le high with inside | rfl
    · have field : (shift * 2 ^ 52 + r) / 2 ^ 52 = shift + 1 := by omega
      have fraction : 2 ^ 52 + (shift * 2 ^ 52 + r) % 2 ^ 52 = r := by omega
      rw [field, fraction, if_neg (Nat.succ_ne_zero shift), Nat.add_sub_cancel]
      rfl
    · -- The significand carries.
      have field : (shift * 2 ^ 52 + 2 ^ 53) / 2 ^ 52 = shift + 1 + 1 := by omega
      have fraction : (shift * 2 ^ 52 + 2 ^ 53) % 2 ^ 52 = 0 := by omega
      rw [field, fraction, if_neg (Nat.succ_ne_zero _), Nat.add_sub_cancel]
      change 2 ^ 52 * 2 ^ (shift + 1) = 2 ^ 53 * 2 ^ shift
      rw [← pow_add, ← pow_add]
      exact congrArg (2 ^ ·) (by omega)

theorem isFiniteValue_value {rank : ℕ} (h : rank < infinityRank) : IsFiniteValue (value rank) := by
  have bits := two_pow_fractionBits
  rw [infinityRank_eq, bits] at h
  rcases units_cases rank with ⟨small, units⟩ | ⟨shift, fraction, below, place, units⟩
  · rw [bits] at small
    refine ⟨rank, 0, by omega, Nat.zero_le _, ?_⟩
    rw [value, units, pow_zero, mul_one]
    rfl
  · rw [bits] at below place units
    refine ⟨2 ^ 52 + fraction, shift, by omega, by omega, ?_⟩
    rw [value, units, Nat.cast_mul, Nat.pow_eq, Nat.cast_pow]
    rfl

/-- A number, counted in units of the smallest double, has `r` as its significand at the spacing of its
binade; `shift` is the exponent of that spacing. -/
structure Fields (y : ℚ) (shift r : ℕ) : Prop where
  upper : y < 2 ^ 53 * 2 ^ shift
  lower : shift = 0 ∨ 2 ^ 52 * 2 ^ shift ≤ y
  rounded : NearestEven (y / 2 ^ shift) r

/-- A binade ends where the next one begins, or before. -/
theorem binade_le {shift shift' : ℕ} (less : shift < shift') :
    (2 : ℚ) ^ 53 * 2 ^ shift ≤ 2 ^ 52 * 2 ^ shift' := by
  rw [← pow_add, ← pow_add]
  exact pow_le_pow_right₀ one_le_two (by omega)

/-- Bits beyond a full significand make the spacing larger, so that it is full again. -/
theorem log2_spacing (k : ℕ) : k < 2 ^ 53 * 2 ^ (k.log2 - fractionBits) ∧
    (k.log2 - fractionBits = 0 ∨ 2 ^ 52 * 2 ^ (k.log2 - fractionBits) ≤ k) := by
  have bits : fractionBits = 52 := rfl
  rw [← pow_add, ← pow_add, bits]
  constructor
  · calc
      k < 2 ^ (k.log2 + 1) := Nat.lt_log2_self
      _ ≤ 2 ^ (53 + (k.log2 - 52)) := Nat.pow_le_pow_right two_pos (by omega)
  · rcases Nat.eq_zero_or_pos (k.log2 - 52) with none | some
    · exact .inl none
    · have whole : 52 + (k.log2 - 52) = k.log2 := by omega
      have positive : k ≠ 0 := by
        rintro rfl
        exact absurd some (by decide)
      rw [whole]
      exact .inr (Nat.log2_self_le positive)

theorem roundHalfEven_spaced (n : ℕ) {d : ℕ} (h : 0 < d) (shift : ℕ) :
    NearestEven (n / d / 2 ^ shift) (roundHalfEven n (d * Nat.pow 2 shift)) := by
  have spaced : ((d * Nat.pow 2 shift : ℕ) : ℚ) = d * 2 ^ shift := by
    rw [Nat.cast_mul, Nat.pow_eq, Nat.cast_pow, Nat.cast_ofNat]
  have rounded := roundHalfEven_nearestEven n (Nat.mul_pos h (two_pow_pos shift))
  rwa [spaced, ← div_div] at rounded

theorem nearestRank_fields (n : ℕ) {d : ℕ} (h : 0 < d) : ∃ shift r,
    Fields (n / d * 2 ^ unitBits) shift r ∧
      nearestRank n d = min infinityRank (shift * Nat.pow 2 fractionBits + r) := by
  have positive : (0 : ℚ) < d := by exact_mod_cast h
  have scaled : (n : ℚ) / d * 2 ^ unitBits = (n * Nat.pow 2 unitBits : ℕ) / d := by
    rw [Nat.cast_mul, Nat.pow_eq, Nat.cast_pow, Nat.cast_ofNat, div_mul_eq_mul_div]
  obtain ⟨upper, lower⟩ := log2_spacing (n * Nat.pow 2 unitBits / d)
  rw [scaled]
  refine ⟨_, _, ⟨?_, ?_, roundHalfEven_spaced _ h _⟩, rfl⟩
  · rw [div_lt_iff₀ positive]
    exact_mod_cast (Nat.div_lt_iff_lt_mul h).1 upper
  · refine lower.imp_right fun lower => ?_
    rw [le_div_iff₀ positive]
    exact_mod_cast (Nat.le_div_iff_mul_le h).1 lower

namespace Fields

variable {y y' : ℚ} {shift shift' r r' : ℕ}

theorem le_significand (h : Fields y shift r) {k : ℕ} (bound : k * 2 ^ shift ≤ y) : k ≤ r := by
  refine (NearestEven.natCast k).le h.rounded ?_
  rwa [le_div_iff₀ (by positivity)]

theorem significand_le (h : Fields y shift r) {k : ℕ} (bound : y ≤ k * 2 ^ shift) : r ≤ k := by
  refine h.rounded.le (NearestEven.natCast k) ?_
  rwa [div_le_iff₀ (by positivity)]

theorem high (h : Fields y shift r) : r ≤ 2 ^ 53 := by
  apply h.significand_le
  exact_mod_cast h.upper.le

theorem low (h : Fields y shift r) : shift = 0 ∨ 2 ^ 52 ≤ r := by
  refine h.lower.imp_right fun lower => h.le_significand ?_
  exact_mod_cast lower

/-- Larger numbers have larger fields. -/
theorem le (h : Fields y shift r) (h' : Fields y' shift' r') (order : y ≤ y') :
    shift * Nat.pow 2 fractionBits + r ≤ shift' * Nat.pow 2 fractionBits + r' := by
  have bits := two_pow_fractionBits
  have high := h.high
  have low := h'.low
  rw [bits]
  rcases Nat.lt_trichotomy shift shift' with less | rfl | more
  · omega
  · have rounded := h.rounded.le h'.rounded (div_le_div_of_nonneg_right order (by positivity))
    omega
  · have lower := h.lower.resolve_left (by omega)
    have apart := binade_le more
    exact absurd h'.upper (not_lt.2 (by linarith))

theorem distance (k : ℚ) : |y - k * 2 ^ shift| = |y / 2 ^ shift - k| * 2 ^ shift := by
  have positive : (0 : ℚ) < 2 ^ shift := by positivity
  have whole : y / 2 ^ shift * 2 ^ shift = y := div_mul_cancel₀ y positive.ne'
  rw [← abs_of_pos positive, ← abs_mul, abs_of_pos positive, sub_mul, whole]

theorem nearest_multiple (h : Fields y shift r) (k : ℕ) :
    |y - r * 2 ^ shift| ≤ |y - k * 2 ^ shift| ∧
      (|y - k * 2 ^ shift| = |y - r * 2 ^ shift| → k = r ∨ r % 2 = 0) := by
  have positive : (0 : ℚ) < 2 ^ shift := by positivity
  obtain ⟨near, tie⟩ := h.rounded.nearest k
  rw [distance, distance]
  refine ⟨mul_le_mul_of_nonneg_right near positive.le, fun equal => tie ?_⟩
  exact mul_right_cancel₀ positive.ne' equal

/-- Doubles of a smaller spacing lie below the binade, so the double that it begins with is nearer. -/
theorem nearest (h : Fields y shift r) {m e : ℕ} (small : m < 2 ^ 53) :
    |y - r * 2 ^ shift| ≤ |y - m * 2 ^ e| ∧
      (|y - m * 2 ^ e| = |y - r * 2 ^ shift| → (m * 2 ^ e : ℚ) = r * 2 ^ shift ∨ r % 2 = 0) := by
  rcases Nat.lt_or_ge e shift with less | reaches
  · have begins := h.lower.resolve_left (by omega)
    have below : (m * 2 ^ e : ℚ) < 2 ^ 52 * 2 ^ shift := by
      calc
        (m * 2 ^ e : ℚ) < 2 ^ 53 * 2 ^ e :=
          mul_lt_mul_of_pos_right (by exact_mod_cast small) (by positivity)
        _ ≤ 2 ^ 52 * 2 ^ shift := binade_le less
    have near := (h.nearest_multiple (2 ^ 52)).1
    have nearer : |y - (2 ^ 52 : ℕ) * 2 ^ shift| < |y - m * 2 ^ e| := by
      push_cast
      rw [abs_of_nonneg (by linarith), abs_of_pos (by linarith)]
      linarith
    exact ⟨(near.trans_lt nearer).le, fun tie => absurd tie (near.trans_lt nearer).ne'⟩
  · obtain ⟨more, rfl⟩ := Nat.exists_eq_add_of_le reaches
    have multiple : (m * 2 ^ (shift + more) : ℚ) = (m * 2 ^ more : ℕ) * 2 ^ shift := by
      push_cast
      rw [pow_add, mul_assoc, mul_comm ((2 : ℚ) ^ more)]
    obtain ⟨near, tie⟩ := h.nearest_multiple (m * 2 ^ more)
    rw [multiple]
    refine ⟨near, fun equal => (tie equal).imp_left fun same => ?_⟩
    rw [same]

/-- The tie between zero and the smallest double goes to zero. -/
theorem half : Fields (1 / 2) 0 0 := by
  refine ⟨by norm_num, .inl rfl, ?_, fun _ => rfl⟩
  norm_num

theorem eq_zero_iff (h : Fields y shift r) :
    shift * Nat.pow 2 fractionBits + r = 0 ↔ y ≤ 1 / 2 := by
  constructor
  · intro zero
    obtain ⟨none, rfl⟩ := Nat.add_eq_zero_iff.1 zero
    obtain rfl : shift = 0 := (Nat.mul_eq_zero.1 none).resolve_right (two_pow_pos _).ne'
    have error := h.rounded.le_add_half
    simpa using error
  · intro small
    exact Nat.le_zero.1 (h.le half small)

/-- The tie above the largest double goes to infinity. -/
theorem last : Fields ((2 ^ 53 - 1 / 2) * 2 ^ 2045) 2045 (2 ^ 53) := by
  have positive : (0 : ℚ) < 2 ^ 2045 := by positivity
  refine ⟨mul_lt_mul_of_pos_right (by norm_num) positive,
    .inr (mul_le_mul_of_nonneg_right (by norm_num) positive.le), ?_, fun _ => by decide⟩
  rw [mul_div_cancel_right₀ _ positive.ne']
  norm_num

theorem infinityRank_le_iff (h : Fields y shift r) :
    infinityRank ≤ shift * Nat.pow 2 fractionBits + r ↔ (2 ^ 53 - 1 / 2) * 2 ^ 2045 ≤ y := by
  have bits := two_pow_fractionBits
  have positive : (0 : ℚ) < 2 ^ 2045 := by positivity
  constructor
  · intro infinite
    have high := h.high
    rw [infinityRank_eq, bits] at infinite
    rcases Nat.lt_or_ge 2045 shift with beyond | least
    · have lower := h.lower.resolve_left (by omega)
      calc
        ((2 : ℚ) ^ 53 - 1 / 2) * 2 ^ 2045 ≤ 2 ^ 53 * 2 ^ 2045 :=
          mul_le_mul_of_nonneg_right (by norm_num) positive.le
        _ ≤ 2 ^ 52 * 2 ^ shift := binade_le beyond
        _ ≤ y := lower
    · obtain rfl : shift = 2045 := by omega
      obtain rfl : r = 2 ^ 53 := by omega
      have error := h.rounded.sub_half_le
      rw [le_div_iff₀ positive] at error
      exact_mod_cast error
  · intro large
    exact last.le h large

end Fields

/-- The double of the rank is a finite one nearest to the number, and its last bit is zero if another one is
as near. -/
structure Nearest (q : ℚ) (rank : ℕ) : Prop where
  finite : IsFiniteValue (value rank)
  nearest : ∀ v, IsFiniteValue v → |q - value rank| ≤ |q - v|
  even : ∀ v, IsFiniteValue v → |q - v| = |q - value rank| → v = value rank ∨ rank % 2 = 0

theorem distance_units (q k : ℚ) : |q - k / 2 ^ unitBits| = |q * 2 ^ unitBits - k| / 2 ^ unitBits := by
  have positive : (0 : ℚ) < 2 ^ unitBits := by positivity
  have whole : q * 2 ^ unitBits / 2 ^ unitBits = q := mul_div_cancel_right₀ q positive.ne'
  rw [← abs_of_pos positive, ← abs_div, abs_of_pos positive, sub_div, whole]

theorem Fields.nearest_rank {q : ℚ} {shift r : ℕ} (h : Fields (q * 2 ^ unitBits) shift r)
    (finite : shift * Nat.pow 2 fractionBits + r < infinityRank) :
    Nearest q (shift * Nat.pow 2 fractionBits + r) := by
  have bits := two_pow_fractionBits
  have positive : (0 : ℚ) < 2 ^ unitBits := by positivity
  have rank : value (shift * Nat.pow 2 fractionBits + r) = (r * 2 ^ shift : ℚ) / 2 ^ unitBits := by
    rw [value, units_fields h.high h.low, Nat.cast_mul, Nat.cast_pow, Nat.cast_ofNat]
  refine ⟨isFiniteValue_value finite, ?_, ?_⟩
  · rintro _ ⟨m, e, small, -, rfl⟩
    change _ ≤ |q - m * 2 ^ e / 2 ^ unitBits|
    rw [rank, distance_units, distance_units]
    exact div_le_div_of_nonneg_right (h.nearest small).1 positive.le
  · rintro _ ⟨m, e, small, -, rfl⟩ tie
    change |q - m * 2 ^ e / 2 ^ unitBits| = _ at tie
    rw [rank, distance_units, distance_units, div_left_inj' positive.ne'] at tie
    rcases (h.nearest small).2 tie with same | even
    · left
      rw [rank, ← same]
      rfl
    · right
      rw [bits]
      omega

/-- Correct rounding of a number that is not negative. -/
structure Rounded (q : ℚ) (rank : ℕ) : Prop where
  nearest : rank < infinityRank → Nearest q rank
  zero : rank = 0 ↔ q ≤ 1 / 2 ^ 1075
  infinite : rank = infinityRank ↔ 2 ^ 1024 - 2 ^ 970 ≤ q

theorem half_unit_le_iff {q : ℚ} : q * 2 ^ unitBits ≤ 1 / 2 ↔ q ≤ 1 / 2 ^ 1075 := by
  have positive : (0 : ℚ) < 2 ^ unitBits := by positivity
  have bits : (2 : ℚ) ^ 1075 = 2 * 2 ^ unitBits := pow_succ' 2 1074
  rw [bits, ← div_div, le_div_iff₀ positive]

theorem last_le_iff {q : ℚ} :
    (2 ^ 53 - 1 / 2) * 2 ^ 2045 ≤ q * 2 ^ unitBits ↔ 2 ^ 1024 - 2 ^ 970 ≤ q := by
  have positive : (0 : ℚ) < 2 ^ unitBits := by positivity
  have top : (2 : ℚ) ^ 53 * 2 ^ 2045 = 2 ^ 1024 * 2 ^ unitBits := by
    rw [← pow_add, ← pow_add]
    rfl
  have half : 1 / 2 * (2 : ℚ) ^ 2045 = 2 ^ 970 * 2 ^ unitBits := by
    have doubled : (2 : ℚ) ^ 2045 = 2 * 2 ^ (970 + unitBits) := pow_succ' 2 2044
    rw [doubled, one_div, inv_mul_cancel_left₀ two_ne_zero, pow_add]
  rw [sub_mul, top, half, ← sub_mul, mul_le_mul_iff_left₀ positive]

theorem nearestRank_rounded (n : ℕ) {d : ℕ} (h : 0 < d) : Rounded (n / d) (nearestRank n d) := by
  obtain ⟨shift, r, fields, rank⟩ := nearestRank_fields n h
  have some : 0 < infinityRank := by decide
  constructor
  · intro finite
    have inside : nearestRank n d = shift * Nat.pow 2 fractionBits + r := by omega
    rw [inside] at finite ⊢
    exact fields.nearest_rank finite
  · rw [← half_unit_le_iff, ← fields.eq_zero_iff]
    omega
  · rw [← last_le_iff, ← fields.infinityRank_le_iff]
    omega

example : nearestRank (2 ^ 53 + 1) 1 = nearestRank (2 ^ 53) 1 := by decide +kernel

example : nearestRank (2 ^ 53 + 3) 1 = nearestRank (2 ^ 53 + 4) 1 := by decide +kernel

theorem nearestRank_mono {n d n' d' : ℕ} (h : 0 < d) (h' : 0 < d') (order : (n / d : ℚ) ≤ n' / d') :
    nearestRank n d ≤ nearestRank n' d' := by
  obtain ⟨shift, r, fields, rank⟩ := nearestRank_fields n h
  obtain ⟨shift', r', fields', rank'⟩ := nearestRank_fields n' h'
  have inside := fields.le fields' (mul_le_mul_of_nonneg_right order (by positivity))
  rw [rank, rank']
  exact min_le_min_left infinityRank inside

theorem value_eq_div (rank : ℕ) : value rank = (units rank : ℚ) / (Nat.pow 2 unitBits : ℕ) := by
  rw [value, Nat.pow_eq, Nat.cast_pow, Nat.cast_ofNat]

theorem rank_le_of_value_le {rank rank' : ℕ} (h : rank ≤ infinityRank) (h' : rank' ≤ infinityRank)
    (order : value rank ≤ value rank') : rank ≤ rank' := by
  have positive := two_pow_pos unitBits
  rw [value_eq_div, value_eq_div] at order
  have ranks := nearestRank_mono positive positive order
  rwa [nearestRank_units h, nearestRank_units h'] at ranks

theorem value_lt {rank rank' : ℕ} (less : rank < rank') (h' : rank' ≤ infinityRank) :
    value rank < value rank' := by
  by_contra turned
  have back := rank_le_of_value_le h' (by omega) (not_lt.1 turned)
  omega

theorem not_last_le {v : ℚ} (h : IsFiniteValue v) : ¬ 2 ^ 1024 - 2 ^ 970 ≤ v := by
  obtain ⟨m, e, small, top, rfl⟩ := h
  have positive : (0 : ℚ) < 2 ^ unitBits := by positivity
  have significand : (m : ℚ) ≤ 2 ^ 53 - 1 := by
    have : m + 1 ≤ 2 ^ 53 := small
    rw [le_sub_iff_add_le]
    exact_mod_cast this
  have units : (m * 2 ^ e / 2 ^ 1074 : ℚ) * 2 ^ unitBits = m * 2 ^ e := div_mul_cancel₀ _ positive.ne'
  rw [← last_le_iff, units, not_le]
  calc
    (m * 2 ^ e : ℚ) ≤ (2 ^ 53 - 1) * 2 ^ 2045 :=
      mul_le_mul significand (pow_le_pow_right₀ one_le_two top) (by positivity) (by norm_num)
    _ < (2 ^ 53 - 1 / 2) * 2 ^ 2045 := mul_lt_mul_of_pos_right (by norm_num) (by positivity)

theorem isFiniteValue_iff {v : ℚ} : IsFiniteValue v ↔ ∃ rank < infinityRank, value rank = v := by
  constructor
  · intro finite
    obtain ⟨m, e, -, -, rfl⟩ := id finite
    have rounded := nearestRank_rounded (m * 2 ^ e) (two_pow_pos unitBits)
    have same : ((m * 2 ^ e : ℕ) : ℚ) / (Nat.pow 2 unitBits : ℕ) = m * 2 ^ e / 2 ^ 1074 := by
      push_cast [Nat.pow_eq]
      rfl
    rw [same] at rounded
    have least : nearestRank (m * 2 ^ e) (Nat.pow 2 unitBits) ≤ infinityRank := Nat.min_le_left _ _
    have inside : nearestRank (m * 2 ^ e) (Nat.pow 2 unitBits) < infinityRank :=
      lt_of_le_of_ne least fun infinite => not_last_le finite (rounded.infinite.1 infinite)
    have near := (rounded.nearest inside).nearest _ finite
    rw [sub_self, abs_zero] at near
    exact ⟨_, inside, (sub_eq_zero.1 (abs_nonpos_iff.1 near)).symm⟩
  · rintro ⟨rank, inside, rfl⟩
    exact isFiniteValue_value inside

/-- No more than one double is nearest with its last bit zero in a tie: of two in a tie the one after the
lower is between them, unless it is the upper. -/
theorem Nearest.unique {q : ℚ} {rank rank' : ℕ} (h : Nearest q rank) (h' : Nearest q rank')
    (inside : rank < infinityRank) (inside' : rank' < infinityRank) : rank = rank' := by
  wlog less : rank < rank' generalizing rank rank'
  · rcases Nat.lt_or_eq_of_le (not_lt.1 less) with more | same
    · exact (this h' h inside' inside more).symm
    · exact same.symm
  have apart := value_lt less inside'.le
  have tie : |q - value rank'| = |q - value rank| :=
    le_antisymm (h'.nearest _ h.finite) (h.nearest _ h'.finite)
  have even := (h.even _ h'.finite tie).resolve_left apart.ne'
  have even' := (h'.even _ h.finite tie.symm).resolve_left apart.ne
  have lower := value_lt (Nat.lt_succ_self rank) (by omega)
  have upper : value (rank + 1) < value rank' := value_lt (by omega) inside'.le
  have near := h.nearest _ (isFiniteValue_value (by omega : rank + 1 < infinityRank))
  have middle : q - value rank' = -(q - value rank) := by
    refine (abs_eq_abs.1 tie).resolve_left fun same => apart.ne' ?_
    linarith
  have nearer : |q - value (rank + 1)| < q - value rank := by
    rw [abs_lt]
    constructor <;> linarith
  exact absurd (near.trans_lt nearer) (not_lt.2 (le_abs_self _))

end Double

end ScriptLexer
