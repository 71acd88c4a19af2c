import ScriptLexer.Proofs.Json.Number

/-! The text of a double reads back as the double, with all of its sign and of its rank. The digits that
are written stand for the number that was found to read back, and the point or the exponent says
by which power of ten. -/
namespace ScriptLexer.Double

open JsonText

theorem ten_pow_pos (n : Nat) : 0 < Nat.pow 10 n := Nat.pow_pos (by decide)

theorem ofScaled_eq (digits : Nat) (exponent : Int) : ofScaled digits exponent
    = ofRatio (digits * Nat.pow 10 exponent.toNat) (Nat.pow 10 (-exponent).toNat) := by
  cases exponent with
  | ofNat e =>
    have none : (-(Int.ofNat e)).toNat = 0 := by simp
    rw [none]
    rfl
  | negSucc e => exact congrArg (ofRatio · _) (Nat.mul_one digits).symm

theorem ofScaled_neg (digits places : Nat) :
    ofScaled digits (-places) = ofRatio digits (Nat.pow 10 places) := by
  have none : (-(places : Int)).toNat = 0 := by omega
  have all : (-(-(places : Int))).toNat = places := by omega
  rw [ofScaled_eq, none, all]
  exact congrArg (ofRatio · _) (Nat.mul_one digits)

theorem ofScaled_shift (digits k : Nat) (exponent : Int) :
    ofScaled (digits * Nat.pow 10 k) exponent = ofScaled digits (k + exponent) := by
  have balance : k + exponent.toNat + (-(k + exponent)).toNat
      = (k + exponent).toNat + (-exponent).toNat := by omega
  have powers : Nat.pow 10 k * Nat.pow 10 exponent.toNat * Nat.pow 10 (-(k + exponent)).toNat
      = Nat.pow 10 (k + exponent).toNat * Nat.pow 10 (-exponent).toNat := by
    simp only [Nat.pow_eq, ← Nat.pow_add, balance]
  rw [ofScaled_eq, ofScaled_eq]
  apply ofRatio_congr (ten_pow_pos _) (ten_pow_pos _)
  rw [Nat.mul_assoc, Nat.mul_assoc, ← Nat.mul_assoc (Nat.pow 10 k), powers, ← Nat.mul_assoc]

theorem ten_pow_eq (n : Nat) : Nat.pow 10 n = Nat.pow 5 n * Nat.pow 2 n := Nat.mul_pow 5 2 n

theorem two_pow_le_ten_pow {k n : Nat} (h : k ≤ 3 * n) : Nat.pow 2 k ≤ Nat.pow 10 n := by
  calc
    2 ^ k ≤ 2 ^ (3 * n) := Nat.pow_le_pow_right (by decide) h
    _ = 8 ^ n := Nat.pow_mul 2 3 n
    _ ≤ 10 ^ n := Nat.pow_le_pow_left (by decide) n

theorem ofScaled_huge {digits : Nat} {exponent : Int} (some : 0 < digits) (h : 400 ≤ exponent) :
    ofScaled digits exponent = infinity := by
  have none : (-exponent).toNat = 0 := by omega
  have large : Nat.pow 10 0 * Nat.pow 2 (3 * exponent.toNat) ≤ digits * Nat.pow 10 exponent.toNat :=
    Nat.mul_le_mul some (two_pow_le_ten_pow (Nat.le_refl _))
  rw [ofScaled_eq, none]
  apply congrArg (Double.signed false)
  exact Fin.ext (nearestRank_eq_infinityRank (ten_pow_pos 0) (by omega) large)

theorem ofScaled_tiny {digits count : Nat} {exponent : Int} (below : digits < Nat.pow 10 count)
    (h : exponent ≤ -(count + 400)) : ofScaled digits exponent = zero := by
  obtain ⟨more, whole⟩ : ∃ more : Nat, (-exponent).toNat = count + (400 + more) :=
    ⟨(-exponent).toNat - (count + 400), by omega⟩
  have none : exponent.toNat = 0 := by omega
  have unit : Nat.pow 2 (unitBits + 1) ≤ Nat.pow 10 (400 + more) :=
    two_pow_le_ten_pow (by unfold unitBits; omega)
  have small : 2 * (digits * Nat.pow 10 0 * Nat.pow 2 unitBits) < Nat.pow 10 (count + (400 + more)) := by
    calc
      2 * (digits * Nat.pow 10 0 * Nat.pow 2 unitBits) = digits * Nat.pow 2 (unitBits + 1) := by
        simp only [Nat.pow_eq, Nat.pow_zero, Nat.mul_one, Nat.pow_succ]
        rw [Nat.mul_comm 2, Nat.mul_assoc]
      _ ≤ digits * Nat.pow 10 (400 + more) := Nat.mul_le_mul_left _ unit
      _ < Nat.pow 10 count * Nat.pow 10 (400 + more) :=
        Nat.mul_lt_mul_of_pos_right below (ten_pow_pos _)
      _ = Nat.pow 10 (count + (400 + more)) := (Nat.pow_add ..).symm
  rw [ofScaled_eq, none, whole]
  apply congrArg (Double.signed false)
  exact Fin.ext (nearestRank_eq_zero small)

/-- The bounds may stand for every exponent past them. -/
theorem ofScaled_bounded {digits count : Nat} (h : digits < Nat.pow 10 count) (exponent : Int) :
    ofScaled digits (boundedExponent count exponent) = ofScaled digits exponent := by
  unfold boundedExponent
  rcases Nat.eq_zero_or_pos digits with rfl | some
  · rw [ofScaled_zero, ofScaled_zero]
  · by_cases high : 400 ≤ exponent
    · rw [ofScaled_huge some high, ofScaled_huge some (by omega)]
    by_cases low : exponent ≤ -(count + 400)
    · rw [ofScaled_tiny h low, ofScaled_tiny h (by omega)]
    · exact congrArg (ofScaled digits) (by omega)

/-- The scaled number is read as the double with the rank. -/
def Denotes (rank : Fin (infinityRank + 1)) (scaled : Scaled) : Prop :=
  ofScaled scaled.digits scaled.exponent = .signed false rank

theorem denotes_of_readsBack {rank : Fin (infinityRank + 1)} {candidate : Scaled}
    (h : readsBack rank candidate) : Denotes rank candidate := by
  rw [readsBack, ofScaled_eq] at h
  rw [Denotes, ofScaled_eq]
  exact congrArg (Double.signed false) (Fin.ext (beq_iff_eq.1 h))

theorem denotes_exactDigits (rank : Fin (infinityRank + 1)) : Denotes rank (exactDigits rank) := by
  have exact := nearestRank_units (Nat.lt_succ_iff.1 rank.isLt)
  rw [Denotes, exactDigits, ofScaled_neg]
  calc
    ofRatio (units rank * Nat.pow 5 unitBits) (Nat.pow 10 unitBits)
        = ofRatio (units rank) (Nat.pow 2 unitBits) := by
      apply ofRatio_congr (ten_pow_pos _) (two_pow_pos _)
      rw [ten_pow_eq, Nat.mul_assoc]
    _ = .signed false rank := congrArg (Double.signed false) (Fin.ext exact)

theorem denotes_shortest (rank : Fin (infinityRank + 1)) : Denotes rank (shortest rank) := by
  rcases shortest_cases rank with exact | read
  · rw [exact]
    exact denotes_exactDigits rank
  · exact denotes_of_readsBack read

theorem digitsValue_append (left right : Text) :
    digitsValue (left ++ right) = digitsValue left * Nat.pow 10 right.length + digitsValue right := by
  rw [digitsValue, Nat.ofDigitChars_append, Nat.ofDigitChars_eq_ofDigitChars_zero, Nat.mul_comm]
  rfl

theorem length_zeros (count : Nat) : (zeros count).length = count := List.length_replicate

theorem digitsValue_zeros (count : Nat) : digitsValue (zeros count) = 0 := by
  rw [digitsValue, zeros, Nat.ofDigitChars_replicate_zero, Nat.mul_zero]

theorem digitsValue_append_zeros (digits : Text) (count : Nat) :
    digitsValue (digits ++ zeros count) = digitsValue digits * Nat.pow 10 count := by
  rw [digitsValue_append, digitsValue_zeros, length_zeros, Nat.add_zero]

theorem digitsValue_zeros_append (count : Nat) (digits : Text) :
    digitsValue (zeros count ++ digits) = digitsValue digits := by
  rw [digitsValue_append, digitsValue_zeros, Nat.zero_mul, Nat.zero_add]

theorem digitsValue_lt {digits : Text} (h : ∀ c ∈ digits, c.isDigit) :
    digitsValue digits < Nat.pow 10 digits.length := by
  induction digits using List.reverseRecOn with
  | nil => exact Nat.zero_lt_one
  | append_singleton rest c ih =>
    have shorter := ih fun c member => h c (List.mem_append_left _ member)
    have digit : c.toNat ≤ 57 := by
      have bounds := h c List.mem_concat_self
      simp only [Char.isDigit, UInt32.le_iff_toNat_le, Bool.and_eq_true, decide_eq_true_eq] at bounds
      exact bounds.2
    have last : digitsValue [c] = c.toNat - 48 := by
      simp [digitsValue, Nat.ofDigitChars_cons]
    rw [digitsValue_append, last, List.length_append, List.length_singleton]
    simp only [Nat.pow_eq, Nat.pow_succ, Nat.pow_zero, Nat.one_mul] at shorter ⊢
    omega

/-- The digits that carry the value, and the zeros that were left out after them. -/
theorem exists_decimal_eq (scaled : Scaled) :
    ∃ count, decimal scaled.digits = significantDigits scaled ++ zeros count := by
  have whole := List.takeWhile_append_dropWhile (p := (· == '0')) (l := (decimal scaled.digits).reverse)
  have same : ∀ c ∈ (decimal scaled.digits).reverse.takeWhile (· == '0'), c = '0' :=
    fun c member => beq_iff_eq.1 (List.mem_takeWhile_imp (p := (· == '0')) member)
  refine ⟨((decimal scaled.digits).reverse.takeWhile (· == '0')).length, ?_⟩
  have turned := congrArg List.reverse whole
  rw [List.reverse_append, List.reverse_reverse, List.eq_replicate_of_mem same,
    List.reverse_replicate] at turned
  exact turned.symm

theorem unsignedDecimal?_point {whole decimals : Text} (h : Digits whole) (h' : Digits decimals) :
    unsignedDecimal? (whole ++ '.' :: decimals)
      = some (ofScaled (digitsValue (whole ++ decimals)) (-decimals.length)) := by
  rw [unsignedDecimal?_eq (.fraction h h'), ofScaled_neg]

section

variable {digits : Text} (h : Leading digits)
include h

theorem unsignedDecimal?_small (count : Nat) :
    unsignedDecimal? ("0.".toList ++ (zeros count ++ digits))
      = some (ofScaled (digitsValue digits) (-(count + digits.length))) := by
  have zero : Digits ['0'] := digits_decimal 0
  have filled : Digits (zeros count ++ digits) := h.toDigits.append fun _ => isDigit_of_mem_zeros
  have value : digitsValue (['0'] ++ (zeros count ++ digits)) = digitsValue digits :=
    digitsValue_zeros_append (count + 1) digits
  have read := unsignedDecimal?_point zero filled
  rw [value, List.length_append, length_zeros, Int.natCast_add] at read
  exact read

theorem unsignedDecimal?_whole (count : Nat) :
    unsignedDecimal? (digits ++ zeros count ++ ".0".toList)
      = some (ofScaled (digitsValue digits) count) := by
  have zero : Digits ['0'] := digits_decimal 0
  have filled : Leading (digits ++ zeros count) := h.append fun _ => isDigit_of_mem_zeros
  -- The digit after the point is one zero more.
  have more : digits ++ zeros count ++ ['0'] = digits ++ zeros (count + 1) := by
    rw [zeros, zeros, List.replicate_succ', List.append_assoc]
  have read := unsignedDecimal?_point filled.toDigits zero
  rw [more, digitsValue_append_zeros, ofScaled_shift, List.length_singleton, Int.natCast_add,
    Int.add_neg_cancel_right] at read
  exact read

theorem unsignedDecimal?_inside {place : Nat} (inner : 0 < place) (more : place < digits.length) :
    unsignedDecimal? (digits.take place ++ '.' :: digits.drop place)
      = some (ofScaled (digitsValue digits) (place - digits.length)) := by
  have read := unsignedDecimal?_point (h.take inner).toDigits (h.toDigits.drop more)
  rw [List.take_append_drop, List.length_drop, Int.ofNat_sub (Nat.le_of_lt more), Int.neg_sub] at read
  exact read

theorem unsignedDecimal?_positional (place : Int) : unsignedDecimal? (positional digits place)
    = some (ofScaled (digitsValue digits) (place - digits.length)) := by
  unfold positional
  split
  · rename_i place
    split
    · rename_i none
      have read := unsignedDecimal?_small h 0
      rw [none]
      simpa [zeros] using read
    split
    · rename_i short
      have read := unsignedDecimal?_whole h (place - digits.length)
      rwa [Int.ofNat_sub short] at read
    · rename_i inner more
      exact unsignedDecimal?_inside h (Nat.pos_of_ne_zero inner) (Nat.lt_of_not_le more)
  · rename_i missing
    have read := unsignedDecimal?_small h (missing + 1)
    have exponent : -(((missing + 1 : Nat) : Int) + digits.length) = Int.negSucc missing - digits.length := by
      omega
    rwa [exponent] at read

end

theorem exponent?_minus {digits : Text} (h : Digits digits) :
    exponent? ('e' :: '-' :: digits) = some (-(digitsValue digits : Int)) := by
  simp [exponent?, h.nonempty, List.all_eq_true.2 h.digits]

theorem exponent?_plus {digits : Text} (h : Digits digits) :
    exponent? ('e' :: '+' :: digits) = some (digitsValue digits) := by
  simp [exponent?, h.nonempty, List.all_eq_true.2 h.digits]

theorem exponent?_exponentText (exponent : Int) : exponent? (exponentText exponent) = some exponent := by
  have filled (count : Nat) : Digits (zeros count ++ decimal exponent.natAbs) :=
    (digits_decimal _).append fun _ => isDigit_of_mem_zeros
  have value (count : Nat) : digitsValue (zeros count ++ decimal exponent.natAbs) = exponent.natAbs := by
    rw [digitsValue_zeros_append, digitsValue_decimal]
  unfold exponentText
  dsimp only
  split
  · rw [exponent?_minus (filled _), value]
    exact congrArg some (by omega)
  · rw [exponent?_plus (filled _), value]
    exact congrArg some (by omega)

theorem unsignedDecimal?_of_parts {text whole decimals power : Text} {exponent : Int}
    (front : text.takeWhile (·.isDigit) = whole)
    (back : fractionPart (text.dropWhile (·.isDigit)) = (decimals, power))
    (digits : Digits (whole ++ decimals)) (read : exponent? power = some exponent) :
    unsignedDecimal? text
      = some (ofScaled (digitsValue (whole ++ decimals)) (exponent - decimals.length)) := by
  have bounded := ofScaled_bounded (digitsValue_lt digits.digits) (exponent - decimals.length)
  have written : (whole ++ decimals).isEmpty = false := List.isEmpty_eq_false_iff.2 digits.nonempty
  rw [← bounded]
  simp only [unsignedDecimal?, front, back, written, read]
  rfl

theorem unsignedDecimal?_scientific {digits : Text} (h : Leading digits) (exponent : Int) :
    unsignedDecimal? (scientific digits exponent)
      = some (ofScaled (digitsValue digits) (exponent + 1 - digits.length)) := by
  have power := exponent?_exponentText exponent
  -- The mark of the exponent ends the digits before it.
  have front : (exponentText exponent).takeWhile (·.isDigit) = [] := rfl
  have back : (exponentText exponent).dropWhile (·.isDigit) = exponentText exponent := rfl
  obtain ⟨first, rest, rfl⟩ := List.exists_cons_of_ne_nil h.nonempty
  have digit := h.toDigits.head
  cases rest with
  | nil =>
    have whole : (first :: exponentText exponent).takeWhile (·.isDigit) = [first] := by
      rw [List.takeWhile_cons_of_pos digit, front]
    have parts : fractionPart ((first :: exponentText exponent).dropWhile (·.isDigit))
        = ([], exponentText exponent) := by
      rw [List.dropWhile_cons_of_pos digit, back]
      rfl
    refine (unsignedDecimal?_of_parts whole parts h.toDigits power).trans ?_
    simp
  | cons next rest =>
    have decimals : Digits (next :: rest) := h.toDigits.drop (n := 1) (by simp)
    have form : scientific (first :: next :: rest) exponent
        = first :: '.' :: (next :: rest ++ exponentText exponent) := rfl
    rw [form]
    generalize next :: rest = later at h decimals
    have whole : (first :: '.' :: (later ++ exponentText exponent)).takeWhile (·.isDigit) = [first] :=
      List.takeWhile_cons_of_pos digit
    have parts : fractionPart ((first :: '.' :: (later ++ exponentText exponent)).dropWhile (·.isDigit))
        = (later, exponentText exponent) := by
      rw [List.dropWhile_cons_of_pos digit]
      change ((later ++ _).takeWhile _, (later ++ _).dropWhile _) = _
      rw [List.takeWhile_append_of_pos decimals.digits, List.dropWhile_append_of_pos decimals.digits,
        front, back, List.append_nil]
    refine (unsignedDecimal?_of_parts whole parts h.toDigits power).trans ?_
    simp only [List.length_cons, List.singleton_append]
    exact congrArg some (congrArg (ofScaled _) (by omega))

theorem unsignedDecimal?_magnitudeText (rank : Fin (infinityRank + 1)) :
    unsignedDecimal? (magnitudeText rank) = some (.signed false rank) := by
  unfold magnitudeText
  split
  · rename_i none
    have read := unsignedDecimal?_point (digits_decimal 0) (digits_decimal 0)
    have value : (Double.signed false rank) = ofScaled 0 (-1) := by
      rw [ofScaled_zero]
      exact congrArg (Double.signed false) (Fin.ext none)
    rw [value]
    exact read
  · rename_i some
    have leading := leading_significantDigits (digits_pos_shortest (Nat.pos_of_ne_zero some))
    have denotes := denotes_shortest rank
    obtain ⟨count, whole⟩ := exists_decimal_eq (shortest rank)
    have value := congrArg digitsValue whole
    have length := congrArg List.length whole
    rw [digitsValue_decimal, digitsValue_append_zeros] at value
    rw [List.length_append, length_zeros] at length
    rw [Denotes, value, ofScaled_shift] at denotes
    rw [← denotes]
    dsimp only
    split
    · rw [unsignedDecimal?_positional leading]
      exact congrArg Option.some (congrArg (ofScaled _) (by omega))
    · rw [unsignedDecimal?_scientific leading]
      exact congrArg Option.some (congrArg (ofScaled _) (by omega))

theorem exists_cons_of_isMagnitude {text : Text} (h : IsMagnitude text) :
    ∃ c rest, text = c :: rest ∧ c.isDigit := by
  obtain ⟨whole, -, -⟩ := h
  cases whole with
  | zero => exact ⟨'0', _, rfl, rfl⟩
  | digits digits =>
    obtain ⟨c, rest, rfl⟩ := List.exists_cons_of_ne_nil digits.nonempty
    exact ⟨c, _, rfl, digits.head⟩

/-- Written numbers have nothing else that written doubles may have: no blanks, no underscores, no digits
of other scripts and no words. -/
theorem read?_of_isMagnitude {text : Text} (h : IsMagnitude text) :
    read? text = unsignedDecimal? text ∧ read? ('-' :: text) = (unsignedDecimal? text).map negate := by
  have plain {text : Text} (inside : ∀ c ∈ text, c ∈ numberChars) :
      withoutUnderscores? ' ' ((trimmed text).map latinDigit) = some text := by
    have unpadded : ∀ c ∈ numberChars, isPadding c = false := by decide
    have joined : ∀ c ∈ numberChars, c ≠ '_' := by decide
    have latin : ∀ c ∈ numberChars, latinDigit c = c := by decide
    have same : text.map latinDigit = text.map id :=
      List.map_congr_left fun c member => latin c (inside c member)
    rw [trimmed_eq fun c member => unpadded c (inside c member), same, List.map_id]
    exact withoutUnderscores?_eq (by decide) fun c member => joined c (inside c member)
  have inside : ∀ c ∈ text, c ∈ numberChars := fun _ member => h.subset member
  have inside' : ∀ c ∈ '-' :: text, c ∈ numberChars := List.forall_mem_cons.2 ⟨by decide, inside⟩
  obtain ⟨c, rest, rfl, digit⟩ := exists_cons_of_isMagnitude h
  have first : ∀ c ∈ numeralChars, c ≠ '-' ∧ c ≠ '+' ∧ c.toLower ≠ 'i' ∧ c.toLower ≠ 'n' := by decide
  obtain ⟨minus, plus, infinite, nan⟩ := first c (mem_numeralChars_of_isDigit digit)
  have value : unsigned? (c :: rest) = unsignedDecimal? (c :: rest) := by
    simp [unsigned?, infinite, nan]
  constructor
  · simp [read?, plain inside, minus, plus, value]
  · simp [read?, plain inside', value]

theorem read?_magnitudeText (rank : Fin (infinityRank + 1)) :
    read? (magnitudeText rank) = some (.signed false rank) ∧
      read? ('-' :: magnitudeText rank) = some (.signed true rank) := by
  have read := read?_of_isMagnitude (isMagnitude_magnitudeText rank)
  rw [unsignedDecimal?_magnitudeText] at read
  exact read

/-- A double is read back from its text. -/
theorem read?_text (d : Double) : read? d.text = some d := by
  cases d with
  | nan => decide
  | signed negative rank =>
    have read := read?_magnitudeText rank
    by_cases infinite : rank.val = infinityRank
    · have last : rank = Fin.last infinityRank := Fin.ext infinite
      rw [last]
      cases negative <;> decide
    · cases negative with
      | false => simpa [text, textWith, infinite] using read.1
      | true => simpa [text, textWith, infinite] using read.2

end ScriptLexer.Double
