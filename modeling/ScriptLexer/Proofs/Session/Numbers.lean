import ScriptLexer.Proofs.Double.Nearest
import ScriptLexer.Proofs.Double.ReadBack
import ScriptLexer.Proofs.Session.Scan

/-! The numbers of a scan. The literal of a number token is the double nearest to the exact number that its
lexeme is written for, so it depends on that number only and grows with it. -/
namespace ScriptLexer

namespace Numeral

variable {text text' : Text} {n d n' d' : ℕ}

theorem denominator_pos (h : Numeral text n d) : 0 < d := by
  cases h with
  | whole => exact Nat.one_pos
  | fraction => exact Double.ten_pow_pos _

theorem takeWhile_fraction {whole decimals : Text} (h : Digits whole) :
    (whole ++ '.' :: decimals).takeWhile (·.isDigit) = whole := by
  apply takeWhile_append_stop h.digits
  rintro _ ⟨rfl⟩
  rfl

theorem unique (h : Numeral text n d) (h' : Numeral text n' d') : n = n' ∧ d = d' := by
  have point {text whole decimals : Text} (h : Digits text) (same : text = whole ++ '.' :: decimals) :
      False := by
    have digit := h.digits '.' (by simp [same])
    exact absurd digit (by decide)
  generalize same : text = other at h'
  cases h with
  | whole digits =>
    cases h' with
    | whole => exact ⟨congrArg Double.digitsValue same, rfl⟩
    | fraction => exact (point digits same).elim
  | fraction left right =>
    cases h' with
    | whole digits => exact (point digits same.symm).elim
    | fraction left' right' =>
      have front := congrArg (List.takeWhile (·.isDigit)) same
      rw [takeWhile_fraction left, takeWhile_fraction left'] at front
      subst front
      cases List.append_cancel_left same
      exact ⟨rfl, rfl⟩

/-- The exact number that the numeral is written for. -/
def Denotes (text : Text) (q : ℚ) : Prop := ∃ n d : ℕ, Numeral text n d ∧ q = n / d

theorem denotes (h : Numeral text n d) : Denotes text (n / d) := ⟨n, d, h, rfl⟩

theorem Denotes.unique {q q' : ℚ} (h : Denotes text q) (h' : Denotes text q') : q = q' := by
  obtain ⟨n, d, numeral, rfl⟩ := h
  obtain ⟨n', d', numeral', rfl⟩ := h'
  obtain ⟨rfl, rfl⟩ := numeral.unique numeral'
  rfl

/-- One numeral is the other with more zeros, before the digits or after the point. -/
inductive MoreZeros : Text → Text → Prop
  | leading (text count) : MoreZeros text (Double.zeros count ++ text)
  | trailing {whole decimals} : Digits whole → Digits decimals → (count : ℕ) →
      MoreZeros (whole ++ '.' :: decimals) (whole ++ '.' :: (decimals ++ Double.zeros count))
  | point {whole} : Digits whole → (count : ℕ) →
      MoreZeros whole (whole ++ '.' :: Double.zeros (count + 1))

theorem digits_zeros (count : ℕ) : Digits (Double.zeros (count + 1)) where
  nonempty := List.cons_ne_nil _ _
  digits _ := Double.isDigit_of_mem_zeros

theorem digits_append_zeros {digits : Text} (h : Digits digits) (count : ℕ) :
    Digits (digits ++ Double.zeros count) where
  nonempty none := h.nonempty (List.append_eq_nil_iff.1 none).1
  digits c member := (List.mem_append.1 member).elim (h.digits c) Double.isDigit_of_mem_zeros

theorem append_zeros_div (digits : Text) (places count : ℕ) :
    (Double.digitsValue (digits ++ Double.zeros count) : ℚ) / (Nat.pow 10 (places + count) : ℕ)
      = Double.digitsValue digits / (Nat.pow 10 places : ℕ) := by
  have positive : ((Nat.pow 10 count : ℕ) : ℚ) ≠ 0 := by exact_mod_cast (Double.ten_pow_pos count).ne'
  have places : Nat.pow 10 (places + count) = Nat.pow 10 places * Nat.pow 10 count := Nat.pow_add ..
  rw [Double.digitsValue_append_zeros, places, Nat.cast_mul, Nat.cast_mul, mul_div_mul_right _ _ positive]

/-- A numeral with more zeros denotes the same number. -/
theorem Denotes.moreZeros {q : ℚ} (h : Denotes text q) (zeros : MoreZeros text text') :
    Denotes text' q := by
  cases zeros with
  | leading _ count =>
    obtain ⟨n, d, numeral, rfl⟩ := h
    cases numeral with
    | whole digits =>
      have longer : Digits (Double.zeros count ++ text) := digits.append fun _ => Double.isDigit_of_mem_zeros
      rw [← Double.digitsValue_zeros_append count]
      exact (Numeral.whole longer).denotes
    | @fraction whole decimals left right =>
      have longer : Digits (Double.zeros count ++ whole) := left.append fun _ => Double.isDigit_of_mem_zeros
      rw [← Double.digitsValue_zeros_append count, ← List.append_assoc, ← List.append_assoc]
      exact (Numeral.fraction longer right).denotes
  | @trailing whole decimals left right count =>
    obtain rfl := h.unique (Numeral.fraction left right).denotes
    have longer := (Numeral.fraction left (digits_append_zeros right count)).denotes
    rw [← List.append_assoc, List.length_append, Double.length_zeros, append_zeros_div] at longer
    exact longer
  | point left count =>
    obtain rfl := h.unique (Numeral.whole left).denotes
    have longer := (Numeral.fraction left (digits_zeros count)).denotes
    have value := append_zeros_div text 0 (count + 1)
    rw [Nat.zero_add] at value
    rw [Double.length_zeros, value] at longer
    exact longer

end Numeral

/-- A number token, the exact number that its lexeme is written for, and the double that is its literal. -/
structure Token.Reads (token : Token) (q : ℚ) (rank : Fin (infinityRank + 1)) : Prop where
  denotes : Numeral.Denotes token.lexeme q
  exact : ∀ q', Numeral.Denotes token.lexeme q' → q' = q
  literal : token.literal = some (.number (.signed false rank))

namespace Session

theorem reads_of_mem_scanned {s : Session} {token : Token} (h : token ∈ s.scanned.tokens)
    (number : token.kind = .number) :
    ∃ (n d : ℕ) (rank : _), 0 < d ∧ token.Reads (n / d) rank ∧ rank.val = Double.nearestRank n d := by
  have rule := rule_of_mem_scanned h
  rw [number] at rule
  obtain ⟨n, d, numeral, literal⟩ := number_of_rule (rule (by decide))
  have denotes : Numeral.Denotes token.lexeme (n / d) := ⟨n, d, numeral, rfl⟩
  exact ⟨n, d, _, numeral.denominator_pos, ⟨denotes, fun q' other => other.unique denotes, literal⟩, rfl⟩

/-- Number literals are correctly rounded: they are the nearest doubles, ties going to even, zero up to half of
the smallest double and infinity from halfway past the largest. The exact number decides, zeros before or
after it do not matter, and larger numbers have larger literals, in one scan or in two. -/
theorem scanAll_numbers_rounded (s s' : Session) :
    ∃ final final', s.scanAll = (final, .ok ()) ∧ s'.scanAll = (final', .ok ()) ∧
      ∀ token ∈ final.tokens, token.kind = .number → ∃ q rank, token.Reads q rank ∧ Double.Rounded q rank.val ∧
        ∀ token' ∈ final'.tokens, token'.kind = .number → ∃ q' rank', token'.Reads q' rank' ∧
          (q ≤ q' → rank ≤ rank') ∧ (q = q' → rank = rank') ∧
          (Numeral.MoreZeros token.lexeme token'.lexeme → rank = rank') := by
  refine ⟨s.scanned, s'.scanned, s.scanAll_eq, s'.scanAll_eq, ?_⟩
  intro token member number
  obtain ⟨n, d, rank, positive, reads, nearest⟩ := reads_of_mem_scanned member number
  refine ⟨n / d, rank, reads, nearest ▸ Double.nearestRank_rounded n positive, ?_⟩
  intro token' member' number'
  obtain ⟨n', d', rank', positive', reads', nearest'⟩ := reads_of_mem_scanned member' number'
  have le (order : (n / d : ℚ) ≤ n' / d') : rank ≤ rank' := by
    rw [Fin.le_def, nearest, nearest']
    exact Double.nearestRank_mono positive positive' order
  have ge (order : (n' / d' : ℚ) ≤ n / d) : rank' ≤ rank := by
    rw [Fin.le_def, nearest, nearest']
    exact Double.nearestRank_mono positive' positive order
  refine ⟨n' / d', rank', reads', le, fun same => le_antisymm (le same.le) (ge same.ge), ?_⟩
  intro zeros
  have same := (reads.denotes.moreZeros zeros).unique reads'.denotes
  exact le_antisymm (le same.le) (ge same.ge)

/-- One more than two to the power of 53 is halfway between two doubles. -/
theorem scanAll_numbers_rounded_halfway :
    let s : Session := { source := "9007199254740993".toList, file := [] }
    let s' : Session := { source := "009007199254740993".toList, file := [] }
    let half : Double := .signed false ⟨0x4340000000000000, by decide⟩
    let token : Token := ⟨.number, s.source, some (.number half), 1⟩
    let token' : Token := ⟨.number, s'.source, some (.number half), 1⟩
    ∃ final final' q q' rank rank', s.scanAll = (final, .ok ()) ∧ s'.scanAll = (final', .ok ()) ∧
      token ∈ final.tokens ∧ token' ∈ final'.tokens ∧ token.Reads q rank ∧ token'.Reads q' rank' ∧
      Double.Rounded q rank.val ∧ rank = rank' := by
  intro s s' half token token'
  obtain ⟨final, final', scanned, scanned', numbers⟩ := scanAll_numbers_rounded s s'
  obtain rfl : s.scanned = final := congrArg Prod.fst (s.scanAll_eq.symm.trans scanned)
  obtain rfl : s'.scanned = final' := congrArg Prod.fst (s'.scanAll_eq.symm.trans scanned')
  have member : token ∈ s.scanned.tokens := by
    rw [scanned_tokens]
    decide +kernel
  have member' : token' ∈ s'.scanned.tokens := by
    rw [scanned_tokens]
    decide +kernel
  obtain ⟨q, rank, reads, rounded, others⟩ := numbers token member rfl
  obtain ⟨q', rank', reads', -, -, zeros⟩ := others token' member' rfl
  have same : rank = rank' := zeros (.leading s.source 2)
  exact ⟨_, _, q, q', rank, rank', scanned, scanned', member, member', reads, reads', rounded, same⟩

end Session

end ScriptLexer
