import ScriptLexer.Double.Basic

/-! Rounding to the nearest double, ties to even, in exact integer arithmetic. The quotient is
counted in units of the smallest double; below the smallest normal number all doubles are one unit
apart, and above it the spacing doubles with each power of two. -/
namespace ScriptLexer

/-- The integer nearest to `n / d`, the even one of two equally near. -/
def roundHalfEven (n d : Nat) : Nat :=
  let quotient := n / d
  let twice := 2 * (n % d)
  if twice < d then quotient
  else if d < twice then quotient + 1
  else quotient + quotient % 2

namespace Double

/-- The rank of the double nearest to `n / d`. A significand rounded up to the next power of two
carries into the exponent by itself. -/
def nearestRank (n d : Nat) : Nat :=
  let scaled := n * Nat.pow 2 unitBits
  let shift := (scaled / d).log2 - fractionBits
  min infinityRank (shift * Nat.pow 2 fractionBits + roundHalfEven scaled (d * Nat.pow 2 shift))

/-- The double nearest to the non-negative fraction `n / d`; infinity from halfway past the largest
finite one. -/
def ofRatio (n d : Nat) : Double :=
  .signed false ⟨nearestRank n d, Nat.lt_succ_of_le (Nat.min_le_left _ _)⟩

/-- The double nearest to `digits` times ten to the `exponent`. -/
def ofScaled (digits : Nat) : Int → Double
  | .ofNat e => ofRatio (digits * Nat.pow 10 e) 1
  | .negSucc e => ofRatio digits (Nat.pow 10 (e + 1))

def negate : Double → Double
  | .nan => .nan
  | .signed negative rank => .signed (!negative) rank

end Double

end ScriptLexer
