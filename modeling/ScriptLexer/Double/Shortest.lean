import ScriptLexer.Text
import ScriptLexer.Double.Rounding

/-! The fewest significant digits that read back as a given double. For each count of digits only
the two neighbours of the exact value on that decimal grid have to be tried: a farther point of the
grid that rounds to the double would have a nearer one between it and the value. -/
namespace ScriptLexer

/-- The number `digits` times ten to the `exponent`. -/
structure Scaled where
  digits : Nat
  exponent : Int
  deriving DecidableEq, Repr

namespace Double

/-- The number `units / 2 ^ unitBits` divided by ten to the `exponent`, as a fraction. -/
def scaledDown (units : Nat) : (exponent : Int) → Nat × Nat
  | .ofNat e => (units, Nat.pow 2 unitBits * Nat.pow 10 e)
  | .negSucc e => (units * Nat.pow 10 (e + 1), Nat.pow 2 unitBits)

def readsBack (rank : Nat) (candidate : Scaled) : Bool :=
  match ofScaled candidate.digits candidate.exponent with
  | .signed _ rank' => rank'.val == rank
  | .nan => false

/-- Of the two neighbours of the value on the grid of multiples of ten to the `exponent`, the one
that reads back; of two such, the nearer, and the even one when they are equally near. -/
def neighbour? (rank : Nat) (exponent : Int) : Option Scaled :=
  let (n, d) := scaledDown (units rank) exponent
  let below : Scaled := ⟨n / d, exponent⟩
  let above : Scaled := ⟨n / d + 1, exponent⟩
  match readsBack rank below, readsBack rank above with
  | true, true => some ⟨roundHalfEven n d, exponent⟩
  | true, false => some below
  | false, true => some above
  | false, false => none

/-- How many digits stand before the decimal point; not positive for a value below one tenth. Ten
to the power of 324 lifts every positive double above one. -/
def pointPlace (rank : Nat) : Int :=
  (decimal (units rank * Nat.pow 10 324 / Nat.pow 2 unitBits)).length - 324

/-- All digits of the value: a unit is five to the power of `unitBits` over ten to that power. -/
def exactDigits (rank : Nat) : Scaled := ⟨units rank * Nat.pow 5 unitBits, -unitBits⟩

/-- Seventeen digits suffice for every double, so the exact value is never reached. -/
def shortest (rank : Nat) : Scaled :=
  let place := pointPlace rank
  ((List.range 17).findSome? fun (n : Nat) => neighbour? rank (place - (n + 1))).getD (exactDigits rank)

end Double

end ScriptLexer
