/-! Binary floating point of 64 bits. A double that is a number is a sign and a rank: its place
among the non-negative doubles in ascending order, zero first and infinity last, which is also its
bit pattern without the sign. -/
namespace ScriptLexer

/-- How many non-negative finite doubles there are; the rank of infinity. -/
def infinityRank : Nat := 0x7FF0000000000000

inductive Double where
  | nan
  | signed (negative : Bool) (rank : Fin (infinityRank + 1))
  deriving DecidableEq, Repr

namespace Double

def zero : Double := .signed false 0

def infinity : Double := .signed false (Fin.last infinityRank)

/-- The smallest positive double is two to the power of minus this. -/
def unitBits : Nat := 1074

/-- Bits of a significand that are stored, the leading one left out. -/
def fractionBits : Nat := 52

/-- The value of a rank as a multiple of the smallest positive double. Infinity gets the value that
the next larger exponent would stand for. -/
def units (rank : Nat) : Nat :=
  let exponent := rank / Nat.pow 2 fractionBits
  let fraction := rank % Nat.pow 2 fractionBits
  if exponent = 0 then fraction else (Nat.pow 2 fractionBits + fraction) * Nat.pow 2 (exponent - 1)

/-- Equality of values: the two zeros are equal, and a value that is no number equals none. -/
def sameValue : Double → Double → Bool
  | .signed negative rank, .signed negative' rank' =>
    rank == rank' && (negative == negative' || rank == 0)
  | _, _ => false

end Double

end ScriptLexer
