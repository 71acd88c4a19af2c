import ScriptLexer.Double.Shortest

/-! The text of a double. Digits are the shortest that read back. From one ten-thousandth up to ten
to the sixteenth the point stands in its place, with at least one digit on either side; other
values have an exponent with a sign and at least two digits. -/
namespace ScriptLexer.Double

def zeros (count : Nat) : Text := List.replicate count '0'

/-- Digits with the point after the first `place` of them; zeros fill up. -/
def positional (digits : Text) : (place : Int) → Text
  | .ofNat place =>
    if place = 0 then "0.".toList ++ digits
    else if digits.length ≤ place then digits ++ zeros (place - digits.length) ++ ".0".toList
    else digits.take place ++ '.' :: digits.drop place
  | .negSucc missing => "0.".toList ++ zeros (missing + 1) ++ digits

def exponentText (exponent : Int) : Text :=
  let digits := decimal exponent.natAbs
  'e' :: (if exponent < 0 then '-' else '+') :: (zeros (2 - digits.length) ++ digits)

/-- One digit, a point if more follow, and the exponent. -/
def scientific (digits : Text) (exponent : Int) : Text :=
  let significand := match digits with
    | first :: next :: rest => first :: '.' :: next :: rest
    | short => short
  significand ++ exponentText exponent

/-- Without the zeros at the end of the digits, which carry no value. -/
def significantDigits (scaled : Scaled) : Text :=
  ((decimal scaled.digits).reverse.dropWhile (· == '0')).reverse

def magnitudeText (rank : Nat) : Text :=
  if rank = 0 then "0.0".toList
  else
    let scaled := shortest rank
    let place := (decimal scaled.digits).length + scaled.exponent
    let digits := significantDigits scaled
    if -4 < place ∧ place ≤ 16 then positional digits place else scientific digits (place - 1)

/-- Names of the values that have no digits. -/
structure SpecialNames where
  infinity : Text
  nan : Text

def textWith (names : SpecialNames) : Double → Text
  | .nan => names.nan
  | .signed negative rank =>
    (if negative then ['-'] else [])
      ++ (if rank.val = infinityRank then names.infinity else magnitudeText rank)

def text : Double → Text := textWith ⟨"inf".toList, "nan".toList⟩

end ScriptLexer.Double
