import ScriptLexer.Text.Digit
import ScriptLexer.Text.Quoted
import ScriptLexer.Double.Rounding

/-! Reading doubles. The grammar of written doubles is wider than that of a script's numerals:
surrounding blanks, a sign, digits of any script, single underscores between digits, a missing
integer or fraction part, an exponent, and the words for infinity and for no number. -/
namespace ScriptLexer.Double

def digitsValue (digits : Text) : Nat := Nat.ofDigitChars 10 digits 0

/-- Blanks that may surround a written double. -/
def isPadding (c : Char) : Bool :=
  let n := c.toNat
  (9 ≤ n && n ≤ 13) || n == 0x20 || n == 0x85 || n == 0xA0 || n == 0x1680
    || (0x2000 ≤ n && n ≤ 0x200A) || n == 0x2028 || n == 0x2029 || n == 0x202F || n == 0x205F
    || n == 0x3000

def trimmed (text : Text) : Text :=
  ((text.dropWhile isPadding).reverse.dropWhile isPadding).reverse

/-- Underscores may stand between two digits only; `previous` is the character before the text. -/
def withoutUnderscores? (previous : Char) : Text → Option Text
  | [] => if previous == '_' then none else some []
  | c :: rest =>
    if c == '_' then
      if previous.isDigit then withoutUnderscores? c rest else none
    else if previous == '_' && !c.isDigit then none
    else (withoutUnderscores? c rest).map (c :: ·)

/-- An exponent mark and its value; the empty text stands for the exponent zero. -/
def exponent? : Text → Option Int
  | [] => some 0
  | mark :: rest =>
    if mark == 'e' || mark == 'E' then
      let (negative, digits) := match rest with
        | '-' :: digits => (true, digits)
        | '+' :: digits => (false, digits)
        | digits => (false, digits)
      if digits.isEmpty || !digits.all (·.isDigit) then none
      else some (if negative then -digitsValue digits else digitsValue digits)
    else none

/-- A point and the digits after it, and what follows. Without a point there are none. -/
def fractionPart : Text → Text × Text
  | '.' :: rest => (rest.takeWhile (·.isDigit), rest.dropWhile (·.isDigit))
  | rest => ([], rest)

/-- An exponent past these bounds leaves nothing but infinity or zero to round to, so the bounds
may stand for it. -/
def boundedExponent (digitCount : Nat) (exponent : Int) : Int :=
  max (-(digitCount + 400)) (min exponent 400)

def unsignedDecimal? (text : Text) : Option Double := do
  let whole := text.takeWhile (·.isDigit)
  let (fraction, rest) := fractionPart (text.dropWhile (·.isDigit))
  let digits := whole ++ fraction
  if digits.isEmpty then none
  else
    let exponent ← exponent? rest
    some (ofScaled (digitsValue digits)
      (boundedExponent digits.length (exponent - fraction.length)))

def unsigned? (text : Text) : Option Double :=
  let word := text.map Char.toLower
  if word == "inf".toList || word == "infinity".toList then some infinity
  else if word == "nan".toList then some .nan
  else unsignedDecimal? text

def read? (text : Text) : Option Double := do
  match ← withoutUnderscores? ' ' ((trimmed text).map latinDigit) with
  | '-' :: rest => (unsigned? rest).map negate
  | '+' :: rest => unsigned? rest
  | rest => unsigned? rest

/-- What is said of a text that is no written double. -/
def refusalMessage (text : Text) : Text :=
  "could not convert string to float: ".toList ++ quoted text

end ScriptLexer.Double
