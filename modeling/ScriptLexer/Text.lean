/-! Plain text as a list of characters. Offsets and lengths count characters, never bytes; a
number is written in decimal unless its function says otherwise. -/
namespace ScriptLexer

abbrev Text := List Char

/-- What is said of all characters of a text is decided on the text, not on the character type. -/
instance decidableForallMem (p : Char → Prop) [DecidablePred p] (text : Text) :
    Decidable (∀ c ∈ text, p c) :=
  List.decidableBAll p text

/-- A letter that may start a word: basic Latin or the underscore. -/
def isLetter (c : Char) : Bool := c.isAlpha || c == '_'

/-- A character that may continue a word. Digits are those of basic Latin here and in numbers. -/
def isWordChar (c : Char) : Bool := isLetter c || c.isDigit

/-- A blank separates lexemes and ends no line. -/
def isBlank (c : Char) : Bool := c == ' ' || c == '\r' || c == '\t'

def isNewline (c : Char) : Bool := c == '\n'

def decimal (n : Nat) : Text := Nat.toDigits 10 n

def signedDecimal : Int → Text
  | .ofNat n => decimal n
  | .negSucc n => '-' :: decimal (n + 1)

/-- At least `width` hexadecimal digits, lower case. -/
def hex (width n : Nat) : Text :=
  let digits := Nat.toDigits 16 n
  List.replicate (width - digits.length) '0' ++ digits

/-- Upper case for basic Latin letters; every other character stays. -/
def upperCase (text : Text) : Text := text.map Char.toUpper

/-- The parts in order, with the separator between each two of them. -/
def joinWith (separator : Text) : List Text → Text
  | [] => []
  | [part] => part
  | part :: next :: rest => part ++ separator ++ joinWith separator (next :: rest)

/-- The slice of a text from offset `first` up to, not including, `last`; empty when there is no
such range. -/
def slice (text : Text) (first last : Nat) : Text := (text.drop first).take (last - first)

end ScriptLexer
