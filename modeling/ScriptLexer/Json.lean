import ScriptLexer.Double.Decimal

/-! JSON values and their indented text. The text is printable ASCII: all else is written as
the escapes of its UTF-16 units. Values that no JSON number denotes are written by name. -/
namespace ScriptLexer

inductive Json where
  | null
  | text (value : Text)
  | integer (value : Int)
  | double (value : Double)
  | array (items : List Json)
  | object (fields : List (Text × Json))

namespace Json

def unitEscape (unit : Nat) : Text := '\\' :: 'u' :: hex 4 unit

/-- A code point outside the basic plane takes a high and a low unit. -/
def unicodeEscape (code : Nat) : Text :=
  if code < 0x10000 then unitEscape code
  else
    unitEscape (0xD800 + (code - 0x10000) / 0x400) ++ unitEscape (0xDC00 + (code - 0x10000) % 0x400)

def escaped (c : Char) : Text :=
  if c = '\x22' then ['\\', '\x22']
  else if c = '\\' then ['\\', '\\']
  else if c = '\n' then ['\\', 'n']
  else if c = '\r' then ['\\', 'r']
  else if c = '\t' then ['\\', 't']
  else if c = '\x08' then ['\\', 'b']
  else if c = '\x0c' then ['\\', 'f']
  else if 0x20 ≤ c.toNat ∧ c.toNat < 0x7F then [c]
  else unicodeEscape c.toNat

def stringText (text : Text) : Text := '\x22' :: (text.flatMap escaped ++ ['\x22'])

def doubleText : Double → Text := Double.textWith ⟨"Infinity".toList, "NaN".toList⟩

/-- A new line, indented. -/
def lineBreak (indent : Nat) : Text := '\n' :: List.replicate indent ' '

mutual

/-- The text of a value whose last line is indented by `indent`. -/
def render (indent : Nat) : Json → Text
  | null => "null".toList
  | text value => stringText value
  | integer value => signedDecimal value
  | double value => doubleText value
  | array [] => "[]".toList
  | array (first :: rest) =>
    '[' :: lineBreak (indent + 2) ++ render (indent + 2) first
      ++ renderItems (indent + 2) rest ++ lineBreak indent ++ [']']
  | object [] => "\x7b\x7d".toList
  | object (first :: rest) =>
    '\x7b' :: lineBreak (indent + 2) ++ renderField (indent + 2) first
      ++ renderFields (indent + 2) rest ++ lineBreak indent ++ ['\x7d']

/-- The items after the first of an array. -/
def renderItems (indent : Nat) : List Json → Text
  | [] => []
  | item :: rest =>
    ',' :: lineBreak indent ++ render indent item ++ renderItems indent rest

def renderField (indent : Nat) : Text × Json → Text
  | (key, value) => stringText key ++ ": ".toList ++ render indent value

/-- The fields after the first of an object. -/
def renderFields (indent : Nat) : List (Text × Json) → Text
  | [] => []
  | field :: rest =>
    ',' :: lineBreak indent ++ renderField indent field ++ renderFields indent rest

end

end Json

end ScriptLexer
