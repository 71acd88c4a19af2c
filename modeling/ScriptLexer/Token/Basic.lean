import ScriptLexer.Json
import ScriptLexer.Text.Quoted
import ScriptLexer.Token.Kind

/-! Tokens and their three written forms: a short one for reading, one that names every field, and
a JSON object. -/
namespace ScriptLexer

inductive Literal where
  | text (value : Text)
  | number (value : Double)
  deriving DecidableEq, Repr

/-- A token keeps the exact text it was cut from. Its line, counted from one, is the line its first
character stands on. -/
structure Token where
  kind : TokenKind
  lexeme : Text
  literal : Option Literal
  line : Int
  deriving DecidableEq, Repr

namespace Literal

def described : Literal → Text
  | text value => quoted value
  | number value => value.text

def toJson : Literal → Json
  | text value => .text value
  | number value => .double value

def sameValue : Literal → Literal → Bool
  | text value, text value' => value == value'
  | number value, number value' => value.sameValue value'
  | _, _ => false

end Literal

namespace Token

def shown (token : Token) : Text :=
  token.kind.name ++ '(' :: quoted token.lexeme
    ++ (match token.literal with
        | some literal => " -> ".toList ++ literal.described
        | none => [])
    ++ [')']

def described (token : Token) : Text :=
  "Token(".toList
    ++ joinWith ", ".toList [
      token.kind.name,
      quoted token.lexeme,
      (token.literal.map Literal.described).getD "None".toList,
      signedDecimal token.line]
    ++ [')']

def toJson (token : Token) : Json :=
  .object [
    ("type".toList, .text token.kind.name),
    ("lexeme".toList, .text token.lexeme),
    ("literal".toList, (token.literal.map Literal.toJson).getD .null),
    ("line".toList, .integer token.line)]

/-- Equality of all fields, numbers being compared by value. -/
def sameValue (token token' : Token) : Bool :=
  token.kind == token'.kind && token.lexeme == token'.lexeme && token.line == token'.line
    && match token.literal, token'.literal with
      | none, none => true
      | some literal, some literal' => literal.sameValue literal'
      | _, _ => false

end Token

/-- The token that ends every scan. -/
def endToken (line : Nat) : Token := ⟨.endOfInput, [], none, line⟩

/-- One token a line, in the short form. -/
def tokenLines (tokens : List Token) : Text :=
  tokens.flatMap fun token => token.shown ++ ['\n']

/-- The tokens as one JSON array. -/
def tokenJson (tokens : List Token) : Text :=
  (Json.array (tokens.map Token.toJson)).render 0 ++ ['\n']

end ScriptLexer
