import ScriptLexer.Proofs.TokenForms

/-! The text of tokens, spelled out with every sign between their fields: a line for each token, or one
array over indented lines. The fields are read back from both. -/
namespace ScriptLexer

namespace Token

/-- The kind, the lexeme in quotes, and behind an arrow the value if there is one. -/
def row (token : Token) : Text :=
  token.kind.name ++ '(' :: (quoted token.lexeme
    ++ (match token.literal with
        | none => []
        | some (.text value) => " -> ".toList ++ quoted value
        | some (.number value) => " -> ".toList ++ value.text)
    ++ [')'])

/-- The lines of an object in an array. -/
def entry (token : Token) : Text :=
  "  \x7b\n    ".toList
    ++ joinWith ",\n    ".toList [
      "\"type\": ".toList ++ Json.stringText token.kind.name,
      "\"lexeme\": ".toList ++ Json.stringText token.lexeme,
      "\"literal\": ".toList ++ match token.literal with
        | none => "null".toList
        | some (.text value) => Json.stringText value
        | some (.number value) => Json.doubleText value,
      "\"line\": ".toList ++ signedDecimal token.line]
    ++ "\n  \x7d".toList

theorem shown_eq_row (token : Token) : token.shown = token.row := by
  unfold shown row
  rcases token.literal with - | ⟨value | value⟩ <;> simp [Literal.described]

theorem render_toJson (token : Token) : ' ' :: ' ' :: token.toJson.render 2 = token.entry := by
  obtain ⟨kind, lexeme, literal, line⟩ := token
  rw [toJson_eq, Json.render_object_cons]
  unfold entry
  rcases literal with - | ⟨value | value⟩ <;>
    simp [Json.render, Json.renderField, Json.lineBreak, Json.stringText, Json.escaped, joinWith]

/-- What a row says: the kind up to the bracket, the lexeme, and a value if there is an arrow. -/
def ofRow? (row : Text) : Option (TokenKind × Text × Option Literal) := do
  let kind ← TokenKind.ofName? (row.takeWhile (· != '('))
  let (lexeme, rest) ← unquoted? ((row.dropWhile (· != '(')).drop 1)
  match rest with
  | ' ' :: '-' :: '>' :: ' ' :: value => return (kind, lexeme, some (← Literal.read? ')' value))
  | _ => return (kind, lexeme, none)

theorem ofRow?_row (token : Token) (rest : Text) :
    ofRow? (token.row ++ rest) = some (token.kind, token.lexeme, token.literal) := by
  have name := token.kind.marks_not_mem_name.1
  rw [← shown_eq_row, shown_eq, List.append_assoc, List.cons_append, ofRow?, takeWhile_stop name,
    dropWhile_stop name]
  simp only [TokenKind.ofName?_name, List.drop_one, List.tail_cons, List.append_assoc, unquoted?_quoted]
  cases token.literal with
  | none => rfl
  | some literal =>
    have value := literal.read?_described (by decide : ')' ∉ Double.textChars) (by decide) rest
    simp [value]

end Token

/-- The text of a row of tokens. -/
def rendering : Bool → List Token → Text
  | false, tokens => tokens.flatMap fun token => token.row ++ ['\n']
  | true, [] => "[]\n".toList
  | true, first :: rest =>
    "[\n".toList ++ joinWith ",\n".toList ((first :: rest).map Token.entry) ++ "\n]\n".toList

/-- What is written of a row of tokens: lines from which the kinds, lexemes and values are read, or an array
from which all fields are. -/
structure Renders (json : Bool) (tokens : List Token) (out : Text) : Prop where
  text : out = rendering json tokens
  rows : json = false → lines out = tokens.map fun token => token.row ++ ['\n']
  fields : json = false → (lines out).map Token.ofRow?
    = tokens.map fun token => some (token.kind, token.lexeme, token.literal)
  array : json = true → JsonText.read? out = some (.array (tokens.map fun token => .object [
    ("type".toList, .text token.kind.name),
    ("lexeme".toList, .text token.lexeme),
    ("literal".toList, match token.literal with
      | none => .null
      | some (.text value) => .text value
      | some (.number value) => .double value),
    ("line".toList, .integer token.line)]))

theorem tokenJson_eq_rendering (tokens : List Token) : tokenJson tokens = rendering true tokens := by
  cases tokens with
  | nil => rfl
  | cons first rest =>
    rw [tokenJson, List.map_cons, Json.render_array_cons, rendering, List.map_cons, List.map_cons,
      Json.joinWith_cons, Json.joinWith_cons]
    simp [← Token.render_toJson, Json.lineBreak, List.flatMap_map]

namespace CommandLine

theorem tokenText_eq (json : Bool) (tokens : List Token) : tokenText json tokens = rendering json tokens := by
  cases json with
  | false => simp [tokenText, tokenLines, rendering, Token.shown_eq_row]
  | true => exact tokenJson_eq_rendering tokens

theorem renders_tokenText (json : Bool) (tokens : List Token) :
    Renders json tokens (tokenText json tokens) where
  text := tokenText_eq json tokens
  rows := by
    rintro rfl
    exact (lines_tokenLines tokens).trans (by simp [Token.shown_eq_row])
  fields := by
    rintro rfl
    change (lines (tokenLines tokens)).map Token.ofRow? = _
    simp [lines_tokenLines, Token.shown_eq_row, Token.ofRow?_row, Function.comp_def]
  array := by
    rintro rfl
    have objects := List.map_congr_left fun token (_ : token ∈ tokens) => token.toJson_eq
    exact (read?_tokenJson tokens).trans (congrArg (some ∘ Json.array) objects)

end CommandLine

end ScriptLexer
