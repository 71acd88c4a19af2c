import Mathlib.Data.List.Forall2
import ScriptLexer.CommandLine.Run
import ScriptLexer.Proofs.Json.RoundTrip
import ScriptLexer.Proofs.Lines
import ScriptLexer.Proofs.Text.Quoted

/-! Written tokens can be told apart. In the plain forms each field is read back up to the mark that ends it,
whatever the texts in it hold: names and numbers are free of marks, and quotes end the rest. From JSON a
reader gets all fields. -/
namespace ScriptLexer

theorem takeWhile_stop {stop : Char} {text : Text} (h : stop ∉ text) (rest : Text) :
    (text ++ stop :: rest).takeWhile (· != stop) = text := by
  apply takeWhile_append_stop
  · intro c member
    exact bne_iff_ne.2 (ne_of_mem_of_not_mem member h)
  · simp

theorem dropWhile_stop {stop : Char} {text : Text} (h : stop ∉ text) (rest : Text) :
    (text ++ stop :: rest).dropWhile (· != stop) = stop :: rest := by
  apply dropWhile_append_stop
  · intro c member
    exact bne_iff_ne.2 (ne_of_mem_of_not_mem member h)
  · simp

/-- What is free of the mark that ends it is cut off at the first such mark. -/
theorem append_stop_inj {stop : Char} {text text' rest rest' : Text} (h : stop ∉ text) (h' : stop ∉ text')
    (same : text ++ stop :: rest = text' ++ stop :: rest') : text = text' ∧ rest = rest' := by
  have front := congrArg (List.takeWhile (· != stop)) same
  rw [takeWhile_stop h, takeWhile_stop h'] at front
  subst front
  exact ⟨rfl, (List.cons.inj (List.append_cancel_left same)).2⟩

namespace TokenKind

theorem ofName?_name (kind : TokenKind) : ofName? kind.name = some kind := by
  cases kind <;> decide

theorem name_injective : Function.Injective name := by
  intro kind kind' same
  have known := ofName?_name kind
  rw [same, ofName?_name] at known
  exact (Option.some.inj known).symm

theorem marks_not_mem_name (kind : TokenKind) :
    '(' ∉ kind.name ∧ ',' ∉ kind.name ∧ '\n' ∉ kind.name := by
  cases kind <;> decide

end TokenKind

theorem signedDecimal_injective : Function.Injective signedDecimal := by
  intro n n' same
  have value := congrArg integerValue same
  rwa [integerValue_signedDecimal, integerValue_signedDecimal] at value

namespace Double

/-- The characters that doubles are written with. -/
def textChars : Text := JsonText.numberChars ++ "infa".toList

theorem text_subset (d : Double) : d.text ⊆ textChars := by
  cases d with
  | nan => decide
  | signed negative rank =>
    have sign : (if negative then ['-'] else []) ⊆ textChars := by cases negative <;> decide
    refine List.append_subset.2 ⟨sign, ?_⟩
    split
    · decide
    · exact List.subset_append_of_subset_left _ (isMagnitude_magnitudeText rank).subset

end Double

namespace Literal

/-- The value that is written before the stop: text in quotes, or a number. -/
def read? (stop : Char) (text : Text) : Option Literal :=
  match unquoted? text with
  | some (value, _) => some (.text value)
  | none => (Double.read? (text.takeWhile (· != stop))).map .number

theorem unquoted?_of_unquoted {c : Char} (h : c ∉ quotes) (rest : Text) : unquoted? (c :: rest) = none :=
  if_neg h

theorem read?_described {stop : Char} (free : stop ∉ Double.textChars) (unquoted : stop ∉ quotes)
    (literal : Literal) (rest : Text) : read? stop (literal.described ++ stop :: rest) = some literal := by
  cases literal with
  | text value =>
    unfold read? described
    rw [unquoted?_quoted]
  | number value =>
    have inside := Double.text_subset value
    have bare : unquoted? (value.text ++ stop :: rest) = none := by
      cases text : value.text with
      | nil => exact unquoted?_of_unquoted unquoted rest
      | cons c later =>
        have table : ∀ c ∈ Double.textChars, c ∉ quotes := by decide
        rw [text] at inside
        exact unquoted?_of_unquoted (table c (inside List.mem_cons_self)) _
    have word := takeWhile_stop (fun member => free (inside member)) rest
    unfold read? described
    rw [bare, word, Double.read?_text]
    rfl

theorem described_injective : Function.Injective described := by
  intro literal literal' same
  have free : ')' ∉ Double.textChars := by decide
  have unquoted : ')' ∉ quotes := by decide
  have read := read?_described free unquoted literal []
  rw [same, read?_described free unquoted] at read
  exact (Option.some.inj read).symm

theorem newline_not_mem_described (literal : Literal) : '\n' ∉ literal.described := by
  cases literal with
  | text value => exact newline_not_mem_quoted value
  | number value =>
    have free : '\n' ∉ Double.textChars := by decide
    exact fun member => free (Double.text_subset value member)

/-- A value, or the word for none. -/
theorem read?_value (literal : Option Literal) (rest : Text) :
    read? ',' ((literal.map described).getD "None".toList ++ ',' :: rest) = literal := by
  cases literal with
  | none =>
    have word := takeWhile_stop (by decide : ',' ∉ "None".toList) rest
    have unread : Double.read? "None".toList = none := by decide
    change (Double.read? (("None".toList ++ ',' :: rest).takeWhile (· != ','))).map number = none
    rw [word, unread]
    rfl
  | some literal => exact read?_described (by decide) (by decide) literal rest

end Literal

namespace Token

theorem shown_eq (token : Token) : token.shown = token.kind.name ++ '(' :: (quoted token.lexeme
    ++ ((token.literal.elim [] fun literal => " -> ".toList ++ literal.described) ++ [')'])) := by
  unfold shown
  cases token.literal <;> simp

theorem described_eq (token : Token) : token.described = "Token(".toList ++ (token.kind.name
    ++ ',' :: ([' '] ++ (quoted token.lexeme ++ (", ".toList
    ++ ((token.literal.map Literal.described).getD "None".toList
    ++ ',' :: ([' '] ++ (signedDecimal token.line ++ [')']))))))) := by
  unfold described
  simp [joinWith]

theorem shown_eq_iff {token token' : Token} : token.shown = token'.shown ↔
    token.kind = token'.kind ∧ token.lexeme = token'.lexeme ∧ token.literal = token'.literal := by
  rw [shown_eq, shown_eq]
  constructor
  · intro same
    obtain ⟨name, rest⟩ := append_stop_inj token.kind.marks_not_mem_name.1
      token'.kind.marks_not_mem_name.1 same
    obtain ⟨lexeme, rest⟩ := quoted_append_inj rest
    refine ⟨TokenKind.name_injective name, lexeme, ?_⟩
    have written := List.append_cancel_right rest
    cases literal : token.literal with
    | none =>
      cases literal' : token'.literal with
      | none => rfl
      | some value' => simp [literal, literal'] at written
    | some value =>
      cases literal' : token'.literal with
      | none => simp [literal, literal'] at written
      | some value' =>
        rw [literal, literal'] at written
        exact congrArg some (Literal.described_injective (List.append_cancel_left written))
  · rintro ⟨kind, lexeme, literal⟩
    rw [kind, lexeme, literal]

theorem described_injective : Function.Injective described := by
  intro token token' same
  rw [described_eq, described_eq] at same
  obtain ⟨name, rest⟩ := append_stop_inj token.kind.marks_not_mem_name.2.1
    token'.kind.marks_not_mem_name.2.1 (List.append_cancel_left same)
  obtain ⟨lexeme, rest⟩ := quoted_append_inj (List.append_cancel_left rest)
  have literal := congrArg (Literal.read? ',') (List.append_cancel_left rest)
  rw [Literal.read?_value, Literal.read?_value] at literal
  rw [literal] at rest
  obtain ⟨-, rest⟩ := List.cons.inj (List.append_cancel_left (List.append_cancel_left rest))
  have line := signedDecimal_injective (List.append_cancel_right (List.append_cancel_left rest))
  have kind := TokenKind.name_injective name
  cases token
  cases token'
  simp_all only

/-- A shown token takes one line. -/
theorem newline_not_mem_shown (token : Token) : '\n' ∉ token.shown := by
  have name := token.kind.marks_not_mem_name.2.2
  have lexeme := newline_not_mem_quoted token.lexeme
  rw [shown_eq]
  cases token.literal with
  | none => simp [name, lexeme]
  | some literal =>
    have value := literal.newline_not_mem_described
    simp [name, lexeme, value]

end Token

theorem lines_tokenLines (tokens : List Token) :
    lines (tokenLines tokens) = tokens.map fun token => token.shown ++ ['\n'] := by
  unfold tokenLines
  exact lines_flatMap fun token _ => token.newline_not_mem_shown

/-- Lists are told apart by one function as by another where their entries are. -/
theorem map_eq_map_iff_of_iff {α β γ : Type} {f : α → β} {g : α → γ} (same : ∀ a b, f a = f b ↔ g a = g b)
    {parts parts' : List α} : parts.map f = parts'.map f ↔ parts.map g = parts'.map g := by
  simp only [← List.forall₂_eq_eq_eq, List.forall₂_map_left_iff, List.forall₂_map_right_iff, same]

theorem tokenLines_eq_iff {tokens tokens' : List Token} : tokenLines tokens = tokenLines tokens' ↔
    tokens.map (fun token => (token.kind, token.lexeme, token.literal))
      = tokens'.map fun token => (token.kind, token.lexeme, token.literal) := by
  have entry (token token' : Token) : token.shown ++ ['\n'] = token'.shown ++ ['\n'] ↔
      (token.kind, token.lexeme, token.literal) = (token'.kind, token'.lexeme, token'.literal) := by
    rw [List.append_left_inj, Token.shown_eq_iff, Prod.mk.injEq, Prod.mk.injEq]
  refine Iff.trans ⟨fun same => ?_, fun same => ?_⟩ (map_eq_map_iff_of_iff entry)
  · have rows := congrArg lines same
    rwa [lines_tokenLines, lines_tokenLines] at rows
  · rw [tokenLines, tokenLines, List.flatMap_def, List.flatMap_def, same]

/-- What JSON says of a token: its kind by name, its lexeme, its value or null, and its line. -/
theorem Token.toJson_eq (token : Token) : token.toJson = .object [
    ("type".toList, .text token.kind.name),
    ("lexeme".toList, .text token.lexeme),
    ("literal".toList, match token.literal with
      | none => .null
      | some (.text value) => .text value
      | some (.number value) => .double value),
    ("line".toList, .integer token.line)] := by
  obtain ⟨kind, lexeme, literal, line⟩ := token
  rcases literal with - | ⟨value | value⟩ <;> rfl

theorem Literal.toJson_inj {literal literal' : Option Literal}
    (same : (literal.map toJson).getD .null = (literal'.map toJson).getD .null) : literal = literal' := by
  rcases literal with - | ⟨value | value⟩ <;> rcases literal' with - | ⟨value' | value'⟩ <;>
    simp_all [toJson]

theorem Token.toJson_injective : Function.Injective toJson := by
  intro token token' same
  simp only [toJson, Json.object.injEq, List.cons.injEq, Prod.mk.injEq, Json.text.injEq,
    Json.integer.injEq, true_and, and_true] at same
  obtain ⟨name, lexeme, value, line⟩ := same
  have kind := TokenKind.name_injective name
  have literal := Literal.toJson_inj value
  cases token
  cases token'
  simp_all only

theorem read?_tokenJson (tokens : List Token) :
    JsonText.read? (tokenJson tokens) = some (.array (tokens.map Token.toJson)) :=
  read?_render _ (by decide : ∀ c ∈ ['\n'], c ∈ JsonText.blanks)

theorem tokenJson_injective : Function.Injective tokenJson := by
  intro tokens tokens' same
  have read := congrArg JsonText.read? same
  rw [read?_tokenJson, read?_tokenJson] at read
  exact Token.toJson_injective.list_map (Json.array.inj (Option.some.inj read))

namespace CommandLine

/-- Without JSON each token takes one line, and what is written tells all fields of the tokens but their
lines; the form that names every field tells those too. -/
theorem tokenText_plain (tokens tokens' : List Token) (token token' : Token) :
    lines (tokenText false tokens) = tokens.map (fun token => token.shown ++ ['\n']) ∧
    (∀ token : Token, '\n' ∉ token.shown) ∧
    (tokenText false tokens = tokenText false tokens' ↔
      tokens.map (fun token => (token.kind, token.lexeme, token.literal))
        = tokens'.map fun token => (token.kind, token.lexeme, token.literal)) ∧
    (token.described = token'.described ↔ token = token') :=
  ⟨lines_tokenLines tokens, Token.newline_not_mem_shown, tokenLines_eq_iff,
    Token.described_injective.eq_iff⟩

/-- The JSON of tokens is ASCII up to one line feed at its end, and a reader of JSON finds in it one array
with an object for each token, in order, that holds all fields of the token; so it tells them all. -/
theorem tokenText_json (tokens tokens' : List Token) :
    (∃ document, tokenText true tokens = document ++ ['\n'] ∧ (∀ c ∈ document, c.toNat < 0x80) ∧
      document.getLast? ≠ some '\n') ∧
    JsonText.read? (tokenText true tokens) = some (.array (tokens.map fun token => .object [
      ("type".toList, .text token.kind.name),
      ("lexeme".toList, .text token.lexeme),
      ("literal".toList, match token.literal with
        | none => .null
        | some (.text value) => .text value
        | some (.number value) => .double value),
      ("line".toList, .integer token.line)])) ∧
    (tokenText true tokens = tokenText true tokens' ↔ tokens = tokens') := by
  refine ⟨⟨_, rfl, isAscii_render _ 0, ?_⟩, ?_, tokenJson_injective.eq_iff⟩
  · rw [getLast?_render_array]
    decide
  · simp only [← Token.toJson_eq]
    exact read?_tokenJson tokens

end CommandLine

end ScriptLexer
