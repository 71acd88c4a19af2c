import ScriptLexer.Token.Basic
import ScriptLexer.Proofs.Numeral

/-! Cutting one lexeme from the front of a text. A cut takes as much as its form allows: a second
character where two make an operator, all characters of a word, and a point after digits only when
a digit follows it. -/
namespace ScriptLexer

inductive LexemeForm where
  | fixed (kind : TokenKind)
  | word
  | number
  | string
  | blank
  | comment
  | unexpected (c : Char)
  | unterminated
  deriving DecidableEq, Repr

/-- A lexeme taken from the front of a text: its form, its characters and what is left. -/
structure Cut where
  form : LexemeForm
  taken : Text
  left : Text
  deriving DecidableEq, Repr

namespace Cut

def cons (c : Char) (cut : Cut) : Cut := { cut with taken := c :: cut.taken }

def word (text : Text) : Cut := ⟨.word, text.takeWhile isWordChar, text.dropWhile isWordChar⟩

/-- A point and the digits after it; nothing when no digit follows the point. -/
def fraction (text : Text) : Text × Text :=
  match text with
  | '.' :: digit :: rest =>
    if digit.isDigit then
      ('.' :: digit :: rest.takeWhile (·.isDigit), rest.dropWhile (·.isDigit))
    else ([], text)
  | _ => ([], text)

def number (text : Text) : Cut :=
  let (decimals, left) := fraction (text.dropWhile (·.isDigit))
  ⟨.number, text.takeWhile (·.isDigit) ++ decimals, left⟩

/-- What follows an opening quote, up to the closing one. There are no escapes. -/
def string (text : Text) : Cut :=
  match text.dropWhile (· != '\x22') with
  | quote :: left => ⟨.string, text.takeWhile (· != '\x22') ++ [quote], left⟩
  | [] => ⟨.unterminated, text, []⟩

/-- The rest of a line, without the line feed that ends it. -/
def restOfLine (text : Text) : Cut :=
  ⟨.comment, text.takeWhile (!isNewline ·), text.dropWhile (!isNewline ·)⟩

/-- An operator with the equals sign that may follow it. -/
def operator (alone withEqual : TokenKind) : Text → Cut
  | '=' :: left => ⟨.fixed withEqual, ['='], left⟩
  | left => ⟨.fixed alone, [], left⟩

/-- A slash begins a comment when another one follows. -/
def slash : Text → Cut
  | '/' :: rest => (restOfLine rest).cons '/'
  | left => ⟨.fixed .slash, [], left⟩

/-- What follows the first character `c` of a lexeme. -/
def following (c : Char) (rest : Text) : Cut :=
  match TokenKind.symbol? c with
  | some kind => ⟨.fixed kind, [], rest⟩
  | none =>
    match TokenKind.operator? c with
    | some (alone, withEqual) => operator alone withEqual rest
    | none =>
      if c == '/' then slash rest
      else if isBlank c || isNewline c then ⟨.blank, [], rest⟩
      else if c == '\x22' then string rest
      else if c.isDigit then number rest
      else if isLetter c then word rest
      else ⟨.unexpected c, [], rest⟩

/-- The lexeme that starts with `c`. -/
def first (c : Char) (rest : Text) : Cut := (following c rest).cons c

theorem word_append (text : Text) : (word text).taken ++ (word text).left = text :=
  List.takeWhile_append_dropWhile

theorem fraction_append (text : Text) : (fraction text).1 ++ (fraction text).2 = text := by
  unfold fraction
  split
  · split
    · simp [List.takeWhile_append_dropWhile]
    · rfl
  · rfl

theorem number_append (text : Text) : (number text).taken ++ (number text).left = text := by
  simp only [number, List.append_assoc, fraction_append, List.takeWhile_append_dropWhile]

theorem string_append (text : Text) : (string text).taken ++ (string text).left = text := by
  have whole := List.takeWhile_append_dropWhile (p := (· != '\x22')) (l := text)
  unfold string
  split
  · rename_i h
    simpa [h] using whole
  · simp

theorem restOfLine_append (text : Text) :
    (restOfLine text).taken ++ (restOfLine text).left = text :=
  List.takeWhile_append_dropWhile

theorem operator_append (alone withEqual : TokenKind) (text : Text) :
    (operator alone withEqual text).taken ++ (operator alone withEqual text).left = text := by
  unfold operator
  split <;> rfl

theorem slash_append (text : Text) : (slash text).taken ++ (slash text).left = text := by
  unfold slash
  split
  · simp [cons, restOfLine_append]
  · rfl

theorem following_append (c : Char) (rest : Text) :
    (following c rest).taken ++ (following c rest).left = rest := by
  unfold following
  split
  · rfl
  split
  · exact operator_append _ _ rest
  split
  · exact slash_append rest
  split
  · rfl
  split
  · exact string_append rest
  split
  · exact number_append rest
  split
  · exact word_append rest
  · rfl

theorem first_append (c : Char) (rest : Text) :
    (first c rest).taken ++ (first c rest).left = c :: rest := by
  simp [first, cons, following_append]

theorem length_left_first_lt (c : Char) (rest : Text) :
    (first c rest).left.length < (c :: rest).length := by
  have whole := congrArg List.length (following_append c rest)
  simp only [List.length_append] at whole
  simp only [first, cons, List.length_cons]
  omega

end Cut

/-- The kind of token a lexeme makes; blanks, comments and faults make none. -/
def LexemeForm.tokenKind? (form : LexemeForm) (text : Text) : Option TokenKind :=
  match form with
  | fixed kind => some kind
  | word => some (.ofWord text)
  | number => some .number
  | string => some .string
  | blank | comment | unexpected _ | unterminated => none

/-- The text between the first and the last character. -/
def inner (text : Text) : Text := text.tail.dropLast

def LexemeForm.literal? (form : LexemeForm) (text : Text) : Option Literal :=
  match form with
  | number => some (.number (.ofNumeral text))
  | string => some (.text (inner text))
  | _ => none

end ScriptLexer
