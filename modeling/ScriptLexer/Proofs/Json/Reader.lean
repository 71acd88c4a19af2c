import ScriptLexer.Json
import ScriptLexer.Proofs.Double.ReadBack
import ScriptLexer.Proofs.Text.StringReader

/-! A reader of JSON values. Blanks may stand around each value and each mark. Beyond JSON, it knows names for
the doubles that no number denotes; the two truth values, which no value here stands for, it does not know.
A number with a point or an exponent is a double, any other an integer. -/
namespace ScriptLexer.JsonText

def blanks : Text := [' ', '\t', '\n', '\r']

def skipBlanks (text : Text) : Text := text.dropWhile (· ∈ blanks)

/-- What follows the mark, where it comes next. -/
def afterMark? (mark : Char) (text : Text) : Option Text :=
  match skipBlanks text with
  | [] => none
  | c :: rest => if c = mark then some rest else none

/-- How characters are written in a string. -/
def stringSpelling : Spelling where
  plain c := decide (0x20 ≤ c.toNat)
  letters := [('\x22', '\x22'), ('\\', '\\'), ('/', '/'), ('b', '\x08'), ('f', '\x0c'), ('n', '\n'),
    ('r', '\r'), ('t', '\t')]
  widths := [('u', 4)]

def isHigh (unit : Nat) : Bool := decide (0xD800 ≤ unit ∧ unit < 0xDC00)

def isLow (unit : Nat) : Bool := decide (0xDC00 ≤ unit ∧ unit < 0xE000)

/-- The code point outside the basic plane that a high and a low unit stand for. -/
def pairCode (high low : Nat) : Nat := 0x10000 + (high - 0xD800) * 0x400 + (low - 0xDC00)

/-- The characters with the codes, where a high and a low unit are one. -/
def joinUnits? : List Nat → Option Text
  | [] => some []
  | [code] => (char? code).map ([·])
  | code :: next :: rest =>
    if isHigh code && isLow next then
      (char? (pairCode code next)).bind fun c => (joinUnits? rest).map (c :: ·)
    else (char? code).bind fun c => (joinUnits? (next :: rest)).map (c :: ·)

/-- The string whose opening quote was read. -/
def string? (text : Text) : Option (Text × Text) :=
  (stringSpelling.read? '\x22' text).bind fun (codes, rest) => (joinUnits? codes).map (·, rest)

/-- An exponent, or a point with digits and perhaps an exponent, or neither. -/
def isNumberTail : Text → Bool
  | '.' :: rest =>
    !(rest.takeWhile (·.isDigit)).isEmpty && (Double.exponent? (rest.dropWhile (·.isDigit))).isSome
  | rest => (Double.exponent? rest).isSome

/-- Digits, with no zero before others, and a tail. -/
def isUnsignedNumber (text : Text) : Bool :=
  let whole := text.takeWhile (·.isDigit)
  (whole == ['0'] || !whole.isEmpty && whole.head? != some '0')
    && isNumberTail (text.dropWhile (·.isDigit))

def isNumber (text : Text) : Bool :=
  isUnsignedNumber (if text.head? = some '-' then text.tail else text)

/-- What makes a number a double. -/
def doubleMarks : Text := ['.', 'e', 'E']

def numberValue? (text : Text) : Option Json :=
  if text.any (· ∈ doubleMarks) then (Double.read? text).map .double else some (.integer (integerValue text))

def number? (text : Text) : Option (Json × Text) :=
  let run := text.takeWhile (· ∈ numberChars)
  if isNumber run then (numberValue? run).map (·, text.dropWhile (· ∈ numberChars)) else none

def words : List (Text × Json) := [
  ("null".toList, .null),
  ("NaN".toList, .double .nan),
  ("Infinity".toList, .double .infinity),
  ("-Infinity".toList, .double (.signed true (Fin.last infinityRank)))]

def word? (text : Text) : Option (Json × Text) :=
  (words.find? fun entry => entry.1.isPrefixOf text).map fun entry => (entry.2, text.drop entry.1.length)

section

variable {α : Type} (read : Text → Option (α × Text)) (close : Char)

/-- One part or more, with commas between them, up to the closing mark. -/
def parts? : (fuel : Nat) → Text → Option (List α × Text)
  | 0, _ => none
  | fuel + 1, text =>
    (read text).bind fun (first, rest) =>
      match afterMark? ',' rest with
      | some rest => (parts? fuel rest).map fun (later, rest) => (first :: later, rest)
      | none => (afterMark? close rest).map ([first], ·)

/-- The parts whose opening mark was read. -/
def group? (fuel : Nat) (text : Text) : Option (List α × Text) :=
  match afterMark? close text with
  | some rest => some ([], rest)
  | none => parts? read close fuel text

end

def member? (read : Text → Option (Json × Text)) (text : Text) : Option ((Text × Json) × Text) :=
  (afterMark? '\x22' text).bind fun rest =>
    (string? rest).bind fun (key, rest) =>
      (afterMark? ':' rest).bind fun rest => (read rest).map fun (value, rest) => ((key, value), rest)

/-- The value that comes next, and what follows it. A level and a part of a level take one of the fuel. -/
def value? : (fuel : Nat) → Text → Option (Json × Text)
  | 0, _ => none
  | fuel + 1, text =>
    match skipBlanks text with
    | [] => none
    | c :: rest =>
      if c = '\x22' then (string? rest).map fun (value, rest) => (.text value, rest)
      else if c = '[' then
        (group? (value? fuel) ']' fuel rest).map fun (items, rest) => (.array items, rest)
      else if c = '\x7b' then
        (group? (member? (value? fuel)) '\x7d' fuel rest).map fun (fields, rest) => (.object fields, rest)
      else number? (c :: rest) <|> word? (c :: rest)

/-- The one value of a text. It has no more levels and parts than the text has characters. -/
def read? (text : Text) : Option Json :=
  (value? (text.length + 1) text).bind fun (value, rest) =>
    if skipBlanks rest = [] then some value else none

theorem skipBlanks_append {gap : Text} (h : ∀ c ∈ gap, c ∈ blanks) (text : Text) :
    skipBlanks (gap ++ text) = skipBlanks text :=
  List.dropWhile_append_of_pos (by simpa using h)

theorem skipBlanks_cons {c : Char} (h : c ∉ blanks) (rest : Text) : skipBlanks (c :: rest) = c :: rest :=
  List.dropWhile_cons_of_neg (by simpa using h)

theorem afterMark?_append {gap : Text} (h : ∀ c ∈ gap, c ∈ blanks) {c : Char} (h' : c ∉ blanks) (mark : Char)
    (rest : Text) : afterMark? mark (gap ++ c :: rest) = if c = mark then some rest else none := by
  unfold afterMark?
  rw [skipBlanks_append h, skipBlanks_cons h']

theorem afterMark?_cons {c : Char} (h : c ∉ blanks) (mark : Char) (rest : Text) :
    afterMark? mark (c :: rest) = if c = mark then some rest else none := by
  unfold afterMark?
  rw [skipBlanks_cons h]

theorem value?_append {gap : Text} (h : ∀ c ∈ gap, c ∈ blanks) (fuel : Nat) (text : Text) :
    value? fuel (gap ++ text) = value? fuel text := by
  cases fuel with
  | zero => rfl
  | succ fuel =>
    unfold value?
    rw [skipBlanks_append h]

theorem isSome_exponent? {text : Text} (h : IsExponent text) : (Double.exponent? text).isSome := by
  cases h with
  | none => rfl
  | @mark mark sign digits marked signed number =>
    have table : ∀ c ∈ numeralChars, c ≠ '-' ∧ c ≠ '+' := by decide
    obtain ⟨c, rest, rfl⟩ := List.exists_cons_of_ne_nil number.nonempty
    obtain ⟨minus, plus⟩ := table c (mem_numeralChars_of_isDigit number.head)
    have all : (c :: rest).all (·.isDigit) := List.all_eq_true.2 number.digits
    have mark : mark = 'e' ∨ mark = 'E' := by simpa using marked
    have sign : sign = [] ∨ sign = ['+'] ∨ sign = ['-'] := by simpa using signed
    rcases sign with rfl | rfl | rfl <;> simp [Double.exponent?, mark, minus, plus, all]

theorem head_of_isExponent {text : Text} (h : IsExponent text) : ∀ c ∈ text.head?, c ∈ ['e', 'E'] := by
  cases h with
  | none => simp
  | mark marked =>
    rintro c ⟨⟩
    exact marked

theorem isNumberTail_of_parts {fraction exponent : Text} (h : IsFraction fraction)
    (h' : IsExponent exponent) : isNumberTail (fraction ++ exponent) := by
  have power := isSome_exponent? h'
  have stop : ∀ c ∈ exponent.head?, c.isDigit = false := by
    have table : ∀ c ∈ ['e', 'E'], c.isDigit = false := by decide
    exact fun c first => table c (head_of_isExponent h' c first)
  cases h with
  | none =>
    rw [List.nil_append, isNumberTail]
    · exact power
    · rintro rest rfl
      exact absurd (head_of_isExponent h' '.' rfl) (by decide)
  | @point digits number =>
    have front := takeWhile_append_stop number.digits stop
    have back := dropWhile_append_stop number.digits stop
    simp [isNumberTail, front, back, number.nonempty, power]

theorem isUnsignedNumber_of_isMagnitude {text : Text} (h : IsMagnitude text) : isUnsignedNumber text := by
  obtain @⟨whole, fraction, exponent, front, point, power⟩ := h
  have digits : Digits whole := by
    cases front with
    | zero => exact digits_decimal 0
    | digits digits => exact digits
  have stop : ∀ c ∈ (fraction ++ exponent).head?, c.isDigit = false := by
    have table : ∀ c ∈ ['e', 'E'], c.isDigit = false := by decide
    cases point with
    | none => exact fun c first => table c (head_of_isExponent power c first)
    | point =>
      rintro c ⟨⟩
      decide
  have tail := isNumberTail_of_parts point power
  have first : whole = ['0'] ∨ whole ≠ [] ∧ whole.head? ≠ some '0' := by
    cases front with
    | zero => exact .inl rfl
    | digits digits head => exact .inr ⟨digits.nonempty, head⟩
  unfold isUnsignedNumber
  rw [takeWhile_append_stop digits.digits stop, dropWhile_append_stop digits.digits stop, tail]
  simpa using first

/-- The numbers of the grammar are all read. -/
theorem isNumber_of_isNumber {text : Text} (h : IsNumber text) : isNumber text := by
  cases h with
  | plain magnitude =>
    obtain ⟨c, rest, rfl, digit⟩ := Double.exists_cons_of_isMagnitude magnitude
    have unsigned : (c :: rest).head? ≠ some '-' := by
      rintro ⟨⟩
      exact absurd digit (by decide)
    rw [isNumber, if_neg unsigned]
    exact isUnsignedNumber_of_isMagnitude magnitude
  | minus magnitude => exact isUnsignedNumber_of_isMagnitude magnitude

/-- The text before does not end a number that goes on here. -/
def Ends (rest : Text) : Prop := ∀ c ∈ rest.head?, c ∉ numberChars

theorem number?_append {text : Text} (h : IsNumber text) {rest : Text} (ends : Ends rest) :
    number? (text ++ rest) = (numberValue? text).map (·, rest) := by
  have inside : ∀ c ∈ text, decide (c ∈ numberChars) := fun c member => decide_eq_true (h.subset member)
  have stop : ∀ c ∈ rest.head?, decide (c ∈ numberChars) = false := fun c first =>
    decide_eq_false (ends c first)
  unfold number?
  dsimp only
  rw [takeWhile_append_stop inside stop, dropWhile_append_stop inside stop, if_pos (isNumber_of_isNumber h)]

end ScriptLexer.JsonText
