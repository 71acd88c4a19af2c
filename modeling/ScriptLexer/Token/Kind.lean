import ScriptLexer.Text

/-! The kinds of token and the fixed spellings among them. A kind's number is its place in the
declaration, so the order of the constructors is part of what is shown to the outside. -/
namespace ScriptLexer

inductive TokenKind where
  | leftParen | rightParen | leftBrace | rightBrace | comma | dot | minus | plus | semicolon
  | star
  | bang | bangEqual | equal | equalEqual | greater | greaterEqual | less | lessEqual
  | identifier | string | number
  | andWord | classWord | elseWord | falseWord | funWord | forWord | ifWord | nilWord | orWord
  | printWord | returnWord | superWord | thisWord | trueWord | varWord | whileWord
  | slash | endOfInput
  deriving DecidableEq, Repr

namespace TokenKind

/-- All kinds, in declaration order. -/
def all : List TokenKind := [
  .leftParen, .rightParen, .leftBrace, .rightBrace, .comma, .dot, .minus, .plus, .semicolon,
  .star, .bang, .bangEqual, .equal, .equalEqual, .greater, .greaterEqual, .less, .lessEqual,
  .identifier, .string, .number, .andWord, .classWord, .elseWord, .falseWord, .funWord,
  .forWord, .ifWord, .nilWord, .orWord, .printWord, .returnWord, .superWord, .thisWord,
  .trueWord, .varWord, .whileWord, .slash, .endOfInput]

def name : TokenKind → Text
  | .leftParen => "LEFT_PAREN".toList
  | .rightParen => "RIGHT_PAREN".toList
  | .leftBrace => "LEFT_BRACE".toList
  | .rightBrace => "RIGHT_BRACE".toList
  | .comma => "COMMA".toList
  | .dot => "DOT".toList
  | .minus => "MINUS".toList
  | .plus => "PLUS".toList
  | .semicolon => "SEMICOLON".toList
  | .star => "STAR".toList
  | .bang => "BANG".toList
  | .bangEqual => "BANG_EQUAL".toList
  | .equal => "EQUAL".toList
  | .equalEqual => "EQUAL_EQUAL".toList
  | .greater => "GREATER".toList
  | .greaterEqual => "GREATER_EQUAL".toList
  | .less => "LESS".toList
  | .lessEqual => "LESS_EQUAL".toList
  | .identifier => "IDENTIFIER".toList
  | .string => "STRING".toList
  | .number => "NUMBER".toList
  | .andWord => "AND".toList
  | .classWord => "CLASS".toList
  | .elseWord => "ELSE".toList
  | .falseWord => "FALSE".toList
  | .funWord => "FUN".toList
  | .forWord => "FOR".toList
  | .ifWord => "IF".toList
  | .nilWord => "NIL".toList
  | .orWord => "OR".toList
  | .printWord => "PRINT".toList
  | .returnWord => "RETURN".toList
  | .superWord => "SUPER".toList
  | .thisWord => "THIS".toList
  | .trueWord => "TRUE".toList
  | .varWord => "VAR".toList
  | .whileWord => "WHILE".toList
  | .slash => "SLASH".toList
  | .endOfInput => "EOF".toList

/-- Kinds are numbered from one. -/
def ordinal (kind : TokenKind) : Nat := all.idxOf kind + 1

def ofName? (text : Text) : Option TokenKind := all.find? fun kind => kind.name == text

/-- Reserved words with their kinds. -/
def reservedWords : List (Text × TokenKind) := [
  ("and".toList, .andWord),
  ("class".toList, .classWord),
  ("else".toList, .elseWord),
  ("false".toList, .falseWord),
  ("for".toList, .forWord),
  ("fun".toList, .funWord),
  ("if".toList, .ifWord),
  ("nil".toList, .nilWord),
  ("or".toList, .orWord),
  ("print".toList, .printWord),
  ("return".toList, .returnWord),
  ("super".toList, .superWord),
  ("this".toList, .thisWord),
  ("true".toList, .trueWord),
  ("var".toList, .varWord),
  ("while".toList, .whileWord)]

def reserved? (word : Text) : Option TokenKind := reservedWords.lookup word

/-- The kind of a whole word: reserved exactly when the word is listed. -/
def ofWord (word : Text) : TokenKind := (reserved? word).getD .identifier

/-- Characters that are a token by themselves, whatever follows. -/
def symbols : List (Char × TokenKind) := [
  ('(', .leftParen), (')', .rightParen), ('\x7b', .leftBrace), ('\x7d', .rightBrace), (',', .comma),
  ('.', .dot), ('-', .minus), ('+', .plus), (';', .semicolon), ('*', .star)]

def symbol? (c : Char) : Option TokenKind := symbols.lookup c

/-- Operators that take an optional equals sign: the kind without it, then with it. -/
def operators : List (Char × TokenKind × TokenKind) := [
  ('!', .bang, .bangEqual), ('=', .equal, .equalEqual), ('<', .less, .lessEqual),
  ('>', .greater, .greaterEqual)]

def operator? (c : Char) : Option (TokenKind × TokenKind) := operators.lookup c

def isReserved (kind : TokenKind) : Bool := reservedWords.any fun entry => entry.2 == kind

/-- Strings and numbers carry a decoded value. -/
def isLiteral (kind : TokenKind) : Bool := kind == .string || kind == .number

end TokenKind

end ScriptLexer
