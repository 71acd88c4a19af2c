import ScriptLexer.Text.Printable

/-! Text between quotes, on one line. Line breaks, tabs, backslashes, the quote in use and every
unprintable character are escaped; all else stands for itself. -/
namespace ScriptLexer

/-- Single quotes, unless the text holds one and no double quote. -/
def quoteFor (text : Text) : Char :=
  if text.contains '\x27' && !text.contains '\x22' then '\x22' else '\x27'

/-- An unprintable character is written by its code point, in the narrowest form that holds it. -/
def codePointEscape (code : Nat) : Text :=
  if code < 0x100 then '\\' :: 'x' :: hex 2 code
  else if code < 0x10000 then '\\' :: 'u' :: hex 4 code
  else '\\' :: 'U' :: hex 8 code

def escaped (quote c : Char) : Text :=
  if c = '\\' then ['\\', '\\']
  else if c = quote then ['\\', quote]
  else if c = '\n' then ['\\', 'n']
  else if c = '\r' then ['\\', 'r']
  else if c = '\t' then ['\\', 't']
  else if isPrintable c then [c]
  else codePointEscape c.toNat

def quoted (text : Text) : Text :=
  let quote := quoteFor text
  quote :: (text.flatMap (escaped quote) ++ [quote])

end ScriptLexer
