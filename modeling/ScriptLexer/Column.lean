import ScriptLexer.Text

/-! Columns in a source text. They count from one; only a line feed ends a line. -/
namespace ScriptLexer

/-- The column of an offset: its distance from the line feed before it. An offset past the end
counts on beyond the last character. `column` is the column of the first character of the text. -/
def columnFrom (column : Nat) : Text → Nat → Nat
  | _, 0 => column
  | [], beyond => column + beyond
  | c :: rest, offset + 1 => columnFrom (if isNewline c then 1 else column + 1) rest offset

def columnAt (source : Text) (offset : Nat) : Nat := columnFrom 1 source offset

/-- The column of any offset. A negative one is looked up counting back from the end of the source,
so its distance from the line feed there is negative too. -/
def columnOf (source : Text) : Int → Int
  | .ofNat offset => columnAt source offset
  | .negSucc back =>
    let place := source.length - (back + 1)
    .negSucc back - (place - columnAt source place)

end ScriptLexer
