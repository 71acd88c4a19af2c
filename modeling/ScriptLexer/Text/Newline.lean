import ScriptLexer.Text

/-! Line ends. Universal newlines: a carriage return ends a line with or without a line feed after it.
Lines are read one after the other, each up to its line feed. -/
namespace ScriptLexer

/-- Every line end becomes a single line feed. -/
def unifyNewlines : Text → Text
  | [] => []
  | '\r' :: '\n' :: rest => '\n' :: unifyNewlines rest
  | '\r' :: rest => '\n' :: unifyNewlines rest
  | c :: rest => c :: unifyNewlines rest

/-- The next line of a text, with its line feed if it has one, and what is left after it. The line is
empty only where the text is. -/
def readLine : Text → Text × Text
  | [] => ([], [])
  | c :: rest =>
    if isNewline c then ([c], rest) else (c :: (readLine rest).1, (readLine rest).2)

theorem readLine_append (text : Text) : (readLine text).1 ++ (readLine text).2 = text := by
  induction text with
  | nil => rfl
  | cons c rest ih =>
    unfold readLine
    split
    · rfl
    · exact congrArg (c :: ·) ih

theorem length_left_readLine_lt (text : Text) (h : (readLine text).1 ≠ []) :
    (readLine text).2.length < text.length := by
  have whole := congrArg List.length (readLine_append text)
  have some := List.length_pos_iff.2 h
  rw [List.length_append] at whole
  omega

end ScriptLexer
