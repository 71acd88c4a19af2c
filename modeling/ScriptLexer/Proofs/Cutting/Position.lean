import ScriptLexer.Diagnostic

/-! Places in a source text. Lines and columns count from one, offsets from zero; only a line feed
ends a line. -/
namespace ScriptLexer

def newlines (text : Text) : Nat := text.countP isNewline

theorem newlines_eq_zero_iff {text : Text} : newlines text = 0 ↔ '\n' ∉ text := by
  rw [newlines, List.countP_eq_zero]
  constructor
  · intro none member
    exact none _ member rfl
  · intro free c member line
    rw [beq_iff_eq.1 line] at member
    exact free member

structure Position where
  offset : Nat
  line : Nat
  column : Nat
  deriving DecidableEq, Repr

namespace Position

def start : Position := ⟨0, 1, 1⟩

def next (p : Position) (c : Char) : Position :=
  if isNewline c then ⟨p.offset + 1, p.line + 1, 1⟩ else ⟨p.offset + 1, p.line, p.column + 1⟩

/-- Where a text that starts here ends. -/
def after (p : Position) (text : Text) : Position := text.foldl next p

@[simp] theorem after_nil (p : Position) : p.after [] = p := rfl

@[simp] theorem after_cons (p : Position) (c : Char) (text : Text) :
    p.after (c :: text) = (p.next c).after text := rfl

theorem after_append (p : Position) (text more : Text) :
    p.after (text ++ more) = (p.after text).after more := List.foldl_append

theorem offset_after (p : Position) (text : Text) :
    (p.after text).offset = p.offset + text.length := by
  induction text generalizing p with
  | nil => rfl
  | cons c rest ih =>
    rw [after_cons, ih, List.length_cons]
    by_cases h : isNewline c
    · simp only [next, h, if_true]
      omega
    · simp only [next, h, Bool.false_eq_true, if_false]
      omega

theorem line_after (p : Position) (text : Text) :
    (p.after text).line = p.line + newlines text := by
  induction text generalizing p with
  | nil => rfl
  | cons c rest ih =>
    rw [after_cons, ih, newlines, newlines, List.countP_cons]
    by_cases h : isNewline c
    · simp only [next, h, if_true]
      omega
    · simp only [next, h, Bool.false_eq_true, if_false]
      omega

def location (file : Text) (p : Position) : Location := ⟨file, p.line, p.column, p.offset⟩

end Position

end ScriptLexer
