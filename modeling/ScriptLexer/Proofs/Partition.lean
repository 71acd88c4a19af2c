import ScriptLexer.Proofs.Session.Scan

/-! A scan loses nothing. Every stretch of the source that a turn of the loop spans becomes one token,
one diagnostic or a gap, and the stretches in order are the source. -/
namespace ScriptLexer

/-- What became of a stretch of the source. -/
inductive Piece where
  | token (token : Token)
  | fault (text : Text) (diagnostic : Diagnostic)
  | gap (text : Text)

namespace Piece

def text : Piece → Text
  | token found => found.lexeme
  | fault text _ | gap text => text

def token? : Piece → Option Token
  | token found => some found
  | fault _ _ | gap _ => none

def diagnostic? : Piece → Option Diagnostic
  | fault _ said => some said
  | token _ | gap _ => none

/-- The pieces there can be, before the text that follows them. -/
inductive Fits : Piece → Text → Prop
  | token {found after} : Rule found.lexeme (some (found.kind, found.literal)) →
      Fits (.token found) after
  | unexpected {c place after} : Fits (.fault [c] ((Fault.unexpected c).diagnostic place)) after
  | unterminated {body place} : '\x22' ∉ body →
      Fits (.fault ('\x22' :: body) (Fault.unterminated.diagnostic place)) []
  | blank {c after} : c ∈ [' ', '\t', '\r', '\n'] → Fits (.gap [c]) after
  | comment {body after} : '\n' ∉ body → after = [] ∨ after.head? = some '\n' →
      Fits (.gap ('/' :: '/' :: body)) after

end Piece

def Item.piece (file : Text) (item : Item) : Piece :=
  match item.token? with
  | some found => .token found
  | none =>
    match item.diagnostic? file with
    | some said => .fault item.segment.text said
    | none => .gap item.segment.text

def IsGap (text : Text) : Prop := ∃ parts : List Text, text = parts.flatten ∧ ∀ part ∈ parts, Rule part none

theorem IsGap.nil : IsGap [] := ⟨[], rfl, fun _ member => nomatch member⟩

theorem IsGap.cons {part text : Text} (rule : Rule part none) (h : IsGap text) : IsGap (part ++ text) := by
  obtain ⟨parts, rfl, rules⟩ := h
  exact ⟨part :: parts, rfl, List.forall_mem_cons.2 ⟨rule, rules⟩⟩

namespace Piece

end Piece

namespace Session

end Session

end ScriptLexer
