import ScriptLexer.Session.Basic

/-! The moves a scan is made of: single changes of a session. What every move keeps, a whole scan
keeps at each of its points. -/
namespace ScriptLexer.Session

/-- One change a scan makes. The cursor moves only over a character that is there. -/
inductive Move : Session → Session → Prop
  | mark (s) : Move s s.mark
  | advance {s s' c} : s.advance = (s', .ok c) → Move s s'
  | countLine (s) : Move s s.countLine
  | addToken (s kind literal) : Move s (s.addToken kind literal)
  | record (s diagnostic) : Move s (s.record diagnostic)

/-- Any number of changes, one after the other. -/
inductive Moves : Session → Session → Prop
  | refl (s) : Moves s s
  | tail {s s' s''} : Moves s s' → Move s' s'' → Moves s s''

theorem Move.moves {s s' : Session} (h : Move s s') : Moves s s' := .tail (.refl s) h

theorem Moves.trans {s s' s'' : Session} (h : Moves s s') (h' : Moves s' s'') : Moves s s'' := by
  induction h' with
  | refl => exact h
  | tail _ last ih => exact .tail ih last

theorem Move.source {s s' : Session} (h : Move s s') : s'.source = s.source := by
  cases h with
  | advance step => rw [(advance_ok step).2]
  | mark | countLine | addToken | record => rfl

theorem Move.current_le {s s' : Session} (h : Move s s') : s.current ≤ s'.current := by
  cases h with
  | advance step =>
    rw [(advance_ok step).2]
    exact Nat.le_succ _
  | mark | countLine | addToken | record => exact Nat.le_refl _

theorem Moves.source {s s' : Session} (h : Moves s s') : s'.source = s.source := by
  induction h with
  | refl => rfl
  | tail _ last ih => exact last.source.trans ih

theorem Moves.current_le {s s' : Session} (h : Moves s s') : s.current ≤ s'.current := by
  induction h with
  | refl => exact Nat.le_refl _
  | tail _ last ih => exact Nat.le_trans ih last.current_le

theorem advance_moves (s : Session) : Moves s s.advance.1 := by
  cases step : s.advance with
  | mk s' answer =>
    cases answer with
    | ok c => exact (Move.advance step).moves
    | error stop =>
      have same : s' = s := by
        unfold advance at step
        split at step <;> cases step
        rfl
      rw [same]
      exact .refl s

theorem advanceIf_moves (s : Session) (expected : Text) : Moves s (s.advanceIf expected).1 := by
  unfold advanceIf
  split
  · rename_i c rest ahead
    split
    · have step : s.advance = ({ s with current := s.current + 1 }, .ok c) := by
        simp only [advance, ahead]
      exact (Move.advance step).moves
    · exact .refl s
  · exact .refl s

end ScriptLexer.Session
