import ScriptLexer.Text.Newline

/-! Line ends by replacement. Reading makes one line feed of every line end, as two replacements one after
the other would; so a text whose lines are all ended in one of the usual ways is read as the text with
line feeds. -/
namespace ScriptLexer

/-- Every occurrence of a text is replaced, from front to back. An occurrence takes at least one
character. -/
def replaceAll (old new : Text) : Text → Text
  | [] => []
  | c :: rest =>
    if old.isPrefixOf (c :: rest) then new ++ replaceAll old new (rest.drop (old.length - 1))
    else c :: replaceAll old new rest
termination_by text => text.length
decreasing_by
  · rw [List.length_drop, List.length_cons]
    omega
  · exact Nat.lt_succ_self _

theorem replaceAll_nil (old new : Text) : replaceAll old new [] = [] := by
  rw [replaceAll]

theorem replaceAll_of_not_isPrefixOf {old : Text} {c : Char} {rest : Text}
    (other : old.isPrefixOf (c :: rest) = false) (new : Text) :
    replaceAll old new (c :: rest) = c :: replaceAll old new rest := by
  rw [replaceAll, other]
  rfl

theorem replaceAll_append_self (c : Char) (old new rest : Text) :
    replaceAll (c :: old) new (c :: old ++ rest) = new ++ replaceAll (c :: old) new rest := by
  have occurs : (c :: old).isPrefixOf (c :: (old ++ rest)) = true :=
    List.isPrefixOf_iff_prefix.2 (List.prefix_append (c :: old) rest)
  rw [List.cons_append, replaceAll, if_pos occurs, List.length_cons, Nat.add_sub_cancel, List.drop_left]

/-- A single character is replaced wherever it stands. -/
theorem replaceAll_singleton (c : Char) (new text : Text) :
    replaceAll [c] new text = text.flatMap fun d => if d = c then new else [d] := by
  induction text with
  | nil => exact replaceAll_nil [c] new
  | cons d rest ih =>
    rw [List.flatMap_cons]
    by_cases same : d = c
    · have first := replaceAll_append_self c [] new rest
      rw [List.singleton_append] at first
      rw [if_pos same, same, first, ih]
    · have other : [c].isPrefixOf (d :: rest) = false := by
        simp [List.isPrefixOf, Ne.symm same]
      rw [if_neg same, replaceAll_of_not_isPrefixOf other, ih]
      rfl

theorem unifyNewlines_cons {c : Char} (other : c ≠ '\r') (rest : Text) :
    unifyNewlines (c :: rest) = c :: unifyNewlines rest := by
  rw [unifyNewlines]
  · rintro - rfl -
    exact other rfl
  · exact fun same => other same

theorem unifyNewlines_return {rest : Text} (alone : rest.head? ≠ some '\n') :
    unifyNewlines ('\r' :: rest) = '\n' :: unifyNewlines rest := by
  rw [unifyNewlines]
  rintro later rfl
  exact alone rfl

theorem replaceAll_return_cons (c : Char) (text : Text) : replaceAll ['\r'] ['\n'] (c :: text)
    = (if c = '\r' then '\n' else c) :: replaceAll ['\r'] ['\n'] text := by
  rw [replaceAll_singleton, replaceAll_singleton, List.flatMap_cons]
  split <;> rfl

/-- Unifying line ends replaces the pairs first and then the carriage returns that are left. -/
theorem unifyNewlines_eq (text : Text) :
    unifyNewlines text = replaceAll ['\r'] ['\n'] (replaceAll ['\r', '\n'] ['\n'] text) := by
  induction text using unifyNewlines.induct with
  | case1 => rw [unifyNewlines, replaceAll_nil, replaceAll_nil]
  | case2 rest ih =>
    have pair := replaceAll_append_self '\r' ['\n'] ['\n'] rest
    rw [List.cons_append, List.singleton_append, List.singleton_append] at pair
    rw [unifyNewlines, pair, replaceAll_return_cons, if_neg (by decide), ih]
  | case3 rest alone ih =>
    have apart : rest.head? ≠ some '\n' := by
      intro head
      obtain ⟨more, split⟩ := List.head?_eq_some_iff.1 head
      exact alone more split
    have other : ['\r', '\n'].isPrefixOf ('\r' :: rest) = false := by
      apply Bool.eq_false_iff.2
      intro occurs
      obtain ⟨more, split⟩ := List.isPrefixOf_iff_prefix.1 occurs
      exact alone more (List.cons.inj split).2.symm
    rw [unifyNewlines_return apart, replaceAll_of_not_isPrefixOf other, replaceAll_return_cons,
      if_pos rfl, ih]
  | case4 c rest _ single ih =>
    have other : ['\r', '\n'].isPrefixOf (c :: rest) = false := by
      apply Bool.eq_false_iff.2
      intro occurs
      obtain ⟨more, split⟩ := List.isPrefixOf_iff_prefix.1 occurs
      exact single (List.cons.inj split).1.symm
    rw [unifyNewlines_cons single, replaceAll_of_not_isPrefixOf other, replaceAll_return_cons,
      if_neg single, ih]

/-- The usual line ends. -/
def lineEnds : List Text := [['\n'], ['\r', '\n'], ['\r']]

theorem replaceAll_newline_cons (ending : Text) (c : Char) (text : Text) :
    replaceAll ['\n'] ending (c :: text)
      = (if c = '\n' then ending else [c]) ++ replaceAll ['\n'] ending text := by
  rw [replaceAll_singleton, replaceAll_singleton, List.flatMap_cons]

theorem unifyNewlines_append {ending : Text} (usual : ending ∈ lineEnds) {text : Text}
    (apart : ending = ['\r'] → text.head? ≠ some '\n') :
    unifyNewlines (ending ++ text) = '\n' :: unifyNewlines text := by
  simp only [lineEnds, List.mem_cons, List.not_mem_nil, or_false] at usual
  rcases usual with rfl | rfl | rfl
  · exact unifyNewlines_cons (by decide) text
  · rw [List.cons_append, List.singleton_append, unifyNewlines]
  · exact unifyNewlines_return (apart rfl)

/-- No line feed follows a carriage return that took the place of one. -/
theorem head?_replaceAll_return (text : Text) : (replaceAll ['\n'] ['\r'] text).head? ≠ some '\n' := by
  cases text with
  | nil =>
    rw [replaceAll_nil]
    exact Option.some_ne_none _ ∘ Eq.symm
  | cons c rest =>
    rw [replaceAll_newline_cons]
    split
    · exact fun same => absurd (Option.some.inj same) (by decide)
    · rename_i other
      exact fun same => other (Option.some.inj same)

/-- A text without carriage returns is read back, however its lines were ended. -/
theorem unifyNewlines_replaceAll {ending text : Text} (usual : ending ∈ lineEnds)
    (free : '\r' ∉ text) : unifyNewlines (replaceAll ['\n'] ending text) = text := by
  induction text with
  | nil => rw [replaceAll_nil, unifyNewlines]
  | cons c rest ih =>
    rw [List.mem_cons, not_or] at free
    rw [replaceAll_newline_cons]
    split
    · rename_i newline
      have apart : ending = ['\r'] → (replaceAll ['\n'] ending rest).head? ≠ some '\n' := by
        rintro rfl
        exact head?_replaceAll_return rest
      rw [unifyNewlines_append usual apart, ih free.2, newline]
    · rw [List.singleton_append, unifyNewlines_cons (Ne.symm free.1), ih free.2]

end ScriptLexer
