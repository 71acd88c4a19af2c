import ScriptLexer.Text.Newline
import ScriptLexer.Proofs.Joining

/-! Texts line by line. A line feed ends each line, the last one may do without; reading gives the
lines one after the other. Where no line leaves a string open, what the lines hold, scanned one at a
time, is what the text holds. -/
namespace ScriptLexer

/-- A text cut after each of its line feeds. -/
def lines : Text → List Text
  | [] => []
  | c :: rest =>
    if isNewline c then [c] :: lines rest
    else
      match lines rest with
      | [] => [[c]]
      | line :: later => (c :: line) :: later

/-- Rows that end in their only line feed, and perhaps a last one without any. -/
inductive IsLines : List Text → Prop
  | nil : IsLines []
  | last {body} : body ≠ [] → '\n' ∉ body → IsLines [body]
  | cons {body rows} : '\n' ∉ body → IsLines rows → IsLines ((body ++ ['\n']) :: rows)

theorem not_newline_mem_cons {c : Char} {rest : Text} :
    '\n' ∉ c :: rest ↔ isNewline c = false ∧ '\n' ∉ rest := by
  rw [List.mem_cons, not_or, isNewline, beq_eq_false_iff_ne, ne_comm]

theorem flatten_lines (text : Text) : (lines text).flatten = text := by
  induction text with
  | nil => rfl
  | cons c rest ih =>
    unfold lines
    split
    · rw [List.flatten_cons, ih]
      rfl
    · split
      · rename_i none
        rw [none] at ih
        rw [← ih]
        rfl
      · rename_i line later whole
        rw [whole] at ih
        rw [← ih]
        rfl

theorem isLines_lines (text : Text) : IsLines (lines text) := by
  induction text with
  | nil => exact .nil
  | cons c rest ih =>
    unfold lines
    split
    · rename_i newline
      rw [beq_iff_eq.1 newline]
      exact .cons List.not_mem_nil ih
    · rename_i other
      have free {body : Text} (h : '\n' ∉ body) : '\n' ∉ c :: body :=
        not_newline_mem_cons.2 ⟨Bool.eq_false_iff.2 other, h⟩
      split
      · exact .last (List.cons_ne_nil _ _) (free List.not_mem_nil)
      · rename_i line later whole
        rw [whole] at ih
        cases ih with
        | last _ clean => exact .last (List.cons_ne_nil _ _) (free clean)
        | cons clean rows => exact .cons (free clean) rows

theorem lines_cons_of_other {c : Char} (h : isNewline c = false) {rest line : Text} {later : List Text}
    (whole : lines rest = line :: later) : lines (c :: rest) = (c :: line) :: later := by
  rw [lines, h, whole]
  rfl

theorem lines_append_newline {body : Text} (h : '\n' ∉ body) (rest : Text) :
    lines (body ++ '\n' :: rest) = (body ++ ['\n']) :: lines rest := by
  induction body with
  | nil => rfl
  | cons c body ih =>
    obtain ⟨other, free⟩ := not_newline_mem_cons.1 h
    exact lines_cons_of_other other (ih free)

theorem lines_of_not_mem {c : Char} {body : Text} (h : '\n' ∉ c :: body) :
    lines (c :: body) = [c :: body] := by
  induction body generalizing c with
  | nil =>
    rw [lines, (not_newline_mem_cons.1 h).1]
    rfl
  | cons d body ih =>
    obtain ⟨other, free⟩ := not_newline_mem_cons.1 h
    exact lines_cons_of_other other (ih free)

/-- There is no other way to cut a text into lines. -/
theorem IsLines.lines_flatten {rows : List Text} (h : IsLines rows) : lines rows.flatten = rows := by
  induction h with
  | nil => rfl
  | @last body some free =>
    obtain ⟨c, rest, rfl⟩ := List.exists_cons_of_ne_nil some
    rw [List.flatten_singleton, lines_of_not_mem free]
  | cons free _ ih =>
    rw [List.flatten_cons, List.append_assoc, List.singleton_append, lines_append_newline free, ih]

/-- What is written one part a line is cut into the same lines. -/
theorem lines_flatMap {α : Type} {body : α → Text} {parts : List α}
    (free : ∀ part ∈ parts, '\n' ∉ body part) : lines (parts.flatMap fun part => body part ++ ['\n'])
      = parts.map fun part => body part ++ ['\n'] := by
  have rows : IsLines (parts.map fun part => body part ++ ['\n']) := by
    induction parts with
    | nil => exact .nil
    | cons part parts ih =>
      obtain ⟨first, later⟩ := List.forall_mem_cons.1 free
      exact .cons first (ih later)
  rw [List.flatMap_def]
  exact rows.lines_flatten

theorem IsLines.set {rows : List Text} (h : IsLines rows) {body : Text} (free : '\n' ∉ body) (j : Nat) :
    IsLines (rows.set j (body ++ ['\n'])) := by
  induction h generalizing j with
  | nil => exact .nil
  | last some clean =>
    cases j with
    | zero => exact .cons free .nil
    | succ j => exact .last some clean
  | cons clean rows ih =>
    cases j with
    | zero => exact .cons free rows
    | succ j => exact .cons clean (ih j)

theorem readLine_append_newline {body : Text} (h : '\n' ∉ body) (rest : Text) :
    readLine (body ++ '\n' :: rest) = (body ++ ['\n'], rest) := by
  induction body with
  | nil => rfl
  | cons c body ih =>
    obtain ⟨other, free⟩ := not_newline_mem_cons.1 h
    rw [List.cons_append, readLine, other, ih free]
    rfl

theorem readLine_of_not_mem {text : Text} (h : '\n' ∉ text) : readLine text = (text, []) := by
  induction text with
  | nil => rfl
  | cons c rest ih =>
    obtain ⟨other, free⟩ := not_newline_mem_cons.1 h
    rw [readLine, other, ih free]
    rfl

theorem IsLines.readLine_flatten {row : Text} {rows : List Text} (h : IsLines (row :: rows)) :
    readLine (row :: rows).flatten = (row, rows.flatten) ∧ row ≠ [] ∧ IsLines rows := by
  cases h with
  | last some free =>
    rw [List.flatten_singleton]
    exact ⟨readLine_of_not_mem free, some, .nil⟩
  | @cons body _ free rows =>
    rw [List.flatten_cons, List.append_assoc, List.singleton_append]
    exact ⟨readLine_append_newline free _, by simp, rows⟩

theorem closed_of_closed_newline {text : Text}
    (h : ∀ segment ∈ segments (text ++ ['\n']), segment.form ≠ .unterminated) :
    ∀ segment ∈ segments text, segment.form ≠ .unterminated := by
  intro segment member form
  obtain ⟨earlier, later, row⟩ := List.append_of_mem member
  have aligned := aligned_segments text
  rw [row] at aligned
  have last : later = [] := by
    by_contra some
    rw [← List.singleton_append, ← List.append_assoc] at aligned
    exact aligned.closed some segment List.mem_concat_self form
  rw [last] at aligned row
  have whole := flatMap_text_segments text
  have cut := aligned.segments_append_open form (by decide : '\x22' ∉ ['\n'])
  rw [row, List.flatMap_append, List.flatMap_singleton] at whole
  rw [← List.append_assoc, whole] at cut
  have open' : ⟨.unterminated, segment.text ++ ['\n']⟩ ∈ segments (text ++ ['\n']) := by
    rw [cut]
    exact List.mem_concat_self
  exact h _ open' rfl

/-- The report as it is in a text that begins so many lines earlier. -/
def Report.shift (lines : Nat) (report : Report) : Report := { report with line := report.line + lines }

/-- What is found on both sides of a line feed, and moves down with the text, is found line by line. -/
theorem found_flatten {α : Type} (found : Text → List α) {moved : Nat → α → α} (nothing : found [] = [])
    (join : ∀ {a : Text} (b : Text), (∀ segment ∈ segments a, segment.form ≠ .unterminated) →
      found (a ++ '\n' :: b) = found a ++ (found b).map (moved (1 + newlines a)))
    (stay : moved 0 = id) (down : ∀ i, moved 1 ∘ moved i = moved (i + 1))
    {rows : List Text} (h : IsLines rows)
    (closed : ∀ row ∈ rows, ∀ segment ∈ segments row, segment.form ≠ .unterminated) :
    found rows.flatten = rows.zipIdx.flatMap fun row => (found row.1).map (moved row.2) := by
  induction h with
  | nil => exact nothing
  | last => simp [stay]
  | @cons body rows free _ ih =>
    obtain ⟨first, later⟩ := List.forall_mem_cons.1 closed
    have sound := closed_of_closed_newline first
    have row := join [] sound
    have whole := join rows.flatten sound
    rw [nothing, List.map_nil, List.append_nil] at row
    rw [newlines_eq_zero_iff.2 free, Nat.add_zero, ih later] at whole
    rw [List.flatten_cons, List.append_assoc, List.singleton_append, whole, List.zipIdx_cons',
      List.flatMap_cons, row, stay, List.map_id]
    simp [List.map_flatMap, List.flatMap_map, down]

theorem tokens_flatten {rows : List Text} (h : IsLines rows)
    (closed : ∀ row ∈ rows, ∀ segment ∈ segments row, segment.form ≠ .unterminated) :
    (scan rows.flatten).dropLast
      = rows.zipIdx.flatMap fun row => (scan row.1).dropLast.map (Token.shift row.2) := by
  have found (text : Text) : (scan text).dropLast = (items text).filterMap Item.token? := by
    rw [scan, List.dropLast_concat]
  refine found_flatten (fun text => (scan text).dropLast) ?_ ?_ ?_ ?_ h closed
  · rw [found, items, segments_nil]
    rfl
  · intro a b sound
    rw [found, found, found]
    exact filterMap_items_join b sound (fun _ => rfl) (Item.token?_shift _ _)
  · funext token
    simp [Token.shift]
  · intro i
    funext token
    simp [Token.shift, Int.add_assoc]

theorem reports_flatten (file : Text) {rows : List Text} (h : IsLines rows)
    (closed : ∀ row ∈ rows, ∀ segment ∈ segments row, segment.form ≠ .unterminated) :
    (diagnostics file rows.flatten).map Diagnostic.report = rows.zipIdx.flatMap fun row =>
      ((diagnostics file row.1).map Diagnostic.report).map (Report.shift row.2) := by
  refine found_flatten (fun text => (diagnostics file text).map Diagnostic.report) ?_ ?_ ?_ ?_ h closed
  · rw [diagnostics_eq, items, segments_nil]
    rfl
  · intro a b sound
    rw [diagnostics_join file b sound, List.map_append, List.map_map, List.map_map]
    rfl
  · funext report
    simp [Report.shift]
  · intro i
    funext report
    simp [Report.shift, Int.add_assoc]

end ScriptLexer
