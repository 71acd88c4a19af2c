import ScriptLexer.Proofs.CommandLine.Outcome
import ScriptLexer.Proofs.EntryPoints

/-! The prompt goes through its input line by line. What it writes for a line depends on that line alone,
and where no line leaves a string open it finds what one scan of the whole input finds. -/
namespace ScriptLexer.CommandLine

theorem Output.append_assoc (a b c : Output) : (a.append b).append c = a.append (b.append c) := by
  simp only [append, List.append_assoc]

/-- A session about to scan what was typed, with a collector of its own. -/
def typed (source : Text) : Session := { source, file := promptFile, collector := some {} }

/-- The session that each of the lines is scanned by, at its end. -/
def lineScans (rows : List Text) : List Session := rows.map fun row => (typed row).scanAll.1

theorem lineScans_cons (row : Text) (rows : List Text) :
    lineScans (row :: rows) = (typed row).scanAll.1 :: lineScans rows := rfl

/-- The prompt and the tokens of a scan, once for each line, and a last prompt; and a line for each error. -/
def promptOutput (json : Bool) (scans : List Session) : Output where
  out := (scans.flatMap fun s => "> ".toList ++ rendering json s.tokens.toList) ++ "> \n".toList
  err := scans.flatMap fun s => s.errors.toList.flatMap fun d => errorText d ++ ['\n']

theorem scanAll_typed (source : Text) : (typed source).scanAll = ((typed source).scanAll.1, .ok ()) := by
  rw [Session.scanAll_eq]

theorem tokens_typed (source : Text) : (typed source).scanAll.1.tokens.toList = scan source := by
  rw [Session.scanAll_eq, Session.scanned_tokens]
  rfl

theorem errors_typed (source : Text) :
    (typed source).scanAll.1.errors.toList = diagnostics promptFile source := by
  rw [Session.scanAll_eq, Session.scanned_errors]
  rfl

theorem collector_typed (source : Text) : (typed source).scanAll.1.collector
    = some ⟨(typed source).scanAll.1.errors.map fun d => ⟨d.location.line, d.message⟩⟩ := by
  have step := (typed source).scanned_inStep
  rw [Session.scanAll_eq, step]
  simp [typed]

theorem sessionOutput_typed (json : Bool) (source : Text) : sessionOutput json (typed source).scanAll.1
    = ⟨rendering json (typed source).scanAll.1.tokens.toList,
        (typed source).scanAll.1.errors.toList.flatMap fun d => errorText d ++ ['\n']⟩ := by
  rw [sessionOutput, collector_typed, tokenText_eq, ← reportLines_eq, Option.getD_some, Array.toList_map]
  rfl

theorem promptOutput_cons (json : Bool) (row : Text) (rows : List Text) :
    promptOutput json (lineScans (row :: rows))
      = (Output.append { out := promptText } (sessionOutput json (typed row).scanAll.1)).append
          (promptOutput json (lineScans rows)) := by
  rw [lineScans_cons, sessionOutput_typed]
  simp [promptOutput, Output.append, promptText]

namespace Prompt

theorem turn_end (json : Bool) (output : Output) : ({ input := [], output } : Prompt).turn json
    = ({ input := [], output := output.append (promptOutput json []) }, some 0) := by
  change ((({ input := [], output } : Prompt).ask.write { out := ['\n'] }), some exitOk) = _
  rw [ask, write, write, Output.append_assoc]
  rfl

theorem turn_line (json : Bool) {row : Text} {rows : List Text} (h : IsLines (row :: rows))
    (output : Output) : ({ input := (row :: rows).flatten, output } : Prompt).turn json
      = ({ input := rows.flatten
           output := (output.append { out := promptText }).append
             (sessionOutput json (typed row).scanAll.1) }, none) := by
  obtain ⟨read, some, -⟩ := h.readLine_flatten
  unfold turn
  split
  · rename_i none
    rw [show readLine (row :: rows).flatten = ([], _) from none] at read
    exact absurd (Prod.mk.inj read).1.symm some
  · rename_i line left _ next
    rw [show readLine (row :: rows).flatten = (line, left) from next] at read
    cases read
    rfl

theorem run_of_turn_some {json : Bool} {p p' : Prompt} {code : Nat}
    (h : p.turn json = (p', some code)) : p.run json = (p', code) := by
  rw [run]
  split
  · rename_i turn
    cases turn.symm.trans h
    rfl
  · rename_i turn
    cases turn.symm.trans h

theorem run_of_turn_none {json : Bool} {p p' : Prompt} (h : p.turn json = (p', none)) :
    p.run json = p'.run json := by
  rw [run]
  split
  · rename_i turn
    cases turn.symm.trans h
  · rename_i turn
    cases turn.symm.trans h
    rfl

/-- Turn by turn all lines are read, whatever is found in them. -/
theorem run_lines (json : Bool) {rows : List Text} (h : IsLines rows) (output : Output) :
    ({ input := rows.flatten, output } : Prompt).run json
      = ({ input := [], output := output.append (promptOutput json (lineScans rows)) }, 0) := by
  induction rows generalizing output with
  | nil => exact run_of_turn_some (turn_end json output)
  | cons row rows ih =>
    obtain ⟨-, -, later⟩ := h.readLine_flatten
    rw [run_of_turn_none (turn_line json h output), ih later, promptOutput_cons, Output.append_assoc,
      Output.append_assoc, Output.append_assoc]

end Prompt

theorem runPrompt_flatten (json : Bool) {rows : List Text} (h : IsLines rows) :
    runPrompt json rows.flatten = { code := 0, output := promptOutput json (lineScans rows) } := by
  rw [runPrompt, Prompt.run_lines json h]
  rfl

theorem flatMap_lineScans {α β : Type} (kept : Session → List α) (moved : Nat → α → β)
    (rows : List Text) : ((lineScans rows).zipIdx.flatMap fun s => (kept s.1).map (moved s.2))
      = rows.zipIdx.flatMap fun row => (kept (typed row.1).scanAll.1).map (moved row.2) := by
  simp only [lineScans, List.zipIdx_map, List.flatMap_map, Prod.map_fst, Prod.map_snd, id]

theorem dropLast_append_endToken (source : Text) :
    (scan source).dropLast ++ [endToken (1 + newlines source)] = scan source := by
  rw [scan, List.dropLast_concat, Position.line_after]
  rfl

/-- The prompt scans each line on its own, shows the tokens and the errors of all lines in order, so that
they can be read back, and ends well once all is read. Another line in place of one changes what is shown
for that one. If no line leaves a string open, the lines together hold the tokens and the reports of the
whole input, each on the line where it stands. -/
theorem runPrompt_lines (json : Bool) (text : Text) :
    ((lines text).flatten = text ∧ IsLines (lines text)) ∧
    (∀ line ∈ lines text, ∃ s found, (typed line).scanAll = (s, .ok ()) ∧
      s.tokens.toList = scan line ∧ s.errors.toList = diagnostics promptFile line ∧
      s.tokens.toList = found ++ [endToken (1 + newlines line)] ∧
      Renders json s.tokens.toList (rendering json s.tokens.toList) ∧
      s.collector = some ⟨s.errors.map fun d => ⟨d.location.line, d.message⟩⟩) ∧
    ({ input := text } : Prompt).run json
      = ({ input := [], output := promptOutput json (lineScans (lines text)) }, 0) ∧
    runPrompt json text = { code := 0, output := promptOutput json (lineScans (lines text)) } ∧
    (∀ j body, '\n' ∉ body → runPrompt json ((lines text).set j (body ++ ['\n'])).flatten =
      { code := 0
        output := promptOutput json
          ((lineScans (lines text)).set j (typed (body ++ ['\n'])).scanAll.1) }) ∧
    ((∀ s ∈ lineScans (lines text), ∀ d ∈ s.errors, d.code ≠ some "L002".toList) →
      ∃ whole, (typed text).scanAll = (whole, .ok ()) ∧
        whole.tokens.toList = ((lineScans (lines text)).zipIdx.flatMap fun s =>
          s.1.tokens.toList.dropLast.map (Token.shift s.2)) ++ [endToken (1 + newlines text)] ∧
        whole.collector = some ⟨((lineScans (lines text)).zipIdx.flatMap fun s =>
          s.1.errors.toList.map fun d => ⟨d.location.line + s.2, d.message⟩).toArray⟩) := by
  have rows := isLines_lines text
  have run := Prompt.run_lines json rows {}
  rw [flatten_lines] at run
  refine ⟨⟨flatten_lines text, rows⟩, ?_, run, ?_, ?_, ?_⟩
  · intro line _
    refine ⟨(typed line).scanAll.1, (scan line).dropLast, scanAll_typed line, tokens_typed line,
      errors_typed line, ?_, ?_, collector_typed line⟩
    · rw [tokens_typed, dropLast_append_endToken]
    · have renders := renders_tokenText json (typed line).scanAll.1.tokens.toList
      rwa [tokenText_eq] at renders
  · rw [runPrompt, run]
    rfl
  · intro j body free
    rw [runPrompt_flatten json (rows.set free j), lineScans, List.map_set]
    rfl
  · intro closed
    have sound : ∀ row ∈ lines text, ∀ segment ∈ segments row, segment.form ≠ .unterminated := by
      intro row member segment inside form
      obtain ⟨d, said, code⟩ := (exists_unterminated_iff promptFile row).2 ⟨segment, inside, form⟩
      rw [← errors_typed] at said
      exact closed _ (List.mem_map_of_mem member) d (Array.mem_toList_iff.1 said) code
    refine ⟨(typed text).scanAll.1, scanAll_typed text, ?_, ?_⟩
    · have found := tokens_flatten rows sound
      rw [flatten_lines] at found
      rw [flatMap_lineScans (·.tokens.toList.dropLast), tokens_typed]
      simp only [tokens_typed]
      rw [← found]
      exact (dropLast_append_endToken text).symm
    · have found := reports_flatten promptFile rows sound
      rw [flatten_lines] at found
      simp only [← errors_typed, List.map_map] at found
      rw [collector_typed,
        flatMap_lineScans (·.errors.toList) fun i d => Report.mk (d.location.line + i) d.message]
      apply congrArg (some ∘ Collector.mk)
      rw [← Array.toList_inj, Array.toList_map]
      exact found

/-- The second line is replaced by one that leaves a string open. -/
theorem runPrompt_lines_replaced :
    let text := "x @\n\"1\" = 2.\n.5 #".toList
    let line := ".5 #".toList
    let body := "\"1".toList
    (line ∈ lines text ∧ ∃ s found, (typed line).scanAll = (s, .ok ()) ∧
      s.tokens.toList = scan line ∧ s.errors.toList = diagnostics promptFile line ∧
      s.tokens.toList = found ++ [endToken (1 + newlines line)] ∧
      Renders true s.tokens.toList (rendering true s.tokens.toList) ∧
      s.collector = some ⟨s.errors.map fun d => ⟨d.location.line, d.message⟩⟩) ∧
    ('\n' ∉ body ∧ runPrompt true ((lines text).set 1 (body ++ ['\n'])).flatten =
      { code := 0
        output := promptOutput true
          ((lineScans (lines text)).set 1 (typed (body ++ ['\n'])).scanAll.1) }) ∧
    (∀ s ∈ lineScans (lines text), ∀ d ∈ s.errors, d.code ≠ some "L002".toList) ∧
    ∃ whole, (typed text).scanAll = (whole, .ok ()) ∧
      whole.tokens.toList = ((lineScans (lines text)).zipIdx.flatMap fun s =>
        s.1.tokens.toList.dropLast.map (Token.shift s.2)) ++ [endToken (1 + newlines text)] ∧
      whole.collector = some ⟨((lineScans (lines text)).zipIdx.flatMap fun s =>
        s.1.errors.toList.map fun d => ⟨d.location.line + s.2, d.message⟩).toArray⟩ := by
  intro text line body
  obtain ⟨-, scans, -, -, replaced, agree⟩ := runPrompt_lines true text
  have inside : line ∈ lines text := by decide
  have free : '\n' ∉ body := by decide
  have closed : ∀ s ∈ lineScans (lines text), ∀ d ∈ s.errors, d.code ≠ some "L002".toList := by
    decide +kernel
  exact ⟨⟨inside, scans line inside⟩, ⟨free, replaced 1 body free⟩, closed, agree closed⟩

/-- A string over two lines is one token of the whole, and each of the lines leaves a string open. -/
example :
    let text := "\"a\nb\"".toList
    ((scan text).map Token.kind, (lines text).map fun line => (reports line).length)
      = ([.string, .endOfInput], [1, 1]) := by
  decide +kernel

end ScriptLexer.CommandLine
