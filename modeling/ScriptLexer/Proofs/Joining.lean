import ScriptLexer.Proofs.Places

/-! Texts joined by a line feed. Outside a string a line feed ends every lexeme, so the texts on its two
sides are scanned one like the other; only lines and offsets are counted on. -/
namespace ScriptLexer

/-- The same column, so many lines and characters later. -/
def Position.shift (lines chars : Nat) (p : Position) : Position :=
  ⟨p.offset + chars, p.line + lines, p.column⟩

theorem Position.after_shift (lines chars : Nat) (p : Position) (text : Text) :
    (p.shift lines chars).after text = (p.after text).shift lines chars := by
  induction text generalizing p with
  | nil => rfl
  | cons c rest ih =>
    have step : (p.shift lines chars).next c = (p.next c).shift lines chars := by
      unfold next shift
      split <;> simp only [mk.injEq, and_true] <;> omega
    rw [after_cons, after_cons, step, ih]

theorem Position.after_newline (text : Text) :
    start.after (text ++ ['\n']) = start.shift (1 + newlines text) (text.length + 1) := by
  have offset := offset_start_after text
  have line := line_after start text
  rw [after_append]
  change Position.mk ((start.after text).offset + 1) ((start.after text).line + 1) 1 = _
  rw [offset, line]
  simp only [shift, start, mk.injEq, and_true]
  omega

/-- The token as it stands in a text that begins so many lines earlier. -/
def Token.shift (lines : Nat) (token : Token) : Token := { token with line := token.line + lines }

def Diagnostic.shift (lines chars : Nat) (d : Diagnostic) : Diagnostic :=
  { d with location := { d.location with
      line := d.location.line + lines
      offset := d.location.offset + chars } }

def Item.shift (lines chars : Nat) (item : Item) : Item :=
  { item with start := item.start.shift lines chars }

theorem placed_shift (lines chars : Nat) (start : Position) (row : List Segment) :
    placed (start.shift lines chars) row = (placed start row).map (Item.shift lines chars) := by
  induction row generalizing start with
  | nil => rfl
  | cons segment rest ih =>
    rw [placed, placed, List.map_cons, Position.after_shift, ih]
    rfl

theorem Item.token?_shift (lines chars : Nat) (item : Item) :
    (item.shift lines chars).token? = item.token?.map (Token.shift lines) := by
  simp only [token?, Option.map_map]
  rfl

theorem Item.fault?_shift (lines chars : Nat) (item : Item) : (item.shift lines chars).fault?
    = item.fault?.map fun (fault, place) => (fault, place.shift lines chars) := by
  have finish : (item.shift lines chars).finish = item.finish.shift lines chars :=
    item.start.after_shift lines chars item.segment.text
  obtain ⟨⟨form, text⟩, start⟩ := item
  cases form with
  | unterminated => exact congrArg (fun place => some (Fault.unterminated, place)) finish
  | fixed | word | number | string | blank | comment | unexpected => rfl

theorem Item.diagnostic?_shift (lines chars : Nat) (file : Text) (item : Item) :
    (item.shift lines chars).diagnostic? file
      = (item.diagnostic? file).map (Diagnostic.shift lines chars) := by
  rw [diagnostic?, diagnostic?, fault?_shift, Option.map_map, Option.map_map]
  rfl

theorem segments_join {a : Text} (b : Text)
    (closed : ∀ segment ∈ segments a, segment.form ≠ .unterminated) :
    segments (a ++ '\n' :: b) = segments a ++ ⟨.blank, ['\n']⟩ :: segments b := by
  have aligned : Aligned (segments a ++ []) := by
    rw [List.append_nil]
    exact aligned_segments a
  have less : ContinuesLess ('\n' :: b) [] := continuesLess_of_line_end rfl []
  have cut := aligned.segments_append closed less
  have line : segments (['\n'] ++ b) = ⟨.blank, ['\n']⟩ :: segments b :=
    (Segment.isFirst_blank (by decide) b).segments_append
  rw [flatMap_text_segments] at cut
  rw [cut, ← line]
  rfl

theorem items_join {a : Text} (b : Text)
    (closed : ∀ segment ∈ segments a, segment.form ≠ .unterminated) :
    items (a ++ '\n' :: b) = items a ++ ⟨⟨.blank, ['\n']⟩, Position.start.after a⟩
      :: (items b).map (Item.shift (1 + newlines a) (a.length + 1)) := by
  have place : (Position.start.after a).after ['\n']
      = Position.start.shift (1 + newlines a) (a.length + 1) := by
    rw [← Position.after_append, Position.after_newline]
  rw [items, segments_join b closed, placed_append, placed, flatMap_text_segments, place, placed_shift]
  rfl

/-- What is found by item, and moves along with the item, is found in the joined text where it is found
in the parts. -/
theorem filterMap_items_join {α : Type} {found? : Item → Option α} {moved : α → α} {a : Text} (b : Text)
    (closed : ∀ segment ∈ segments a, segment.form ≠ .unterminated)
    (blank : ∀ start, found? ⟨⟨.blank, ['\n']⟩, start⟩ = none)
    (shift : ∀ item : Item,
      found? (item.shift (1 + newlines a) (a.length + 1)) = (found? item).map moved) :
    (items (a ++ '\n' :: b)).filterMap found?
      = (items a).filterMap found? ++ ((items b).filterMap found?).map moved := by
  rw [items_join b closed, List.filterMap_append, List.filterMap_cons_none (blank _),
    List.filterMap_map, List.map_filterMap]
  exact congrArg (_ ++ ·) (List.filterMap_congr fun item _ => shift item)

theorem scan_join {a : Text} (b : Text)
    (closed : ∀ segment ∈ segments a, segment.form ≠ .unterminated) :
    scan (a ++ '\n' :: b)
      = (items a).filterMap Item.token? ++ (scan b).map (Token.shift (1 + newlines a)) := by
  have found := filterMap_items_join b closed (fun _ => rfl) (Item.token?_shift _ _)
  have place : Position.start.after (a ++ ['\n'] ++ b)
      = (Position.start.after b).shift (1 + newlines a) (a.length + 1) := by
    rw [Position.after_append, Position.after_newline, Position.after_shift]
  rw [List.append_assoc] at place
  have last : endToken (Position.start.after (a ++ '\n' :: b)).line
      = (endToken (Position.start.after b).line).shift (1 + newlines a) := by
    rw [show a ++ '\n' :: b = a ++ (['\n'] ++ b) from rfl, place]
    rfl
  rw [scan, found, last, scan, List.map_append, List.map_singleton, List.append_assoc]

theorem diagnostics_join (file : Text) {a : Text} (b : Text)
    (closed : ∀ segment ∈ segments a, segment.form ≠ .unterminated) :
    diagnostics file (a ++ '\n' :: b) = diagnostics file a
      ++ (diagnostics file b).map (Diagnostic.shift (1 + newlines a) (a.length + 1)) := by
  rw [diagnostics_eq, diagnostics_eq, diagnostics_eq]
  exact filterMap_items_join b closed (fun _ => rfl) fun item => item.diagnostic?_shift _ _ file

namespace Session

/-- A scan that leaves no string open says what a scan of the text, then a line feed, then any other
text finds: all that it found, and after it what a scan of the other text finds, further down. -/
theorem scanAll_join (s : Session) (a b : Text)
    (closed : ∀ d ∈ (s.setSource a).scanAll.1.errors, d.code ≠ some "L002".toList) :
    ∃ first second whole found,
      (s.setSource a).scanAll = (first, .ok ()) ∧ (s.setSource b).scanAll = (second, .ok ()) ∧
      (s.setSource (a ++ '\n' :: b)).scanAll = (whole, .ok ()) ∧
      first.tokens.toList = found ++ [endToken (1 + newlines a)] ∧
      whole.tokens.toList = found ++ second.tokens.toList.map (Token.shift (1 + newlines a)) ∧
      whole.errors.toList = first.errors.toList
        ++ second.errors.toList.map (Diagnostic.shift (1 + newlines a) (a.length + 1)) := by
  have sound : ∀ segment ∈ segments a, segment.form ≠ .unterminated := by
    intro segment member form
    obtain ⟨d, said, code⟩ := (exists_unterminated_iff s.file a).2 ⟨segment, member, form⟩
    rw [scanAll_eq, scanned_errors] at closed
    exact closed d (List.mem_toArray.2 said) code
  refine ⟨_, _, _, (items a).filterMap Item.token?, scanAll_eq _, scanAll_eq _, scanAll_eq _, ?_, ?_, ?_⟩
  · rw [scanned_tokens]
    change (items a).filterMap Item.token? ++ [endToken (Position.start.after a).line] = _
    rw [Position.line_after]
    rfl
  · rw [scanned_tokens, scanned_tokens]
    exact scan_join b sound
  · rw [scanned_errors, scanned_errors, scanned_errors]
    exact diagnostics_join s.file b sound

theorem scanAll_join_fraction :
    let s : Session := { source := [], file := [] }
    let a := "x @ \"1\n\" = 2".toList
    let b := ".5 = \"".toList
    (∀ d ∈ (s.setSource a).scanAll.1.errors, d.code ≠ some "L002".toList) ∧
    ∃ first second whole found,
      (s.setSource a).scanAll = (first, .ok ()) ∧ (s.setSource b).scanAll = (second, .ok ()) ∧
      (s.setSource (a ++ '\n' :: b)).scanAll = (whole, .ok ()) ∧
      first.tokens.toList = found ++ [endToken (1 + newlines a)] ∧
      whole.tokens.toList = found ++ second.tokens.toList.map (Token.shift (1 + newlines a)) ∧
      whole.errors.toList = first.errors.toList
        ++ second.errors.toList.map (Diagnostic.shift (1 + newlines a) (a.length + 1)) := by
  intro s a b
  have closed : ∀ d ∈ (s.setSource a).scanAll.1.errors, d.code ≠ some "L002".toList := by
    decide +kernel
  exact ⟨closed, scanAll_join s a b closed⟩

end Session

end ScriptLexer
