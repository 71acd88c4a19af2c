import ScriptLexer.Proofs.Gaps

/-! Edits that leave no trace. Another comment or none in the place of a comment, and blanks between two
segments, change no token and no report; errors behind them move along with the text. -/
namespace ScriptLexer

/-- The characters from one offset up to another are taken out, and a text is put in their place. -/
structure Edit where
  first : Nat
  last : Nat
  text : Text

namespace Edit

def apply (edit : Edit) (source : Text) : Text :=
  source.take edit.first ++ (edit.text ++ source.drop edit.last)

/-- How much longer the edit makes a source. -/
def growth (edit : Edit) : Int := edit.text.length - (edit.last - edit.first)

/-- The line of the source that the edit ends on. -/
def line (edit : Edit) (source : Text) : Nat := 1 + newlines (source.take edit.last)

/-- Where a place of the source is after the edit. All that is behind the edit moves by as much as the
edit makes the source longer; the columns of later lines stay. -/
def moved (edit : Edit) (source : Text) (place : Location) : Location :=
  if place.offset < edit.last then place
  else
    { place with
      offset := place.offset + edit.growth
      column := if place.line = edit.line source then place.column + edit.growth else place.column }

theorem line_moved (edit : Edit) (source : Text) (place : Location) :
    (edit.moved source place).line = place.line := by
  unfold moved
  split <;> rfl

/-- The position, not before the end of the edit, is moved there. -/
structure Moves (edit : Edit) (source : Text) (p q : Position) : Prop where
  behind : edit.last ≤ p.offset
  line_le : edit.line source ≤ p.line
  line : q.line = p.line
  offset : (q.offset : Int) = p.offset + edit.growth
  column : (q.column : Int) = if p.line = edit.line source then p.column + edit.growth else p.column

variable {edit : Edit} {source : Text} {p q : Position}

theorem Moves.next (h : edit.Moves source p q) (c : Char) : edit.Moves source (p.next c) (q.next c) := by
  obtain ⟨behind, line_le, line, offset, column⟩ := h
  by_cases newline : c = '\n'
  · rw [newline, Position.next_newline, Position.next_newline]
    have later : p.line + 1 ≠ edit.line source := by omega
    refine ⟨?_, ?_, congrArg (· + 1) line, ?_, (if_neg later).symm⟩
    · exact Nat.le_succ_of_le behind
    · exact Nat.le_succ_of_le line_le
    · rw [Int.natCast_add, Int.natCast_add, offset, Int.add_right_comm]
  · rw [Position.next_of_ne newline, Position.next_of_ne newline]
    refine ⟨Nat.le_succ_of_le behind, line_le, line, ?_, ?_⟩
    · rw [Int.natCast_add, Int.natCast_add, offset, Int.add_right_comm]
    · rw [Int.natCast_add, Int.natCast_add, column]
      split
      · exact Int.add_right_comm ..
      · rfl

theorem Moves.after (h : edit.Moves source p q) (text : Text) :
    edit.Moves source (p.after text) (q.after text) := by
  induction text generalizing p q with
  | nil => exact h
  | cons c rest ih => exact ih (h.next c)

theorem Moves.location (h : edit.Moves source p q) (file : Text) :
    q.location file = edit.moved source (p.location file) := by
  have behind : ¬ (p.location file).offset < edit.last := Int.not_lt.2 (Int.ofNat_le.2 h.behind)
  rw [moved, if_neg behind, Position.location, h.line, h.offset, h.column]
  simp only [Position.location, Int.natCast_inj]

/-- Behind a front, one text is taken out and another put in. -/
def swap (front old new : Text) : Edit := ⟨front.length, (front ++ old).length, new⟩

variable (front old new rest : Text)

theorem swap_nil : swap front [] new = ⟨front.length, front.length, new⟩ := by
  rw [swap, List.append_nil]

theorem apply_swap : (swap front old new).apply (front ++ (old ++ rest)) = front ++ (new ++ rest) := by
  rw [apply, swap, List.take_left, ← List.append_assoc front old, List.drop_left]

theorem growth_swap : (swap front old new).growth = new.length - old.length := by
  rw [growth, swap, List.length_append]
  dsimp only
  omega

theorem line_swap :
    (swap front old new).line (front ++ (old ++ rest)) = (Position.start.after (front ++ old)).line := by
  rw [line, swap, ← List.append_assoc, List.take_left, Position.line_after]
  rfl

/-- The end of the text that was taken out is moved to the end of the one that was put in. -/
theorem moves_swap {old new : Text} (free : '\n' ∉ old) (free' : '\n' ∉ new) :
    (swap front old new).Moves (front ++ (old ++ rest)) (Position.start.after (front ++ old))
      (Position.start.after (front ++ new)) := by
  have growth := growth_swap front old new
  have line := line_swap front old new rest
  have last : (swap front old new).last = (Position.start.after (front ++ old)).offset :=
    (Position.offset_start_after (front ++ old)).symm
  rw [Position.after_append] at line last
  rw [Position.after_append, Position.after_append .start front new]
  generalize Position.start.after front = p at line last ⊢
  constructor
  · rw [last]
  · rw [line]
  · rw [Position.line_after, Position.line_after, newlines_eq_zero_iff.2 free,
      newlines_eq_zero_iff.2 free']
  · rw [Position.offset_after p old, Position.offset_after, growth]
    omega
  · rw [if_pos line.symm, Position.column_after free, Position.column_after free', growth]
    omega

end Edit

section

variable {edit : Edit} {source : Text} {p q : Position}

theorem Item.token?_moves (h : edit.Moves source p q) (segment : Segment) :
    Item.token? ⟨segment, q⟩ = Item.token? ⟨segment, p⟩ := by
  rw [token?_eq, token?_eq, h.line]

theorem Item.diagnostic?_moves (h : edit.Moves source p q) (segment : Segment) (file : Text) :
    Item.diagnostic? file ⟨segment, q⟩
      = (Item.diagnostic? file ⟨segment, p⟩).map (Diagnostic.relocated (edit.moved source)) := by
  obtain ⟨form, text⟩ := segment
  cases form with
  | unexpected c =>
    have place := h.location file
    exact congrArg (fun place => some ((Fault.unexpected c).diagnostic place)) place
  | unterminated =>
    have place := (h.after text).location file
    exact congrArg (fun place => some (Fault.unterminated.diagnostic place)) place
  | fixed | word | number | string | blank | comment => rfl

/-- What is found by item, and moves along with the item, moves along with a row. -/
theorem Edit.Moves.filterMap_solid {α : Type} (found? : Item → Option α) (moved : α → α)
    (quiet : ∀ item : Item, item.isGap → found? item = none)
    (along : ∀ {p q}, edit.Moves source p q → ∀ segment,
      found? ⟨segment, q⟩ = (found? ⟨segment, p⟩).map moved)
    (h : edit.Moves source p q) (row : List Segment) :
    (solid q row).filterMap found? = ((solid p row).filterMap found?).map moved := by
  rw [ScriptLexer.filterMap_solid quiet, ScriptLexer.filterMap_solid quiet]
  induction row generalizing p q with
  | nil => rfl
  | cons segment rest ih =>
    have later := ih (h.after segment.text)
    rw [placed, placed, List.filterMap_cons, List.filterMap_cons, along h segment, later]
    cases found? ⟨segment, p⟩ <;> rfl

end

/-- Between the row and the rest stands text in which nothing is found. -/
structure Spacer (row : List Segment) (between rest : Text) : Prop where
  free : '\n' ∉ between
  solid : solid .start (segments (row.flatMap Segment.text ++ (between ++ rest))) = solid .start row
    ++ solid (Position.start.after (row.flatMap Segment.text ++ between)) (segments rest)

variable {row later : List Segment}

theorem spacer_comment {body : Text} (aligned : Aligned (row ++ ⟨.comment, '/' :: '/' :: body⟩ :: later))
    {other : Text} (free : '\n' ∉ other) :
    Spacer row ('/' :: '/' :: other) (later.flatMap Segment.text) := by
  have closed := aligned.closed (List.cons_ne_nil _ _)
  obtain ⟨body', text, -, ends⟩ := aligned.of_append.1.of_comment rfl
  have less : ContinuesLess ('/' :: '/' :: other ++ later.flatMap Segment.text)
      ((⟨.comment, '/' :: '/' :: body⟩ :: later).flatMap Segment.text) :=
    continuesLess_of_head?_eq rfl (fun fraction => absurd fraction (by simp [startsFraction_cons]))
  refine ⟨by simp [free], ?_⟩
  rw [aligned.segments_append closed less, solid_append, solid_comment free ends, ← Position.after_append]

theorem spacer_nil {body : Text} (aligned : Aligned (row ++ ⟨.comment, '/' :: '/' :: body⟩ :: later)) :
    Spacer row [] (later.flatMap Segment.text) := by
  have closed := aligned.closed (List.cons_ne_nil _ _)
  obtain ⟨body', text, -, ends⟩ := aligned.of_append.1.of_comment rfl
  refine ⟨List.not_mem_nil, ?_⟩
  rw [List.nil_append, aligned.segments_append closed (continuesLess_of_line_end ends _), solid_append,
    List.append_nil]

theorem spacer_blanks (aligned : Aligned (row ++ later))
    (closed : ∀ segment ∈ row, segment.form ≠ .unterminated) {blanks : Text} (blank : Blanks blanks) :
    Spacer row blanks (later.flatMap Segment.text) := by
  refine ⟨blank.not_mem (by decide), ?_⟩
  rcases List.eq_nil_or_concat' row with rfl | ⟨front, last, rfl⟩
  · exact solid_blanks blank.space .start (later.flatMap Segment.text)
  · -- The blanks stand behind the last segment of the row, which ends as before.
    rw [List.append_assoc, List.singleton_append] at aligned
    have first := aligned.of_append.1
    have some : last.text ≠ [] := by
      obtain ⟨c, more, text, -⟩ := first
      rw [text]
      exact List.cons_ne_nil c more
    have less := continuesLess_blanks some blank (later.flatMap Segment.text)
    have cut := aligned.segments_append (aligned.closed (List.cons_ne_nil _ _)) less
    have behind := first.solid_append_blanks (closed last List.mem_concat_self) blank
    rw [List.flatMap_append, List.flatMap_singleton, List.append_assoc, cut, solid_append, behind,
      solid_blanks blank.space, solid_append, List.append_assoc, Position.after_append,
      Position.after_append]

/-- A closed segment is blamed where it starts, so before the end of its row. -/
theorem offset_lt_of_mem_solid (aligned : Aligned (row ++ later))
    (closed : ∀ segment ∈ row, segment.form ≠ .unterminated) {file : Text} {d : Diagnostic}
    (member : d ∈ (solid .start row).filterMap (Item.diagnostic? file)) :
    d.location.offset < (row.flatMap Segment.text).length := by
  obtain ⟨item, inside, said⟩ := List.mem_filterMap.1 member
  obtain ⟨earlier, others, split, start⟩ := exists_split_of_mem_placed (List.mem_filter.1 inside).1
  obtain ⟨⟨fault, place⟩, found, rfl⟩ := Option.map_eq_some_iff.1 said
  rcases Item.fault?_eq_some found with ⟨c, -, -, rfl⟩ | ⟨form, -, -⟩
  · rw [split, List.append_assoc, List.cons_append] at aligned
    obtain ⟨c, more, text, -⟩ := aligned.of_append.1
    apply Int.ofNat_lt.2
    rw [start, Position.offset_start_after, split, List.flatMap_append, List.flatMap_cons, text,
      List.length_append, List.length_append, List.length_cons]
    omega
  · have member' : item.segment ∈ row := by simp [split]
    exact absurd form (closed item.segment member')

/-- The edit changes no token of the source, and moves its errors along with the text. -/
structure Edit.IsUnseen (edit : Edit) (source : Text) : Prop where
  tokens : scan (edit.apply source) = scan source
  errors : ∀ file, diagnostics file (edit.apply source)
    = (diagnostics file source).map (Diagnostic.relocated (edit.moved source))

theorem Edit.Moves.tokens {edit : Edit} {source : Text} {p q : Position} (h : edit.Moves source p q)
    (row : List Segment) : (solid q row).filterMap Item.token? = (solid p row).filterMap Item.token? := by
  have moved := h.filterMap_solid Item.token? id (fun _ => Item.token?_of_isGap)
    (fun h segment => (Item.token?_moves h segment).trans Option.map_id_apply.symm) row
  rwa [List.map_id] at moved

theorem Edit.Moves.diagnostics {edit : Edit} {source : Text} {p q : Position} (h : edit.Moves source p q)
    (file : Text) (row : List Segment) :
    (solid q row).filterMap (Item.diagnostic? file) = ((solid p row).filterMap (Item.diagnostic? file)).map
      (Diagnostic.relocated (edit.moved source)) :=
  h.filterMap_solid (Item.diagnostic? file) _ (fun _ gap => Item.diagnostic?_of_isGap gap file)
    (fun h segment => Item.diagnostic?_moves h segment file) row

theorem map_moved_solid {edit : Edit} {source : Text} (aligned : Aligned (row ++ later))
    (closed : ∀ segment ∈ row, segment.form ≠ .unterminated)
    (behind : (row.flatMap Segment.text).length ≤ edit.last) (file : Text) :
    ((solid .start row).filterMap (Item.diagnostic? file)).map (Diagnostic.relocated (edit.moved source))
      = (solid .start row).filterMap (Item.diagnostic? file) := by
  have fixed : ∀ d ∈ (solid .start row).filterMap (Item.diagnostic? file),
      Diagnostic.relocated (edit.moved source) d = id d := by
    intro d member
    have before := offset_lt_of_mem_solid aligned closed member
    have place : edit.moved source d.location = d.location := if_pos (by omega)
    rw [Diagnostic.relocated, place]
    rfl
  rw [List.map_congr_left fixed, List.map_id]

theorem isUnseen_of_spacer (aligned : Aligned (row ++ later))
    (closed : ∀ segment ∈ row, segment.form ≠ .unterminated) {old new rest : Text}
    (h : Spacer row old rest) (h' : Spacer row new rest) :
    (Edit.swap (row.flatMap Segment.text) old new).IsUnseen
      (row.flatMap Segment.text ++ (old ++ rest)) := by
  have moves := Edit.moves_swap (row.flatMap Segment.text) rest h.free h'.free
  have before := (List.prefix_append (row.flatMap Segment.text) old).length_le
  constructor
  · have line := (moves.after rest).line
    rw [← Position.after_append, ← Position.after_append, List.append_assoc, List.append_assoc] at line
    rw [Edit.apply_swap, scan_eq_solid, scan_eq_solid, h.solid, h'.solid, List.filterMap_append,
      List.filterMap_append, moves.tokens, line]
  · intro file
    rw [Edit.apply_swap, diagnostics_eq_solid, diagnostics_eq_solid, h.solid, h'.solid,
      List.filterMap_append, List.filterMap_append, moves.diagnostics, List.map_append,
      map_moved_solid aligned closed before]

/-- An open string takes along the blanks at the end, and its error moves behind them. -/
theorem isUnseen_of_open {last : Segment} (aligned : Aligned (row ++ [last]))
    (form : last.form = .unterminated) {blanks : Text} (blank : Blanks blanks) :
    (Edit.swap (row.flatMap Segment.text ++ last.text) [] blanks).IsUnseen
      (row.flatMap Segment.text ++ last.text) := by
  have found {more : Text} (free : '\x22' ∉ more) :
      solid .start (segments (row.flatMap Segment.text ++ last.text ++ more)) = solid .start row
        ++ [⟨⟨.unterminated, last.text ++ more⟩, Position.start.after (row.flatMap Segment.text)⟩] := by
    rw [List.append_assoc, aligned.segments_append_open form free, solid_append, solid_of_not_isGap rfl]
  have long := found (blank.not_mem (by decide))
  have short := found List.not_mem_nil
  have moves := Edit.moves_swap (row.flatMap Segment.text ++ last.text) [] List.not_mem_nil
    (blank.not_mem (by decide))
  have applied := Edit.apply_swap (row.flatMap Segment.text ++ last.text) [] blanks []
  have before : (row.flatMap Segment.text).length
      ≤ (Edit.swap (row.flatMap Segment.text ++ last.text) [] blanks).last := by
    rw [Edit.swap_nil]
    exact (List.prefix_append _ last.text).length_le
  simp only [List.append_nil] at moves applied short
  constructor
  · rw [applied, scan_eq_solid, scan_eq_solid, long, short, List.filterMap_append, List.filterMap_append,
      moves.line]
    rfl
  · intro file
    have place := moves.location file
    rw [List.append_assoc, Position.after_append, Position.after_append .start _ last.text] at place
    rw [applied, diagnostics_eq_solid, diagnostics_eq_solid, long, short, List.filterMap_append,
      List.filterMap_append, List.map_append,
      map_moved_solid aligned (aligned.closed (List.cons_ne_nil last [])) before]
    exact congrArg (fun place => _ ++ [Fault.unterminated.diagnostic place]) place

namespace Session

/-- The edits that leave no trace: another comment, or none, in the place of one that a turn of the scan
spans, and blanks that end no line where a turn begins or ends. -/
inductive Harmless (s : Session) : Edit → Prop
  | comment {x body other} : x ∈ s.rewound.stretches → x.text = '/' :: '/' :: body → '\n' ∉ other →
      Harmless s ⟨x.start, x.finish, '/' :: '/' :: other⟩
  | removal {x body} : x ∈ s.rewound.stretches → x.text = '/' :: '/' :: body →
      Harmless s ⟨x.start, x.finish, []⟩
  | blanks {p text} : p ∈ s.rewound :: s.rewound.laps → Blanks text →
      Harmless s ⟨p.current, p.current, text⟩

theorem exists_row_of_comment {s : Session} {x : Stretch} {body : Text} (member : x ∈ s.rewound.stretches)
    (text : x.text = '/' :: '/' :: body) : ∃ row later,
      segments s.source = row ++ ⟨.comment, '/' :: '/' :: body⟩ :: later ∧
      x.start = (row.flatMap Segment.text).length ∧
      x.finish = (row.flatMap Segment.text ++ '/' :: '/' :: body).length := by
  rw [rewound_stretches] at member
  obtain ⟨⟨⟨form, taken⟩, start⟩, inside, rfl⟩ := List.mem_map.1 member
  obtain rfl : taken = '/' :: '/' :: body := text
  obtain ⟨row, later, split, place⟩ := exists_split_of_mem_placed inside
  obtain rfl : start = Position.start.after (row.flatMap Segment.text) := place
  have aligned := aligned_segments s.source
  rw [split] at aligned
  obtain ⟨c, more, same, cut⟩ := aligned.of_append.1
  obtain ⟨rfl, rfl⟩ := List.cons.inj same
  obtain rfl : LexemeForm.comment = form := congrArg Cut.form cut
  refine ⟨row, later, split, Position.offset_start_after _, ?_⟩
  exact (congrArg Position.offset (Position.after_append ..).symm).trans (Position.offset_start_after _)

/-- Whatever leaves no trace in the place of a comment may be put there. -/
theorem isUnseen_of_comment {s : Session} {x : Stretch} {body new : Text}
    (member : x ∈ s.rewound.stretches) (text : x.text = '/' :: '/' :: body)
    (spacer : ∀ {row later}, Aligned (row ++ ⟨.comment, '/' :: '/' :: body⟩ :: later) →
      Spacer row new (later.flatMap Segment.text)) :
    Edit.IsUnseen ⟨x.start, x.finish, new⟩ s.source := by
  have aligned := aligned_segments s.source
  have whole := flatMap_text_segments s.source
  obtain ⟨row, later, split, start, finish⟩ := exists_row_of_comment member text
  rw [split] at aligned whole
  obtain ⟨body', same, free, -⟩ := aligned.of_append.1.of_comment rfl
  obtain ⟨-, rfl⟩ := List.cons.inj (List.cons.inj same).2
  have unseen := isUnseen_of_spacer aligned (aligned.closed (List.cons_ne_nil _ _))
    (spacer_comment aligned free) (spacer aligned)
  rw [List.flatMap_append, List.flatMap_cons] at whole
  rwa [start, finish, ← whole]

theorem isUnseen_of_blanks {s p : Session} {text : Text} (member : p ∈ s.rewound :: s.rewound.laps)
    (blank : Blanks text) : Edit.IsUnseen ⟨p.current, p.current, text⟩ s.source := by
  have aligned := aligned_segments s.source
  have whole := flatMap_text_segments s.source
  obtain ⟨row, later, split, reached⟩ := s.rewound_at.exists_split_of_mem_laps member
  have current : p.current = (row.flatMap Segment.text).length := reached.current
  rw [split] at aligned whole
  rw [current]
  by_cases closed : ∀ segment ∈ row, segment.form ≠ .unterminated
  · have unseen := isUnseen_of_spacer aligned closed (spacer_blanks aligned closed Blanks.nil)
      (spacer_blanks aligned closed blank)
    rw [List.flatMap_append] at whole
    rwa [Edit.swap_nil, List.nil_append, whole] at unseen
  · -- Nothing follows the segment that is an open string.
    push Not at closed
    obtain ⟨last, inside, form⟩ := closed
    obtain ⟨front, others, rfl⟩ := List.append_of_mem inside
    have none : others ++ later = [] := by
      by_contra some
      have behind : Aligned (front ++ [last] ++ (others ++ later)) := by simpa using aligned
      exact behind.closed some last List.mem_concat_self form
    obtain ⟨rfl, rfl⟩ := List.append_eq_nil_iff.1 none
    rw [List.append_nil] at aligned whole
    rw [List.flatMap_append, List.flatMap_singleton] at whole
    rw [← whole, List.flatMap_append, List.flatMap_singleton, ← Edit.swap_nil]
    exact isUnseen_of_open aligned form blank

theorem Harmless.isUnseen {s : Session} {edit : Edit} (h : s.Harmless edit) : edit.IsUnseen s.source := by
  cases h with
  | comment member text free =>
    exact isUnseen_of_comment member text fun aligned => spacer_comment aligned free
  | removal member text => exact isUnseen_of_comment member text spacer_nil
  | blanks member blank => exact isUnseen_of_blanks member blank

/-- Comments and blanks do not interfere. Another comment or none in the place of one, or more blanks where a
turn of the scan begins or ends, leave the tokens and the reports as they are. The errors stay as well, but
for the offsets of those behind the edit and the columns of those on its line. -/
theorem scanAll_harmless (s : Session) (edit : Edit) (harmless : s.Harmless edit) :
    ∃ final edited, s.scanAll = (final, .ok ()) ∧
      (s.setSource (edit.apply s.source)).scanAll = (edited, .ok ()) ∧
      edited.tokens = final.tokens ∧ edited.collector = final.collector ∧
      edited.errors = final.errors.map (Diagnostic.relocated (edit.moved s.source)) := by
  obtain ⟨tokens, errors⟩ := harmless.isUnseen
  refine ⟨_, _, scanAll_eq _, scanAll_eq _, ?_, scanned_relocated (edit.line_moved s.source) (errors s.file)⟩
  rw [scanned_tokens, scanned_tokens]
  exact congrArg List.toArray tokens

/-- The comment goes, and the string that is left open gets longer. -/
theorem scanAll_harmless_removed :
    let s : Session := { source := "1 // \"a\n@ \"x".toList, file := [] }
    let removal : Edit := ⟨2, 7, []⟩
    let blanks : Edit := ⟨12, 12, " \r".toList⟩
    (s.Harmless removal ∧ ∃ final edited, s.scanAll = (final, .ok ()) ∧
      (s.setSource (removal.apply s.source)).scanAll = (edited, .ok ()) ∧
      edited.tokens = final.tokens ∧ edited.collector = final.collector ∧
      edited.errors = final.errors.map (Diagnostic.relocated (removal.moved s.source))) ∧
    (s.Harmless blanks ∧ ∃ final edited, s.scanAll = (final, .ok ()) ∧
      (s.setSource (blanks.apply s.source)).scanAll = (edited, .ok ()) ∧
      edited.tokens = final.tokens ∧ edited.collector = final.collector ∧
      edited.errors = final.errors.map (Diagnostic.relocated (blanks.moved s.source))) := by
  intro s removal blanks
  have spanned : ⟨2, 7, "// \"a".toList, [], []⟩ ∈ s.rewound.stretches := by decide +kernel
  have reached : ∃ p ∈ s.rewound :: s.rewound.laps, p.current = 12 := by decide +kernel
  have harmless : s.Harmless removal := .removal spanned rfl
  have harmless' : s.Harmless blanks := by
    obtain ⟨p, member, current⟩ := reached
    have put := Harmless.blanks member (by decide : Blanks " \r".toList)
    rwa [current] at put
  exact ⟨⟨harmless, scanAll_harmless s removal harmless⟩, harmless', scanAll_harmless s blanks harmless'⟩

/-- The errors of the source and of the two edited ones. -/
example :
    let s : Session := { source := "1 // \"a\n@ \"x".toList, file := [] }
    let places (source : Text) := (s.setSource source).scanAll.1.errors.toList.map fun d =>
      (d.location.line, d.location.column, d.location.offset)
    places s.source = [(2, 1, 8), (2, 5, 12)] ∧
      places (Edit.apply ⟨2, 7, []⟩ s.source) = [(2, 1, 3), (2, 5, 7)] ∧
      places (Edit.apply ⟨12, 12, " \r".toList⟩ s.source) = [(2, 1, 8), (2, 7, 14)] := by
  decide +kernel

end Session

end ScriptLexer
