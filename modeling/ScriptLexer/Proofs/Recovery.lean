import Mathlib.Data.List.Forall2
import ScriptLexer.Proofs.Places
import ScriptLexer.Proofs.Printing

/-! Recovery from faults. A scan goes on after a fault as if blanks had stood in its place: the source
with every fault blanked out has the same tokens on the same lines, and no faults. -/
namespace ScriptLexer

/-- The blank put in the place of a character; a line feed stays, so that lines stay. -/
def blankFor (c : Char) : Char := if isNewline c then c else ' '

/-- What an error spoils is blanked out: the unexpected character, or the text from the opening quote
on, which is the mark of an unterminated string. -/
def blankOut (text : Text) : Nat × Diagnostic → Text
  | (start, d) =>
    if d.code = some "L001".toList then text.set d.location.offset.toNat ' '
    else text.take start ++ (text.drop start).map blankFor

/-- The source with all that the errors of its scan spoil blanked out. -/
def Session.blanked (s : Session) : Text := (s.rewound.additions errors).foldl blankOut s.source

def Segment.blanked (segment : Segment) : Text :=
  if segment.form.isFault then segment.text.map blankFor else segment.text

theorem blankFor_mem (c : Char) : blankFor c ∈ [' ', '\t', '\r', '\n'] := by
  cases line : isNewline c with
  | true =>
    rw [blankFor, if_pos line, beq_iff_eq.1 line]
    decide
  | false => simp [blankFor, line]

theorem Position.after_map_blankFor (p : Position) (text : Text) :
    p.after (text.map blankFor) = p.after text := by
  induction text generalizing p with
  | nil => rfl
  | cons c rest ih =>
    have same : p.next (blankFor c) = p.next c := by
      cases line : isNewline c with
      | true => rw [blankFor, line, if_pos rfl]
      | false => simp only [next, blankFor, line, Bool.false_eq_true, if_false]; rfl
    rw [List.map_cons, after_cons, after_cons, same, ih]

theorem Position.after_blanked (p : Position) (segment : Segment) :
    p.after segment.blanked = p.after segment.text := by
  unfold Segment.blanked
  split
  · exact p.after_map_blankFor _
  · rfl

theorem Position.after_flatMap_blanked (p : Position) (row : List Segment) :
    p.after (row.flatMap Segment.blanked) = p.after (row.flatMap Segment.text) := by
  induction row generalizing p with
  | nil => rfl
  | cons segment rest ih =>
    rw [List.flatMap_cons, List.flatMap_cons, after_append, after_append, after_blanked, ih]

/-- The character is kept, or it ends no line and a space takes its place. -/
def KeptOrBlank (new old : Char) : Prop := new = old ∨ new = ' ' ∧ isNewline old = false

theorem startsFraction_of_keptOrBlank {text other : Text} (h : List.Forall₂ KeptOrBlank text other)
    (fraction : startsFraction text) : startsFraction other := by
  unfold startsFraction at fraction
  split at fraction
  · cases h with
    | cons first later =>
      cases later with
      | cons second =>
        rcases first with rfl | ⟨point, -⟩
        · rcases second with rfl | ⟨rfl, -⟩
          · exact fraction
          · exact absurd fraction (by decide)
        · exact absurd point (by decide)
  · cases fraction

theorem continuesLess_of_keptOrBlank {text other : Text} (h : List.Forall₂ KeptOrBlank text other) :
    ContinuesLess text other := by
  have fraction := startsFraction_of_keptOrBlank h
  cases h with
  | nil => exact ⟨fun _ => id, id, id⟩
  | @cons new old rest rest' first later =>
    refine ⟨?_, fraction, ?_⟩
    · intro growth takes
      rcases first with rfl | ⟨rfl, -⟩
      · exact takes
      · have none : growth.takes ' ' = false := takes_blank growth ' ' (by decide)
        rw [List.head?_cons, Option.any_some, none] at takes
        cases takes
    · intro longer
      rcases first with rfl | ⟨-, line⟩
      · exact longer
      · simp [line]

theorem keptOrBlank_blanked (segment : Segment) :
    List.Forall₂ KeptOrBlank segment.blanked segment.text := by
  have blank (c : Char) : KeptOrBlank (blankFor c) c := by
    cases line : isNewline c with
    | true => exact .inl (by rw [blankFor, line, if_pos rfl])
    | false => exact .inr ⟨by rw [blankFor, line]; rfl, line⟩
  unfold Segment.blanked
  split
  · rw [List.forall₂_map_left_iff]
    exact List.forall₂_same.2 fun c _ => blank c
  · exact List.forall₂_same.2 fun c _ => .inl rfl

theorem keptOrBlank_flatMap_blanked (row : List Segment) :
    List.Forall₂ KeptOrBlank (row.flatMap Segment.blanked) (row.flatMap Segment.text) := by
  induction row with
  | nil => exact .nil
  | cons segment rest ih => exact List.rel_append (keptOrBlank_blanked segment) ih

theorem scans_blanked (start : Position) {row : List Segment} (h : Aligned row) :
    Scans start (row.flatMap Segment.blanked) ((placed start row).filterMap Item.token?) := by
  induction row generalizing start with
  | nil => exact scans_nil_iff.2 rfl
  | cons segment rest ih =>
    obtain ⟨first, aligned⟩ := h
    have later := ih (start.after segment.text) aligned
    rw [List.flatMap_cons]
    cases fault : segment.form.isFault with
    | true =>
      have silent : Item.token? ⟨segment, start⟩ = none := Item.token?_eq_none fault
      have space : ∀ c ∈ segment.blanked, c ∈ [' ', '\t', '\r', '\n'] := by
        rw [Segment.blanked, if_pos fault]
        intro c member
        obtain ⟨c', -, rfl⟩ := List.mem_map.1 member
        exact blankFor_mem c'
      rw [scans_space space, Position.after_blanked, placed, List.filterMap_cons_none silent]
      exact later
    | false =>
      have closed : segment.form ≠ .unterminated := by
        intro form
        rw [form] at fault
        cases fault
      have less := continuesLess_of_keptOrBlank (keptOrBlank_flatMap_blanked rest)
      obtain ⟨c, more, text, cut⟩ := first.before closed less
      have kept : segment.blanked = c :: more := by rw [Segment.blanked, fault, text]; rfl
      rw [kept, List.cons_append, scans_cons_iff (by rw [cut]; exact fault), cut]
      refine ⟨_, ?_, later⟩
      have made := Item.token?_eq ⟨segment, start⟩
      rw [placed, List.filterMap_cons, made, Cut.entry]
      cases (segment.form.entry segment.text).token? segment.text start.line <;> rfl

theorem set_length_append (text : Text) (old new : Char) (rest : Text) :
    (text ++ old :: rest).set text.length new = text ++ new :: rest := by
  rw [List.set_append_right _ _ (Nat.le_refl _), Nat.sub_self, List.set_cons_zero]

theorem Segment.blanked_eq_text {segment : Segment} {start : Position} {file : Text}
    (silent : Item.diagnostic? file ⟨segment, start⟩ = none) : segment.blanked = segment.text := by
  unfold Segment.blanked
  split
  · rename_i fault
    cases form : segment.form with
    | unexpected | unterminated => simp [Item.diagnostic?, Item.fault?, form] at silent
    | fixed | word | number | string | blank | comment =>
      rw [form] at fault
      cases fault
  · rfl

theorem Segment.length_blanked (segment : Segment) : segment.blanked.length = segment.text.length := by
  unfold Segment.blanked
  split
  · exact List.length_map _
  · rfl

/-- Blanking out what an item spoils leaves the text before it and the text after it. -/
theorem blankOut_item {segment : Segment} {start : Position} {front after : Text} {d : Diagnostic}
    {file : Text} (first : segment.IsFirst after) (offset : start.offset = front.length)
    (said : Item.diagnostic? file ⟨segment, start⟩ = some d) :
    blankOut (front ++ (segment.text ++ after)) (start.offset, d)
      = front ++ (segment.blanked ++ after) := by
  obtain ⟨⟨fault, place⟩, found, rfl⟩ := Option.map_eq_some_iff.1 said
  rcases Item.fault?_eq_some found with ⟨c, form, rfl, rfl⟩ | ⟨form, rfl, rfl⟩
  · obtain ⟨text, line, -⟩ := first.of_unexpected form
    change (front ++ (segment.text ++ after)).set place.offset ' ' = _
    have blank : segment.blanked = [' '] := by
      rw [Segment.blanked, form, text, List.map_singleton, blankFor, line]
      rfl
    rw [offset, text, blank, List.singleton_append, List.singleton_append, set_length_append]
  · obtain ⟨rest, -, -, none⟩ := first.of_unterminated form
    change (front ++ (segment.text ++ after)).take start.offset
      ++ ((front ++ (segment.text ++ after)).drop start.offset).map blankFor = _
    have blank : segment.blanked = segment.text.map blankFor := by
      rw [Segment.blanked, form]
      rfl
    rw [offset, List.take_left, List.drop_left, none, List.append_nil, List.append_nil, blank]

theorem foldl_blankOut (file front : Text) {start : Position} {row : List Segment} (h : Aligned row)
    (offset : start.offset = front.length) :
    ((placed start row).filterMap fun item =>
      (item.diagnostic? file).map (item.start.offset, ·)).foldl blankOut
        (front ++ row.flatMap Segment.text) = front ++ row.flatMap Segment.blanked := by
  -- The front is what is blanked out already; it is as long as the text was, so the later offsets hold.
  induction row generalizing start front with
  | nil => rfl
  | cons segment rest ih =>
    obtain ⟨first, aligned⟩ := h
    have offset' : (start.after segment.text).offset = (front ++ segment.blanked).length := by
      rw [Position.offset_after, offset, List.length_append, Segment.length_blanked]
    have later := ih (front ++ segment.blanked) aligned offset'
    rw [List.append_assoc, List.append_assoc] at later
    rw [placed, List.filterMap_cons, List.flatMap_cons, List.flatMap_cons, ← later]
    cases said : Item.diagnostic? file ⟨segment, start⟩ with
    | none => rw [Segment.blanked_eq_text said]; rfl
    | some d => exact congrArg (List.foldl blankOut · _) (blankOut_item first offset said)

namespace Session

theorem blanked_eq (s : Session) : s.blanked = (segments s.source).flatMap Segment.blanked := by
  have folded := foldl_blankOut s.file [] (aligned_segments s.source) (Eq.refl Position.start.offset)
  rw [flatMap_text_segments] at folded
  rw [blanked, additions_errors]
  exact folded

theorem scans_blanked_source (s : Session) :
    Scans .start s.blanked ((items s.source).filterMap Item.token?) := by
  rw [blanked_eq]
  exact scans_blanked .start (aligned_segments s.source)

theorem diagnostics_blanked (s : Session) (file : Text) : diagnostics file s.blanked = [] := by
  rw [diagnostics, List.map_eq_nil_iff]
  exact s.scans_blanked_source.faultless

theorem scan_blanked (s : Session) : scan s.blanked = scan s.source := by
  have lines : Position.start.after s.blanked = Position.start.after s.source := by
    rw [blanked_eq, Position.after_flatMap_blanked, flatMap_text_segments]
  rw [scan, scan, lines]
  exact congrArg (· ++ _) s.scans_blanked_source.tokens

theorem quote_at_unterminated {s : Session} {start : Nat} {d : Diagnostic}
    (member : (start, d) ∈ s.rewound.additions errors) (code : d.code = some "L002".toList) :
    s.source[start]? = some '\x22' := by
  rw [additions_errors] at member
  obtain ⟨item, inside, found⟩ := List.mem_filterMap.1 member
  obtain ⟨d', said, same⟩ := Option.map_eq_some_iff.1 found
  cases same
  obtain ⟨before, after, split, place, first⟩ := exists_split_of_mem_items inside
  obtain ⟨rest, text, -⟩ := first.of_unterminated (Item.form_of_code said code)
  rw [split, place, Position.offset_start_after, text]
  simp

/-- Blanking the errors out of a source changes nothing but the errors: there are none left, and the
tokens are the same, with their literals and lines. -/
theorem scanAll_blanked (s : Session) :
    ∃ final blank, s.scanAll = (final, .ok ()) ∧
      final.errors.toList = (s.rewound.additions errors).map Prod.snd ∧
      (∀ start d, (start, d) ∈ s.rewound.additions errors → d.code = some "L002".toList →
        s.source[start]? = some '\x22') ∧
      (s.setSource s.blanked).scanAll = (blank, .ok ()) ∧
      blank.errors = #[] ∧ blank.collector = s.collector ∧ blank.tokens = final.tokens := by
  refine ⟨s.scanned, (s.setSource s.blanked).scanned, s.scanAll_eq, ?_, ?_, scanAll_eq _, ?_, ?_, ?_⟩
  · rw [scanned_errors, map_snd_additions_errors]
  · exact fun _ _ => quote_at_unterminated
  · rw [scanned_errors]
    exact congrArg List.toArray (s.diagnostics_blanked s.file)
  · rw [scanned_reports]
    change s.collector.map (Collector.extend ((diagnostics s.file s.blanked).map _)) = _
    rw [diagnostics_blanked]
    simp
  · rw [scanned_tokens, scanned_tokens]
    exact congrArg List.toArray s.scan_blanked

end Session

end ScriptLexer
