import ScriptLexer.Proofs.Places

/-! Gaps, that is blanks and comments. Nothing is found in them, so what is found in a text is told by its
other items. These are the same when blanks are put behind a segment: it is cut off there as before, or
it is a comment and takes them along. -/
namespace ScriptLexer

def LexemeForm.isGap : LexemeForm → Bool
  | blank | comment => true
  | _ => false

def Item.isGap (item : Item) : Bool := item.segment.form.isGap

theorem Item.token?_of_isGap {item : Item} (h : item.isGap) : item.token? = none := by
  unfold isGap at h
  unfold token?
  cases form : item.segment.form with
  | blank | comment => simp [form, LexemeForm.tokenKind?]
  | fixed | word | number | string | unexpected | unterminated =>
    rw [form] at h
    cases h

theorem Item.diagnostic?_of_isGap {item : Item} (h : item.isGap) (file : Text) :
    item.diagnostic? file = none := by
  apply item.diagnostic?_eq_none
  unfold isGap at h
  cases form : item.segment.form with
  | unexpected | unterminated =>
    rw [form] at h
    cases h
  | fixed | word | number | string | blank | comment => rfl

/-- The items of a row that starts there, without the gaps. -/
def solid (start : Position) (row : List Segment) : List Item :=
  (placed start row).filter (!·.isGap)

theorem solid_append (start : Position) (row later : List Segment) : solid start (row ++ later)
    = solid start row ++ solid (start.after (row.flatMap Segment.text)) later := by
  rw [solid, placed_append, List.filter_append]
  rfl

theorem solid_of_isGap {segment : Segment} (h : segment.form.isGap) (start : Position) :
    solid start [segment] = [] := by
  simp [solid, placed, Item.isGap, h]

theorem solid_of_not_isGap {segment : Segment} (h : segment.form.isGap = false) (start : Position) :
    solid start [segment] = [⟨segment, start⟩] := by
  simp [solid, placed, Item.isGap, h]

theorem filterMap_solid {α : Type} {found? : Item → Option α}
    (quiet : ∀ item : Item, item.isGap → found? item = none) (start : Position) (row : List Segment) :
    (solid start row).filterMap found? = (placed start row).filterMap found? := by
  rw [solid, List.filterMap_filter]
  refine List.filterMap_congr fun item _ => ?_
  cases gap : item.isGap with
  | false => rfl
  | true => exact (quiet item gap).symm

theorem scan_eq_solid (source : Text) : scan source
    = (solid .start (segments source)).filterMap Item.token?
      ++ [endToken (Position.start.after source).line] := by
  rw [filterMap_solid (fun _ => Item.token?_of_isGap)]
  rfl

theorem diagnostics_eq_solid (file source : Text) : diagnostics file source
    = (solid .start (segments source)).filterMap (Item.diagnostic? file) := by
  rw [filterMap_solid (fun _ gap => Item.diagnostic?_of_isGap gap file), diagnostics_eq]
  rfl

theorem Segment.IsFirst.solid_append {segment : Segment} {after : Text} (h : segment.IsFirst after)
    (start : Position) : solid start (segments (segment.text ++ after))
      = solid start [segment] ++ solid (start.after segment.text) (segments after) := by
  have split := ScriptLexer.solid_append start [segment] (segments after)
  rwa [List.singleton_append, List.flatMap_singleton, ← h.segments_append] at split

/-- Blanks that end no line. -/
def Blanks (text : Text) : Prop := ∀ c ∈ text, c ∈ [' ', '\t', '\r']

instance : DecidablePred Blanks := fun text =>
  inferInstanceAs (Decidable (∀ c ∈ text, c ∈ [' ', '\t', '\r']))

namespace Blanks

variable {blanks : Text}

theorem nil : Blanks [] := List.forall_mem_nil _

theorem space (h : Blanks blanks) : ∀ c ∈ blanks, c ∈ [' ', '\t', '\r', '\n'] := by
  intro c member
  exact List.mem_append_left ['\n'] (h c member)

theorem not_mem (h : Blanks blanks) {c : Char} (other : c ∉ [' ', '\t', '\r']) : c ∉ blanks :=
  fun member => other (h c member)

end Blanks

theorem solid_blanks {blanks : Text} (blank : ∀ c ∈ blanks, c ∈ [' ', '\t', '\r', '\n'])
    (start : Position) (text : Text) :
    solid start (segments (blanks ++ text)) = solid (start.after blanks) (segments text) := by
  induction blanks generalizing start with
  | nil => rfl
  | cons c rest ih =>
    rw [List.forall_mem_cons] at blank
    have first := (Segment.isFirst_blank blank.1 (rest ++ text)).solid_append start
    rw [solid_of_isGap rfl, List.nil_append, ih blank.2] at first
    exact first

/-- Behind other characters, blanks continue nothing. -/
theorem continuesLess_blanks {front : Text} (some : front ≠ []) {blanks : Text} (blank : Blanks blanks)
    (text : Text) : ContinuesLess (front ++ (blanks ++ text)) (front ++ text) := by
  apply continuesLess_append some
  intro digit
  cases blanks with
  | nil => exact digit
  | cons c rest =>
    have none : Growth.number.takes c = false := takes_blank .number c (blank.space c List.mem_cons_self)
    exact absurd (none.symm.trans digit) Bool.false_ne_true

/-- Only a comment goes on with blanks. -/
theorem sticksLess_blanks {blanks : Text} (blank : Blanks blanks) {form : LexemeForm}
    (other : form ≠ .comment) {lexeme : Text} (after : Text) :
    SticksLess form lexeme (blanks ++ after) after := by
  refine ⟨?_, fun comment => absurd comment other⟩
  intro kind _ stuck
  cases blanks with
  | nil => exact stuck
  | cons c rest =>
    have takes := takes_blank kind.growth c (blank.space c List.mem_cons_self)
    have point : c ≠ '.' := by
      rintro rfl
      exact blank.not_mem (by decide) List.mem_cons_self
    rw [List.cons_append, sticks, startsFraction_cons, List.head?_cons, Option.any_some, takes,
      beq_eq_false_iff_ne.2 point, Bool.false_and, Bool.and_false] at stuck
    cases stuck

/-- A comment reaches as far as its line does. -/
theorem isFirst_comment {body after : Text} (free : '\n' ∉ body)
    (ends : after.head?.any (!isNewline ·) = false) :
    Segment.IsFirst ⟨.comment, '/' :: '/' :: body⟩ after := by
  have taken := (Cut.comment_taken_iff free after).2 ends
  have left : (Cut.first '/' ('/' :: (body ++ after))).left = after := by
    have whole := Cut.first_append '/' ('/' :: (body ++ after))
    rw [taken] at whole
    exact @List.append_cancel_left _ ('/' :: '/' :: body) _ _ whole
  refine ⟨'/', '/' :: body, rfl, ?_⟩
  calc
    Cut.first '/' ('/' :: (body ++ after))
      = ⟨.comment, (Cut.first '/' ('/' :: (body ++ after))).taken,
          (Cut.first '/' ('/' :: (body ++ after))).left⟩ := rfl
    _ = ⟨.comment, '/' :: '/' :: body, after⟩ := by rw [taken, left]

theorem solid_comment {body after : Text} (free : '\n' ∉ body)
    (ends : after.head?.any (!isNewline ·) = false) (start : Position) :
    solid start (segments ('/' :: '/' :: body ++ after))
      = solid (start.after ('/' :: '/' :: body)) (segments after) := by
  have first := (isFirst_comment free ends).solid_append start
  rwa [solid_of_isGap rfl, List.nil_append] at first

theorem Segment.IsFirst.of_comment {segment : Segment} {after : Text} (h : segment.IsFirst after)
    (form : segment.form = .comment) : ∃ body, segment.text = '/' :: '/' :: body ∧ '\n' ∉ body ∧
      after.head?.any (!isNewline ·) = false := by
  have rule : Rule segment.text none := by
    have rule := h.rule (by rw [form]; rfl)
    rwa [form] at rule
  obtain ⟨c, more, start, cut⟩ := h
  rw [start] at rule ⊢
  generalize lexeme : c :: more = text at rule
  cases rule with
  | blank member =>
    obtain ⟨rfl, rfl⟩ := List.cons.inj lexeme
    rw [List.nil_append, Cut.first_blank member, form] at cut
    cases cut
  | comment free =>
    obtain ⟨rfl, rfl⟩ := List.cons.inj lexeme
    exact ⟨_, rfl, free, (Cut.comment_taken_iff free after).1 ((congrArg Cut.taken cut).trans start)⟩

/-- Blanks behind a segment make no difference to what is found in it. -/
theorem Segment.IsFirst.solid_append_blanks {segment : Segment} {after : Text} (h : segment.IsFirst after)
    (closed : segment.form ≠ .unterminated) {blanks : Text} (blank : Blanks blanks)
    (start : Position) : solid start (segments (segment.text ++ (blanks ++ after)))
      = solid start [segment] ++ solid (start.after segment.text) (segments (blanks ++ after)) := by
  by_cases form : segment.form = .comment
  · -- A longer comment ends where the blanks do.
    obtain ⟨body, text, free, ends⟩ := h.of_comment form
    have free' : '\n' ∉ body ++ blanks := by
      rw [List.mem_append, not_or]
      exact ⟨free, blank.not_mem (by decide)⟩
    have whole := solid_comment free' ends start
    rw [solid_of_isGap (by rw [form]; rfl), solid_blanks blank.space, List.nil_append,
      ← Position.after_append, text, ← List.append_assoc]
    exact whole
  · have first := h.before_of_sticksLess closed (sticksLess_blanks blank form after)
    exact first.solid_append start

end ScriptLexer
