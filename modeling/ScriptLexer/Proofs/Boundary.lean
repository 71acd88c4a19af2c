import ScriptLexer.Proofs.Adjacency
import ScriptLexer.Proofs.Segments

/-! Where one segment ends and the next begins. Whether a lexeme is cut off alone depends only on how
the text after it starts, so the text may be changed further on, or made to continue less. The segments
of a source are a row in which every one is cut off before the others, and other text behind such a row
is cut apart from it. -/
namespace ScriptLexer

/-- The text continues no lexeme and no comment that the other text does not continue. -/
structure ContinuesLess (text other : Text) : Prop where
  takes : ∀ growth : Growth, text.head?.any growth.takes → other.head?.any growth.takes
  fraction : startsFraction text → startsFraction other
  line : text.head?.any (!isNewline ·) → other.head?.any (!isNewline ·)

theorem startsFraction_cons (c : Char) (text : Text) :
    startsFraction (c :: text) = (c == '.' && text.head?.any (·.isDigit)) := by
  by_cases point : c = '.'
  · rw [point]
    cases text <;> rfl
  · simp [startsFraction, point]

theorem continuesLess_of_head?_eq {text other : Text} (head : text.head? = other.head?)
    (fraction : startsFraction text → startsFraction other) : ContinuesLess text other :=
  ⟨fun _ takes => head ▸ takes, fraction, fun longer => head ▸ longer⟩

/-- Behind at least one character, only a digit can make a text continue more. -/
theorem continuesLess_append {front : Text} (some : front ≠ []) {text other : Text}
    (digit : text.head?.any (·.isDigit) → other.head?.any (·.isDigit)) :
    ContinuesLess (front ++ text) (front ++ other) := by
  obtain ⟨c, rest, rfl⟩ := List.exists_cons_of_ne_nil some
  have head : (c :: rest ++ text).head? = (c :: rest ++ other).head? := rfl
  apply continuesLess_of_head?_eq head
  rw [List.cons_append, List.cons_append, startsFraction_cons, startsFraction_cons, Bool.and_eq_true,
    Bool.and_eq_true]
  cases rest with
  | nil => exact And.imp_right digit
  | cons d more => exact id

theorem ContinuesLess.append_left {text other : Text} (less : ContinuesLess text other) (front : Text) :
    ContinuesLess (front ++ text) (front ++ other) := by
  cases front with
  | nil => exact less
  | cons c rest => exact continuesLess_append (List.cons_ne_nil c rest) (less.takes .number)

/-- A text with nothing on its first line continues nothing. -/
theorem continuesLess_of_line_end {text : Text} (ends : text.head?.any (!isNewline ·) = false)
    (other : Text) : ContinuesLess text other := by
  suffices (∀ growth : Growth, text.head?.any growth.takes = false) ∧ startsFraction text = false by
    constructor
    · intro growth takes
      rw [this.1 growth] at takes
      cases takes
    · intro fraction
      rw [this.2] at fraction
      cases fraction
    · intro longer
      rw [ends] at longer
      cases longer
  cases text with
  | nil => exact ⟨fun _ => rfl, rfl⟩
  | cons c rest =>
    have line : c = '\n' := by simpa [isNewline] using ends
    rw [line]
    exact ⟨fun growth => takes_blank growth '\n' (by decide), startsFraction_cons '\n' rest⟩

theorem sticks_of_continuesLess {text other : Text} (less : ContinuesLess text other)
    {kind : TokenKind} {lexeme : Text} (h : sticks kind lexeme text) : sticks kind lexeme other := by
  rw [sticks, Bool.or_eq_true, Bool.and_eq_true] at h ⊢
  rcases h with takes | ⟨whole, fraction⟩
  · exact .inl (less.takes _ takes)
  · exact .inr ⟨whole, less.fraction fraction⟩

/-- The text continues this lexeme no further than the other text does. Only a comment goes on as long as
the line does. -/
structure SticksLess (form : LexemeForm) (lexeme text other : Text) : Prop where
  sticks : ∀ {kind}, form.tokenKind? lexeme = some kind → sticks kind lexeme text →
    sticks kind lexeme other
  line : form = .comment → text.head?.any (!isNewline ·) → other.head?.any (!isNewline ·)

theorem ContinuesLess.sticksLess {text other : Text} (less : ContinuesLess text other)
    (form : LexemeForm) (lexeme : Text) : SticksLess form lexeme text other :=
  ⟨fun _ => sticks_of_continuesLess less, fun _ => less.line⟩

/-- A character that starts a lexeme is a lexeme alone, unless it is a quote. -/
theorem Rule.single {c : Char} {more : Text} {entry : Entry} (rule : Rule (c :: more) entry)
    (other : c ≠ '\x22') : ∃ entry', Rule [c] entry' := by
  generalize whole : c :: more = lexeme at rule
  have letter {word : Text} (h : isWord word) (whole : c :: more = word) : isWord [c] := by
    obtain ⟨c', rest, rfl, letter, -⟩ := exists_cons_of_isWord h
    obtain ⟨rfl, -⟩ := List.cons.inj whole
    simp [isWord, letter]
  cases rule with
  | fixed member =>
    have table : ∀ entry ∈ fixedSpellings, entry.1.take 1 ∈ fixedSpellings.map Prod.fst := by decide
    obtain ⟨⟨text, kind⟩, listed, start⟩ := List.mem_map.1 (table _ member)
    rw [← whole] at start
    have alone : text = [c] := start
    rw [alone] at listed
    exact ⟨_, .fixed listed⟩
  | blank member =>
    obtain ⟨rfl, -⟩ := List.cons.inj whole
    exact ⟨_, .blank member⟩
  | comment =>
    obtain ⟨rfl, -⟩ := List.cons.inj whole
    have slash : (['/'], TokenKind.slash) ∈ fixedSpellings := by decide
    exact ⟨_, .fixed slash⟩
  | string =>
    obtain ⟨rfl, -⟩ := List.cons.inj whole
    exact absurd rfl other
  | number numeral =>
    obtain ⟨c', rest, rfl, digit⟩ := numeral.exists_cons
    obtain ⟨rfl, -⟩ := List.cons.inj whole
    exact ⟨_, .number (.whole ⟨List.cons_ne_nil _ _, by simpa using digit⟩)⟩
  | reserved member => exact ⟨_, .word (letter (isWord_reserved member) whole)⟩
  | identifier word => exact ⟨_, .word (letter word whole)⟩

namespace Cut

/-- A character that is unexpected before one text starts no lexeme at all. -/
theorem head?_ne_of_fault {c : Char} (other : c ≠ '\x22') {rest : Text} (fault : (first c rest).isFault)
    {lexeme : Text} {entry : Entry} (rule : Rule lexeme entry) : lexeme.head? ≠ some c := by
  intro start
  obtain ⟨more, rfl⟩ := List.head?_eq_some_iff.1 start
  obtain ⟨entry', single⟩ := rule.single other
  have extended := first_extends single (List.prefix_append [c] rest)
  rw [show (first c rest).isFault = false from extended.found] at fault
  cases fault

theorem first_of_fault {c : Char} (other : c ≠ '\x22') {rest : Text} (fault : (first c rest).isFault)
    (rest' : Text) : first c rest' = ⟨.unexpected c, [c], rest'⟩ := by
  have found : (first c rest').isFault := by
    by_contra sound
    have rule := first_rule c rest' (Bool.eq_false_iff.2 sound)
    exact head?_ne_of_fault other fault rule rfl
  rcases first_fault found with ⟨quote, -⟩ | ⟨-, -, cut⟩
  · exact absurd quote other
  · exact cut

theorem operator_form_eq (alone withEqual : TokenKind) {rest rest' : Text}
    (same : (operator alone withEqual rest).taken = (operator alone withEqual rest').taken) :
    (operator alone withEqual rest).form = (operator alone withEqual rest').form := by
  have taken (text : Text) : (operator alone withEqual text).form
      = .fixed (if (operator alone withEqual text).taken = [] then alone else withEqual) := by
    unfold operator
    split <;> rfl
  rw [taken, taken, same]

theorem slash_form_eq {rest rest' : Text} (same : (slash rest).taken = (slash rest').taken) :
    (slash rest).form = (slash rest').form := by
  have taken (text : Text) :
      (slash text).form = if (slash text).taken = [] then .fixed .slash else .comment := by
    unfold slash
    split <;> rfl
  rw [taken, taken, same]

theorem string_form_eq {rest rest' : Text} (same : (string rest).taken = (string rest').taken) :
    (string rest).form = (string rest').form := by
  have taken (text : Text) :
      (string text).form = if '\x22' ∈ (string text).taken then .string else .unterminated := by
    rcases string_cases text with ⟨body, left, -, -, cut⟩ | ⟨free, cut⟩
    · rw [cut, if_pos List.mem_concat_self]
    · rw [cut, if_neg free]
  rw [taken, taken, same]

theorem form_eq_of_taken_eq {c : Char} {rest rest' : Text}
    (same : (first c rest).taken = (first c rest').taken) :
    (first c rest).form = (first c rest').form := by
  replace same : (following c rest).taken = (following c rest').taken := (List.cons.inj same).2
  change (following c rest).form = (following c rest').form
  revert same
  unfold following
  split
  · exact fun _ => rfl
  split
  · exact operator_form_eq _ _
  split
  · exact slash_form_eq
  split
  · exact fun _ => rfl
  split
  · exact string_form_eq
  split
  · exact fun _ => rfl
  split
  · exact fun _ => rfl
  · exact fun _ => rfl

theorem comment_taken_iff {body : Text} (free : '\n' ∉ body) (after : Text) :
    (first '/' ('/' :: (body ++ after))).taken = '/' :: '/' :: body
      ↔ after.head?.any (!isNewline ·) = false := by
  have inside : ∀ c ∈ body, !isNewline c := by
    intro c member
    have other : c ≠ '\n' := ne_of_mem_of_not_mem member free
    simpa [isNewline] using other
  rw [first_slash_slash, ← takeWhile_eq_nil_iff]
  simp [cons, restOfLine, List.takeWhile_append_of_pos inside]

theorem first_unterminated {rest : Text} (free : '\x22' ∉ rest) :
    first '\x22' rest = ⟨.unterminated, '\x22' :: rest, []⟩ := by
  have opening : first '\x22' rest = (string rest).cons '\x22' := rfl
  rcases string_cases rest with ⟨body, left, -, closing, -⟩ | ⟨-, cut⟩
  · rw [closing] at free
    exact absurd (List.mem_append_right _ List.mem_cons_self) free
  · rw [opening, cut]
    rfl

/-- The form and what is left go with what is taken. -/
theorem first_eq_of_taken_eq {c : Char} {more after after' : Text}
    (h : (first c (more ++ after)).taken = c :: more)
    (h' : (first c (more ++ after')).taken = c :: more) :
    first c (more ++ after') = ⟨(first c (more ++ after)).form, c :: more, after'⟩ := by
  have form := form_eq_of_taken_eq (h.trans h'.symm)
  have left : (first c (more ++ after')).left = after' := by
    have whole := first_append c (more ++ after')
    rw [h', ← List.cons_append] at whole
    exact List.append_cancel_left whole
  calc
    first c (more ++ after')
      = ⟨(first c (more ++ after')).form, (first c (more ++ after')).taken,
          (first c (more ++ after')).left⟩ := rfl
    _ = ⟨(first c (more ++ after)).form, c :: more, after'⟩ := by rw [form, h', left]

theorem taken_before {c : Char} {more after after' : Text}
    (h : (first c (more ++ after)).taken = c :: more)
    (sound : (first c (more ++ after)).isFault = false)
    (less : SticksLess (first c (more ++ after)).form (c :: more) after' after) :
    (first c (more ++ after')).taken = c :: more := by
  have rule := first_rule c (more ++ after) sound
  rw [h] at rule
  cases entry : (first c (more ++ after)).entry with
  | some found =>
    rw [entry] at rule
    rw [Cut.entry, h] at entry
    obtain ⟨kind, kinded, rfl⟩ := Option.map_eq_some_iff.1 entry
    have split {text : Text} : c :: (more ++ text) = c :: more ++ text := rfl
    rw [first_taken_iff rule split] at h ⊢
    apply Bool.eq_false_iff.2
    intro stuck
    rw [less.sticks kinded stuck] at h
    cases h
  -- `sticks` says nothing of blanks and comments, which make no token.
  | none =>
    rw [entry] at rule
    generalize lexeme : c :: more = text at rule
    cases rule with
    | blank member =>
      obtain ⟨rfl, rfl⟩ := List.cons.inj lexeme
      rw [first_blank member]
    | comment free =>
      obtain ⟨rfl, rfl⟩ := List.cons.inj lexeme
      rw [List.cons_append, comment_taken_iff free] at h ⊢
      apply Bool.eq_false_iff.2
      intro longer
      rw [less.line rfl longer] at h
      cases h

end Cut

namespace Segment

/-- With that text after it, the segment is what is cut off first. -/
def IsFirst (segment : Segment) (after : Text) : Prop :=
  ∃ c more, segment.text = c :: more ∧
    Cut.first c (more ++ after) = ⟨segment.form, segment.text, after⟩

theorem isFirst_cut (c : Char) (rest : Text) :
    IsFirst ⟨(Cut.first c rest).form, (Cut.first c rest).taken⟩ (Cut.first c rest).left := by
  refine ⟨c, (Cut.following c rest).taken, rfl, ?_⟩
  change Cut.first c ((Cut.following c rest).taken ++ (Cut.following c rest).left) = _
  rw [Cut.following_append]

theorem IsFirst.segments_append {segment : Segment} {after : Text} (h : segment.IsFirst after) :
    segments (segment.text ++ after) = segment :: segments after := by
  obtain ⟨c, more, start, cut⟩ := h
  rw [start, List.cons_append, segments_cons, cut]

theorem isFirst_blank {c : Char} (h : c ∈ [' ', '\t', '\r', '\n']) (after : Text) :
    IsFirst ⟨.blank, [c]⟩ after := ⟨c, [], rfl, Cut.first_blank h after⟩

/-- A segment is still cut off first before a text that continues it less. -/
theorem IsFirst.before_of_sticksLess {segment : Segment} {after after' : Text}
    (h : segment.IsFirst after) (closed : segment.form ≠ .unterminated)
    (less : SticksLess segment.form segment.text after' after) : segment.IsFirst after' := by
  obtain ⟨c, more, start, cut⟩ := h
  refine ⟨c, more, start, ?_⟩
  have taken : (Cut.first c (more ++ after)).taken = c :: more := by rw [cut, start]
  have form : (Cut.first c (more ++ after)).form = segment.form := congrArg Cut.form cut
  rw [← form, start] at less
  cases fault : (Cut.first c (more ++ after)).isFault with
  | false =>
    have same := Cut.first_eq_of_taken_eq taken (Cut.taken_before taken fault less)
    rw [same, cut, start]
  | true =>
    rcases Cut.first_fault fault with ⟨-, -, unclosed⟩ | ⟨other, -, unexpected⟩
    · rw [unclosed] at cut
      exact absurd (congrArg Cut.form cut).symm closed
    · have same := Cut.first_of_fault other fault (more ++ after')
      rw [unexpected] at cut taken
      obtain ⟨-, rfl⟩ := List.cons.inj taken
      have form : segment.form = .unexpected c := (congrArg Cut.form cut).symm
      rw [same, form, start]
      rfl

theorem IsFirst.before {segment : Segment} {after after' : Text} (h : segment.IsFirst after)
    (closed : segment.form ≠ .unterminated) (less : ContinuesLess after' after) :
    segment.IsFirst after' :=
  h.before_of_sticksLess closed (less.sticksLess _ _)

theorem IsFirst.rule {segment : Segment} {after : Text} (h : segment.IsFirst after)
    (sound : segment.form.isFault = false) : Rule segment.text (segment.form.entry segment.text) := by
  obtain ⟨c, more, -, cut⟩ := h
  have rule := Cut.first_rule c (more ++ after) (by rw [cut]; exact sound)
  rwa [Cut.entry, cut] at rule

theorem IsFirst.of_unterminated {segment : Segment} {after : Text} (h : segment.IsFirst after)
    (form : segment.form = .unterminated) :
    ∃ rest, segment.text = '\x22' :: rest ∧ '\x22' ∉ rest ∧ after = [] := by
  obtain ⟨c, more, start, cut⟩ := h
  have fault : (Cut.first c (more ++ after)).isFault := by rw [cut, Cut.isFault, form]; rfl
  rcases Cut.first_fault fault with ⟨quote, free, cut'⟩ | ⟨-, -, cut'⟩
  · rw [cut] at cut'
    have left : after = [] := congrArg Cut.left cut'
    rw [left, List.append_nil] at free
    exact ⟨more, by rw [start, quote], free, left⟩
  · rw [cut'] at cut
    rw [form] at cut
    cases cut

theorem IsFirst.of_unexpected {segment : Segment} {after : Text} {c : Char} (h : segment.IsFirst after)
    (form : segment.form = .unexpected c) : segment.text = [c] ∧ isNewline c = false ∧
      ∀ lexeme entry, Rule lexeme entry → lexeme.head? ≠ some c := by
  obtain ⟨c', more, start, cut⟩ := h
  have fault : (Cut.first c' (more ++ after)).isFault := by rw [cut, Cut.isFault, form]; rfl
  rcases Cut.first_fault fault with ⟨-, -, cut'⟩ | ⟨other, line, cut'⟩
  · rw [cut', form] at cut
    cases cut
  · have barred (lexeme : Text) (entry : Entry) (rule : Rule lexeme entry) : lexeme.head? ≠ some c' :=
      Cut.head?_ne_of_fault other fault rule
    rw [cut', form] at cut
    obtain ⟨same, taken, -⟩ := Cut.mk.inj cut
    obtain ⟨rfl⟩ := LexemeForm.unexpected.inj same
    exact ⟨taken.symm, line, barred⟩

end Segment

/-- Every segment of the row is cut off first, before the texts of the later ones. -/
def Aligned : List Segment → Prop
  | [] => True
  | segment :: rest => segment.IsFirst (rest.flatMap Segment.text) ∧ Aligned rest

theorem aligned_segments (source : Text) : Aligned (segments source) := by
  induction source using cut_induction with
  | nil =>
    rw [segments_nil]
    exact trivial
  | cons c rest ih =>
    rw [segments_cons]
    refine ⟨?_, ih⟩
    rw [flatMap_text_segments]
    exact Segment.isFirst_cut c rest

theorem Aligned.of_append {row later : List Segment} (h : Aligned (row ++ later)) : Aligned later := by
  induction row with
  | nil => exact h
  | cons segment rest ih => exact ih h.2

/-- A row holds an unterminated string exactly when its text, from some segment on, is a quote and no
other. -/
theorem Aligned.exists_unterminated_iff {row : List Segment} (h : Aligned row) :
    (∃ segment ∈ row, segment.form = .unterminated) ↔
      ∃ later, later <:+ row ∧ ∃ rest, later.flatMap Segment.text = '\x22' :: rest ∧ '\x22' ∉ rest := by
  constructor
  · rintro ⟨segment, member, form⟩
    obtain ⟨earlier, later, rfl⟩ := List.append_of_mem member
    obtain ⟨rest, text, free, none⟩ := h.of_append.1.of_unterminated form
    refine ⟨segment :: later, List.suffix_append .., rest, ?_, free⟩
    rw [List.flatMap_cons, none, List.append_nil, text]
  · rintro ⟨later, ⟨earlier, rfl⟩, rest, text, free⟩
    cases later with
    | nil => cases text
    | cons segment later =>
      obtain ⟨⟨c, more, start, cut⟩, -⟩ := h.of_append
      rw [List.flatMap_cons, start, List.cons_append] at text
      obtain ⟨rfl, split⟩ := List.cons.inj text
      rw [split, Cut.first_unterminated free] at cut
      exact ⟨segment, by simp, (congrArg Cut.form cut).symm⟩

/-- No segment that another one follows is an unterminated string. -/
theorem Aligned.closed {row later : List Segment} (h : Aligned (row ++ later)) (some : later ≠ []) :
    ∀ segment ∈ row, segment.form ≠ .unterminated := by
  intro segment member form
  obtain ⟨earlier, others, rfl⟩ := List.append_of_mem member
  rw [List.append_assoc, List.cons_append] at h
  obtain ⟨first, aligned⟩ := h.of_append
  obtain ⟨-, -, -, none⟩ := first.of_unterminated form
  obtain ⟨next, more, rfl⟩ := List.exists_cons_of_ne_nil some
  obtain ⟨c, tail, text, -⟩ := aligned.of_append.1
  simp [text] at none

/-- Other text behind a row that it continues less is cut apart from the row. -/
theorem Aligned.segments_append {row later : List Segment} (h : Aligned (row ++ later))
    (closed : ∀ segment ∈ row, segment.form ≠ .unterminated) {text : Text}
    (less : ContinuesLess text (later.flatMap Segment.text)) :
    segments (row.flatMap Segment.text ++ text) = row ++ segments text := by
  induction row with
  | nil => rfl
  | cons segment rest ih =>
    obtain ⟨first, aligned⟩ : segment.IsFirst ((rest ++ later).flatMap Segment.text)
      ∧ Aligned (rest ++ later) := h
    rw [List.forall_mem_cons] at closed
    rw [List.flatMap_append] at first
    have before := first.before closed.1 (less.append_left (rest.flatMap Segment.text))
    rw [List.flatMap_cons, List.append_assoc, before.segments_append, ih aligned closed.2]
    rfl

/-- An open string takes along all text that does not close it. -/
theorem Aligned.segments_append_open {row : List Segment} {last : Segment} (h : Aligned (row ++ [last]))
    (form : last.form = .unterminated) {more : Text} (free : '\x22' ∉ more) :
    segments (row.flatMap Segment.text ++ (last.text ++ more))
      = row ++ [⟨.unterminated, last.text ++ more⟩] := by
  obtain ⟨rest, text, free', -⟩ := h.of_append.1.of_unterminated form
  have longer : '\x22' ∉ rest ++ more := by simp [free, free']
  have less : ContinuesLess (last.text ++ more) ([last].flatMap Segment.text) := by
    rw [text, List.flatMap_singleton, text]
    exact continuesLess_of_head?_eq rfl (fun fraction => absurd fraction (by simp [startsFraction_cons]))
  rw [h.segments_append (h.closed (List.cons_ne_nil last [])) less, text, List.cons_append, segments_cons,
    Cut.first_unterminated longer, segments_nil]

end ScriptLexer
