import ScriptLexer.Proofs.Places

/-! How far a scan looks ahead. Sources with a common front are cut alike up to its last character, which
may yet make the lexeme before it longer, and after digits up to the character before that, since a
point counts only with what follows it. -/
namespace ScriptLexer

/-- A number without a point. -/
def Segment.isInteger (segment : Segment) : Bool :=
  segment.form.tokenKind? segment.text == some .number && !segment.text.contains '.'

theorem head?_eq_of_take_eq {text other : Text} {n : Nat} (agree : text.take n = other.take n)
    (ahead : 1 ≤ n) : text.head? = other.head? := by
  have heads := congrArg List.head? agree
  rwa [List.head?_take, List.head?_take, if_neg (by omega), if_neg (by omega)] at heads

theorem startsFraction_take (text : Text) {n : Nat} (ahead : 2 ≤ n) :
    startsFraction (text.take n) = startsFraction text := by
  obtain ⟨m, rfl⟩ := Nat.exists_eq_add_of_le' ahead
  match text with
  | [] => rw [List.take_nil]
  | [c] => rfl
  | c :: d :: rest =>
    rw [List.take_succ_cons, List.take_succ_cons]
    by_cases point : c = '.'
    · rw [point]
      rfl
    · simp [startsFraction, point]

/-- Texts that agree on what a scan looks at continue the segment alike. -/
theorem sticksLess_of_take_eq {segment : Segment} {text other : Text} {n : Nat}
    (agree : text.take n = other.take n) (ahead : 1 ≤ n)
    (point : n = 1 → segment.isInteger → other.head? ≠ some '.') :
    SticksLess segment.form segment.text text other := by
  have head := head?_eq_of_take_eq agree ahead
  refine ⟨?_, fun _ line => by rwa [← head]⟩
  intro kind made stuck
  rw [sticks, Bool.or_eq_true, Bool.and_eq_true, Bool.and_eq_true] at stuck ⊢
  rcases stuck with takes | ⟨⟨number, whole⟩, fraction⟩
  · exact .inl (by rwa [← head])
  · refine .inr ⟨⟨number, whole⟩, ?_⟩
    rcases Nat.lt_or_ge 1 n with further | only
    · rwa [← startsFraction_take other further, ← agree, startsFraction_take text further]
    · have integer : segment.isInteger := by
        rw [Segment.isInteger, made, beq_iff_eq.1 number, whole]
        rfl
      have other' := point (by omega) integer
      rw [← head] at other'
      unfold startsFraction at fraction
      split at fraction
      · exact absurd rfl other'
      · cases fraction

theorem Segment.IsFirst.before_of_take_eq {segment : Segment} {after after' : Text} {n : Nat}
    (h : segment.IsFirst after) (agree : after.take n = after'.take n) (ahead : 1 ≤ n)
    (point : n = 1 → segment.isInteger → after.head? ≠ some '.') : segment.IsFirst after' := by
  cases after with
  | nil =>
    have none := head?_eq_of_take_eq agree ahead
    rwa [List.head?_eq_none_iff.1 none.symm]
  | cons c rest =>
    have closed : segment.form ≠ .unterminated := by
      intro form
      obtain ⟨-, -, -, none⟩ := h.of_unterminated form
      cases none
    exact h.before_of_sticksLess closed (sticksLess_of_take_eq agree.symm ahead point)

namespace Session

/-- The stretch is a number token without a point. -/
def Stretch.isInteger (x : Stretch) : Bool :=
  x.tokens.any fun token => token.kind == .number && !token.lexeme.contains '.'

/-- The first `n` characters of the source settle the stretch: at least one of them comes after it, and
at least two if it is an integer with a point after it. -/
def Stretch.isSettled (source : Text) (n : Nat) (x : Stretch) : Bool :=
  x.finish + 2 ≤ n || (x.finish + 1 == n && !(x.isInteger && source[x.finish]? == some '.'))

theorem Stretch.isInteger_ofItem (file : Text) (item : Item) :
    (ofItem file item).isInteger = item.segment.isInteger := by
  cases made : item.segment.form.tokenKind? item.segment.text with
  | none => simp [isInteger, ofItem, Segment.isInteger, Item.token?, made]
  | some kind => simp [isInteger, ofItem, Segment.isInteger, Item.token?, made]

/-- A settled stretch has a character after it, and an integer two where the first is a point. -/
theorem Stretch.isSettled_iff {source : Text} {n : Nat} {x : Stretch} : x.isSettled source n ↔
    x.finish + 1 ≤ n ∧ (x.finish + 1 = n → x.isInteger → source[x.finish]? ≠ some '.') := by
  rw [isSettled, Bool.or_eq_true, decide_eq_true_iff, Bool.and_eq_true, beq_iff_eq, Bool.not_eq_true',
    Bool.and_eq_false_imp]
  simp only [beq_eq_false_iff_ne]
  constructor
  · rintro (further | ⟨last, point⟩)
    · exact ⟨by omega, fun last => absurd last (by omega)⟩
    · exact ⟨Nat.le_of_eq last, fun _ => point⟩
  · rintro ⟨ahead, point⟩
    rcases Nat.lt_or_eq_of_le ahead with further | last
    · exact .inl further
    · exact .inr ⟨last, point last⟩

theorem finish_ofItem (file front : Text) (segment : Segment) :
    (Stretch.ofItem file ⟨segment, Position.start.after front⟩).finish
      = front.length + segment.text.length := by
  change ((Position.start.after front).after segment.text).offset = _
  rw [Position.offset_after, Position.offset_start_after]

theorem finish_gt_of_mem_placed {start : Position} {text : Text} {item : Item}
    (h : item ∈ placed start (segments text)) : start.offset < item.finish.offset := by
  obtain ⟨earlier, later, row, place⟩ := exists_split_of_mem_placed h
  have member : item.segment ∈ segments text := by simp [row]
  have some := text_ne_nil_of_mem member
  have length := List.length_pos_iff.2 some
  rw [Item.finish, place, Position.offset_after, Position.offset_after]
  omega

theorem getElem?_length_append_append (before text after : Text) :
    (before ++ (text ++ after))[before.length + text.length]? = after.head? := by
  rw [← List.append_assoc, ← List.length_append, List.getElem?_append_right (Nat.le_refl _),
    Nat.sub_self, List.head?_eq_getElem?]

/-- What the common front settles of one source is cut out of the other one too. -/
theorem filter_settled_prefix (file before : Text) {a b : Text} {n : Nat}
    (agree : a.take n = b.take n) :
    ((placed (Position.start.after before) (segments a)).filter fun item =>
        (Stretch.ofItem file item).isSettled (before ++ a) (before.length + n))
      <+: placed (Position.start.after before) (segments b) := by
  induction a using cut_induction generalizing before b n with
  | nil =>
    rw [segments_nil]
    exact List.nil_prefix
  | cons c rest ih =>
    have whole := Cut.first_append c rest
    have finish : (Stretch.ofItem file (firstItem before c rest)).finish
        = before.length + (Cut.first c rest).taken.length := finish_ofItem file before _
    rw [placed_segments_cons]
    rw [List.filter_cons]
    split
    · rename_i settled
      obtain ⟨ahead, point⟩ := Stretch.isSettled_iff.1 settled
      rw [finish, Stretch.isInteger_ofItem, ← whole, getElem?_length_append_append] at point
      rw [finish] at ahead
      -- The front reaches `m` characters past the lexeme, so the other source holds the lexeme too.
      obtain ⟨m, rfl⟩ : ∃ m, n = (Cut.first c rest).taken.length + m := Nat.exists_eq_add_of_le (by omega)
      rw [← whole, List.take_length_add_append] at agree
      obtain ⟨b', rfl⟩ : (Cut.first c rest).taken <+: b :=
        (List.prefix_append ..).trans (agree ▸ List.take_prefix ..)
      rw [List.take_length_add_append, List.append_cancel_left_eq] at agree
      have first : Segment.IsFirst ⟨(Cut.first c rest).form, (Cut.first c rest).taken⟩ b' := by
        refine (Segment.isFirst_cut c rest).before_of_take_eq agree (by omega) ?_
        intro last integer
        exact point (by omega) integer
      have later := ih (before ++ (Cut.first c rest).taken) agree
      rw [List.append_assoc, whole, List.length_append, Nat.add_assoc] at later
      rw [first.segments_append, placed, ← Position.after_append]
      exact (List.cons_prefix_cons).2 ⟨rfl, later⟩
    · rename_i unsettled
      rw [List.filter_eq_nil_iff.2]
      · exact List.nil_prefix
      · intro item member settled
        have further := finish_gt_of_mem_placed member
        rw [Position.offset_start_after, List.length_append] at further
        have ahead := (Stretch.isSettled_iff.1 settled).1
        change item.finish.offset + 1 ≤ _ at ahead
        apply unsettled
        rw [Stretch.isSettled_iff, finish]
        exact ⟨by omega, fun last => by omega⟩

theorem finish_le_of_mem_placed {start : Position} {row : List Segment} {item : Item}
    (h : item ∈ placed start row) :
    item.finish.offset ≤ start.offset + (row.flatMap Segment.text).length := by
  obtain ⟨earlier, later, rfl, place⟩ := exists_split_of_mem_placed h
  rw [Item.finish, place, Position.offset_after, Position.offset_after, List.flatMap_append,
    List.flatMap_cons, List.length_append, List.length_append]
  omega

/-- A stretch before the last one is settled, or it is an integer and the last one a point. -/
theorem point_of_not_isSettled {file front : Text} {x y : Segment} (some : y.text ≠ [])
    (unsettled : ¬ (Stretch.ofItem file ⟨x, Position.start.after front⟩).isSettled
      (front ++ (x.text ++ y.text)) (front ++ (x.text ++ y.text)).length) :
    x.isInteger ∧ y.text = ['.'] := by
  have length := List.length_pos_iff.2 some
  rw [Stretch.isSettled_iff, finish_ofItem, Stretch.isInteger_ofItem, getElem?_length_append_append,
    List.length_append, List.length_append, not_and, Classical.not_imp, Classical.not_imp,
    Classical.not_not] at unsettled
  obtain ⟨last, integer, point⟩ := unsettled (by omega)
  obtain ⟨more, text⟩ := List.head?_eq_some_iff.1 point
  have alone : more = [] := by
    apply List.eq_nil_of_length_eq_zero
    rw [text, List.length_cons] at last
    omega
  exact ⟨integer, by rw [text, alone]⟩

/-- A source settles all that it is cut into but the last lexeme, or an integer and a last point. -/
theorem exists_settled_items (file a : Text) : ∃ kept last, items a = kept ++ last ∧
    (∀ item ∈ kept, (Stretch.ofItem file item).isSettled a a.length) ∧
    (last.length ≤ 1 ∨ ∃ integer point : Item, last = [integer, point] ∧
      integer.segment.isInteger ∧ point.segment.text = ['.']) := by
  have nothing : ∀ item ∈ ([] : List Item), (Stretch.ofItem file item).isSettled a a.length :=
    fun _ member => nomatch member
  rcases List.eq_nil_or_concat' (segments a) with none | ⟨row, y, whole⟩
  · exact ⟨[], [], by rw [items, none]; rfl, nothing, .inl (Nat.zero_le 1)⟩
  rcases List.eq_nil_or_concat' row with rfl | ⟨earlier, x, rfl⟩
  · exact ⟨[], [⟨y, .start⟩], by rw [items, whole]; rfl, nothing, .inl (Nat.le_refl 1)⟩
  rw [List.append_assoc, List.singleton_append] at whole
  have text := flatMap_text_segments a
  rw [whole, List.flatMap_append, List.flatMap_cons, List.flatMap_singleton] at text
  have some {segment : Segment} (member : segment ∈ segments a) : segment.text ≠ [] :=
    text_ne_nil_of_mem member
  have x_some := List.length_pos_iff.2 (some (show x ∈ segments a by simp [whole]))
  have y_some := some (show y ∈ segments a by simp [whole])
  generalize before : earlier.flatMap Segment.text = front at text
  have row : items a = placed .start earlier
      ++ [⟨x, Position.start.after front⟩, ⟨y, (Position.start.after front).after x.text⟩] := by
    rw [items, whole, placed_append, before]
    rfl
  have settled : ∀ item ∈ placed .start earlier, (Stretch.ofItem file item).isSettled a a.length := by
    intro item member
    have finish := finish_le_of_mem_placed member
    have length := List.length_pos_iff.2 y_some
    rw [before] at finish
    change item.finish.offset ≤ 0 + front.length at finish
    rw [Stretch.isSettled_iff, ← text, List.length_append, List.length_append]
    change item.finish.offset + 1 ≤ _ ∧ (item.finish.offset + 1 = _ → _)
    exact ⟨by omega, fun last => by omega⟩
  by_cases last : (Stretch.ofItem file ⟨x, Position.start.after front⟩).isSettled a a.length
  · refine ⟨_, _, row.trans (List.append_cons ..), ?_, .inl (Nat.le_refl 1)⟩
    intro item member
    rcases List.mem_append.1 member with member | member
    · exact settled item member
    · rw [List.mem_singleton.1 member]
      exact last
  · rw [← text] at last
    exact ⟨_, _, row, settled, .inr ⟨_, _, rfl, point_of_not_isSettled y_some last⟩⟩

theorem stretches_setSource (s : Session) (source : Text) :
    (s.setSource source).rewound.stretches = (items source).map (Stretch.ofItem s.file) :=
  rewound_stretches _

theorem stretches_settled_prefix (s : Session) {a b : Text} {n : Nat} (agree : a.take n = b.take n) :
    (s.setSource a).rewound.stretches.filter (Stretch.isSettled a n)
      <+: (s.setSource b).rewound.stretches := by
  have settled := filter_settled_prefix s.file [] agree
  rw [List.nil_append, List.length_nil, Nat.zero_add] at settled
  rw [stretches_setSource, stretches_setSource, List.filter_map]
  exact settled.map _

theorem stretches_append_prefix (s : Session) (a more : Text) :
    ∃ kept last, (s.setSource a).rewound.stretches = kept ++ last ∧
      kept <+: (s.setSource (a ++ more)).rewound.stretches ∧
      (last.length ≤ 1 ∨ ∃ integer point : Stretch, last = [integer, point] ∧
        integer.isInteger ∧ point.text = ['.']) := by
  obtain ⟨kept, last, row, settled, few⟩ := exists_settled_items s.file a
  have stretches : (s.setSource a).rewound.stretches
      = kept.map (Stretch.ofItem s.file) ++ last.map (Stretch.ofItem s.file) := by
    rw [stretches_setSource, row, List.map_append]
  refine ⟨_, _, stretches, ?_, ?_⟩
  · have all : (kept.map (Stretch.ofItem s.file)).filter (Stretch.isSettled a a.length)
        = kept.map (Stretch.ofItem s.file) :=
      List.filter_eq_self.2 (List.forall_mem_map.2 settled)
    have front := (List.prefix_append (kept.map (Stretch.ofItem s.file))
      (last.map (Stretch.ofItem s.file))).filter (Stretch.isSettled a a.length)
    rw [all, ← stretches] at front
    exact front.trans (s.stretches_settled_prefix (by simp))
  · rcases few with few | ⟨integer, point, rfl, whole, text⟩
    · exact .inl (by rwa [List.length_map])
    · exact .inr ⟨_, _, rfl, (Stretch.isInteger_ofItem s.file integer).trans whole, text⟩

/-- Sources that agree on their first `n` characters are cut alike up to there: what the front settles
of one of them is where the other one starts, token for token and error for error. So more text after
the end of a source changes at most its last lexeme, or an integer and a last point. -/
theorem scanAll_stable (s : Session) (a b : Text) (n : Nat) (agree : a.take n = b.take n) :
    ∃ first second, (s.setSource a).scanAll = (first, .ok ()) ∧
      (s.setSource b).scanAll = (second, .ok ()) ∧
      first.MadeOf (s.setSource a).rewound.stretches ∧
      second.MadeOf (s.setSource b).rewound.stretches ∧
      (s.setSource a).rewound.stretches.filter (Stretch.isSettled a n)
        <+: (s.setSource b).rewound.stretches ∧
      ∀ more, ∃ kept last, (s.setSource a).rewound.stretches = kept ++ last ∧
        kept <+: (s.setSource (a ++ more)).rewound.stretches ∧
        (last.length ≤ 1 ∨ ∃ integer point : Stretch, last = [integer, point] ∧
          integer.isInteger ∧ point.text = ['.']) := by
  refine ⟨_, _, scanAll_eq _, scanAll_eq _, scanned_madeOf _, scanned_madeOf _, ?_, ?_⟩
  · exact s.stretches_settled_prefix agree
  · exact s.stretches_append_prefix a

/-- The front settles the name, the blank and the operator; the integer before the point may go on. -/
theorem scanAll_stable_fraction :
    let s : Session := { source := [], file := [] }
    let a := "x <1.".toList
    let b := "x <1.5".toList
    a.take 5 = b.take 5 ∧
    ∃ first second, (s.setSource a).scanAll = (first, .ok ()) ∧
      (s.setSource b).scanAll = (second, .ok ()) ∧
      first.MadeOf (s.setSource a).rewound.stretches ∧
      second.MadeOf (s.setSource b).rewound.stretches ∧
      (s.setSource a).rewound.stretches.filter (Stretch.isSettled a 5)
        <+: (s.setSource b).rewound.stretches ∧
      ∀ more, ∃ kept last, (s.setSource a).rewound.stretches = kept ++ last ∧
        kept <+: (s.setSource (a ++ more)).rewound.stretches ∧
        (last.length ≤ 1 ∨ ∃ integer point : Stretch, last = [integer, point] ∧
          integer.isInteger ∧ point.text = ['.']) := by
  intro s a b
  have agree : a.take 5 = b.take 5 := rfl
  exact ⟨agree, scanAll_stable s a b 5 agree⟩

/-- What comes after the point decides where the integer ends. -/
example : [".".toList, ".x".toList, ".5".toList].map (fun more =>
      ({ source := '1' :: more, file := [] } : Session).rewound.stretches.map Stretch.text)
    = [["1".toList, ".".toList], ["1".toList, ".".toList, "x".toList], ["1.5".toList]] := by
  decide +kernel

end Session

end ScriptLexer
