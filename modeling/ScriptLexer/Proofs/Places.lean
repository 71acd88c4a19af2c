import ScriptLexer.Proofs.Boundary
import ScriptLexer.Proofs.Session.Turns

/-! Where tokens and errors stand. Lines and columns are counted along the way, one character at a
time; they agree with what is counted in the source afterwards, whatever strings, comments and bad
characters lie before. -/
namespace ScriptLexer

/-- The line that reaches up to an offset starts at `first`. -/
structure LineStart (source : Text) (first offset : Nat) : Prop where
  start : first = 0 ∨ source[first - 1]? = some '\n'
  unbroken : '\n' ∉ slice source first offset

/-- The place of an offset: its line follows as many line feeds as stand before it, and its column
leads back to the first character of the line. -/
structure Located (source : Text) (place : Position) : Prop where
  inside : place.offset ≤ source.length
  line : place.line = 1 + newlines (source.take place.offset)
  column_pos : 1 ≤ place.column
  lineStart : ∃ first, first + place.column = place.offset + 1 ∧ LineStart source first place.offset

theorem Position.next_newline (p : Position) : p.next '\n' = ⟨p.offset + 1, p.line + 1, 1⟩ := rfl

theorem Position.next_of_ne {c : Char} (other : c ≠ '\n') (p : Position) :
    p.next c = ⟨p.offset + 1, p.line, p.column + 1⟩ :=
  if_neg fun newline => other (beq_iff_eq.1 newline)

theorem Position.offset_start_after (text : Text) : (start.after text).offset = text.length :=
  (offset_after start text).trans (Nat.zero_add _)

theorem Position.column_after {p : Position} {text : Text} (h : '\n' ∉ text) :
    (p.after text).column = p.column + text.length := by
  induction text generalizing p with
  | nil => rfl
  | cons c rest ih =>
    rw [List.mem_cons, not_or] at h
    have same : isNewline c = false := beq_eq_false_iff_ne.2 (Ne.symm h.1)
    rw [after_cons, ih h.2, List.length_cons]
    simp only [next, same, Bool.false_eq_true, if_false]
    omega

theorem Position.column_after_newline (p : Position) (text : Text) :
    (p.after (text ++ ['\n'])).column = 1 := by
  rw [after_append]
  rfl

theorem exists_last_line (text : Text) : ∃ lines last, text = lines ++ last ∧
    (lines = [] ∨ ∃ more, lines = more ++ ['\n']) ∧ '\n' ∉ last := by
  induction text using List.reverseRecOn with
  | nil => exact ⟨[], [], rfl, .inl rfl, List.not_mem_nil⟩
  | append_singleton text c ih =>
    obtain ⟨lines, last, rfl, whole, free⟩ := ih
    by_cases line : c = '\n'
    · rw [line]
      exact ⟨lines ++ last ++ ['\n'], [], (List.append_nil _).symm, .inr ⟨_, rfl⟩, List.not_mem_nil⟩
    · exact ⟨lines, last ++ [c], List.append_assoc .., whole, by simp [free, Ne.symm line]⟩

theorem Position.column_after_lines {lines : Text} (h : lines = [] ∨ ∃ more, lines = more ++ ['\n']) :
    (start.after lines).column = 1 := by
  rcases h with rfl | ⟨more, rfl⟩
  · rfl
  · exact column_after_newline ..

theorem located_after (before rest : Text) : Located (before ++ rest) (Position.start.after before) := by
  have offset := Position.offset_start_after before
  obtain ⟨lines, last, split, whole, free⟩ := exists_last_line before
  have column : (Position.start.after before).column = 1 + last.length := by
    rw [split, Position.after_append, Position.column_after free, Position.column_after_lines whole]
  have width : before.length = lines.length + last.length := by rw [split, List.length_append]
  constructor
  · rw [offset, List.length_append]
    omega
  · rw [offset, List.take_left, Position.line_after]
    rfl
  · omega
  · refine ⟨lines.length, by omega, ?_, ?_⟩
    · rcases whole with rfl | ⟨more, rfl⟩
      · exact .inl rfl
      · simp [split]
    · rw [offset, slice, width, Nat.add_sub_cancel_left, split, List.append_assoc, List.drop_left,
        List.take_left]
      exact free

theorem LineStart.split {source : Text} {first offset : Nat} (h : LineStart source first offset)
    (le : first ≤ offset) : ∃ lines, source.take offset = lines ++ slice source first offset ∧
      (lines = [] ∨ ∃ more, lines = more ++ ['\n']) := by
  refine ⟨source.take first, ?_, ?_⟩
  · rw [slice, ← List.take_add, Nat.add_sub_cancel' le]
  · cases first with
    | zero => exact .inl List.take_zero
    | succ previous =>
      have feed : source[previous]? = some '\n' := h.start.resolve_left (Nat.succ_ne_zero _)
      exact .inr ⟨source.take previous, by rw [List.take_add_one, feed]; rfl⟩

theorem Located.eq_after {source : Text} {place : Position} (h : Located source place) :
    place = Position.start.after (source.take place.offset) := by
  obtain ⟨first, reach, lineStart⟩ := h.lineStart
  have le : first ≤ place.offset := by have := h.column_pos; omega
  obtain ⟨lines, split, whole⟩ := lineStart.split le
  have width : (slice source first place.offset).length = place.offset - first := by
    rw [slice, List.length_take, List.length_drop]
    have := h.inside
    omega
  have offset : (Position.start.after (source.take place.offset)).offset = place.offset := by
    rw [Position.offset_start_after, List.length_take, Nat.min_eq_left h.inside]
  have line : (Position.start.after (source.take place.offset)).line = place.line := by
    rw [Position.line_after, h.line]
    rfl
  have column : (Position.start.after (source.take place.offset)).column = place.column := by
    rw [split, Position.after_append, Position.column_after lineStart.unbroken,
      Position.column_after_lines whole, width]
    omega
  generalize Position.start.after (source.take place.offset) = reached at offset line column ⊢
  calc
    place = ⟨place.offset, place.line, place.column⟩ := rfl
    _ = ⟨reached.offset, reached.line, reached.column⟩ := by rw [offset, line, column]
    _ = reached := rfl

theorem Position.eq_nil_of_line_column {p : Position} {text : Text} (line : (p.after text).line = p.line)
    (column : (p.after text).column = p.column) : text = [] := by
  rw [line_after] at line
  have free : '\n' ∉ text := newlines_eq_zero_iff.1 (by omega)
  rw [column_after free] at column
  exact List.eq_nil_of_length_eq_zero (by omega)

/-- Line and column together tell the offset. -/
theorem Located.eq_of_line_column {source : Text} {place other : Position} (h : Located source place)
    (h' : Located source other) (line : other.line = place.line) (column : other.column = place.column) :
    other = place := by
  wlog order : place.offset ≤ other.offset generalizing place other
  · exact (this h' h line.symm column.symm (Nat.le_of_not_le order)).symm
  have between : source.take other.offset = source.take place.offset ++ slice source place.offset other.offset := by
    rw [slice, ← List.take_add, Nat.add_sub_cancel' order]
  have reach := h'.eq_after
  rw [between, Position.after_append, ← h.eq_after] at reach
  rw [reach] at line column
  have none := Position.eq_nil_of_line_column line column
  rw [reach, none, Position.after_nil]

theorem exists_split_of_mem_placed {start : Position} {row : List Segment} {item : Item}
    (h : item ∈ placed start row) : ∃ earlier later, row = earlier ++ item.segment :: later ∧
      item.start = start.after (earlier.flatMap Segment.text) := by
  induction row generalizing start with
  | nil => cases h
  | cons segment rest ih =>
    rcases List.mem_cons.1 h with rfl | member
    · exact ⟨[], rest, rfl, rfl⟩
    · obtain ⟨earlier, later, rfl, place⟩ := ih member
      refine ⟨segment :: earlier, later, rfl, ?_⟩
      rw [List.flatMap_cons, Position.after_append]
      exact place

/-- An item stands after the text before it, and before a text that leaves it as it is. -/
theorem exists_split_of_mem_items {source : Text} {item : Item} (h : item ∈ items source) :
    ∃ before after, source = before ++ (item.segment.text ++ after) ∧
      item.start = Position.start.after before ∧ item.segment.IsFirst after := by
  obtain ⟨earlier, later, row, place⟩ := exists_split_of_mem_placed h
  have aligned := aligned_segments source
  rw [row] at aligned
  refine ⟨earlier.flatMap Segment.text, later.flatMap Segment.text, ?_, place, aligned.of_append.1⟩
  rw [← flatMap_text_segments source, row, List.flatMap_append, List.flatMap_cons]

/-- The item ends before the other one starts, and is no unterminated string. -/
structure Item.Precedes (item later : Item) : Prop where
  closed : item.segment.form ≠ .unterminated
  forward : item.start.offset < item.finish.offset
  between : ∃ between, later.start = item.finish.after between

theorem pairwise_placed {start : Position} {row : List Segment} (h : Aligned row) :
    (placed start row).Pairwise Item.Precedes := by
  induction row generalizing start with
  | nil => exact .nil
  | cons segment rest ih =>
    obtain ⟨first, aligned⟩ := h
    refine List.pairwise_cons.2 ⟨?_, ih aligned⟩
    intro later member
    obtain ⟨earlier, others, split, place⟩ := exists_split_of_mem_placed member
    refine ⟨?_, ?_, _, place⟩
    · -- Nothing follows an unterminated string, but the later item does.
      have row : Aligned ([segment] ++ rest) := ⟨first, aligned⟩
      have some : rest ≠ [] := by simp [split]
      exact row.closed some segment (List.mem_singleton_self segment)
    · obtain ⟨c, more, text, -⟩ := first
      rw [Item.finish, Position.offset_after, text, List.length_cons]
      omega

theorem pairwise_items (source : Text) : (items source).Pairwise Item.Precedes :=
  pairwise_placed (aligned_segments source)

theorem Item.line_of_token {item : Item} {token : Token} (h : item.token? = some token) :
    token.line = item.start.line := by
  obtain ⟨kind, -, rfl⟩ := Option.map_eq_some_iff.1 h
  rfl

theorem line_of_mem_items {source : Text} {item : Item} (h : item ∈ items source) :
    item.start.line = 1 + newlines (source.take item.start.offset) := by
  obtain ⟨before, after, split, place, -⟩ := exists_split_of_mem_items h
  have located := located_after before (item.segment.text ++ after)
  rw [← split, ← place] at located
  exact located.line

theorem pairwise_lines (source : Text) : (scan source).Pairwise fun token later =>
    token.line ≤ later.line := by
  rw [scan, List.pairwise_append]
  refine ⟨(pairwise_items source).filterMap _ ?_, List.pairwise_singleton .., ?_⟩
  · rintro item later ⟨-, -, between, place⟩ token found token' found'
    rw [Item.line_of_token found, Item.line_of_token found', place, Item.finish, Position.line_after,
      Position.line_after]
    omega
  · intro token member last end'
    obtain ⟨item, inside, found⟩ := List.mem_filterMap.1 member
    obtain ⟨before, after, split, place, -⟩ := exists_split_of_mem_items inside
    rw [List.mem_singleton.1 end', Item.line_of_token found, place, split]
    simp only [endToken, Position.after_append, Position.line_after]
    omega

namespace Session

/-- Every token is on the line that its first character is on, and the token for the end on the last
line. -/
theorem scanAll_token_lines (s : Session) :
    ∃ final, s.scanAll = (final, .ok ()) ∧
      final.tokens.toList = (s.rewound.additions tokens).map Prod.snd
        ++ [⟨.endOfInput, [], none, (1 + newlines s.source : Nat)⟩] ∧
      (∀ start token, (start, token) ∈ s.rewound.additions tokens → token.kind ≠ .endOfInput ∧
        token.lexeme <+: s.source.drop start ∧
        token.line = (1 + newlines (s.source.take start) : Nat)) ∧
      final.tokens.toList.Pairwise fun token later => token.line ≤ later.line := by
  refine ⟨s.scanned, s.scanAll_eq, ?_, ?_, ?_⟩
  · rw [scanned_tokens, scan, Position.line_after, map_snd_additions_tokens]
    rfl
  · intro start token member
    rw [additions_tokens] at member
    obtain ⟨item, inside, found⟩ := List.mem_filterMap.1 member
    obtain ⟨token', made, same⟩ := Option.map_eq_some_iff.1 found
    cases same
    obtain ⟨before, after, split, place, -⟩ := exists_split_of_mem_items inside
    obtain ⟨lexeme, rule⟩ := rule_of_token inside made
    refine ⟨rule.kind_ne_endOfInput, ?_, ?_⟩
    · rw [lexeme, place, Position.offset_start_after, split, List.drop_left]
      exact List.prefix_append ..
    · rw [Item.line_of_token made, line_of_mem_items inside]
  · rw [scanned_tokens]
    exact pairwise_lines s.source

end Session

theorem Item.fault?_eq_some {item : Item} {fault : Fault} {place : Position}
    (h : item.fault? = some (fault, place)) :
    (∃ c, item.segment.form = .unexpected c ∧ fault = .unexpected c ∧ place = item.start) ∨
    (item.segment.form = .unterminated ∧ fault = .unterminated ∧ place = item.finish) := by
  unfold fault? at h
  cases form : item.segment.form with
  | unexpected c =>
    rw [form] at h
    cases h
    exact .inl ⟨c, rfl, rfl, rfl⟩
  | unterminated =>
    rw [form] at h
    cases h
    exact .inr ⟨rfl, rfl, rfl⟩
  | fixed | word | number | string | blank | comment =>
    rw [form] at h
    cases h

/-- The same diagnostic, about another place. -/
def Diagnostic.relocated (f : Location → Location) (d : Diagnostic) : Diagnostic :=
  { d with location := f d.location }

/-- An error about one character of the source that starts no lexeme. -/
def Diagnostic.IsUnexpected (d : Diagnostic) (source : Text) (offset : Nat) : Prop :=
  d.code = some "L001".toList ∧ ∃ c, source[offset]? = some c ∧
    d.message = "Unexpected character: ".toList ++ [c] ∧
    ∀ lexeme entry, Rule lexeme entry → lexeme.head? ≠ some c

/-- An error about a string, at the end of the source. -/
def Diagnostic.IsUnterminated (d : Diagnostic) (source : Text) (offset : Nat) : Prop :=
  d.code = some "L002".toList ∧ offset = source.length

theorem located_of_fault {source : Text} {item : Item} {fault : Fault} {place : Position}
    (member : item ∈ items source) (h : item.fault? = some (fault, place)) : Located source place := by
  obtain ⟨before, after, split, start, -⟩ := exists_split_of_mem_items member
  rcases Item.fault?_eq_some h with ⟨c, -, -, rfl⟩ | ⟨-, -, rfl⟩
  · rw [split, start]
    exact located_after ..
  · rw [split, Item.finish, start, ← Position.after_append, ← List.append_assoc]
    exact located_after ..

theorem isUnexpected_or_isUnterminated {source : Text} {item : Item} {fault : Fault} {place : Position}
    (member : item ∈ items source) (h : item.fault? = some (fault, place)) (location : Location) :
    (fault.diagnostic location).IsUnexpected source place.offset ∨
      (fault.diagnostic location).IsUnterminated source place.offset := by
  obtain ⟨before, after, split, start, first⟩ := exists_split_of_mem_items member
  rcases Item.fault?_eq_some h with ⟨c, form, rfl, rfl⟩ | ⟨form, rfl, rfl⟩
  · obtain ⟨text, -, barred⟩ := first.of_unexpected form
    refine .inl ⟨rfl, c, ?_, rfl, barred⟩
    rw [start, Position.offset_start_after, split, text]
    simp
  · obtain ⟨rest, -, -, none⟩ := first.of_unterminated form
    refine .inr ⟨rfl, ?_⟩
    rw [Item.finish, start, ← Position.after_append, Position.offset_start_after, split, none,
      List.append_nil]

theorem Item.start_le_of_fault {item : Item} {fault : Fault} {place : Position}
    (h : item.fault? = some (fault, place)) : item.start.offset ≤ place.offset := by
  rcases Item.fault?_eq_some h with ⟨c, -, -, rfl⟩ | ⟨-, -, rfl⟩
  · exact Nat.le_refl _
  · rw [Item.finish, Position.offset_after]
    exact Nat.le_add_right ..

theorem pairwise_diagnostics (file source : Text) : (diagnostics file source).Pairwise fun d later =>
    d.code = some "L001".toList ∧ d.location.offset < later.location.offset := by
  rw [diagnostics_eq]
  refine (pairwise_items source).filterMap _ ?_
  rintro item later ⟨closed, forward, between, start⟩ d said d' said'
  obtain ⟨⟨fault, place⟩, found, rfl⟩ := Option.map_eq_some_iff.1 said
  obtain ⟨⟨fault', place'⟩, found', rfl⟩ := Option.map_eq_some_iff.1 said'
  have reached := later.start_le_of_fault found'
  rw [start, Position.offset_after] at reached
  rcases Item.fault?_eq_some found with ⟨c, -, rfl, rfl⟩ | ⟨form, -, -⟩
  · refine ⟨rfl, Int.ofNat_lt.2 ?_⟩
    omega
  · exact absurd form closed

theorem Item.form_of_code {item : Item} {file : Text} {d : Diagnostic}
    (said : item.diagnostic? file = some d) (code : d.code = some "L002".toList) :
    item.segment.form = .unterminated := by
  obtain ⟨⟨fault, place⟩, found, rfl⟩ := Option.map_eq_some_iff.1 said
  rcases Item.fault?_eq_some found with ⟨c, -, rfl, -⟩ | ⟨form, -, -⟩
  · have other : Fault.unexpectedCode ≠ Fault.unterminatedCode := by decide
    exact absurd (Option.some.inj code) other
  · exact form

theorem exists_unterminated_iff (file source : Text) :
    (∃ d ∈ diagnostics file source, d.code = some "L002".toList) ↔
      ∃ segment ∈ segments source, segment.form = .unterminated := by
  rw [diagnostics_eq]
  constructor
  · rintro ⟨d, member, code⟩
    obtain ⟨item, inside, said⟩ := List.mem_filterMap.1 member
    exact ⟨item.segment, segment_mem inside, Item.form_of_code said code⟩
  · rintro ⟨segment, member, form⟩
    rw [← map_segment_placed .start (segments source)] at member
    obtain ⟨item, inside, rfl⟩ := List.mem_map.1 member
    refine ⟨Fault.unterminated.diagnostic (item.finish.location file), ?_, rfl⟩
    refine List.mem_filterMap.2 ⟨item, inside, ?_⟩
    rw [Item.diagnostic?, Item.fault?, form]
    rfl

namespace Session

/-- At that point of a scan, all that is left is a quote and text without another one. -/
def OpensLast (s : Session) : Prop := ∃ rest, s.unread = '\x22' :: rest ∧ '\x22' ∉ rest

theorem exists_opensLast_iff (s : Session) : (∃ p ∈ s.rewound :: s.rewound.laps, p.OpensLast) ↔
    ∃ segment ∈ segments s.source, segment.form = .unterminated := by
  have texts := s.rewound_at.map_unread_laps
  rw [(aligned_segments s.source).exists_unterminated_iff]
  constructor
  · rintro ⟨p, inside, rest, unread, free⟩
    have member := List.mem_map_of_mem (f := Session.unread) inside
    rw [texts] at member
    obtain ⟨later, tail, text⟩ := List.mem_map.1 member
    exact ⟨later, (List.mem_tails _ _).1 tail, rest, text.trans unread, free⟩
  · rintro ⟨later, suffix, rest, text, free⟩
    have member : later.flatMap Segment.text ∈ (s.rewound :: s.rewound.laps).map unread := by
      rw [texts]
      exact List.mem_map_of_mem ((List.mem_tails _ _).2 suffix)
    obtain ⟨p, inside, unread⟩ := List.mem_map.1 member
    exact ⟨p, inside, rest, unread.trans text, free⟩

/-- An error about a character stands where the character does, one about a string at the end of the
source; both are told by line and column. Errors come in the order of their places, and only the last
one may be about a string: it is when a turn of the scan starts at a quote that has no partner. -/
theorem scanAll_error_places (s : Session) :
    ∃ final, s.scanAll = (final, .ok ()) ∧
      (∀ d ∈ final.errors, ∃ place : Position, d.location = place.location s.file ∧
        Located s.source place ∧
        (∀ other, Located s.source other → other.line = place.line → other.column = place.column →
          other = place) ∧
        (d.IsUnexpected s.source place.offset ∨ d.IsUnterminated s.source place.offset)) ∧
      (final.errors.toList.Pairwise fun d later => d.code = some "L001".toList ∧
        d.location.offset < later.location.offset) ∧
      ((∃ d ∈ final.errors, d.code = some "L002".toList) ↔
        ∃ p ∈ s.rewound :: s.rewound.laps, p.OpensLast) := by
  refine ⟨s.scanned, s.scanAll_eq, ?_, ?_, ?_⟩
  · intro d member
    rw [scanned_errors, List.mem_toArray, diagnostics_eq] at member
    obtain ⟨item, inside, said⟩ := List.mem_filterMap.1 member
    obtain ⟨⟨fault, place⟩, found, rfl⟩ := Option.map_eq_some_iff.1 said
    have located := located_of_fault inside found
    refine ⟨place, rfl, located, ?_, isUnexpected_or_isUnterminated inside found _⟩
    intro other located' line column
    exact located.eq_of_line_column located' line column
  · rw [scanned_errors]
    exact pairwise_diagnostics s.file s.source
  · rw [scanned_errors, exists_opensLast_iff, ← exists_unterminated_iff s.file]
    simp only [List.mem_toArray]

/-- If a source has the errors of another one in other places, but on the same lines, its scan makes the
same reports. -/
theorem scanned_relocated {s : Session} {source : Text} {f : Location → Location}
    (lines : ∀ place, (f place).line = place.line)
    (errors : diagnostics s.file source = (diagnostics s.file s.source).map (Diagnostic.relocated f)) :
    (s.setSource source).scanned.collector = s.scanned.collector ∧
      (s.setSource source).scanned.errors = s.scanned.errors.map (Diagnostic.relocated f) := by
  have report : Diagnostic.report ∘ Diagnostic.relocated f = Diagnostic.report := by
    funext d
    exact congrArg (Report.mk · d.message) (lines d.location)
  constructor
  · rw [scanned_reports, scanned_reports]
    change s.collector.map (Collector.extend ((diagnostics s.file source).map Diagnostic.report)) = _
    rw [errors, List.map_map, report]
  · rw [scanned_errors, scanned_errors, List.map_toArray]
    exact congrArg List.toArray errors

end Session

end ScriptLexer
