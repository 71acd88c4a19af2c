import ScriptLexer.Session
import ScriptLexer.Proofs.Segments
import ScriptLexer.Proofs.Session.Lexeme

/-! Whole scans of a session. One turn of the loop absorbs one segment of the source, and a scan absorbs
them all, so it finds the tokens and the faults of the source cut in one piece; what the session
held before makes no difference. -/
namespace ScriptLexer

theorem columnFrom_after (p : Position) (before rest : Text) :
    columnFrom p.column (before ++ rest) before.length = (p.after before).column := by
  induction before generalizing p with
  | nil => simp [columnFrom]
  | cons c before ih =>
    rw [List.cons_append, List.length_cons, columnFrom, Position.after_cons, ← ih]
    congr 1
    unfold Position.next
    split <;> rfl

namespace Collector

/-- The collector with more reports behind its own. -/
def extend (more : List Report) (collector : Collector) : Collector :=
  ⟨collector.reports ++ more.toArray⟩

@[simp] theorem extend_nil : extend [] = id := by
  funext collector
  simp [extend]

@[simp] theorem extend_comp_extend (more later : List Report) :
    extend later ∘ extend more = extend (more ++ later) := by
  funext collector
  simp [extend]

theorem add_eq_extend (report : Report) : (add · report) = extend [report] := by
  funext collector
  simp [extend, add]

end Collector

namespace Session

/-- The session has consumed the text `before` and not yet the text `rest`. -/
structure At (s : Session) (before rest : Text) : Prop where
  source : s.source = before ++ rest
  current : s.current = before.length
  line : s.line = (Position.start.after before).line

theorem At.unread {s : Session} {before rest : Text} (h : s.At before rest) : s.unread = rest := by
  rw [Session.unread, h.source, h.current, List.drop_left]

theorem At.location {s : Session} {before rest : Text} (h : s.At before rest) :
    s.location s.current = (Position.start.after before).location s.file := by
  have column : columnAt s.source s.current = (Position.start.after before).column := by
    rw [h.source, h.current]
    exact columnFrom_after .start before rest
  have offset : s.current = (Position.start.after before).offset := by
    rw [Position.offset_after, h.current]
    exact (Nat.zero_add _).symm
  rw [Position.location, ← offset, ← column, ← h.line]
  rfl

theorem At.consume {s : Session} {before text rest : Text} (h : s.At before (text ++ rest)) :
    (s.consume true text).At (before ++ text) rest where
  source := by rw [List.append_assoc]; exact h.source
  current := by simp [Session.consume, h.current]
  line := by
    rw [Position.after_append, Position.line_after, ← h.line]
    rfl

/-- The session with the lexeme of an item marked and consumed. -/
def past (s : Session) (item : Item) : Session :=
  { s with
    start := item.start.offset
    current := item.finish.offset
    line := item.finish.line
    startLine := item.start.line }

/-- What a turn of the loop makes of an item: it records its token or its fault. -/
def absorb (s : Session) (item : Item) : Session :=
  { s.past item with
    tokens := s.tokens ++ item.token?.toArray
    errors := s.errors ++ (item.diagnostic? s.file).toArray
    collector := s.collector.map (.extend ((item.diagnostic? s.file).map Diagnostic.report).toList) }

def firstItem (before : Text) (c : Char) (rest : Text) : Item :=
  ⟨⟨(Cut.first c rest).form, (Cut.first c rest).taken⟩, Position.start.after before⟩

theorem At.past {s : Session} {before : Text} {c : Char} {rest : Text} (h : s.At before (c :: rest)) :
    s.mark.consume true (Cut.first c rest).taken = s.past (firstItem before c rest) ∧
      (s.past (firstItem before c rest)).At (before ++ (Cut.first c rest).taken)
        (Cut.first c rest).left := by
  have marked : s.mark.At before ((Cut.first c rest).taken ++ (Cut.first c rest).left) := by
    rw [Cut.first_append]
    exact ⟨h.source, h.current, h.line⟩
  have same : s.mark.consume true (Cut.first c rest).taken = s.past (firstItem before c rest) := by
    simp [Session.mark, Session.consume, Session.past, Item.finish, firstItem, h.current, h.line,
      Position.offset_after, Position.line_after, Position.start]
  exact ⟨same, same ▸ marked.consume⟩

theorem absorb_of_token (s : Session) (item : Item) (found : item.segment.form.isFault = false) :
    s.absorb item = { s.past item with tokens := s.tokens ++ item.token?.toArray } := by
  rw [absorb, item.diagnostic?_eq_none found]
  simp [past]

theorem absorb_of_fault {s : Session} {item : Item} {fault : Fault} {place : Position}
    (found : item.fault? = some (fault, place)) :
    s.absorb item = (s.past item).record (fault.diagnostic (place.location s.file)) := by
  have silent : item.token? = none := by
    apply Item.token?_eq_none
    by_contra sound
    rw [item.fault?_eq_none (Bool.eq_false_iff.2 sound)] at found
    cases found
  have said : item.diagnostic? s.file = some (fault.diagnostic (place.location s.file)) := by
    rw [Item.diagnostic?, found]
    rfl
  rw [absorb, silent, said]
  simp [record, past, Collector.add_eq_extend]

/-- A turn of the loop reads the first lexeme of the unread text and absorbs it, fault or not. -/
theorem scanNext_eq {s : Session} {before : Text} {c : Char} {rest : Text}
    (h : s.At before (c :: rest)) : s.scanNext = (s.absorb (firstItem before c rest), .ok ()) := by
  have unread : s.mark.unread = c :: rest := h.unread
  obtain ⟨same, passed⟩ := h.past
  unfold scanNext
  cases fault : (Cut.first c rest).isFault with
  | false =>
    have token : (firstItem before c rest).token?
        = (Cut.first c rest).entry.token? (Cut.first c rest).taken s.mark.startLine := by
      rw [Item.token?_eq, show s.mark.startLine = s.line from rfl, h.line]
      rfl
    rw [scanLexeme_eq unread, accept_first rfl unread fault, withEntry, same, ← token,
      s.absorb_of_token (firstItem before c rest) fault]
    rfl
  | true =>
    rw [scanLexeme_eq unread, accept, same]
    rcases Cut.first_fault fault with ⟨quote, free, cut⟩ | ⟨other, line, cut⟩
    · have place : (firstItem before c rest).fault?
          = some (.unterminated, Position.start.after (before ++ (Cut.first c rest).taken)) := by
        rw [Position.after_append, firstItem, cut]
        rfl
      have location := passed.location
      rw [absorb_of_fault place, ← show (s.past (firstItem before c rest)).file = s.file from rfl,
        ← location, cut]
      rfl
    · have place : (firstItem before c rest).fault? = some (.unexpected c, Position.start.after before) := by
        rw [firstItem, cut]
        rfl
      have noLine := s.mark.consume_of_no_newline [c] (by simpa using line) false
      rw [absorb_of_fault place, ← h.location, cut, ← same, cut, ← noLine]
      rfl

theorem At.absorb {s : Session} {before : Text} {c : Char} {rest : Text} (h : s.At before (c :: rest)) :
    (s.absorb (firstItem before c rest)).At (before ++ (Cut.first c rest).taken)
      (Cut.first c rest).left :=
  have passed := h.past.2
  ⟨passed.source, passed.current, passed.line⟩

theorem At.finished {s : Session} {before : Text} (h : s.At before []) :
    ¬ s.current < s.source.length := by
  simp [h.source, h.current]

theorem At.unfinished {s : Session} {before : Text} {c : Char} {rest : Text}
    (h : s.At before (c :: rest)) : s.current < s.source.length := by
  simp [h.source, h.current]

theorem placed_segments_cons (before : Text) (c : Char) (rest : Text) :
    placed (Position.start.after before) (segments (c :: rest))
      = firstItem before c rest :: placed (Position.start.after (before ++ (Cut.first c rest).taken))
          (segments (Cut.first c rest).left) := by
  rw [segments_cons, placed, Position.after_append]
  rfl

theorem scanRest_eq {s : Session} {before rest : Text} (h : s.At before rest) :
    s.scanRest = ((placed (Position.start.after before) (segments rest)).foldl absorb s, .ok ()) := by
  induction rest using cut_induction generalizing s before with
  | nil =>
    rw [scanRest, dif_neg h.finished, segments_nil]
    rfl
  | cons c rest ih =>
    have next := scanNext_eq h
    rw [scanRest, dif_pos h.unfinished]
    split
    · rename_i s' step
      rw [next] at step
      cases step
      rw [ih h.absorb, placed_segments_cons]
      rfl
    · rename_i step
      rw [next] at step
      cases step

/-- The states the loop goes through, one at the end of each turn. -/
def laps (s : Session) : List Session :=
  if _ : s.current < s.source.length then
    match _ : s.scanNext with
    | (s', .ok ()) => s' :: s'.laps
    | (s', .error _) => [s']
  else []
termination_by s.source.length - s.current
decreasing_by exact scanNext_remaining ‹_› ‹_›

theorem At.lexeme_absorb {s : Session} {before : Text} {c : Char} {rest : Text}
    (h : s.At before (c :: rest)) :
    (s.absorb (firstItem before c rest)).lexeme = (Cut.first c rest).taken := by
  have unread : s.mark.unread = (Cut.first c rest).taken ++ (Cut.first c rest).left := by
    rw [Cut.first_append]
    exact h.unread
  have lexeme := lexeme_consume rfl unread true
  rw [h.past.1] at lexeme
  exact lexeme

theorem At.laps_nil {s : Session} {before : Text} (h : s.At before []) : s.laps = [] := by
  rw [laps, dif_neg h.finished]

theorem At.laps_cons {s : Session} {before : Text} {c : Char} {rest : Text}
    (h : s.At before (c :: rest)) :
    s.laps = s.absorb (firstItem before c rest) :: (s.absorb (firstItem before c rest)).laps := by
  have next := scanNext_eq h
  rw [laps, dif_pos h.unfinished]
  split
  · rename_i s' step
    rw [next] at step
    cases step
    rfl
  · rename_i step
    rw [next] at step
    cases step

theorem rewound_at (s : Session) : s.rewound.At [] s.source := ⟨rfl, rfl, rfl⟩

theorem foldl_absorb_tokens (s : Session) (items : List Item) :
    (items.foldl absorb s).tokens = s.tokens ++ (items.filterMap Item.token?).toArray := by
  induction items generalizing s with
  | nil => simp
  | cons item rest ih =>
    rw [List.foldl_cons, ih]
    cases token : item.token? <;> simp [absorb, token]

theorem foldl_absorb_errors (s : Session) (items : List Item) :
    (items.foldl absorb s).errors
      = s.errors ++ (items.filterMap (Item.diagnostic? s.file)).toArray := by
  induction items generalizing s with
  | nil => simp
  | cons item rest ih =>
    have file : (s.absorb item).file = s.file := rfl
    rw [List.foldl_cons, ih, file]
    cases diagnostic : item.diagnostic? s.file <;> simp [absorb, diagnostic]

theorem foldl_absorb_reports (s : Session) (items : List Item) :
    (items.foldl absorb s).collector = s.collector.map
      (.extend ((items.filterMap (Item.diagnostic? s.file)).map Diagnostic.report)) := by
  induction items generalizing s with
  | nil => simp
  | cons item rest ih =>
    have file : (s.absorb item).file = s.file := rfl
    rw [List.foldl_cons, ih, file]
    cases diagnostic : item.diagnostic? s.file <;> simp [absorb, diagnostic]

theorem foldl_absorb_file (s : Session) (items : List Item) : (items.foldl absorb s).file = s.file := by
  induction items generalizing s with
  | nil => rfl
  | cons item rest ih => exact ih (s.absorb item)

theorem foldl_absorb_at {s : Session} {before rest : Text} (h : s.At before rest) :
    ((placed (Position.start.after before) (segments rest)).foldl absorb s).At (before ++ rest) [] := by
  induction rest using cut_induction generalizing s before with
  | nil => simpa [placed] using h
  | cons c rest ih =>
    rw [placed_segments_cons, List.foldl_cons]
    have later := ih h.absorb
    rwa [List.append_assoc, Cut.first_append] at later

/-- The session once its source is scanned: nothing of what it had found before is left but the
reports. -/
def scanned (s : Session) : Session :=
  let final := (items s.source).foldl absorb s.rewound
  { final with tokens := final.tokens.push (endToken final.line) }

theorem scanAll_eq (s : Session) : s.scanAll = (s.scanned, .ok ()) := by
  have rest := scanRest_eq s.rewound_at
  rw [scanAll, rest]
  rfl

theorem scanned_at (s : Session) : s.scanned.At s.source [] :=
  have final := foldl_absorb_at s.rewound_at
  ⟨final.source, final.current, final.line⟩

theorem scanned_source (s : Session) : s.scanned.source = s.source :=
  s.scanned_at.source.trans (List.append_nil _)

theorem scanned_file (s : Session) : s.scanned.file = s.file := foldl_absorb_file s.rewound (items s.source)

theorem scanned_tokens (s : Session) : s.scanned.tokens = (scan s.source).toArray := by
  have found := foldl_absorb_tokens s.rewound (items s.source)
  have line := s.scanned_at.line
  change (((items s.source).foldl absorb s.rewound).tokens.push (endToken s.scanned.line)) = _
  rw [found, line, scan]
  simp [rewound]

theorem rule_of_mem_scanned {s : Session} {token : Token} (h : token ∈ s.scanned.tokens)
    (inner : token.kind ≠ .endOfInput) : Rule token.lexeme (some (token.kind, token.literal)) := by
  rw [s.scanned_tokens, List.mem_toArray, scan, List.mem_append] at h
  rcases h with found | last
  · exact rule_of_mem_tokens found
  · rw [List.mem_singleton.1 last] at inner
    exact absurd rfl inner

/-- A scan answers with the tokens of the source, whatever else the session holds. -/
theorem act_scanAll (s : Session) : (s.act .scanAll).2 = .ok (.tokens (scan s.source)) := by
  have tokens := s.scanned_tokens
  simp [act, scanAll_eq, Except.map, tokens]

theorem scanned_errors (s : Session) :
    s.scanned.errors = (diagnostics s.file s.source).toArray := by
  rw [diagnostics_eq]
  exact (foldl_absorb_errors s.rewound (items s.source)).trans (Array.empty_append)

theorem scanned_reports (s : Session) :
    s.scanned.collector
      = s.collector.map (.extend ((diagnostics s.file s.source).map Diagnostic.report)) := by
  rw [diagnostics_eq]
  exact foldl_absorb_reports s.rewound (items s.source)

end Session

end ScriptLexer
