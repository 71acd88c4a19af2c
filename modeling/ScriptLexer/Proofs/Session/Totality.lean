import ScriptLexer.Proofs.Session.Scan

/-! A scan comes to its end whatever the source: the cursor stays within the source at every point,
every turn of the loop moves it on, and nothing but a recorded fault ever stops a lexeme. -/
namespace ScriptLexer

/-- The diagnostic of an unterminated string, or of found text that is a single character. -/
def Diagnostic.IsLexical (d : Diagnostic) : Prop :=
  ∃ place, d = Fault.unterminated.diagnostic place ∨ ∃ c, Fault.unexpectedText? [c] place = some d

theorem Fault.diagnostic_isLexical (fault : Fault) (place : Location) :
    (fault.diagnostic place).IsLexical := by
  cases fault with
  | unexpected c => exact ⟨place, .inr ⟨c, rfl⟩⟩
  | unterminated => exact ⟨place, .inl rfl⟩

namespace Session

/-- The mark is not past the cursor, and the cursor not past the end of the source. -/
structure InBounds (s : Session) : Prop where
  start_le : s.start ≤ s.current
  current_le : s.current ≤ s.source.length

theorem Move.inBounds {s s' : Session} (h : Move s s') (bounds : s.InBounds) : s'.InBounds := by
  cases h with
  | mark => exact ⟨Nat.le_refl _, bounds.current_le⟩
  | advance step =>
    obtain ⟨inside, rfl⟩ := advance_ok step
    exact ⟨Nat.le_succ_of_le bounds.start_le, inside⟩
  | countLine | addToken | record => exact ⟨bounds.start_le, bounds.current_le⟩

theorem Moves.inBounds {s s' : Session} (h : Moves s s') (bounds : s.InBounds) : s'.InBounds := by
  induction h with
  | refl => exact bounds
  | tail _ last ih => exact last.inBounds ih

theorem rewound_inBounds (s : Session) : s.rewound.InBounds := ⟨Nat.le_refl 0, Nat.zero_le _⟩

theorem scanRest_moves (s : Session) : Moves s s.scanRest.1 := by
  fun_induction scanRest s with
  | case1 s _ s' step ih =>
    have next := s.scanNext_moves
    rw [step] at next
    exact next.trans ih
  | case2 s _ s' stop step =>
    have next := s.scanNext_moves
    rw [step] at next
    exact next
  | case3 s _ => exact .refl s

theorem laps_moves {s p : Session} (h : p ∈ s.laps) : Moves s p := by
  fun_induction laps s with
  | case1 s _ s' step ih =>
    have next := s.scanNext_moves
    rw [step] at next
    rcases List.mem_cons.1 h with rfl | later
    · exact next
    · exact next.trans (ih later)
  | case2 s _ s' stop step =>
    have next := s.scanNext_moves
    rw [step] at next
    rw [List.mem_singleton.1 h]
    exact next
  | case3 s _ => cases h

/-- One turn of the loop: it ends further on within the source, having added a token, a diagnostic
or nothing to what was found before. -/
structure Turn (s s' : Session) : Prop where
  source : s'.source = s.source
  forward : s.current < s'.current
  inside : s'.current ≤ s'.source.length
  found : (∃ token, s'.tokens = s.tokens.push token ∧ s'.errors = s.errors) ∨
    (∃ d, s'.tokens = s.tokens ∧ s'.errors = s.errors.push d) ∨
    s'.tokens = s.tokens ∧ s'.errors = s.errors

theorem scanLexeme_of_fault {s : Session} {c : Char} {rest : Text} (unread : s.unread = c :: rest)
    (fault : (Cut.first c rest).isFault) :
    ∃ d : Diagnostic, d.IsLexical ∧
      s.scanLexeme = (s.consume true (Cut.first c rest).taken, .error (.fault d)) := by
  rw [scanLexeme_eq unread, accept]
  rcases Cut.first_fault fault with ⟨-, -, cut⟩ | ⟨-, -, cut⟩
  · rw [cut]
    exact ⟨_, Fault.diagnostic_isLexical .unterminated _, rfl⟩
  · rw [cut]
    exact ⟨_, Fault.diagnostic_isLexical (.unexpected c) _, rfl⟩

/-- From every state with text left, a lexeme is read to its end or stopped by a fault, and either
way the turn is completed. -/
theorem scanNext_turn {s : Session} (h : s.current < s.source.length) :
    (∀ stop, s.mark.scanLexeme.2 = .error stop → ∃ d, stop = .fault d ∧ d.IsLexical) ∧
      ∃ s', s.scanNext = (s', .ok ()) ∧ s.Turn s' := by
  obtain ⟨c, rest, unread⟩ : ∃ c rest, s.mark.unread = c :: rest := exists_unread h
  have marked : s.mark.InBounds := ⟨Nat.le_refl _, Nat.le_of_lt h⟩
  have inside := (s.scanNext_moves_marked.inBounds marked).current_le
  have source := s.scanNext_moves.source
  have forward := s.scanNext_current_lt h
  cases fault : (Cut.first c rest).isFault with
  | false =>
    have read := (scanLexeme_eq unread).trans (accept_first rfl unread fault)
    have next : s.scanNext
        = (s.mark.withEntry (Cut.first c rest).taken (Cut.first c rest).entry, .ok ()) := by
      rw [scanNext, read]
    rw [next] at inside source forward
    refine ⟨?_, _, next, source, forward, inside, ?_⟩
    · intro stop stopped
      rw [read] at stopped
      cases stopped
    · cases entry : (Cut.first c rest).entry with
      | none => exact .inr (.inr ⟨by simp [withEntry, consume, mark, Entry.token?], rfl⟩)
      | some found => exact .inl ⟨⟨found.1, (Cut.first c rest).taken, found.2, s.line⟩,
          by simp [withEntry, consume, mark, Entry.token?], rfl⟩
  | true =>
    obtain ⟨d, lexical, read⟩ := scanLexeme_of_fault unread fault
    have next : s.scanNext = ((s.mark.consume true (Cut.first c rest).taken).record d, .ok ()) := by
      rw [scanNext, read]
    rw [next] at inside source forward
    refine ⟨?_, _, next, source, forward, inside, .inr (.inl ⟨d, rfl, rfl⟩)⟩
    intro stop stopped
    rw [read] at stopped
    cases stopped
    exact ⟨d, rfl, lexical⟩

/-- A scan has come to its end: all of the source is consumed, the token for its end is the last one
and the only one of its kind, and the other tokens and the diagnostics are no more than the
characters. -/
structure Complete (s : Session) : Prop where
  current : s.current = s.source.length
  found : s.tokens.size + s.errors.size ≤ s.source.length + 1
  closed : ∃ (before : Array Token) (line : Int), s.tokens = before.push ⟨.endOfInput, [], none, line⟩ ∧
    ∀ token ∈ before, token.kind ≠ .endOfInput
  numerals : ∀ token ∈ s.tokens, token.kind = .number → ∃ n d, Numeral token.lexeme n d
  faults : ∀ d ∈ s.errors, d.IsLexical

theorem scanned_complete (s : Session) : s.scanned.Complete := by
  have finished := s.scanned_at
  have source := s.scanned_source
  constructor
  · rw [finished.current, source]
  · have items := length_placed .start (segments s.source)
    have shorter := length_segments_le s.source
    have apart := length_tokens_add_diagnostics_le s.file (ScriptLexer.items s.source)
    rw [ScriptLexer.items, items, ← ScriptLexer.items, ← diagnostics_eq] at apart
    rw [source, s.scanned_tokens, s.scanned_errors, scan]
    simp only [List.size_toArray, List.length_append, List.length_singleton]
    omega
  · refine ⟨((items s.source).filterMap Item.token?).toArray, (Position.start.after s.source).line,
      ?_, ?_⟩
    · rw [s.scanned_tokens, scan, List.push_toArray]
      rfl
    · intro token member
      exact (rule_of_mem_tokens (List.mem_toArray.1 member)).kind_ne_endOfInput
  · intro token member number
    have spelled := rule_of_mem_scanned member
    rw [number] at spelled
    exact numeral_of_rule (spelled (by decide))
  · intro d member
    rw [s.scanned_errors, List.mem_toArray, diagnostics, List.mem_map] at member
    obtain ⟨⟨fault, place⟩, -, rfl⟩ := member
    exact fault.diagnostic_isLexical _

/-- A scan is total. Every state that moves lead to from the rewound one is in bounds, and the points
of the scan are such states. Each of its turns is completed and moves on, and it ends complete,
without having stopped anywhere. -/
theorem scanAll_total (s : Session) :
    (∀ p, Moves s.rewound p → p.InBounds) ∧ Moves s.rewound s.rewound.scanRest.1 ∧
    (∀ p ∈ s.rewound.laps, Moves s.rewound p) ∧
    (∀ p : Session, p.current < p.source.length →
      (∀ stop, p.mark.scanLexeme.2 = .error stop → ∃ d, stop = .fault d ∧ d.IsLexical) ∧
        ∃ p', p.scanNext = (p', .ok ()) ∧ p.Turn p') ∧
    ∃ final, s.scanAll = (final, .ok ()) ∧ final.source = s.source ∧ final.Complete := by
  refine ⟨?_, s.rewound.scanRest_moves, ?_, ?_, s.scanned, s.scanAll_eq, s.scanned_source,
    s.scanned_complete⟩
  · intro p moves
    exact moves.inBounds s.rewound_inBounds
  · intro p member
    exact laps_moves member
  · intro p unfinished
    exact scanNext_turn unfinished

end Session

end ScriptLexer
