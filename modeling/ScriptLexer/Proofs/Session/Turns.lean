import Mathlib.Data.List.Infix
import ScriptLexer.Proofs.Session.Scan

/-! What the turns of a scan add, and where. A token or an error that was found does not say at which
offset its lexeme was marked; the states at the ends of the turns do. -/
namespace ScriptLexer.Session

/-- What the turns add to something that is kept, each addition with the offset of its mark. -/
def additions {α : Type} (kept : Session → Array α) (s : Session) : List (Nat × α) :=
  ((s :: s.laps).zip s.laps).flatMap fun (before, after) =>
    ((kept after).toList.drop (kept before).size).map fun added => (after.start, added)

theorem At.additions_cons {α : Type} {s : Session} {before : Text} {c : Char} {rest : Text}
    (h : s.At before (c :: rest)) (kept : Session → Array α) :
    s.additions kept =
      (((kept (s.absorb (firstItem before c rest))).toList.drop (kept s).size).map
          fun added => ((firstItem before c rest).start.offset, added))
        ++ (s.absorb (firstItem before c rest)).additions kept := by
  rw [additions, h.laps_cons, List.zip_cons_cons, List.flatMap_cons]
  rfl

theorem At.additions_eq {α : Type} {kept : Session → Array α} {found? : Item → Option α} {s : Session}
    {before rest : Text} (h : s.At before rest)
    (grows : ∀ p item, p.file = s.file → kept (p.absorb item) = kept p ++ (found? item).toArray) :
    s.additions kept = (placed (Position.start.after before) (segments rest)).filterMap fun item =>
      (found? item).map (item.start.offset, ·) := by
  induction rest using cut_induction generalizing s before with
  | nil =>
    rw [additions, h.laps_nil, segments_nil]
    rfl
  | cons c rest ih =>
    rw [h.additions_cons, ih h.absorb grows, grows s _ rfl, placed_segments_cons, List.filterMap_cons]
    cases found? (firstItem before c rest) <;> simp

theorem additions_tokens (s : Session) : s.rewound.additions tokens
    = (items s.source).filterMap fun item => item.token?.map (item.start.offset, ·) :=
  s.rewound_at.additions_eq fun _ _ _ => rfl

theorem additions_errors (s : Session) : s.rewound.additions errors
    = (items s.source).filterMap fun item => (item.diagnostic? s.file).map (item.start.offset, ·) := by
  apply s.rewound_at.additions_eq
  intro p item file
  rw [absorb, file]
  rfl

theorem map_snd_additions {α : Type} (found? : Item → Option α) (items : List Item) :
    (items.filterMap fun item => (found? item).map (item.start.offset, ·)).map Prod.snd
      = items.filterMap found? := by
  rw [List.map_filterMap]
  simp only [Option.map_map, Function.comp_def, Option.map_id']

theorem map_snd_additions_tokens (s : Session) :
    (s.rewound.additions tokens).map Prod.snd = (items s.source).filterMap Item.token? := by
  rw [additions_tokens, map_snd_additions]

theorem map_snd_additions_errors (s : Session) :
    (s.rewound.additions errors).map Prod.snd = diagnostics s.file s.source := by
  rw [additions_errors, map_snd_additions, diagnostics_eq]

/-- What a turn cuts out of the source, from which offset up to which, and what it adds for it. -/
structure Stretch where
  start : Nat
  finish : Nat
  text : Text
  tokens : List Token
  errors : List Diagnostic
  deriving DecidableEq, Repr

def Stretch.ofItem (file : Text) (item : Item) : Stretch :=
  { start := item.start.offset
    finish := item.finish.offset
    text := item.segment.text
    tokens := item.token?.toList
    errors := (item.diagnostic? file).toList }

/-- The stretch between a state and the one a turn later. -/
def stretch (s s' : Session) : Stretch :=
  { start := s'.start
    finish := s'.current
    text := s'.lexeme
    tokens := s'.tokens.toList.drop s.tokens.size
    errors := s'.errors.toList.drop s.errors.size }

def stretches (s : Session) : List Stretch := (s :: s.laps).zipWith stretch s.laps

theorem At.stretch_absorb {s : Session} {before : Text} {c : Char} {rest : Text}
    (h : s.At before (c :: rest)) : s.stretch (s.absorb (firstItem before c rest))
      = .ofItem s.file (firstItem before c rest) := by
  rw [stretch, h.lexeme_absorb]
  simp [Stretch.ofItem, Session.absorb, Session.past, firstItem]

theorem At.stretches_cons {s : Session} {before : Text} {c : Char} {rest : Text}
    (h : s.At before (c :: rest)) : s.stretches = .ofItem s.file (firstItem before c rest)
      :: (s.absorb (firstItem before c rest)).stretches := by
  rw [stretches, h.laps_cons, List.zipWith_cons_cons, h.stretch_absorb]
  rfl

theorem At.stretches_eq {s : Session} {before rest : Text} (h : s.At before rest) :
    s.stretches
      = (placed (Position.start.after before) (segments rest)).map (Stretch.ofItem s.file) := by
  induction rest using cut_induction generalizing s before with
  | nil =>
    rw [stretches, h.laps_nil, segments_nil]
    rfl
  | cons c rest ih =>
    have file : (s.absorb (firstItem before c rest)).file = s.file := rfl
    rw [h.stretches_cons, ih h.absorb, placed_segments_cons, List.map_cons, file]

theorem rewound_stretches (s : Session) :
    s.rewound.stretches = (items s.source).map (Stretch.ofItem s.file) :=
  s.rewound_at.stretches_eq

/-- A scan that has ended found what the stretches hold, and nothing else of the source is left. -/
structure MadeOf (final : Session) (stretches : List Stretch) : Prop where
  whole : stretches.flatMap Stretch.text = final.source
  tokens : final.tokens.toList
    = stretches.flatMap Stretch.tokens ++ [endToken (1 + newlines final.source)]
  errors : final.errors.toList = stretches.flatMap Stretch.errors

theorem scanned_madeOf (s : Session) : s.scanned.MadeOf s.rewound.stretches := by
  have texts : (items s.source).flatMap (fun item => item.segment.text) = s.source := by
    have whole := flatMap_text_segments s.source
    rw [← map_segment_placed .start (segments s.source), List.flatMap_map] at whole
    exact whole
  rw [rewound_stretches]
  constructor
  · rw [scanned_source, List.flatMap_map]
    exact texts
  · rw [scanned_tokens, scanned_source, scan, Position.line_after, List.flatMap_map]
    exact congrArg (· ++ _) (List.filterMap_eq_flatMap_toList ..)
  · rw [scanned_errors, diagnostics_eq, List.flatMap_map]
    exact List.filterMap_eq_flatMap_toList ..

/-- Between two turns the session has consumed some segments, and the others are left. -/
theorem At.exists_split_of_mem_laps {s : Session} {before rest : Text} (h : s.At before rest)
    {p : Session} (member : p ∈ s :: s.laps) : ∃ row later, segments rest = row ++ later ∧
      p.At (before ++ row.flatMap Segment.text) (later.flatMap Segment.text) := by
  induction rest using cut_induction generalizing s before with
  | nil =>
    rw [h.laps_nil, List.mem_singleton] at member
    rw [segments_nil, member]
    exact ⟨[], [], rfl, by rwa [List.flatMap_nil, List.append_nil]⟩
  | cons c rest ih =>
    rw [h.laps_cons] at member
    rcases List.mem_cons.1 member with rfl | inside
    · refine ⟨[], segments (c :: rest), rfl, ?_⟩
      rwa [flatMap_text_segments, List.flatMap_nil, List.append_nil]
    · obtain ⟨row, later, split, reached⟩ := ih h.absorb inside
      refine ⟨⟨(Cut.first c rest).form, (Cut.first c rest).taken⟩ :: row, later, ?_, ?_⟩
      · rw [segments_cons, split, List.cons_append]
      · rwa [List.flatMap_cons, ← List.append_assoc]

/-- The texts left at the points where one turn ends and the next begins. -/
theorem At.map_unread_laps {s : Session} {before rest : Text} (h : s.At before rest) :
    (s :: s.laps).map Session.unread = (segments rest).tails.map (·.flatMap Segment.text) := by
  induction rest using cut_induction generalizing s before with
  | nil =>
    rw [h.laps_nil, segments_nil, List.map_singleton, h.unread]
    rfl
  | cons c rest ih =>
    rw [h.laps_cons, List.map_cons, ih h.absorb, h.unread, segments_cons, List.tails_cons,
      List.map_cons, ← segments_cons, flatMap_text_segments]

end ScriptLexer.Session
