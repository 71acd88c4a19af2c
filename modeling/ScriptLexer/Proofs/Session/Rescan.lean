import ScriptLexer.Proofs.Session.Scan

/-! A whole scan forgets the history of a session. What is not set back before it, the line of the mark and the
reports, does not reach what the scan finds: the first turn sets the mark anew, and reports are but added
to. -/
namespace ScriptLexer

theorem items_eq_nil {source : Text} : items source = [] ↔ source = [] := by
  cases source with
  | nil =>
    rw [items, segments_nil]
    exact iff_of_true rfl rfl
  | cons c rest =>
    rw [items, segments_cons]
    exact iff_of_false (List.cons_ne_nil _ _) (List.cons_ne_nil _ _)

namespace Session

/-- The session with another collector, or none. -/
def reportingTo (s : Session) (held : Option Collector) : Session := { s with collector := held }

/-- The session with its mark on another line. -/
def markedOn (s : Session) (line : Nat) : Session := { s with startLine := line }

/-- What is absorbed reaches the rest of the state whatever becomes of the reports. -/
theorem foldl_absorb_reportingTo (s : Session) (held : Option Collector) (items : List Item) :
    items.foldl absorb (s.reportingTo held)
      = (items.foldl absorb s).reportingTo (items.foldl absorb (s.reportingTo held)).collector := by
  induction items generalizing s held with
  | nil => rfl
  | cons item rest ih => exact ih (s.absorb item) ((s.reportingTo held).absorb item).collector

/-- A turn sets the mark before it reads, so only a scan without turns keeps the old one. -/
theorem foldl_absorb_markedOn (s : Session) (line : Nat) (items : List Item) :
    items.foldl absorb (s.markedOn line) = (items.foldl absorb s).markedOn
      (if items = [] then line else (items.foldl absorb s).startLine) := by
  cases items with
  | nil => rfl
  | cons item rest =>
    have absorbed : (s.markedOn line).absorb item = s.absorb item := rfl
    rw [List.foldl_cons, List.foldl_cons, absorbed]
    rfl

/-- A session on the same source and file that has no history, with a collector of its own. -/
def renewed (s : Session) : Session := { source := s.source, file := s.file, collector := some {} }

theorem rewound_eq (s : Session) :
    s.rewound = (s.renewed.rewound.markedOn s.startLine).reportingTo s.collector := rfl

theorem scanned_eq (s : Session) : s.scanned
    = (s.renewed.scanned.markedOn
        (if s.source = [] then s.startLine else s.renewed.scanned.startLine)).reportingTo
      s.scanned.collector := by
  have turns := foldl_absorb_reportingTo (s.renewed.rewound.markedOn s.startLine) s.collector (items s.source)
  rw [← rewound_eq, foldl_absorb_markedOn] at turns
  simp only [items_eq_nil] at turns
  unfold scanned
  rw [turns]
  rfl

theorem renewed_scanned (s : Session) : s.scanned.renewed = s.renewed := by
  rw [renewed, scanned_source, scanned_file]
  rfl

theorem renewed_collector (s : Session) : s.renewed.scanned.collector
    = some ⟨((diagnostics s.file s.source).map Diagnostic.report).toArray⟩ := by
  rw [scanned_reports]
  simp [renewed, Collector.extend]

/-- A whole scan of a session with any history comes to what a new session on the same source and file
comes to, the tokens and the faults of the source. It ends with the same answer and in the same state, but
that the line of the mark stays where there is no source, and that a collector keeps its earlier reports
before the new ones, which are those of the errors. A second scan changes only the reports: they are given
twice. -/
theorem scanAll_rescan (s : Session) :
    ∃ fresh given,
      ({ source := s.source, file := s.file, collector := some {} } : Session).scanAll = (fresh, .ok ()) ∧
      fresh.tokens.toList = scan s.source ∧ fresh.errors.toList = diagnostics s.file s.source ∧
      fresh.collector = some given ∧
      given.reports = fresh.errors.map (fun d => ⟨d.location.line, d.message⟩) ∧
      s.scanAll = ({ fresh with
        startLine := if s.source = [] then s.startLine else fresh.startLine
        collector := s.collector.map fun held => ⟨held.reports ++ given.reports⟩ }, .ok ()) ∧
      (s.act .scanAll).2 = .ok (.tokens fresh.tokens.toList) ∧
      fresh.scanAll = ({ fresh with collector := some ⟨given.reports ++ given.reports⟩ }, .ok ()) := by
  have first := s.scanned_eq
  rw [scanned_reports] at first
  have tokens : s.renewed.scanned.tokens = (scan s.source).toArray := s.renewed.scanned_tokens
  have errors : s.renewed.scanned.errors = (diagnostics s.file s.source).toArray := s.renewed.scanned_errors
  refine ⟨s.renewed.scanned, _, s.renewed.scanAll_eq, congrArg Array.toList tokens,
    congrArg Array.toList errors, s.renewed_collector, ?_, ?_, ?_, ?_⟩
  · rw [errors, List.map_toArray]
    rfl
  · rw [scanAll_eq, first]
    rfl
  · rw [act_scanAll, tokens]
  · have same : s.renewed.scanned.renewed = s.renewed := s.renewed.renewed_scanned
    have source : s.renewed.scanned.source = s.source := s.renewed.scanned_source
    have file : s.renewed.scanned.file = s.file := s.renewed.scanned_file
    have second := s.renewed.scanned.scanned_eq
    rw [same, ite_self, scanned_reports, renewed_collector, source, file] at second
    rw [scanAll_eq, second]
    rfl

end Session

end ScriptLexer
