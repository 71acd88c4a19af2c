import ScriptLexer.Script
import ScriptLexer.Proofs.Places
import ScriptLexer.Proofs.Session.Totality

/-! The ways into a scan agree. A session with a collector or without, the scan that is given one, and the
strict form that fails come to the same tokens, and to the same errors in the same order: at every point of
a scan a collector holds one report for each error. -/
namespace ScriptLexer

namespace Session

/-- A collector, if there is one, holds what it held before and then the report of each error. -/
def InStep (held : Option Collector) (s : Session) : Prop :=
  s.collector = held.map fun collector =>
    ⟨collector.reports ++ s.errors.map fun d => ⟨d.location.line, d.message⟩⟩

theorem record_inStep {held : Option Collector} {s : Session} (step : s.InStep held) (d : Diagnostic) :
    (s.record d).InStep held := by
  unfold InStep at step ⊢
  rw [record, step]
  cases held with
  | none => rfl
  | some collector => simp [Collector.add, Diagnostic.report]

theorem Move.inStep {held : Option Collector} {s s' : Session} (h : Move s s') (step : s.InStep held) :
    s'.InStep held := by
  cases h with
  | mark | countLine | addToken => exact step
  | advance moved =>
    obtain ⟨-, rfl⟩ := advance_ok moved
    exact step
  | record d => exact record_inStep step d

theorem Moves.inStep {held : Option Collector} {s s' : Session} (h : Moves s s') (step : s.InStep held) :
    s'.InStep held := by
  induction h with
  | refl => exact step
  | tail _ last ih => exact last.inStep ih

theorem rewound_inStep (s : Session) : s.rewound.InStep s.collector := by
  simp [InStep, rewound]

theorem scanned_inStep (s : Session) : s.scanned.InStep s.collector := by
  have rest := s.rewound.scanRest_moves.inStep s.rewound_inStep
  rw [scanRest_eq s.rewound_at] at rest
  exact rest

end Session

/-- Reports name no file. -/
theorem reports_eq (file source : Text) : reports source = (diagnostics file source).map Diagnostic.report := by
  unfold reports diagnostics
  rw [List.map_map, List.map_map]
  rfl

theorem file_of_mem_diagnostics {file source : Text} {d : Diagnostic} (h : d ∈ diagnostics file source) :
    d.location.file = file := by
  obtain ⟨⟨fault, place⟩, -, rfl⟩ := List.mem_map.1 h
  cases fault <;> rfl

theorem scanReporting_eq (reporter : Option Collector) (source : Text) : scanReporting reporter source
    = (scan source, reporter.map (.extend (reports source))) := by
  rw [scanReporting, Session.scanAll_eq, Session.scanned_tokens, Session.scanned_reports, reports_eq scriptName]

theorem tokenize_of_nil {file source : Text} (none : diagnostics file source = []) :
    tokenize file source = .ok (scan source) := by
  simp [tokenize, Session.scanAll_eq, Session.scanned_errors, Session.scanned_tokens, none]

theorem tokenize_of_cons {file source : Text} {first : Diagnostic} {rest : List Diagnostic}
    (found : diagnostics file source = first :: rest) : tokenize file source = .error first := by
  simp [tokenize, Session.scanAll_eq, Session.scanned_errors, found]

theorem tokenize_eq_ok_iff {file source : Text} {tokens : List Token} :
    tokenize file source = .ok tokens ↔ diagnostics file source = [] ∧ tokens = scan source := by
  cases found : diagnostics file source with
  | nil => simp [tokenize_of_nil found, eq_comm]
  | cons first rest => simp [tokenize_of_cons found]

theorem tokenize_eq_error_iff {file source : Text} {d : Diagnostic} :
    tokenize file source = .error d ↔ (diagnostics file source).head? = some d := by
  cases found : diagnostics file source with
  | nil => simp [tokenize_of_nil found]
  | cons first rest => simp [tokenize_of_cons found]

/-- A scan goes to the end of the source, whatever its errors, and all ways into it agree on what it finds:
the tokens and the faults of the source cut in one piece. The tokens are the same for every file, with every
collector and with none; a collector gets a report for each error, in order, behind those it held; the
strict form fails exactly when there are errors, and with the first of them, which stands before the others
and in the given file. -/
theorem entryPoints_agree (file source : Text) (reporter : Option Collector) :
    ∃ final, ({ source, file, collector := reporter } : Session).scanAll = (final, .ok ()) ∧
      final.current = source.length ∧
      final.tokens.toList = scan source ∧ final.errors.toList = diagnostics file source ∧
      (∀ other held, (({ source, file := other, collector := held } : Session).act .scanAll).2
        = .ok (.tokens final.tokens.toList)) ∧
      scanReporting reporter source = (final.tokens.toList, final.collector) ∧
      (final.collector = reporter.map fun held =>
        ⟨held.reports ++ final.errors.map fun d => ⟨d.location.line, d.message⟩⟩) ∧
      (∀ d ∈ final.errors, d.location.file = file) ∧
      final.errors.toList.Pairwise (fun d later => d.location.offset < later.location.offset) ∧
      (final.hasErrors ↔ ∃ d, tokenize file source = .error d) ∧
      (∀ tokens, tokenize file source = .ok tokens ↔
        final.errors = #[] ∧ tokens = final.tokens.toList) ∧
      ∀ d, tokenize file source = .error d ↔ final.errors.toList.head? = some d := by
  let s : Session := { source, file, collector := reporter }
  have tokens : s.scanned.tokens = (scan source).toArray := s.scanned_tokens
  have errors : s.scanned.errors = (diagnostics file source).toArray := s.scanned_errors
  have reported : s.scanned.collector = reporter.map (.extend (reports source)) := by
    rw [Session.scanned_reports, reports_eq file]
  refine ⟨s.scanned, s.scanAll_eq, s.scanned_at.current, congrArg Array.toList tokens,
    congrArg Array.toList errors, ?_, ?_, s.scanned_inStep, ?_, ?_, ?_, ?_, ?_⟩
  · intro other held
    rw [Session.act_scanAll, tokens]
  · rw [scanReporting_eq, tokens, reported]
  · intro d member
    rw [errors, List.mem_toArray] at member
    exact file_of_mem_diagnostics member
  · rw [errors]
    exact (pairwise_diagnostics file source).imp And.right
  · simp only [Session.hasErrors, errors, tokenize_eq_error_iff]
    cases diagnostics file source <;> simp
  · intro tokens'
    rw [tokenize_eq_ok_iff, errors, tokens]
    simp
  · intro d
    rw [tokenize_eq_error_iff, errors]

end ScriptLexer
