import ScriptLexer.Proofs.TokenText

/-! How a run over a script file ends. The reports of a scan take one line each and can be read back; the
code says whether there are any. -/
namespace ScriptLexer

/-- Reads a report back from the line it was written on. -/
def Report.ofLine (line : Text) : Report :=
  let rest := line.drop "[line ".toList.length
  { line := Nat.ofDigitChars 10 (rest.takeWhile (·.isDigit)) 0
    message := ((rest.dropWhile (·.isDigit)).drop "] Error: ".toList.length).dropLast }

/-- The line is counted, and the message takes no second one. -/
structure Report.IsPlain (report : Report) : Prop where
  counted : ∃ n : Nat, report.line = n
  message : '\n' ∉ report.message

theorem Report.IsPlain.newline_not_mem_shown {report : Report} (h : report.IsPlain) :
    '\n' ∉ report.shown := by
  obtain ⟨⟨n, counted⟩, message⟩ := h
  have digits : '\n' ∉ signedDecimal report.line := by
    intro member
    rw [counted] at member
    have digit : '\n'.isDigit := (digits_decimal n).digits _ member
    exact absurd digit (by decide)
  have front : '\n' ∉ "[line ".toList := by decide
  have middle : '\n' ∉ "] Error: ".toList := by decide
  unfold shown
  simp only [List.mem_append, front, digits, middle, message, or_false, not_false_eq_true]

theorem Report.ofLine_shown {report : Report} (h : report.IsPlain) :
    ofLine (report.shown ++ ['\n']) = report := by
  obtain ⟨line, message⟩ := report
  obtain ⟨⟨n, rfl⟩, -⟩ := h
  have rest : ((⟨n, message⟩ : Report).shown ++ ['\n']).drop "[line ".toList.length
      = decimal n ++ ("] Error: ".toList ++ (message ++ ['\n'])) := by
    unfold shown
    rw [List.append_assoc, List.append_assoc, List.append_assoc, List.drop_left]
    rfl
  have digits : ∀ c ∈ decimal n, c.isDigit := (digits_decimal n).digits
  have number : Nat.ofDigitChars 10 (decimal n) 0 = n :=
    Nat.ofDigitChars_toDigits (b := 10) (by decide) (by decide)
  rw [ofLine, rest, List.takeWhile_append_of_pos digits, List.dropWhile_append_of_pos digits]
  simp [number]

theorem lines_reportLines {reports : List Report} (plain : ∀ report ∈ reports, report.IsPlain) :
    lines (reportLines reports) = reports.map fun report => report.shown ++ ['\n'] := by
  unfold reportLines
  exact lines_flatMap fun report member => (plain report member).newline_not_mem_shown

theorem map_ofLine_lines {reports : List Report} (plain : ∀ report ∈ reports, report.IsPlain) :
    (lines (reportLines reports)).map Report.ofLine = reports := by
  have read : ∀ report ∈ reports, Report.ofLine (report.shown ++ ['\n']) = report :=
    fun report member => Report.ofLine_shown (plain report member)
  rw [lines_reportLines plain, List.map_map]
  exact (List.map_congr_left read).trans (List.map_id _)

theorem reportLines_eq_nil {reports : List Report} : reportLines reports = [] ↔ reports = [] := by
  cases reports <;> simp [reportLines]

theorem isPlain_of_mem_diagnostics {file source : Text} {d : Diagnostic}
    (h : d ∈ diagnostics file source) : d.report.IsPlain := by
  rw [diagnostics_eq] at h
  obtain ⟨item, inside, said⟩ := List.mem_filterMap.1 h
  obtain ⟨⟨fault, place⟩, found, rfl⟩ := Option.map_eq_some_iff.1 said
  refine ⟨⟨place.line, rfl⟩, ?_⟩
  rcases Item.fault?_eq_some found with ⟨c, form, rfl, -⟩ | ⟨-, rfl, -⟩
  · obtain ⟨before, after, -, -, first⟩ := exists_split_of_mem_items inside
    obtain ⟨-, other, -⟩ := first.of_unexpected form
    change '\n' ∉ "Unexpected character: ".toList ++ [c]
    have prose : '\n' ∉ "Unexpected character: ".toList := by decide
    rw [List.mem_append, not_or]
    exact ⟨prose, not_newline_mem_cons.2 ⟨other, List.not_mem_nil⟩⟩
  · change '\n' ∉ "Unterminated string.".toList
    decide

namespace CommandLine

/-- What is said of an error. -/
def errorText (d : Diagnostic) : Text :=
  "[line ".toList ++ signedDecimal d.location.line ++ "] Error: ".toList ++ d.message

theorem reportLines_eq (errors : List Diagnostic) :
    reportLines (errors.map Diagnostic.report) = errors.flatMap fun d => errorText d ++ ['\n'] := by
  rw [reportLines, List.flatMap_map]
  rfl

/-- What a run over a script gives that the session has scanned: all tokens of the source written out, up to
the one for the end, a line for each fault in it, from which the report can be read, and a code that tells
whether there are any. -/
structure Outcome (json : Bool) (source : Text) (final : Session) (ending : Ending) : Prop where
  out : Renders json final.tokens.toList ending.output.out
  tokens : final.tokens.toList = scan source
  errors : final.errors.toList = diagnostics final.file source
  closed : ∃ found, final.tokens.toList = found ++ [endToken (1 + newlines source)]
  err : lines ending.output.err = final.errors.toList.map fun d => errorText d ++ ['\n']
  unbroken : ∀ d ∈ final.errors, '\n' ∉ errorText d
  recovered : (lines ending.output.err).map Report.ofLine = final.errors.toList.map fun d =>
    ⟨d.location.line, d.message⟩
  failed : ending.code = 65 ↔ ending.output.err ≠ []
  said : ending.output.err ≠ [] ↔ final.errors ≠ #[]
  code : ending.code = 65 ∨ ending.code = 0

theorem runSource_eq (json : Bool) (file source : Text) : runSource json file source
    = (⟨rendering json (scan source), (diagnostics file source).flatMap fun d => errorText d ++ ['\n']⟩,
        !(diagnostics file source).isEmpty) := by
  have whole := Session.scanAll_eq { source, file, collector := some {} }
  have found := Session.scanned_reports { source, file, collector := some {} }
  rw [runSource, whole, sessionOutput, Session.scanned_tokens, found, ← tokenText_eq, ← reportLines_eq]
  simp [Collector.extend, Collector.hadError]

/-- The end of a run over a script, told by what the script holds. -/
def scriptEnding (json : Bool) (path source : Text) : Ending where
  code := if (diagnostics path source).isEmpty then 0 else 65
  output :=
    { out := rendering json (scan source)
      err := (diagnostics path source).flatMap fun d => errorText d ++ ['\n'] }

theorem runFile_readable {ε : Type} (describe : ε → Text) (json : Bool) (path source : Text) :
    runFile describe json path (.ok source) = .ok (scriptEnding json path source) := by
  rw [runFile, runSource_eq, scriptEnding]
  cases diagnostics path source <;> rfl

theorem err_scriptEnding_eq_nil {json : Bool} {path source : Text} :
    (scriptEnding json path source).output.err = [] ↔ diagnostics path source = [] := by
  rw [scriptEnding, ← reportLines_eq, reportLines_eq_nil, List.map_eq_nil_iff]

theorem outcome_scriptEnding (json : Bool) (path source : Text) :
    Outcome json source ({ source, file := path, collector := some {} } : Session).scanned
      (scriptEnding json path source) := by
  have tokens := Session.scanned_tokens { source, file := path, collector := some {} }
  have errors := Session.scanned_errors { source, file := path, collector := some {} }
  have plain : ∀ report ∈ (diagnostics path source).map Diagnostic.report, report.IsPlain :=
    List.forall_mem_map.2 fun d said => isPlain_of_mem_diagnostics said
  constructor
  case out =>
    rw [tokens]
    rw [scriptEnding, ← tokenText_eq]
    exact renders_tokenText json (scan source)
  case tokens => exact congrArg Array.toList tokens
  case errors =>
    rw [Session.scanned_file]
    exact congrArg Array.toList errors
  case closed =>
    refine ⟨(items source).filterMap Item.token?, ?_⟩
    rw [tokens, scan, Position.line_after]
    rfl
  case err =>
    rw [errors, scriptEnding, ← reportLines_eq]
    exact (lines_reportLines plain).trans (List.map_map ..)
  case unbroken =>
    intro d member
    rw [errors, List.mem_toArray] at member
    exact (isPlain_of_mem_diagnostics member).newline_not_mem_shown
  case recovered =>
    rw [errors, scriptEnding, ← reportLines_eq]
    exact map_ofLine_lines plain
  case failed =>
    rw [ne_eq, err_scriptEnding_eq_nil, scriptEnding]
    cases diagnostics path source <;> simp
  case said =>
    rw [errors, ne_eq, ne_eq, err_scriptEnding_eq_nil]
    simp
  case code =>
    unfold scriptEnding
    split
    · exact .inr rfl
    · exact .inl rfl

theorem readScript_of_ok {ε : Type} {openFile : Text → Except ε (List UInt8)} {path source : Text}
    {bytes : List UInt8} (whole : '\x00' ∉ path) (opened : openFile path = .ok bytes)
    (decoded : decodeScript bytes = .ok source) : readScript openFile path = .ok source := by
  rw [readScript, if_neg whole, opened]
  exact congrArg (Except.mapError Unreadable.malformed) decoded

theorem readScript_of_error {ε : Type} {openFile : Text → Except ε (List UInt8)} {path : Text}
    {failure : ε} (whole : '\x00' ∉ path) (refused : openFile path = .error failure) :
    readScript openFile path = .error (.refused failure) := by
  rw [readScript, if_neg whole, refused]

/-- A run over a script that can be read shows all of its tokens and one line for each error, errors or
not; the choice of a format for the tokens changes nothing else. Where the script cannot be opened,
that is all that is said. -/
theorem runFile_outcome {ε : Type} (describe : ε → Text) (openFile : Text → Except ε (List UInt8))
    (path : Text) (whole : '\x00' ∉ path) (json : Bool) :
    (∀ bytes source, openFile path = .ok bytes → decodeScript bytes = .ok source →
      ∃ final ending, ({ source, file := path, collector := some {} } : Session).scanAll = (final, .ok ()) ∧
        runFile describe json path (readScript openFile path) = .ok ending ∧
        Outcome json source final ending ∧
        ∀ other, ∃ out, runFile describe other path (readScript openFile path) =
          .ok { ending with output := { ending.output with out } }) ∧
    (∀ failure, openFile path = .error failure →
      runFile describe json path (readScript openFile path) = .ok
        { code := 66
          output :=
            { out := []
              err := "Cannot read ".toList ++ path ++ ": ".toList ++ describe failure ++ ['\n'] } }) := by
  constructor
  · intro bytes source opened decoded
    rw [readScript_of_ok whole opened decoded]
    refine ⟨_, scriptEnding json path source, Session.scanAll_eq _, runFile_readable .., ?_, ?_⟩
    · exact outcome_scriptEnding json path source
    · intro other
      exact ⟨rendering other (scan source), runFile_readable ..⟩
  · intro failure refused
    rw [readScript_of_error whole refused]
    rfl

/-- A script with two errors, and a path that no file has. -/
theorem runFile_outcome_missing :
    let bytes : List UInt8 := [0x31, 0x2E, 0x35, 0x20, 0x40, 0x0D, 0x0A, 0x22, 0xC3, 0xA9]
    let source := "1.5 @\n\"\u00e9".toList
    let missing := "No such file or directory".toList
    let openFile (path : Text) : Except Text (List UInt8) :=
      if path = "a.tk".toList then .ok bytes else .error missing
    ('\x00' ∉ "a.tk".toList ∧ openFile "a.tk".toList = .ok bytes ∧ decodeScript bytes = .ok source ∧
      ∃ final ending,
        ({ source, file := "a.tk".toList, collector := some {} } : Session).scanAll = (final, .ok ()) ∧
        runFile id true "a.tk".toList (readScript openFile "a.tk".toList) = .ok ending ∧
        Outcome true source final ending ∧
        ∀ other, ∃ out, runFile id other "a.tk".toList (readScript openFile "a.tk".toList) =
          .ok { ending with output := { ending.output with out } }) ∧
    ('\x00' ∉ "b.tk".toList ∧ openFile "b.tk".toList = .error missing ∧
      runFile id true "b.tk".toList (readScript openFile "b.tk".toList) = .ok
        { code := 66
          output :=
            { out := []
              err := "Cannot read ".toList ++ "b.tk".toList ++ ": ".toList ++ missing ++ ['\n'] } }) := by
  intro bytes source missing openFile
  have whole : '\x00' ∉ "a.tk".toList := by decide
  have whole' : '\x00' ∉ "b.tk".toList := by decide
  have decoded : decodeScript bytes = .ok source := by decide +kernel
  have readable := (runFile_outcome id openFile "a.tk".toList whole true).1
  have unreadable := (runFile_outcome id openFile "b.tk".toList whole' true).2
  exact ⟨⟨whole, rfl, decoded, readable bytes source rfl decoded⟩, whole', rfl, unreadable missing rfl⟩

end CommandLine

end ScriptLexer
