import ScriptLexer.Proofs.CommandLine.Outcome
import ScriptLexer.Proofs.EntryPoints
import ScriptLexer.Proofs.LineEnds
import ScriptLexer.Proofs.Utf8

/-! Scripts in files. A script that can be read is scanned as the text that its bytes hold; a run that
cannot read it ends with a message only if the system refused to open it. -/
namespace ScriptLexer

section

variable {ε : Type} {openFile : Text → Except ε (List UInt8)} {path : Text}

theorem decodeScript_eq_ok_iff {bytes : List UInt8} {text : Text} : decodeScript bytes = .ok text ↔
    ∃ source, bytes = Utf8.encode source ∧ text = unifyNewlines source := by
  rw [decodeScript]
  constructor
  · intro h
    cases decoded : Utf8.decode bytes with
    | error fault =>
      rw [decoded] at h
      cases h
    | ok source =>
      rw [decoded] at h
      cases h
      exact ⟨source, Utf8.decode_eq_ok_iff.1 decoded, rfl⟩
  · rintro ⟨source, rfl, rfl⟩
    rw [Utf8.decode_encode]
    rfl

theorem decodeScript_eq_error_iff {bytes : List UInt8} {fault : Utf8.Malformed} :
    decodeScript bytes = .error fault ↔ Utf8.decode bytes = .error fault := by
  rw [decodeScript]
  cases Utf8.decode bytes <;> simp [Except.map]

/-- Bytes are malformed where they encode no text. -/
theorem exists_decode_eq_error_iff {bytes : List UInt8} :
    (∃ fault, Utf8.decode bytes = .error fault) ↔ ∀ source, bytes ≠ Utf8.encode source := by
  constructor
  · rintro ⟨fault, malformed⟩ source rfl
    rw [Utf8.decode_encode] at malformed
    cases malformed
  · intro none
    cases decoded : Utf8.decode bytes with
    | error fault => exact ⟨fault, rfl⟩
    | ok source => exact absurd (Utf8.decode_eq_ok_iff.1 decoded) (none source)

theorem readScript_of_nul (nul : '\x00' ∈ path) : readScript openFile path = .error .nulInPath := by
  rw [readScript, if_pos nul]

theorem readScript_of_encode (whole : '\x00' ∉ path) {source : Text}
    (opened : openFile path = .ok (Utf8.encode source)) :
    readScript openFile path = .ok (unifyNewlines source) :=
  CommandLine.readScript_of_ok whole opened (decodeScript_eq_ok_iff.2 ⟨source, rfl, rfl⟩)

theorem readScript_of_malformed (whole : '\x00' ∉ path) {bytes : List UInt8} {fault : Utf8.Malformed}
    (opened : openFile path = .ok bytes) (malformed : Utf8.decode bytes = .error fault) :
    readScript openFile path = .error (.malformed fault) := by
  rw [readScript, if_neg whole, opened]
  exact congrArg (Except.mapError Unreadable.malformed) (decodeScript_eq_error_iff.2 malformed)

/-- Reading ends in one of four ways. -/
theorem readScript_cases (openFile : Text → Except ε (List UInt8)) (path : Text) :
    ('\x00' ∈ path ∧ readScript openFile path = .error .nulInPath) ∨
    ('\x00' ∉ path ∧
      ((∃ failure, openFile path = .error failure ∧
          readScript openFile path = .error (.refused failure)) ∨
        (∃ source, openFile path = .ok (Utf8.encode source) ∧
          readScript openFile path = .ok (unifyNewlines source)) ∨
        ∃ bytes fault, openFile path = .ok bytes ∧ Utf8.decode bytes = .error fault ∧
          readScript openFile path = .error (.malformed fault))) := by
  by_cases nul : '\x00' ∈ path
  · exact .inl ⟨nul, readScript_of_nul nul⟩
  · refine .inr ⟨nul, ?_⟩
    cases opened : openFile path with
    | error failure => exact .inl ⟨failure, rfl, CommandLine.readScript_of_error nul opened⟩
    | ok bytes =>
      cases decoded : Utf8.decode bytes with
      | error fault =>
        exact .inr (.inr ⟨bytes, fault, rfl, decoded, readScript_of_malformed nul opened decoded⟩)
      | ok source =>
        rw [Utf8.decode_eq_ok_iff.1 decoded] at opened ⊢
        exact .inr (.inl ⟨source, rfl, readScript_of_encode nul opened⟩)

end

theorem tokenizeFile_of_encode {openFile : Text → Except OpenFailure (List UInt8)} {path : Text}
    (whole : '\x00' ∉ path) {source : Text} (opened : openFile path = .ok (Utf8.encode source)) :
    tokenizeFile openFile path = (tokenize path (unifyNewlines source)).mapError .lexical := by
  rw [tokenizeFile, readScript_of_encode whole opened]

namespace CommandLine

theorem scriptEnding_eq (json : Bool) (path source : Text) :
    let final := ({ source, file := path, collector := some {} } : Session).scanned
    scriptEnding json path source =
      { code := if final.errors = #[] then 0 else 65
        output :=
          { out := rendering json final.tokens.toList
            err := final.errors.toList.flatMap fun d => errorText d ++ ['\n'] } } := by
  intro final
  have tokens : final.tokens = (scan source).toArray := Session.scanned_tokens _
  have errors : final.errors = (diagnostics path source).toArray := Session.scanned_errors _
  rw [tokens, errors, scriptEnding]
  simp

/-- A file that holds a text gives the tokens or the first error of that text with its line ends unified,
and a run over it scans the same text. So it makes no difference in which of the usual ways the lines
of a text without carriage returns are ended in the file. -/
theorem tokenizeFile_encode (openFile : Text → Except OpenFailure (List UInt8)) (path : Text)
    (whole : '\x00' ∉ path) :
    (∀ source, openFile path = .ok (Utf8.encode source) →
      ∃ text final, text = replaceAll ['\r'] ['\n'] (replaceAll ['\r', '\n'] ['\n'] source) ∧
        ({ source := text, file := path, collector := some {} } : Session).scanAll = (final, .ok ()) ∧
        tokenize path text = (match final.errors.toList with
          | [] => .ok final.tokens.toList
          | first :: _ => .error first) ∧
        tokenizeFile openFile path = (tokenize path text).mapError .lexical ∧
        ∀ describe json, runFile describe json path (readScript openFile path) = .ok
          { code := if final.errors = #[] then 0 else 65
            output :=
              { out := rendering json final.tokens.toList
                err := final.errors.toList.flatMap fun d => errorText d ++ ['\n'] } }) ∧
    (∀ source ending, '\r' ∉ source → ending ∈ lineEnds →
      openFile path = .ok (Utf8.encode (replaceAll ['\n'] ending source)) →
      tokenizeFile openFile path = (tokenize path source).mapError .lexical) := by
  constructor
  · intro source opened
    rw [← unifyNewlines_eq]
    refine ⟨_, _, rfl, Session.scanAll_eq _, ?_, tokenizeFile_of_encode whole opened, ?_⟩
    · rw [Session.scanned_errors, Session.scanned_tokens]
      cases found : diagnostics path (unifyNewlines source) with
      | nil => simp [tokenize_of_nil found]
      | cons first rest => simp [tokenize_of_cons found]
    · intro describe json
      rw [readScript_of_encode whole opened, runFile_readable, scriptEnding_eq]
  · intro source ending free usual opened
    rw [tokenizeFile_of_encode whole opened, unifyNewlines_replaceAll usual free]

/-- The same three lines in two files, with different line ends and an error each. -/
theorem tokenizeFile_encode_line_ends :
    let folder : Folder :=
      ⟨[(["a.tk".toList], .file [0x31, 0x0D, 0x22, 0xC3, 0xA9, 0x0D, 0x0A, 0x22, 0x0A, 0x40]),
        (["b.tk".toList], .file [0x31, 0x0D, 0x0A, 0x22, 0xC3, 0xA9, 0x0D, 0x0A, 0x22, 0x0D, 0x0A, 0x40])]⟩
    let source := "1\r\"\u00e9\r\n\"\n@".toList
    let lines := "1\n\"\u00e9\n\"\n@".toList
    ('\x00' ∉ "a.tk".toList ∧ folder.openFile "a.tk".toList = .ok (Utf8.encode source) ∧
      ∃ text final, text = replaceAll ['\r'] ['\n'] (replaceAll ['\r', '\n'] ['\n'] source) ∧
        ({ source := text, file := "a.tk".toList, collector := some {} } : Session).scanAll
          = (final, .ok ()) ∧
        tokenize "a.tk".toList text = (match final.errors.toList with
          | [] => .ok final.tokens.toList
          | first :: _ => .error first) ∧
        tokenizeFile folder.openFile "a.tk".toList = (tokenize "a.tk".toList text).mapError .lexical ∧
        ∀ describe json, runFile describe json "a.tk".toList (readScript folder.openFile "a.tk".toList) = .ok
          { code := if final.errors = #[] then 0 else 65
            output :=
              { out := rendering json final.tokens.toList
                err := final.errors.toList.flatMap fun d => errorText d ++ ['\n'] } }) ∧
    ('\x00' ∉ "b.tk".toList ∧ '\r' ∉ lines ∧ ['\r', '\n'] ∈ lineEnds ∧
      folder.openFile "b.tk".toList = .ok (Utf8.encode (replaceAll ['\n'] ['\r', '\n'] lines)) ∧
      tokenizeFile folder.openFile "b.tk".toList = (tokenize "b.tk".toList lines).mapError .lexical) := by
  intro folder source lines
  have whole : '\x00' ∉ "a.tk".toList := by decide
  have whole' : '\x00' ∉ "b.tk".toList := by decide
  have free : '\r' ∉ lines := by decide
  have usual : ['\r', '\n'] ∈ lineEnds := by decide
  have opened : folder.openFile "a.tk".toList = .ok (Utf8.encode source) := by decide +kernel
  have opened' : folder.openFile "b.tk".toList
      = .ok (Utf8.encode (replaceAll ['\n'] ['\r', '\n'] lines)) := by decide +kernel
  obtain ⟨texts, -⟩ := tokenizeFile_encode folder.openFile "a.tk".toList whole
  obtain ⟨-, ends⟩ := tokenizeFile_encode folder.openFile "b.tk".toList whole'
  exact ⟨⟨whole, opened, texts source opened⟩, whole', free, usual, opened',
    ends lines ['\r', '\n'] free usual opened'⟩

theorem runFile_eq_ok_iff {ε : Type} {describe : ε → Text} {openFile : Text → Except ε (List UInt8)}
    {json : Bool} {path : Text} {ending : Ending} :
    runFile describe json path (readScript openFile path) = .ok ending ↔ '\x00' ∉ path ∧
      ((∃ failure, openFile path = .error failure ∧ ending =
          { code := 66
            output :=
              { out := []
                err := "Cannot read ".toList ++ path ++ ": ".toList ++ describe failure ++ ['\n'] } }) ∨
        ∃ source, openFile path = .ok (Utf8.encode source) ∧
          ending = scriptEnding json path (unifyNewlines source)) := by
  constructor
  · intro h
    rcases readScript_cases openFile path with ⟨-, read⟩ | ⟨whole, ⟨failure, refused, read⟩ |
      ⟨source, opened, read⟩ | ⟨bytes, fault, -, -, read⟩⟩
    · rw [read] at h
      cases h
    · rw [read] at h
      cases h
      exact ⟨whole, .inl ⟨failure, refused, rfl⟩⟩
    · rw [read, runFile_readable] at h
      cases h
      exact ⟨whole, .inr ⟨source, opened, rfl⟩⟩
    · rw [read] at h
      cases h
  · rintro ⟨whole, ⟨failure, refused, rfl⟩ | ⟨source, opened, rfl⟩⟩
    · rw [readScript_of_error whole refused]
      rfl
    · rw [readScript_of_encode whole opened, runFile_readable]

theorem runFile_eq_error_iff {ε : Type} {describe : ε → Text} {openFile : Text → Except ε (List UInt8)}
    {json : Bool} {path : Text} {failure : Unreadable ε} :
    runFile describe json path (readScript openFile path) = .error failure ↔
      ('\x00' ∈ path ∧ failure = .nulInPath) ∨
      ('\x00' ∉ path ∧ ∃ bytes fault, openFile path = .ok bytes ∧ Utf8.decode bytes = .error fault ∧
        failure = .malformed fault) := by
  constructor
  · intro h
    rcases readScript_cases openFile path with ⟨nul, read⟩ | ⟨whole, ⟨failure, refused, read⟩ |
      ⟨source, opened, read⟩ | ⟨bytes, fault, opened, malformed, read⟩⟩
    · rw [read] at h
      cases h
      exact .inl ⟨nul, rfl⟩
    · rw [read] at h
      cases h
    · rw [read, runFile_readable] at h
      cases h
    · rw [read] at h
      cases h
      exact .inr ⟨whole, bytes, fault, opened, malformed, rfl⟩
  · rintro (⟨nul, rfl⟩ | ⟨whole, bytes, fault, opened, malformed, rfl⟩)
    · rw [readScript_of_nul nul]
      rfl
    · rw [readScript_of_malformed whole opened malformed]
      rfl

theorem code_scriptEnding (json : Bool) (path source : Text) :
    (scriptEnding json path source).code = 0 ∨ (scriptEnding json path source).code = 65 := by
  rw [scriptEnding_eq]
  exact ite_eq_or_eq ..

/-- How a run over a script can end. It ends with 0 or 65 where the file holds a text, and with 66, a
message and no tokens where the system refuses to open it. It does not end by itself where the path holds
U+0000 or the bytes of the file encode no text: then the failure is raised. -/
theorem runFile_ends_iff {ε : Type} (describe : ε → Text) (openFile : Text → Except ε (List UInt8))
    (json : Bool) (path : Text) :
    (∀ ending, runFile describe json path (readScript openFile path) = .ok ending ↔ '\x00' ∉ path ∧
      ((∃ failure, openFile path = .error failure ∧ ending =
          { code := 66
            output :=
              { out := []
                err := "Cannot read ".toList ++ path ++ ": ".toList ++ describe failure ++ ['\n'] } }) ∨
        ∃ source, openFile path = .ok (Utf8.encode source) ∧
          (ending.code = 0 ∨ ending.code = 65) ∧
          ending = scriptEnding json path (unifyNewlines source))) ∧
    (∀ failure, runFile describe json path (readScript openFile path) = .error failure ↔
      ('\x00' ∈ path ∧ failure = .nulInPath) ∨
      ('\x00' ∉ path ∧ ∃ bytes fault, openFile path = .ok bytes ∧
        (∀ source, bytes ≠ Utf8.encode source) ∧ Utf8.decode bytes = .error fault ∧
        failure = .malformed fault)) := by
  constructor
  · intro ending
    rw [runFile_eq_ok_iff]
    refine and_congr_right fun _ => or_congr_right (exists_congr fun source => ?_)
    refine and_congr_right fun _ => ?_
    constructor
    · intro ends
      exact ⟨ends ▸ code_scriptEnding json path (unifyNewlines source), ends⟩
    · exact And.right
  · intro failure
    rw [runFile_eq_error_iff]
    refine or_congr_right (and_congr_right fun _ => exists_congr fun bytes => exists_congr fun fault =>
      and_congr_right fun _ => ?_)
    constructor
    · rintro ⟨malformed, raised⟩
      exact ⟨exists_decode_eq_error_iff.1 ⟨fault, malformed⟩, malformed, raised⟩
    · exact And.right

/-- The byte 0xFF occurs in no encoded text. -/
theorem runFile_malformed_byte :
    ¬ ∀ (folder : Folder) (path : Text) (json : Bool), ∃ ending,
      runFile OpenFailure.message json path (readScript folder.openFile path) = .ok ending ∧
        (ending.code = 0 ∨ ending.code = 65 ∨ ending.code = 66) := by
  intro total
  let folder : Folder := ⟨[(["a.tk".toList], .file [0xFF])]⟩
  obtain ⟨ending, ended, -⟩ := total folder "a.tk".toList false
  have raised : readScript folder.openFile "a.tk".toList
      = .error (.malformed ⟨0, 0xFF, 1, .invalidStart⟩) := by decide +kernel
  rw [raised] at ended
  cases ended

end CommandLine

end ScriptLexer
