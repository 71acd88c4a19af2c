import ScriptLexer.Proofs.CommandLine.Script
import ScriptLexer.Proofs.Utf8.Malformed

/-! The bytes of a script. Well-formed bytes are read as the one text that they encode; other bytes are
refused for their first fault, before anything is scanned or written. -/
namespace ScriptLexer.CommandLine

/-- How a file of some bytes is read, for its tokens and for a run over it. -/
structure ReadsBytes (openFile : Text → Except OpenFailure (List UInt8)) (path : Text)
    (bytes : List UInt8) : Prop where
  malformed : (∃ m : Utf8.Malformed, m.FirstOf bytes) ↔ ¬ Utf8.WellFormed bytes
  refused : ∀ m, tokenizeFile openFile path = .error (.unreadable (.malformed m)) ↔ m.FirstOf bytes
  refused_run : ∀ describe json m,
    runFile describe json path (readScript openFile path) = .error (.malformed m) ↔ m.FirstOf bytes
  read : Utf8.WellFormed bytes → ∃ source text, bytes = Utf8.encode source ∧
    (∀ other, bytes = Utf8.encode other → other = source) ∧
    text = replaceAll ['\r'] ['\n'] (replaceAll ['\r', '\n'] ['\n'] source) ∧
    tokenizeFile openFile path = (tokenize path text).mapError .lexical ∧
    ∀ describe json,
      runFile describe json path (readScript openFile path) = .ok (scriptEnding json path text)

theorem exists_firstOf_iff {bytes : List UInt8} :
    (∃ m : Utf8.Malformed, m.FirstOf bytes) ↔ ¬ Utf8.WellFormed bytes := by
  simp only [← Utf8.decode_eq_error_iff, exists_decode_eq_error_iff, Utf8.wellFormed_iff, not_exists]

section

variable {openFile : Text → Except OpenFailure (List UInt8)} {path : Text} {bytes : List UInt8}

theorem tokenizeFile_eq_malformed_iff (whole : '\x00' ∉ path) (opened : openFile path = .ok bytes)
    {m : Utf8.Malformed} : tokenizeFile openFile path = .error (.unreadable (.malformed m)) ↔
      Utf8.decode bytes = .error m := by
  cases decoded : Utf8.decode bytes with
  | ok source =>
    have encoded := Utf8.decode_eq_ok_iff.1 decoded
    rw [encoded] at opened
    rw [tokenizeFile_of_encode whole opened]
    cases tokenize path (unifyNewlines source) <;> simp [Except.mapError]
  | error fault =>
    rw [tokenizeFile, readScript_of_malformed whole opened decoded]
    simp

theorem runFile_eq_malformed_iff (whole : '\x00' ∉ path) (opened : openFile path = .ok bytes)
    {describe : OpenFailure → Text} {json : Bool} {m : Utf8.Malformed} :
    runFile describe json path (readScript openFile path) = .error (.malformed m) ↔
      Utf8.decode bytes = .error m := by
  rw [runFile_eq_error_iff]
  simp [whole, opened]

end

/-- A file's bytes are read exactly where they are well-formed. The text is then the only one they encode,
with its line ends unified; else the first fault is what reading ends with. -/
theorem script_reads_bytes (openFile : Text → Except OpenFailure (List UInt8)) (path : Text)
    (bytes : List UInt8) (whole : '\x00' ∉ path) (opened : openFile path = .ok bytes) :
    ReadsBytes openFile path bytes where
  malformed := exists_firstOf_iff
  refused := by
    intro m
    exact (tokenizeFile_eq_malformed_iff whole opened).trans Utf8.decode_eq_error_iff
  refused_run := by
    intro describe json m
    exact (runFile_eq_malformed_iff whole opened).trans Utf8.decode_eq_error_iff
  read := by
    intro wellFormed
    obtain ⟨source, rfl⟩ := Utf8.wellFormed_iff.1 wellFormed
    refine ⟨source, unifyNewlines source, rfl, ?_, unifyNewlines_eq source, ?_, ?_⟩
    · intro other same
      exact (Utf8.encode_injective same).symm
    · exact tokenizeFile_of_encode whole opened
    · intro describe json
      rw [readScript_of_encode whole opened, runFile_readable]

/-- Three bytes of a longer sequence, and then one that cannot be its fourth. -/
theorem script_reads_bytes_cut_short :
    let folder : Folder := ⟨[(["a.tk".toList], .file [0x61, 0xF0, 0x9F, 0x98, 0x31, 0xFF])]⟩
    let m : Utf8.Malformed := ⟨1, 0xF0, 3, .invalidContinuation⟩
    '\x00' ∉ "a.tk".toList ∧
      folder.openFile "a.tk".toList = .ok [0x61, 0xF0, 0x9F, 0x98, 0x31, 0xFF] ∧
      ReadsBytes folder.openFile "a.tk".toList [0x61, 0xF0, 0x9F, 0x98, 0x31, 0xFF] ∧
      m.FirstOf [0x61, 0xF0, 0x9F, 0x98, 0x31, 0xFF] ∧
      ¬ Utf8.WellFormed [0x61, 0xF0, 0x9F, 0x98, 0x31, 0xFF] := by
  intro folder m
  have whole : '\x00' ∉ "a.tk".toList := by decide
  have opened : folder.openFile "a.tk".toList = .ok [0x61, 0xF0, 0x9F, 0x98, 0x31, 0xFF] := by
    decide +kernel
  have reads := script_reads_bytes folder.openFile "a.tk".toList _ whole opened
  have first : m.FirstOf [0x61, 0xF0, 0x9F, 0x98, 0x31, 0xFF] := by
    apply (reads.refused m).1
    decide +kernel
  exact ⟨whole, opened, reads, first, reads.malformed.1 ⟨m, first⟩⟩

end ScriptLexer.CommandLine
