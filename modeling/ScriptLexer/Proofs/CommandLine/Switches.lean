import Mathlib.Data.List.Infix
import ScriptLexer.CommandLine.Run

/-! Command lines of JSON switches and positional arguments. Where the switches stand, and how many there
are, makes no difference: the positional arguments, in order, say what is run, and any switch at all
says how it is written. -/
namespace ScriptLexer.CommandLine

/-- The JSON switch in full, or cut short after a letter of its own. -/
def asksJson (argument : Text) : Bool := argument.isPrefixOf "--json".toList && 3 ≤ argument.length

/-- An argument that does not begin with a hyphen, or is nothing but one. -/
def isPositional (argument : Text) : Bool := argument.head? != some '-' || argument == ['-']

/-- A command line of such arguments only. -/
def Simple (arguments : List Text) : Prop :=
  ∀ argument ∈ arguments, asksJson argument ∨ isPositional argument

instance (arguments : List Text) : Decidable (Simple arguments) := List.decidableBAll _ arguments

theorem classify_of_asksJson {argument : Text} (h : asksJson argument) :
    classify argument = .ok (.switch .json none) ∧ argument ≠ "--".toList ∧
      isPositional argument = false := by
  have table : ∀ argument ∈ "--json".toList.inits, 3 ≤ argument.length →
      classify argument = .ok (.switch .json none) ∧ argument ≠ "--".toList ∧
        isPositional argument = false := by decide
  rw [asksJson, Bool.and_eq_true, List.isPrefixOf_iff_prefix, decide_eq_true_eq] at h
  exact table argument ((List.mem_inits ..).2 h.1) h.2

theorem classify_of_isPositional {argument : Text} (h : isPositional argument) :
    classify argument = .ok (.plain argument) ∧ argument ≠ "--".toList ∧ asksJson argument = false := by
  refine ⟨?_, ?_, ?_⟩
  · unfold classify
    split
    · simp [isPositional] at h
    · rfl
  · rintro rfl
    cases h
  · apply Bool.eq_false_iff.2
    intro asks
    rw [(classify_of_asksJson asks).2.2] at h
    cases h

/-- What such an argument is. -/
def simplePiece (argument : Text) : Piece :=
  if asksJson argument then .switch .json none else .plain argument

theorem pieces_of_simple {arguments : List Text} (h : Simple arguments) :
    pieces arguments = .ok (arguments.map simplePiece) := by
  induction arguments with
  | nil => rfl
  | cons argument rest ih =>
    obtain ⟨first, later⟩ := List.forall_mem_cons.1 h
    rw [pieces, List.map_cons, simplePiece]
    rcases first with asks | positional
    · obtain ⟨piece, whole, -⟩ := classify_of_asksJson asks
      rw [if_neg whole, piece, ih later, if_pos asks]
      rfl
    · obtain ⟨piece, whole, other⟩ := classify_of_isPositional positional
      rw [if_neg whole, piece, ih later, if_neg (by simp [other])]
      rfl

theorem follow_plain (progress : Progress) (argument : Text) {rest : List Piece}
    (h : rest.head? ≠ some .separator) : follow progress (.plain argument :: rest) =
      if progress.settled then follow (progress.refuse argument) rest
      else follow (progress.settle (some argument)) rest := by
  cases rest with
  | nil => rfl
  | cons next rest =>
    cases next with
    | separator => exact absurd rfl h
    | plain | switch | short | unknown => rfl

theorem head?_map_simplePiece (arguments : List Text) :
    (arguments.map simplePiece).head? ≠ some .separator := by
  cases arguments with
  | nil => simp
  | cons argument rest =>
    rw [List.map_cons, simplePiece]
    split <;> simp

/-- Once the script is settled, every further positional argument is surplus. -/
theorem follow_settled {progress : Progress} (settled : progress.settled) {arguments : List Text}
    (h : Simple arguments) : follow progress (arguments.map simplePiece) =
      Progress.request { progress with
        json := progress.json || arguments.any asksJson
        surplus := progress.surplus ++ arguments.filter isPositional } := by
  induction arguments generalizing progress with
  | nil => simp [follow]
  | cons argument rest ih =>
    obtain ⟨first, later⟩ := List.forall_mem_cons.1 h
    rw [List.map_cons, simplePiece]
    rcases first with asks | positional
    · have other := (classify_of_asksJson asks).2.2
      have settled' : Progress.settled { progress with json := true } := settled
      rw [if_pos asks, follow, ih settled' later]
      simp [asks, other]
    · have other := (classify_of_isPositional positional).2.2
      have settled' : (progress.refuse argument).settled := settled
      rw [if_neg (by simp [other]), follow_plain _ _ (head?_map_simplePiece rest), if_pos settled,
        ih settled' later]
      simp [Progress.refuse, positional, other]

/-- The first positional argument settles the script. -/
theorem follow_open {progress : Progress} (unsettled : progress.settled = false) {arguments : List Text}
    (h : Simple arguments) : follow progress (arguments.map simplePiece) =
      match arguments.filter isPositional with
      | [] => Progress.request { progress with json := progress.json || arguments.any asksJson }
      | path :: surplus => Progress.request { progress with
          settled := true
          script := some path
          json := progress.json || arguments.any asksJson
          surplus := progress.surplus ++ surplus } := by
  induction arguments generalizing progress with
  | nil => simp [follow]
  | cons argument rest ih =>
    obtain ⟨first, later⟩ := List.forall_mem_cons.1 h
    rw [List.map_cons, simplePiece]
    rcases first with asks | positional
    · have other := (classify_of_asksJson asks).2.2
      have unsettled' : Progress.settled { progress with json := true } = false := unsettled
      rw [if_pos asks, follow, ih unsettled' later]
      simp [asks, other]
    · have other := (classify_of_isPositional positional).2.2
      have settled : (progress.settle (some argument)).settled := rfl
      rw [if_neg (by simp [other]), follow_plain _ _ (head?_map_simplePiece rest),
        if_neg (by simp [unsettled]), follow_settled settled later]
      simp [Progress.settle, positional, other]

/-- What is asked for. -/
theorem request_of_simple {arguments : List Text} (h : Simple arguments) :
    request arguments = match arguments.filter isPositional with
      | [] => .run none (arguments.any asksJson)
      | [path] => .run (some path) (arguments.any asksJson)
      | _ :: surplus => .misuse (.unrecognized surplus) := by
  rw [request, pieces_of_simple h]
  dsimp only
  rw [follow_open rfl h]
  cases arguments.filter isPositional with
  | nil => simp [Progress.request]
  | cons path surplus => cases surplus <;> simp [Progress.request]

theorem misuseOutput_unrecognized (surplus : List Text) :
    misuseOutput (.unrecognized surplus) =
      { out := []
        err := "usage: tomahawk [-h] [--json] [--version] [script]\n".toList
          ++ "tomahawk: error: unrecognized arguments: ".toList ++ joinWith [' '] surplus ++ ['\n'] } := by
  have words : "tomahawk: error: unrecognized arguments: ".toList
      = "tomahawk: error: ".toList ++ "unrecognized arguments: ".toList := by decide
  rw [words]
  unfold misuseOutput Misuse.message usageText
  simp only [List.append_assoc]

/-- What the command does on such a command line. Without a positional argument it is the prompt, with one
it is the script of that path, also of the empty one. With more of them nothing is read: whatever files
there are and whatever is typed, the arguments after the first are complained of. So two command lines
with the same positional arguments, with switches or without, do the same. -/
theorem run_simple (arguments : List Text) (simple : Simple arguments)
    (openFile : Text → Except OpenFailure (List UInt8)) (input : Text) :
    (arguments.filter isPositional = [] → run openFile input arguments
      = .ok (runPrompt (arguments.any asksJson) (unifyNewlines input))) ∧
    (∀ path, arguments.filter isPositional = [path] → run openFile input arguments
      = runFile OpenFailure.message (arguments.any asksJson) path (readScript openFile path)) ∧
    (∀ path first rest, arguments.filter isPositional = path :: first :: rest →
      run openFile input arguments = .ok
        { code := 2
          exited := true
          output :=
            { out := []
              err := "usage: tomahawk [-h] [--json] [--version] [script]\n".toList
                ++ "tomahawk: error: unrecognized arguments: ".toList
                ++ joinWith [' '] (first :: rest) ++ ['\n'] } }) ∧
    (∀ arguments', Simple arguments' →
      arguments'.filter isPositional = arguments.filter isPositional →
      arguments'.any asksJson = arguments.any asksJson →
      run openFile input arguments' = run openFile input arguments) := by
  have asked := request_of_simple simple
  refine ⟨?_, ?_, ?_, ?_⟩
  · intro none
    rw [none] at asked
    simp only [run, asked]
  · intro path one
    rw [one] at asked
    simp only [run, asked]
  · intro path first rest more
    rw [more] at asked
    simp only [run, asked, misuseOutput_unrecognized, exitMisuse]
  · intro arguments' simple' same switched
    have asked' := request_of_simple simple'
    rw [same, switched, ← asked] at asked'
    simp only [run, asked']

theorem run_simple_three :
    let arguments := ["--js".toList, [], "--json".toList]
    let turned := [[], "--j".toList]
    let more := ["a".toList, "--j".toList, "-".toList, "b c".toList]
    (Simple arguments ∧ arguments.filter isPositional = [[]] ∧ ∀ openFile input,
      run openFile input arguments = runFile OpenFailure.message true [] (readScript openFile []) ∧
      run openFile input turned = run openFile input arguments) ∧
    (Simple more ∧ more.filter isPositional = ["a".toList, "-".toList, "b c".toList] ∧
      ∀ openFile input, run openFile input more = .ok
        { code := 2
          exited := true
          output :=
            { out := []
              err := "usage: tomahawk [-h] [--json] [--version] [script]\n".toList
                ++ "tomahawk: error: unrecognized arguments: ".toList
                ++ joinWith [' '] ["-".toList, "b c".toList] ++ ['\n'] } }) := by
  intro arguments turned more
  have simple : Simple arguments := by decide
  have simple' : Simple turned := by decide
  have simple'' : Simple more := by decide
  refine ⟨⟨simple, rfl, ?_⟩, simple'', rfl, ?_⟩
  · intro openFile input
    obtain ⟨-, file, -, order⟩ := run_simple arguments simple openFile input
    exact ⟨file [] rfl, order turned simple' rfl rfl⟩
  · intro openFile input
    obtain ⟨-, -, surplus, -⟩ := run_simple more simple'' openFile input
    exact surplus "a".toList "-".toList ["b c".toList] rfl

end ScriptLexer.CommandLine
