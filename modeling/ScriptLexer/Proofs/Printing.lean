import ScriptLexer.Proofs.Adjacency
import ScriptLexer.Proofs.Session.Scan

/-! Scanning undoes printing. A row of tokens is printed as its lexemes with space between them, and
scanning the text gives the tokens back exactly when none of them sticks to the next. -/
namespace ScriptLexer

/-- Blanks and line feeds, or nothing. -/
structure Space where
  text : Text
  blank : ∀ c ∈ text, c ∈ [' ', '\t', '\r', '\n']

/-- A token that can be written: its lexeme is one of its kind and stands for its literal. -/
structure Spelled where
  kind : TokenKind
  lexeme : Text
  literal : Option Literal
  rule : Rule lexeme (some (kind, literal))

/-- Tokens, each with the space after it. -/
abbrev Row := List (Spelled × Space)

def printed (space : Space) (row : Row) : Text :=
  space.text ++ row.flatMap fun (spelled, after) => spelled.lexeme ++ after.text

/-- The tokens of a row that stands after a text, each on the line that its lexeme starts on. -/
def rowTokens (before : Text) : Row → List Token
  | [] => []
  | (spelled, after) :: rest =>
    ⟨spelled.kind, spelled.lexeme, spelled.literal, (1 + newlines before : Nat)⟩
      :: rowTokens (before ++ spelled.lexeme ++ after.text) rest

/-- Somewhere in the row a token touches one that it joins, or a number without a point touches a
point that touches a number. -/
inductive Glued : Row → Prop
  | pair {spelled space next after rest} : space.text = [] →
      spelled.kind.growth.joins next.kind → Glued ((spelled, space) :: (next, after) :: rest)
  | fraction {whole space point space' decimals after rest} : space.text = [] → space'.text = [] →
      whole.kind = .number → '.' ∉ whole.lexeme → point.kind = .dot → decimals.kind = .number →
      Glued ((whole, space) :: (point, space') :: (decimals, after) :: rest)
  | later {entry rest} : Glued rest → Glued (entry :: rest)

theorem Spelled.exists_cons (spelled : Spelled) (text : Text) :
    ∃ c rest, spelled.lexeme ++ text = c :: rest := by
  apply List.exists_cons_of_ne_nil
  intro none
  exact spelled.rule.ne_nil (List.append_eq_nil_iff.1 none).1

theorem printed_cons (space after : Space) (spelled : Spelled) (rest : Row) :
    printed space ((spelled, after) :: rest) = space.text ++ (spelled.lexeme ++ printed after rest) := by
  simp [printed]

/-- A printed row starts in a class without blanks exactly when there is no space before its first
lexeme and that lexeme starts in the class. -/
theorem printed_head?_iff {p : Char → Bool} {q : TokenKind → Bool}
    (blank : ∀ c ∈ [' ', '\t', '\r', '\n'], p c = false)
    (heads : ∀ spelled : Spelled, spelled.lexeme.head?.any p = q spelled.kind) (space : Space)
    (row : Row) : (printed space row).head?.any p ↔
      space.text = [] ∧ ∃ next after rest, row = (next, after) :: rest ∧ q next.kind := by
  obtain ⟨text, blanks⟩ := space
  cases text with
  | cons c rest =>
    have outside := blank c (blanks c List.mem_cons_self)
    simp [printed, outside]
  | nil =>
    cases row with
    | nil => simp [printed]
    | cons entry rest =>
      obtain ⟨next, after⟩ := entry
      obtain ⟨c, later, lexeme⟩ : ∃ c later, next.lexeme = c :: later :=
        List.exists_cons_of_ne_nil next.rule.ne_nil
      have start : (printed ⟨[], blanks⟩ ((next, after) :: rest)).head? = next.lexeme.head? := by
        rw [printed_cons, lexeme]
        rfl
      rw [start, heads next]
      constructor
      · intro inside
        exact ⟨rfl, next, after, rest, rfl, inside⟩
      · rintro ⟨-, next', after', rest', row, inside⟩
        cases row
        exact inside

theorem printed_point {space space' : Space} {point : Spelled} {rest : Row} (first : space.text = [])
    (dot : point.kind = .dot) :
    printed space ((point, space') :: rest) = '.' :: printed space' rest := by
  have rule := point.rule
  rw [dot] at rule
  rw [printed_cons, first, rule.eq_point]
  rfl

theorem startsFraction_point (text : Text) :
    startsFraction ('.' :: text) = text.head?.any (·.isDigit) := by
  cases text <;> rfl

theorem startsFraction_printed_iff (space : Space) (row : Row) :
    startsFraction (printed space row) ↔
      space.text = [] ∧ ∃ point space' decimals after rest,
        row = (point, space') :: (decimals, after) :: rest ∧ space'.text = [] ∧ point.kind = .dot ∧
          decimals.kind = .number := by
  have points := printed_head?_iff (p := (· == '.')) (q := (· == .dot)) (by decide)
    fun spelled => spelled.rule.head?_point
  have digits := printed_head?_iff (p := (·.isDigit)) (q := (· == .number)) (by decide)
    fun spelled => spelled.rule.head?_takes .number
  constructor
  · intro fraction
    have pointed : (printed space row).head?.any (· == '.') := by
      unfold startsFraction at fraction
      split at fraction
      · rename_i text
        rw [text]
        rfl
      · cases fraction
    obtain ⟨first, point, space', later, rfl, dot⟩ := (points space row).1 pointed
    rw [beq_iff_eq] at dot
    rw [printed_point first dot, startsFraction_point] at fraction
    obtain ⟨second, decimals, after, rest, rfl, number⟩ := (digits space' later).1 fraction
    exact ⟨first, point, space', decimals, after, rest, rfl, second, dot, beq_iff_eq.1 number⟩
  · rintro ⟨first, point, space', decimals, after, rest, rfl, second, dot, number⟩
    rw [printed_point first dot, startsFraction_point]
    exact (digits space' _).2 ⟨second, decimals, after, rest, rfl, beq_iff_eq.2 number⟩

theorem takes_printed_iff (growth : Growth) (space : Space) (row : Row) :
    (printed space row).head?.any growth.takes ↔
      space.text = [] ∧ ∃ next after rest, row = (next, after) :: rest ∧ growth.joins next.kind :=
  printed_head?_iff (takes_blank growth) (fun spelled => spelled.rule.head?_takes growth) space row

theorem glued_of_sticks {spelled : Spelled} {space : Space} {row : Row}
    (h : sticks spelled.kind spelled.lexeme (printed space row)) : Glued ((spelled, space) :: row) := by
  rw [sticks, Bool.or_eq_true, Bool.and_eq_true, Bool.and_eq_true] at h
  rcases h with takes | ⟨⟨number, free⟩, fraction⟩
  · obtain ⟨none, next, after, rest, rfl, joins⟩ := (takes_printed_iff _ space row).1 takes
    exact .pair none joins
  · obtain ⟨first, point, space', decimals, after, rest, rfl, second, dot, number'⟩ :=
      (startsFraction_printed_iff space row).1 fraction
    exact .fraction first second (beq_iff_eq.1 number) (by simpa using free) dot number'

theorem sticks_or_glued {spelled : Spelled} {space : Space} {row : Row}
    (h : Glued ((spelled, space) :: row)) :
    sticks spelled.kind spelled.lexeme (printed space row) ∨ Glued row := by
  cases h with
  | @pair _ _ next after rest none joins =>
    have takes := (takes_printed_iff _ space _).2 ⟨none, next, after, rest, rfl, joins⟩
    exact .inl (by simp [sticks, takes])
  | @fraction _ _ point space' decimals after rest first second number free dot number' =>
    have fraction := (startsFraction_printed_iff space _).2
      ⟨first, point, space', decimals, after, rest, rfl, second, dot, number'⟩
    exact .inl (by simp [sticks, number, free, fraction])
  | later h => exact .inr h

theorem scans_space {start : Position} {space text : Text} {tokens : List Token}
    (blank : ∀ c ∈ space, c ∈ [' ', '\t', '\r', '\n']) :
    Scans start (space ++ text) tokens ↔ Scans (start.after space) text tokens := by
  induction space generalizing start with
  | nil => exact Iff.rfl
  | cons c space ih =>
    have cut : Cut.first c (space ++ text) = ⟨.blank, [c], space ++ text⟩ :=
      Cut.first_blank (blank c List.mem_cons_self) _
    have later := @ih (start.next c) fun d member => blank d (List.mem_cons_of_mem c member)
    rw [List.cons_append, scans_cons_iff (by rw [cut]; rfl), cut]
    constructor
    · rintro ⟨tokens, rfl, scans⟩
      exact later.1 scans
    · intro scans
      exact ⟨tokens, rfl, later.2 scans⟩

/-- A slash is in no space, so all slashes of a printed row are in its tokens. -/
theorem count_slash_printed (before : Text) (space : Space) (row : Row) :
    (printed space row).count '/' = ((rowTokens before row).flatMap Token.lexeme).count '/' := by
  have none (space : Space) : space.text.count '/' = 0 := by
    apply List.count_eq_zero.2
    intro member
    exact absurd (space.blank '/' member) (by decide)
  induction row generalizing before space with
  | nil => simp [printed, rowTokens, none]
  | cons entry rest ih =>
    obtain ⟨spelled, after⟩ := entry
    rw [printed_cons, rowTokens, List.flatMap_cons, List.count_append, List.count_append,
      List.count_append, none, ih, Nat.zero_add]

/-- Where the first lexeme sticks, something else is cut off first: a longer lexeme, or a comment that
swallows slashes of the row. -/
theorem not_scans_of_sticks {start : Position} {before : Text} {spelled : Spelled} {after : Space}
    {rest : Row} (h : sticks spelled.kind spelled.lexeme (printed after rest)) :
    ¬ Scans start (spelled.lexeme ++ printed after rest) (rowTokens before ((spelled, after) :: rest)) := by
  intro scans
  obtain ⟨c, tail, split⟩ := spelled.exists_cons (printed after rest)
  have slashes := count_slash_printed before ⟨[], fun _ member => nomatch member⟩ ((spelled, after) :: rest)
  rw [printed_cons, List.nil_append, split] at slashes
  rw [split] at scans
  have extended := Cut.first_extends spelled.rule ⟨printed after rest, split⟩
  have longer : (Cut.first c tail).taken ≠ spelled.lexeme := by
    intro same
    rw [first_taken_iff spelled.rule split.symm, h] at same
    cases same
  obtain ⟨later, tokens, scans⟩ := (scans_cons_iff extended.found).1 scans
  cases entry : (Cut.first c tail).entry with
  | some found =>
    rw [entry, rowTokens] at tokens
    obtain ⟨first, -⟩ := List.cons.inj tokens
    exact longer (congrArg Token.lexeme first).symm
  | none =>
    have rule := Cut.first_rule c tail extended.found
    have front := extended.front
    have whole := Cut.first_append c tail
    have inside := (flatMap_lexeme_sublist (start.after (Cut.first c tail).taken)
      (Cut.first c tail).left).count_le '/'
    rw [entry] at rule tokens
    rw [scans.tokens, ← List.nil_append later, ← show _ = [] ++ later from tokens, ← slashes, ← whole]
      at inside
    generalize (Cut.first c tail).taken = taken at rule front inside longer
    cases rule with
    | blank member => exact longer (front.eq_of_length_le (List.length_pos_iff.2 spelled.rule.ne_nil)).symm
    | comment free =>
      -- The two slashes of the comment are left to no token.
      simp only [List.count_append, List.count_cons_self] at inside
      omega

theorem scans_printed_iff (before : Text) (space : Space) (row : Row) :
    Scans (Position.start.after before) (printed space row) (rowTokens (before ++ space.text) row) ↔
      ¬ Glued row := by
  induction row generalizing before space with
  | nil =>
    have text : printed space [] = space.text ++ [] := rfl
    rw [text, scans_space space.blank, scans_nil_iff]
    exact ⟨fun _ glued => (nomatch glued), fun _ => rfl⟩
  | cons entry rest ih =>
    obtain ⟨spelled, after⟩ := entry
    rw [printed_cons, scans_space space.blank, ← Position.after_append]
    cases stuck : sticks spelled.kind spelled.lexeme (printed after rest) with
    | true =>
      have scans := @not_scans_of_sticks (Position.start.after (before ++ space.text))
        (before ++ space.text) spelled after rest stuck
      constructor
      · intro h
        exact absurd h scans
      · intro free
        exact absurd (glued_of_sticks stuck) free
    | false =>
      obtain ⟨c, tail, split⟩ := spelled.exists_cons (printed after rest)
      have extended := Cut.first_extends spelled.rule ⟨printed after rest, split⟩
      have taken := (first_taken_iff spelled.rule split.symm).2 stuck
      have entry := extended.same taken
      have left : (Cut.first c tail).left = printed after rest := by
        have whole := (Cut.first_append c tail).trans split.symm
        rw [taken] at whole
        exact List.append_cancel_left whole
      have later := ih (before ++ space.text ++ spelled.lexeme) after
      rw [Position.after_append] at later
      rw [split, scans_cons_iff extended.found, taken, entry, left, rowTokens, Position.line_after]
      constructor
      · rintro ⟨others, tokens, scans⟩ glued
        obtain ⟨-, rfl⟩ := List.cons.inj tokens
        rcases sticks_or_glued glued with sticks | glued
        · rw [stuck] at sticks
          cases sticks
        · exact later.1 scans glued
      · intro free
        exact ⟨_, rfl, later.2 fun glued => free (.later glued)⟩

namespace Session

/-- A scan of the source reports no fault and finds these tokens before the one that ends it. -/
def ScansTo (s : Session) (tokens : List Token) : Prop :=
  ∃ final, s.scanAll = (final, .ok ()) ∧ final.errors = #[] ∧ final.collector = s.collector ∧
    final.tokens.toList = tokens ++ [⟨.endOfInput, [], none, (1 + newlines s.source : Nat)⟩]

theorem scansTo_iff (s : Session) (tokens : List Token) :
    s.ScansTo tokens ↔ Scans .start s.source tokens := by
  have last : scan s.source = (items s.source).filterMap Item.token?
      ++ [⟨.endOfInput, [], none, (1 + newlines s.source : Nat)⟩] := by
    rw [scan, Position.line_after]
    rfl
  constructor
  · rintro ⟨final, run, errors, -, found⟩
    rw [scanAll_eq] at run
    cases run
    rw [scanned_errors, List.toArray_eq_iff] at errors
    rw [scanned_tokens, last] at found
    exact ⟨List.append_cancel_right found, List.map_eq_nil_iff.1 errors⟩
  · intro scans
    have none : diagnostics s.file s.source = [] := List.map_eq_nil_iff.2 scans.faultless
    refine ⟨s.scanned, s.scanAll_eq, ?_, ?_, ?_⟩
    · rw [scanned_errors, none]
    · rw [scanned_reports, none]
      simp
    · rw [scanned_tokens, last, ← scans.tokens]
      rfl

/-- Printing and scanning: a printed row scans to its own tokens exactly when it is not glued. -/
theorem scanAll_printed_iff (s : Session) (space : Space) (row : Row) :
    (s.setSource (printed space row)).ScansTo (rowTokens space.text row) ↔ ¬ Glued row := by
  rw [scansTo_iff]
  exact scans_printed_iff [] space row

end Session

end ScriptLexer
