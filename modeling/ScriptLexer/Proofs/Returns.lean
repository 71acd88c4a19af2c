import ScriptLexer.Proofs.Gaps
import ScriptLexer.Proofs.LineEnds

/-! Carriage returns before line feeds. The scan of a text with them runs along with the scan of the text
without: a carriage return is a blank, the end of a comment, or a character of a string, and only offsets
count it. -/
namespace ScriptLexer

/-- The text with a carriage return before every line feed. -/
def crlf (text : Text) : Text := replaceAll ['\n'] ['\r', '\n'] text

theorem crlf_nil : crlf [] = [] := replaceAll_nil ..

theorem crlf_newline (text : Text) : crlf ('\n' :: text) = '\r' :: '\n' :: crlf text := by
  rw [crlf, replaceAll_newline_cons, if_pos rfl]
  rfl

theorem crlf_cons {c : Char} (other : c ≠ '\n') (text : Text) :
    crlf (c :: text) = c :: crlf text := by
  rw [crlf, replaceAll_newline_cons, if_neg other]
  rfl

theorem crlf_append (text more : Text) :
    crlf (text ++ more) = crlf text ++ crlf more := by
  rw [crlf, replaceAll_singleton, List.flatMap_append, ← replaceAll_singleton, ← replaceAll_singleton]
  rfl

theorem crlf_of_not_mem {text : Text} (free : '\n' ∉ text) : crlf text = text := by
  induction text with
  | nil => exact crlf_nil
  | cons c rest ih =>
    rw [List.mem_cons, not_or] at free
    rw [crlf_cons (Ne.symm free.1), ih free.2]

theorem not_mem_crlf {c : Char} (other : c ∉ ['\r', '\n']) {text : Text} (free : c ∉ text) :
    c ∉ crlf text := by
  rw [crlf, replaceAll_singleton, List.mem_flatMap]
  rintro ⟨d, member, inside⟩
  split at inside
  · exact other inside
  · exact free (List.mem_singleton.1 inside ▸ member)

/-- Quotes are no line ends. -/
theorem crlf_quoted (body : Text) :
    crlf ('\x22' :: (body ++ ['\x22'])) = '\x22' :: (crlf body ++ ['\x22']) := by
  have quote : crlf ['\x22'] = ['\x22'] := crlf_of_not_mem (by decide)
  rw [crlf_cons (by decide), crlf_append, quote]

theorem quote_not_mem_crlf {text : Text} (free : '\x22' ∉ text) : '\x22' ∉ crlf text :=
  not_mem_crlf (by decide) free

/-- The same place in the text with carriage returns: every line before it is one character longer. -/
def Position.withReturns (p : Position) : Position := ⟨p.offset + (p.line - 1), p.line, p.column⟩

theorem Position.after_withReturns {p : Position} (counted : 1 ≤ p.line) (text : Text) :
    p.withReturns.after (crlf text) = (p.after text).withReturns := by
  induction text generalizing p with
  | nil => rw [crlf_nil, after_nil, after_nil]
  | cons c rest ih =>
    by_cases newline : c = '\n'
    · have step : (p.withReturns.next '\r').next '\n' = (p.next '\n').withReturns := by
        change Position.mk (p.offset + (p.line - 1) + 1 + 1) (p.line + 1) 1
          = ⟨p.offset + 1 + (p.line + 1 - 1), p.line + 1, 1⟩
        rw [mk.injEq]
        exact ⟨by omega, rfl, rfl⟩
      have counted' : 1 ≤ (p.next '\n').line := Nat.le_add_left ..
      rw [newline, crlf_newline, after_cons, after_cons, after_cons, step, ih counted']
    · have step : p.withReturns.next c = (p.next c).withReturns := by
        rw [next_of_ne newline, next_of_ne newline, withReturns, withReturns, mk.injEq]
        exact ⟨Nat.add_right_comm .., rfl, rfl⟩
      have counted' : 1 ≤ (p.next c).line := by rwa [next_of_ne newline]
      rw [crlf_cons newline, after_cons, after_cons, step, ih counted']

def Segment.withReturns (segment : Segment) : Segment :=
  ⟨segment.form, crlf segment.text⟩

/-- Of the lexemes only the line feed itself and strings hold line feeds. -/
theorem Rule.newline_cases {lexeme : Text} {entry : Entry} (rule : Rule lexeme entry) :
    '\n' ∉ lexeme ∨ lexeme = ['\n'] ∨ ∃ body, '\x22' ∉ body ∧ lexeme = '\x22' :: (body ++ ['\x22']) := by
  have word {text : Text} (h : ∀ c ∈ text, isWordChar c) : '\n' ∉ text := by
    intro member
    exact absurd (h '\n' member) (by decide)
  cases rule with
  | fixed member =>
    have table : ∀ entry ∈ fixedSpellings, '\n' ∉ entry.1 := by decide
    exact .inl (table _ member)
  | @blank c member =>
    by_cases newline : c = '\n'
    · exact .inr (.inl (congrArg (fun c => [c]) newline))
    · exact .inl fun inside => newline (List.mem_singleton.1 inside).symm
  | comment free => exact .inl (by simp [free])
  | string free => exact .inr (.inr ⟨_, free, rfl⟩)
  | number numeral =>
    refine .inl ?_
    cases numeral with
    | whole digits => exact word fun c member => isWordChar_of_isDigit (digits.digits c member)
    | fraction left right =>
      have left' := word fun c member => isWordChar_of_isDigit (left.digits c member)
      have right' := word fun c member => isWordChar_of_isDigit (right.digits c member)
      simp [left', right']
  | reserved member =>
    obtain ⟨-, -, -, -, chars⟩ := exists_cons_of_isWord (isWord_reserved member)
    exact .inl (word chars)
  | identifier spelled =>
    obtain ⟨-, -, -, -, chars⟩ := exists_cons_of_isWord spelled
    exact .inl (word chars)

theorem Segment.IsFirst.newline_cases {segment : Segment} {after : Text} (h : segment.IsFirst after) :
    (∃ body, '\x22' ∉ body ∧ segment = ⟨.unterminated, '\x22' :: body⟩ ∧ after = []) ∨
    (∃ body, '\x22' ∉ body ∧ segment = ⟨.string, '\x22' :: (body ++ ['\x22'])⟩) ∨
    segment = ⟨.blank, ['\n']⟩ ∨
    ('\n' ∉ segment.text ∧ segment.form ≠ .unterminated) := by
  obtain ⟨form, text⟩ := segment
  cases fault : form.isFault with
  | true =>
    cases form with
    | unexpected c =>
      obtain ⟨single, line, -⟩ := h.of_unexpected rfl
      obtain rfl : text = [c] := single
      refine .inr (.inr (.inr ⟨fun member => ?_, LexemeForm.noConfusion⟩))
      rw [← List.mem_singleton.1 member] at line
      exact absurd line (by decide)
    | unterminated =>
      obtain ⟨body, start, free, none⟩ := h.of_unterminated rfl
      obtain rfl : text = '\x22' :: body := start
      exact .inl ⟨body, free, rfl, none⟩
    | fixed | word | number | string | blank | comment => cases fault
  | false =>
    right
    have rule := h.rule fault
    obtain ⟨c, more, start, cut⟩ := h
    obtain rfl : text = c :: more := start
    rcases rule.newline_cases with free | newline | ⟨body, free, closed⟩
    · refine .inr (.inr ⟨free, ?_⟩)
      rintro rfl
      cases fault
    · obtain ⟨rfl, rfl⟩ := List.cons.inj newline
      have form : LexemeForm.blank = form := congrArg Cut.form cut
      exact .inr (.inl (by rw [form]))
    · obtain ⟨rfl, rfl⟩ := List.cons.inj closed
      rw [List.append_assoc, List.singleton_append, Cut.first_string free] at cut
      have form : LexemeForm.string = form := congrArg Cut.form cut
      exact .inl ⟨body, free, by rw [form]⟩

/-- Unless it starts with a line feed, the text continues no more with carriage returns in it. -/
theorem continuesLess_crlf {c : Char} (other : c ≠ '\n') (text : Text) :
    ContinuesLess (crlf (c :: text)) (c :: text) := by
  have less : ContinuesLess ([c] ++ crlf text) ([c] ++ text) := by
    apply continuesLess_append (List.cons_ne_nil c [])
    intro digit
    cases text with
    | nil => rwa [crlf_nil] at digit
    | cons d rest =>
      by_cases newline : d = '\n'
      · rw [newline, crlf_newline] at digit
        exact absurd digit Bool.false_ne_true
      · rwa [crlf_cons newline] at digit
  rwa [crlf_cons other]

theorem Segment.IsFirst.solid_before_crlf {segment : Segment} {after : Text} (h : segment.IsFirst after)
    (closed : segment.form ≠ .unterminated) (start : Position) :
    solid start (segments (segment.text ++ crlf after))
      = solid start [segment] ++ solid (start.after segment.text) (segments (crlf after)) := by
  cases after with
  | nil =>
    rw [crlf_nil]
    exact h.solid_append start
  | cons c later =>
    by_cases newline : c = '\n'
    · -- The carriage return is a blank before the same line feed.
      rw [newline] at h ⊢
      have less : ContinuesLess ('\n' :: crlf later) ('\n' :: later) := continuesLess_of_line_end rfl _
      have blank : Blanks ['\r'] := by decide
      rw [crlf_newline]
      exact (h.before closed less).solid_append_blanks closed blank start
    · exact (h.before closed (continuesLess_crlf newline later)).solid_append start

theorem Segment.IsFirst.solid_withReturns {segment : Segment} {after : Text} (h : segment.IsFirst after)
    (start : Position) : solid start (segments (crlf (segment.text ++ after)))
      = solid start [segment.withReturns]
        ++ solid (start.after segment.withReturns.text) (segments (crlf after)) := by
  rw [crlf_append]
  rcases h.newline_cases with ⟨body, free, rfl, rfl⟩ | ⟨body, free, rfl⟩ | rfl | ⟨free, closed⟩
  · have first : IsFirst ⟨.unterminated, '\x22' :: crlf body⟩ [] := by
      refine ⟨'\x22', crlf body, rfl, ?_⟩
      rw [List.append_nil, Cut.first_unterminated (quote_not_mem_crlf free)]
    rw [Segment.withReturns, crlf_nil, crlf_cons (by decide)]
    exact first.solid_append start
  · have first : IsFirst ⟨.string, '\x22' :: (crlf body ++ ['\x22'])⟩ (crlf after) := by
      refine ⟨'\x22', crlf body ++ ['\x22'], rfl, ?_⟩
      rw [List.append_assoc, List.singleton_append, Cut.first_string (quote_not_mem_crlf free)]
    rw [Segment.withReturns, crlf_quoted]
    exact first.solid_append start
  · have pair : crlf ['\n'] = ['\r', '\n'] := by rw [crlf_newline, crlf_nil]
    rw [solid_of_isGap rfl, Segment.withReturns, pair]
    exact solid_blanks (by decide) start (crlf after)
  · have same : segment.withReturns = segment := by rw [Segment.withReturns, crlf_of_not_mem free]
    rw [same, crlf_of_not_mem free]
    exact h.solid_before_crlf closed start

def Item.withReturns (item : Item) : Item := ⟨item.segment.withReturns, item.start.withReturns⟩

theorem solid_withReturns {row : List Segment} (aligned : Aligned row) {start : Position}
    (counted : 1 ≤ start.line) :
    solid start.withReturns (segments (crlf (row.flatMap Segment.text)))
      = (solid start row).map Item.withReturns := by
  induction row generalizing start with
  | nil =>
    rw [List.flatMap_nil, crlf_nil, segments_nil]
    rfl
  | cons segment rest ih =>
    have counted' : 1 ≤ (start.after segment.text).line := by
      rw [Position.line_after]
      exact Nat.le_add_right_of_le counted
    have later := ih aligned.2 counted'
    have one : solid start.withReturns [segment.withReturns]
        = (solid start [segment]).map Item.withReturns := by
      cases gap : segment.form.isGap with
      | true =>
        have gap' : segment.withReturns.form.isGap := gap
        rw [solid_of_isGap gap, solid_of_isGap gap', List.map_nil]
      | false =>
        have gap' : segment.withReturns.form.isGap = false := gap
        rw [solid_of_not_isGap gap, solid_of_not_isGap gap']
        rfl
    have split := solid_append start [segment] rest
    rw [List.flatMap_singleton] at split
    rw [List.flatMap_cons, aligned.1.solid_withReturns, one, Segment.withReturns,
      Position.after_withReturns counted, later, ← List.map_append, ← split]
    rfl

def Literal.withReturns : Literal → Literal
  | text value => .text (crlf value)
  | number value => .number value

def Token.withReturns (token : Token) : Token :=
  { token with
    lexeme := crlf token.lexeme
    literal := token.literal.map Literal.withReturns }

theorem LexemeForm.literal?_withReturns (form : LexemeForm) {text : Text} (free : '\n' ∉ text) :
    (form.literal? text).map Literal.withReturns = form.literal? text := by
  cases form with
  | string =>
    have inside : '\n' ∉ inner text := fun member =>
      free (List.mem_of_mem_tail (List.mem_of_mem_dropLast member))
    exact congrArg (fun value => some (Literal.text value)) (crlf_of_not_mem inside)
  | fixed | word | number | blank | comment | unexpected | unterminated => rfl

theorem Item.token?_withReturns {item : Item} {after : Text} (first : item.segment.IsFirst after) :
    item.withReturns.token? = item.token?.map Token.withReturns := by
  obtain ⟨segment, start⟩ := item
  rcases first.newline_cases with ⟨body, -, rfl, -⟩ | ⟨body, -, rfl⟩ | rfl | ⟨free, -⟩
  · rfl
  · rw [token?_eq, token?_eq, withReturns, Segment.withReturns, crlf_quoted, Cut.entry_string,
      Cut.entry_string]
    exact congrArg (fun lexeme => some (Token.mk .string lexeme (some (.text (crlf body))) start.line))
      (crlf_quoted body).symm
  · rfl
  · have same : segment.withReturns = segment := by rw [Segment.withReturns, crlf_of_not_mem free]
    have kept (kind : TokenKind) :
        Token.withReturns ⟨kind, segment.text, segment.form.literal? segment.text, start.line⟩
          = ⟨kind, segment.text, segment.form.literal? segment.text, start.line⟩ := by
      rw [Token.withReturns, crlf_of_not_mem free, segment.form.literal?_withReturns free]
    rw [withReturns, same, token?, token?, Option.map_map]
    exact congrArg (Option.map · _) (funext fun kind => (kept kind).symm)

theorem Item.fault?_withReturns {item : Item} (counted : 1 ≤ item.start.line) : item.withReturns.fault?
    = item.fault?.map fun (fault, place) => (fault, place.withReturns) := by
  obtain ⟨⟨form, text⟩, start⟩ := item
  cases form with
  | unterminated =>
    have finish := Position.after_withReturns counted text
    exact congrArg (fun place => some (Fault.unterminated, place)) finish
  | fixed | word | number | string | blank | comment | unexpected => rfl

/-- What is found by item, and changes with the item, changes with the source. -/
theorem filterMap_solid_crlf {α : Type} {found? : Item → Option α} {changed : α → α} (source : Text)
    (along : ∀ item ∈ items source, found? item.withReturns = (found? item).map changed) :
    (solid .start (segments (crlf source))).filterMap found?
      = ((solid .start (segments source)).filterMap found?).map changed := by
  have run := solid_withReturns (aligned_segments source) (Nat.le_refl Position.start.line)
  rw [flatMap_text_segments] at run
  have origin : Position.start.withReturns = .start := rfl
  rw [← origin, run, origin, List.filterMap_map, List.map_filterMap]
  refine List.filterMap_congr fun item member => ?_
  exact along item (List.mem_filter.1 member).1

theorem scan_crlf (source : Text) : scan (crlf source) = (scan source).map Token.withReturns := by
  have found := filterMap_solid_crlf source fun item member => by
    obtain ⟨before, after, -, -, first⟩ := exists_split_of_mem_items member
    exact item.token?_withReturns first
  have finish : Position.start.after (crlf source) = (Position.start.after source).withReturns :=
    Position.after_withReturns (Nat.le_refl Position.start.line) source
  have last : endToken (Position.start.after (crlf source)).line
      = (endToken (Position.start.after source).line).withReturns := by
    rw [Token.withReturns, endToken, endToken, crlf_nil, finish]
    rfl
  rw [scan_eq_solid, scan_eq_solid, found, last, List.map_append]
  rfl

/-- The place in the text with carriage returns of a place in a source: it counts one for every line feed
before it. -/
def behindReturns (source : Text) (place : Location) : Location :=
  { place with offset := place.offset + newlines (source.take place.offset.toNat) }

theorem Located.location_withReturns {source : Text} {place : Position} (h : Located source place)
    (file : Text) : place.withReturns.location file = behindReturns source (place.location file) := by
  have count : place.line - 1 = newlines (source.take place.offset) := by
    rw [h.line, Nat.add_sub_cancel_left]
  rw [Position.withReturns, count]
  rfl

theorem diagnostics_crlf (file source : Text) : diagnostics file (crlf source)
    = (diagnostics file source).map (Diagnostic.relocated (behindReturns source)) := by
  rw [diagnostics_eq_solid, diagnostics_eq_solid]
  apply filterMap_solid_crlf
  intro item member
  have counted : 1 ≤ item.start.line := by
    rw [line_of_mem_items member]
    exact Nat.le_add_right ..
  rw [Item.diagnostic?, Item.diagnostic?, item.fault?_withReturns counted]
  cases found : item.fault? with
  | none => rfl
  | some blamed =>
    obtain ⟨fault, place⟩ := blamed
    have located := (located_of_fault member found).location_withReturns file
    exact congrArg (fun place => some (fault.diagnostic place)) located

namespace Session

/-- Carriage returns before the line feeds of a source change only strings and offsets. A scan with them
finds the same tokens on the same lines, with the carriage returns in their texts, makes the same reports,
and has its errors in the same lines and columns. -/
theorem scanAll_crlf (s : Session) :
    ∃ final returned, s.scanAll = (final, .ok ()) ∧
      (s.setSource (crlf s.source)).scanAll = (returned, .ok ()) ∧
      returned.tokens = final.tokens.map Token.withReturns ∧ returned.collector = final.collector ∧
      returned.errors = final.errors.map (Diagnostic.relocated (behindReturns s.source)) := by
  have errors := diagnostics_crlf s.file s.source
  refine ⟨_, _, scanAll_eq _, scanAll_eq _, ?_, scanned_relocated (fun _ => rfl) errors⟩
  rw [scanned_tokens, scanned_tokens, List.map_toArray]
  exact congrArg List.toArray (scan_crlf s.source)

end Session

end ScriptLexer
