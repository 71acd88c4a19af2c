import ScriptLexer.Proofs.Cutting.Scan
import ScriptLexer.Proofs.MaximalMunch

/-! The segments of a source. Each of them is the first cut of what it and the later ones make up, so
what holds of first cuts holds of all segments, and of the tokens and diagnostics made of them. -/
namespace ScriptLexer

theorem exists_first_of_mem {source : Text} {segment : Segment} (h : segment ∈ segments source) :
    ∃ c rest, (Cut.first c rest).form = segment.form ∧ (Cut.first c rest).taken = segment.text := by
  induction source using cut_induction with
  | nil =>
    rw [segments_nil] at h
    cases h
  | cons c rest ih =>
    rw [segments_cons] at h
    rcases List.mem_cons.1 h with rfl | later
    · exact ⟨c, rest, rfl, rfl⟩
    · exact ih later

theorem text_ne_nil_of_mem {source : Text} {segment : Segment} (h : segment ∈ segments source) :
    segment.text ≠ [] := by
  obtain ⟨c, rest, -, taken⟩ := exists_first_of_mem h
  rw [← taken]
  exact List.cons_ne_nil _ _

theorem length_segments_le (source : Text) : (segments source).length ≤ source.length := by
  induction source using cut_induction with
  | nil => rw [segments_nil, List.length_nil, List.length_nil]
  | cons c rest ih =>
    have shorter := Cut.length_left_first_lt c rest
    rw [segments_cons, List.length_cons]
    omega

theorem length_placed (start : Position) (segments : List Segment) :
    (placed start segments).length = segments.length := by
  induction segments generalizing start with
  | nil => rfl
  | cons segment rest ih => rw [placed, List.length_cons, List.length_cons, ih]

theorem map_segment_placed (start : Position) (segments : List Segment) :
    (placed start segments).map Item.segment = segments := by
  induction segments generalizing start with
  | nil => rfl
  | cons segment rest ih => rw [placed, List.map_cons, ih]

theorem placed_append (start : Position) (row later : List Segment) :
    placed start (row ++ later)
      = placed start row ++ placed (start.after (row.flatMap Segment.text)) later := by
  induction row generalizing start with
  | nil => rfl
  | cons segment rest ih =>
    rw [List.cons_append, placed, placed, ih, List.flatMap_cons, Position.after_append, List.cons_append]

/-- The diagnostic an item gets in a source of that name. -/
def Item.diagnostic? (file : Text) (item : Item) : Option Diagnostic :=
  item.fault?.map fun (fault, place) => fault.diagnostic (place.location file)

theorem diagnostics_eq (file source : Text) :
    diagnostics file source = (items source).filterMap (Item.diagnostic? file) := by
  rw [diagnostics, faults, List.map_filterMap]
  rfl

theorem Item.token?_eq (item : Item) : item.token?
    = (item.segment.form.entry item.segment.text).token? item.segment.text item.start.line := by
  simp only [Item.token?, Entry.token?, LexemeForm.entry, Option.map_map]
  rfl

theorem Item.fault?_eq_none (item : Item) (h : item.segment.form.isFault = false) :
    item.fault? = none := by
  unfold fault?
  cases form : item.segment.form with
  | unexpected | unterminated =>
    rw [form] at h
    cases h
  | fixed | word | number | string | blank | comment => rfl

theorem Item.diagnostic?_eq_none (item : Item) (h : item.segment.form.isFault = false) (file : Text) :
    item.diagnostic? file = none := by
  rw [diagnostic?, item.fault?_eq_none h]
  rfl

theorem Item.token?_eq_none {item : Item} (h : item.segment.form.isFault) : item.token? = none := by
  unfold token?
  cases form : item.segment.form with
  | unexpected | unterminated => simp [form, LexemeForm.tokenKind?]
  | fixed | word | number | string | blank | comment =>
    rw [form] at h
    cases h

theorem segment_mem {source : Text} {item : Item} (h : item ∈ items source) :
    item.segment ∈ segments source := by
  rw [← map_segment_placed .start (segments source)]
  exact List.mem_map_of_mem h

theorem rule_of_token {source : Text} {item : Item} {token : Token} (member : item ∈ items source)
    (h : item.token? = some token) :
    token.lexeme = item.segment.text ∧ Rule token.lexeme (some (token.kind, token.literal)) := by
  obtain ⟨c, rest, form, taken⟩ := exists_first_of_mem (segment_mem member)
  have found : (Cut.first c rest).isFault = false := by
    apply Bool.eq_false_iff.2
    intro fault
    rw [Cut.isFault, form] at fault
    rw [Item.token?_eq_none fault] at h
    cases h
  have rule := Cut.first_rule c rest found
  rw [Cut.entry, form, taken] at rule
  rw [Item.token?_eq] at h
  obtain ⟨lexeme, entry⟩ := Entry.token?_eq_some h
  rw [entry, ← lexeme] at rule
  exact ⟨lexeme, rule⟩

theorem rule_of_mem_tokens {source : Text} {token : Token}
    (h : token ∈ (items source).filterMap Item.token?) :
    Rule token.lexeme (some (token.kind, token.literal)) := by
  obtain ⟨item, member, made⟩ := List.mem_filterMap.1 h
  exact (rule_of_token member made).2

theorem length_tokens_add_diagnostics_le (file : Text) (items : List Item) :
    (items.filterMap Item.token?).length + (items.filterMap (Item.diagnostic? file)).length
      ≤ items.length := by
  induction items with
  | nil => exact Nat.le_refl 0
  | cons item rest ih =>
    cases fault : item.segment.form.isFault with
    | false =>
      have silent := item.diagnostic?_eq_none fault file
      have short := List.length_filterMap_le Item.token? [item]
      rw [List.filterMap_cons_none silent, ← List.singleton_append, List.filterMap_append,
        List.length_append, List.length_append]
      omega
    | true =>
      have silent := Item.token?_eq_none fault
      have short := List.length_filterMap_le (Item.diagnostic? file) [item]
      rw [List.filterMap_cons_none silent, ← List.singleton_append, List.filterMap_append,
        List.length_append, List.length_append]
      omega

/-- From that position on, the text gives these tokens and no fault. -/
structure Scans (start : Position) (text : Text) (tokens : List Token) : Prop where
  tokens : (placed start (segments text)).filterMap Item.token? = tokens
  faultless : (placed start (segments text)).filterMap Item.fault? = []

theorem scans_nil_iff {start : Position} {tokens : List Token} : Scans start [] tokens ↔ tokens = [] := by
  constructor
  · intro h
    rw [← h.tokens, segments_nil]
    rfl
  · rintro rfl
    constructor <;> rw [segments_nil] <;> rfl

theorem scans_cons_iff {start : Position} {c : Char} {rest : Text} {tokens : List Token}
    (found : (Cut.first c rest).isFault = false) : Scans start (c :: rest) tokens ↔
      ∃ later, tokens
          = ((Cut.first c rest).entry.token? (Cut.first c rest).taken start.line).toList ++ later ∧
        Scans (start.after (Cut.first c rest).taken) (Cut.first c rest).left later := by
  have token := Item.token?_eq ⟨⟨(Cut.first c rest).form, (Cut.first c rest).taken⟩, start⟩
  have silent := Item.fault?_eq_none ⟨⟨(Cut.first c rest).form, (Cut.first c rest).taken⟩, start⟩ found
  have first (items : List Item) : (⟨⟨(Cut.first c rest).form, (Cut.first c rest).taken⟩, start⟩
      :: items).filterMap Item.token? = ((Cut.first c rest).entry.token? (Cut.first c rest).taken
        start.line).toList ++ items.filterMap Item.token? := by
    rw [List.filterMap_cons, token, Cut.entry]
    cases (LexemeForm.entry _ _).token? _ _ <;> rfl
  constructor
  · rintro ⟨tokens, faultless⟩
    rw [segments_cons, placed] at tokens faultless
    rw [List.filterMap_cons_none silent] at faultless
    exact ⟨_, tokens.symm.trans (first _), rfl, faultless⟩
  · rintro ⟨later, rfl, tokens, faultless⟩
    constructor
    · rw [segments_cons, placed, first, tokens]
    · rw [segments_cons, placed, List.filterMap_cons_none silent]
      exact faultless

theorem flatMap_lexeme_sublist (start : Position) (text : Text) :
    (((placed start (segments text)).filterMap Item.token?).flatMap Token.lexeme).Sublist text := by
  induction text using cut_induction generalizing start with
  | nil =>
    rw [segments_nil]
    exact List.nil_sublist []
  | cons c rest ih =>
    rw [segments_cons, placed, ← Cut.first_append c rest]
    cases token : Item.token? ⟨⟨(Cut.first c rest).form, (Cut.first c rest).taken⟩, start⟩ with
    | none =>
      rw [List.filterMap_cons_none token]
      exact (ih _).trans (List.sublist_append_right ..)
    | some found =>
      rw [List.filterMap_cons_some token, List.flatMap_cons]
      rw [Item.token?_eq] at token
      rw [(Entry.token?_eq_some token).1]
      exact (List.Sublist.refl _).append (ih _)

end ScriptLexer
