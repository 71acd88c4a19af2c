import ScriptLexer.Proofs.CommandLine.Outcome
import ScriptLexer.Proofs.Json.Rendering

/-! The tokens as JSON. What is written is an array with an object for each token, unless a number is too
large for a double: its literal is infinity then, for which JSON has no word. -/
namespace ScriptLexer

open JsonText

theorem finite_toJson {token : Token} : token.toJson.Finite ↔
    ∀ value, token.literal = some (.number value) → value.isFinite := by
  have literal : token.toJson.Finite ↔ ((token.literal.map Literal.toJson).getD .null).Finite := by
    unfold Token.toJson
    rw [Json.finite_object]
    simp [Json.Finite.text, Json.Finite.integer]
  rw [literal]
  cases token.literal with
  | none => simp [Json.Finite.null]
  | some value =>
    cases value with
    | text => simp [Literal.toJson, Json.Finite.text]
    | number => simp [Literal.toJson, Json.finite_double]

/-- What a literal is written as. -/
def IsLiteral (text : Text) : Prop := IsString text ∨ IsNumber text ∨ text = "null".toList

def tokenKeys : List Text := ["type", "lexeme", "literal", "line"].map fun key => Json.stringText key.toList

/-- An object with the keys of a token and a literal. -/
inductive IsTokenObject : Text → Prop
  | object {members : List Member} {blanks} : members.map (·.key.text) = tokenKeys →
      (∀ member ∈ members, IsValue member.value.text) →
      (∀ member ∈ members, member.key.text = Json.stringText "literal".toList →
        IsLiteral member.value.text) → IsTokenObject (objectText members blanks)

/-- A document that is an array of so many token objects. -/
inductive IsTokenArray : Nat → Text → Prop
  | array {items : List Padded} {before blanks after} : (∀ item ∈ items, IsTokenObject item.text) →
      IsTokenArray items.length (Padded.whole ⟨before, arrayText items blanks, after⟩)

theorem IsTokenObject.isValue {text : Text} (h : IsTokenObject text) : IsValue text := by
  obtain ⟨keys, values, -⟩ := h
  refine .object ?_ values
  intro member inside
  have key : member.key.text ∈ tokenKeys := by
    rw [← keys]
    exact List.mem_map_of_mem inside
  obtain ⟨name, -, quoted⟩ := List.mem_map.1 key
  rw [← quoted]
  exact isString_stringText _

theorem IsTokenArray.isDocument {count : Nat} {text : Text} (h : IsTokenArray count text) :
    IsDocument text := by
  obtain ⟨objects⟩ := h
  exact .padded (.array fun item inside => (objects item inside).isValue)

theorem isLiteral_render {token : Token} (h : token.toJson.Finite) (indent : Nat) :
    IsLiteral (((token.literal.map Literal.toJson).getD .null).render indent) := by
  rw [finite_toJson] at h
  cases literal : token.literal with
  | none => exact .inr (.inr rfl)
  | some value =>
    cases value with
    | text value => exact .inl (isString_stringText value)
    | number value => exact .inr (.inl (isNumber_doubleText (h value literal)))

theorem isTokenObject_render {token : Token} (h : token.toJson.Finite) (indent : Nat) :
    IsTokenObject (token.toJson.render indent) := by
  have literal := isLiteral_render h (indent + 2)
  unfold Token.toJson at h ⊢
  rw [Json.finite_object] at h
  obtain ⟨blanks, whole⟩ := Json.exists_render_object indent _
  rw [whole]
  refine .object ?_ ?_ ?_
  · rw [List.map_map]
    rfl
  · exact List.forall_mem_map.2 fun field inside => (h field inside).isValue_render _
  · have type : Json.stringText "type".toList ≠ Json.stringText "literal".toList := by decide
    have lexeme : Json.stringText "lexeme".toList ≠ Json.stringText "literal".toList := by decide
    have line : Json.stringText "line".toList ≠ Json.stringText "literal".toList := by decide
    refine List.forall_mem_map.2 fun field inside key => ?_
    simp only [List.mem_cons, List.not_mem_nil, or_false] at inside
    rcases inside with rfl | rfl | rfl | rfl
    · exact absurd key type
    · exact absurd key lexeme
    · exact literal
    · exact absurd key line

theorem isTokenArray_tokenJson {tokens : List Token} (h : ∀ token ∈ tokens, token.toJson.Finite) :
    IsTokenArray tokens.length (tokenJson tokens) := by
  obtain ⟨blanks, whole⟩ := Json.exists_render_array 0 (tokens.map Token.toJson)
  have document : tokenJson tokens = Padded.whole
      ⟨Json.noBlanks, arrayText ((tokens.map Token.toJson).map (Json.item 2)) blanks,
        ⟨['\n'], by simp⟩⟩ := by
    rw [tokenJson, whole]
    rfl
  have objects : ∀ item ∈ (tokens.map Token.toJson).map (Json.item 2), IsTokenObject item.text := by
    refine List.forall_mem_map.2 (List.forall_mem_map.2 fun token inside => ?_)
    exact isTokenObject_render (h token inside) 2
  have count : tokens.length = ((tokens.map Token.toJson).map (Json.item 2)).length := by simp
  rw [document, count]
  exact .array objects

theorem names_tokenJson (tokens : List Token) :
    Names (tokenJson tokens) (∃ token ∈ tokens, ¬ token.toJson.Finite) := by
  have array := Json.names_render (.array (tokens.map Token.toJson)) 0
  have newline : Names ['\n'] False := .silent (by decide)
  exact (array.append newline).congr (by simp [Json.finite_array])

theorem isDocument_tokenJson_iff {tokens : List Token} :
    IsDocument (tokenJson tokens) ↔ ∀ token ∈ tokens, token.toJson.Finite := by
  constructor
  · intro document
    have none := document.names.unique (names_tokenJson tokens)
    simpa using none
  · intro finite
    exact (isTokenArray_tokenJson finite).isDocument

theorem number_of_mem_scan {source : Text} {token : Token} {value : Double} (h : token ∈ scan source)
    (number : token.literal = some (.number value)) : ∃ rank, value = .signed false rank := by
  rcases List.mem_append.1 h with found | last
  · obtain ⟨item, -, made⟩ := List.mem_filterMap.1 found
    obtain ⟨kind, -, rfl⟩ := Option.map_eq_some_iff.1 made
    change item.segment.form.literal? item.segment.text = some (.number value) at number
    cases form : item.segment.form with
    | number =>
      rw [form] at number
      cases number
      exact ⟨_, rfl⟩
    | fixed | word | string | blank | comment | unexpected | unterminated =>
      rw [form] at number
      cases number
  · rw [List.mem_singleton.1 last] at number
    cases number

theorem finite_scan_iff {source : Text} : (∀ token ∈ scan source, token.toJson.Finite) ↔
    ∀ token ∈ scan source, token.literal ≠ some (.number .infinity) := by
  refine forall₂_congr fun token inside => ?_
  rw [finite_toJson]
  constructor
  · intro finite infinite
    exact absurd (finite _ infinite) (by decide)
  · intro other value number
    obtain ⟨rank, rfl⟩ := number_of_mem_scan inside number
    refine bne_iff_ne.2 fun last => other ?_
    rw [number, Double.infinity, show rank = Fin.last infinityRank from Fin.ext last]

namespace CommandLine

theorem out_runSource (file source : Text) :
    (runSource true file source).1.out = tokenJson (scan source) := by
  rw [runSource_eq, tokenJson_eq_rendering]

/-- The tokens of a source are written as a JSON document, an array of objects whose literals are strings,
numbers or null, exactly when no number among them is infinite. -/
theorem runSource_json (file source : Text) :
    ∃ final, ({ source, file } : Session).scanAll = (final, .ok ()) ∧
      (runSource true file source).1.out = tokenJson final.tokens.toList ∧
      (IsDocument (runSource true file source).1.out ↔
        ∀ token ∈ final.tokens, token.literal ≠ some (.number .infinity)) ∧
      (IsTokenArray final.tokens.size (runSource true file source).1.out ↔
        ∀ token ∈ final.tokens, token.literal ≠ some (.number .infinity)) := by
  have out := out_runSource file source
  have finite : (∀ token ∈ scan source, token.toJson.Finite) ↔
      ∀ token ∈ (scan source).toArray, token.literal ≠ some (.number .infinity) := by
    simpa using finite_scan_iff
  refine ⟨_, Session.scanAll_eq _, ?_⟩
  rw [out, Session.scanned_tokens, ← finite]
  refine ⟨rfl, isDocument_tokenJson_iff, ?_, isTokenArray_tokenJson⟩
  intro array
  exact isDocument_tokenJson_iff.1 array.isDocument

/-- A one with 309 zeros is past the largest double. -/
theorem runSource_json_overflow :
    ¬ IsDocument (runSource true promptFile ('1' :: List.replicate 309 '0')).1.out := by
  intro document
  rw [out_runSource, isDocument_tokenJson_iff, finite_scan_iff] at document
  have infinite : ∃ token ∈ scan ('1' :: List.replicate 309 '0'),
      token.literal = some (.number .infinity) := by decide +kernel
  obtain ⟨token, inside, literal⟩ := infinite
  exact document token inside literal

end CommandLine

end ScriptLexer
