import ScriptLexer.Fault
import ScriptLexer.Proofs.Cutting.Lexeme
import ScriptLexer.Proofs.Cutting.Position

/-! A source as a row of segments, each a lexeme with its form, and the place of every segment. No
character is left out: the texts of the segments in order are the source. -/
namespace ScriptLexer

structure Segment where
  form : LexemeForm
  text : Text
  deriving DecidableEq, Repr

/-- The source cut into lexemes from front to back. -/
def segments : Text → List Segment
  | [] => []
  | c :: rest =>
    let cut := Cut.first c rest
    ⟨cut.form, cut.taken⟩ :: segments cut.left
termination_by source => source.length
decreasing_by exact Cut.length_left_first_lt c rest

@[simp] theorem segments_nil : segments [] = [] := by
  rw [segments]

theorem segments_cons (c : Char) (rest : Text) :
    segments (c :: rest)
      = ⟨(Cut.first c rest).form, (Cut.first c rest).taken⟩ :: segments (Cut.first c rest).left := by
  rw [segments]

/-- Induction from what a cut leaves to the text it was made from. -/
@[elab_as_elim]
theorem cut_induction {motive : Text → Prop} (nil : motive [])
    (cons : ∀ c rest, motive (Cut.first c rest).left → motive (c :: rest)) (text : Text) :
    motive text := by
  induction text using segments.induct with
  | case1 => exact nil
  | case2 c rest cut ih => exact cons c rest ih

theorem flatMap_text_segments (source : Text) : (segments source).flatMap Segment.text = source := by
  induction source using cut_induction with
  | nil => rw [segments_nil, List.flatMap_nil]
  | cons c rest ih => rw [segments_cons, List.flatMap_cons, ih, Cut.first_append]

/-- A segment and the position of its first character. -/
structure Item where
  segment : Segment
  start : Position
  deriving DecidableEq, Repr

/-- Each segment starts where the one before it ends. -/
def placed (start : Position) : List Segment → List Item
  | [] => []
  | segment :: rest => ⟨segment, start⟩ :: placed (start.after segment.text) rest

def items (source : Text) : List Item := placed .start (segments source)

namespace Item

/-- The position just past the segment. -/
def finish (item : Item) : Position := item.start.after item.segment.text

def token? (item : Item) : Option Token :=
  let { form, text } := item.segment
  (form.tokenKind? text).map fun kind =>
    { kind, lexeme := text, literal := form.literal? text, line := item.start.line }

/-- A fault and its place: an unexpected character is blamed where it stands, an unterminated
string where the source ends. -/
def fault? (item : Item) : Option (Fault × Position) :=
  match item.segment.form with
  | .unexpected c => some (.unexpected c, item.start)
  | .unterminated => some (.unterminated, item.finish)
  | _ => none

end Item

end ScriptLexer
