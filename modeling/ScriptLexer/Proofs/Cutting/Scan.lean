import ScriptLexer.Proofs.Cutting.Segment

/-! What a whole source holds, told by its segments and not by the steps of a scan: the tokens with the one
for the end, and the faults, which never stop a scan. -/
namespace ScriptLexer

def scan (source : Text) : List Token :=
  (items source).filterMap Item.token? ++ [endToken (Position.start.after source).line]

def faults (source : Text) : List (Fault × Position) := (items source).filterMap Item.fault?

def diagnostics (file source : Text) : List Diagnostic :=
  (faults source).map fun (fault, place) => fault.diagnostic (place.location file)

/-- The diagnostics in short; no report names a file. -/
def reports (source : Text) : List Report := (diagnostics [] source).map Diagnostic.report

end ScriptLexer
