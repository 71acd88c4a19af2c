import ScriptLexer.Text

/-! Reports, the short form in which errors leave the scanner: a line and a message. A collector
keeps the reports it is given, in order. -/
namespace ScriptLexer

structure Report where
  line : Int
  message : Text
  deriving DecidableEq, Repr

/-- The line a shell prints for a report. -/
def Report.shown (report : Report) : Text :=
  "[line ".toList ++ signedDecimal report.line ++ "] Error: ".toList ++ report.message

def reportLines (reports : List Report) : Text :=
  reports.flatMap fun report => report.shown ++ ['\n']

structure Collector where
  reports : Array Report := #[]
  deriving DecidableEq, Repr

namespace Collector

def add (collector : Collector) (report : Report) : Collector := ⟨collector.reports.push report⟩

def hadError (collector : Collector) : Bool := !collector.reports.isEmpty

end Collector

end ScriptLexer
