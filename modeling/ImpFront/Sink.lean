/-
Sinks: where the diagnostics of a compilation go besides the list it keeps.
-/
import ImpFront.Event

namespace ImpFront

/-- Something that leaves a compilation. -/
inductive Output where
  | event (e : Event)
  | report (r : Report)
  | errorText (text : String)
  deriving DecidableEq, Repr

/-- A sink answers every report with what it sends out.  It may keep a memory, and what it can
remember are the reports it received before: they are the first argument of `respond`, the
oldest first. -/
structure Sink where
  respond : List Report → Report → List Output

namespace Sink

def errorLine (report : Report) : String :=
  report.source ++ ":" ++ toString report.line.toNat ++ ":" ++ toString report.column.toNat ++
    ": error: " ++ report.message ++ "\n"

def memory : Sink := { respond := fun _ report => [.report report] }

def errorStream : Sink := { respond := fun _ report => [.errorText (errorLine report)] }

def log : Sink := { respond := fun _ report => [.event (.diagnosed report)] }

def null : Sink := { respond := fun _ _ => [] }

/-- What a sink makes of a report, after the reports it received earlier. -/
def emit (sink : Sink) (report : Report) (earlier : List Report := []) : List Output :=
  sink.respond earlier report

/-- What a sink makes of several reports, one after the other. -/
def emitAll (sink : Sink) (earlier : List Report) : List Report → List Output
  | [] => []
  | report :: rest => sink.emit report earlier ++ sink.emitAll (earlier ++ [report]) rest

end Sink
end ImpFront
