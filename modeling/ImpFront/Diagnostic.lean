/-
Diagnostics: faults at their positions, and the forms in which they are shown.
-/
import ImpFront.Fault
import ImpFront.Position

namespace ImpFront

structure Diagnostic where
  fault : Fault
  position : Position
  deriving DecidableEq, Repr

/-- What a diagnostic tells the outside: its position and its message as text. -/
structure Report where
  source : String
  line : UInt32
  column : UInt32
  message : String
  deriving DecidableEq, Repr

namespace Diagnostic

def message (d : Diagnostic) (highlight : Bool) : String :=
  d.fault.message.render highlight

def summary (d : Diagnostic) : String :=
  d.position.display ++ ": " ++ d.fault.summary

def report (d : Diagnostic) (highlight : Bool) : Report :=
  { source := d.position.file
    line := d.position.line
    column := d.position.column
    message := d.message highlight }

/-- The first line of the rendered form: the kind of the fault, with the tip in parentheses
where there is one. -/
def heading (d : Diagnostic) : String :=
  match d.fault.tip with
  | none => "Error: " ++ d.fault.label
  | some tip => "Error: " ++ d.fault.label ++ " (" ++ tip ++ ")"

/-- The diagnostic as it is shown to the user, on three lines: heading, position, message. -/
def render (d : Diagnostic) (highlight : Bool) : String :=
  d.heading ++ "\n-> " ++ d.position.display ++ "\n   | " ++ d.message highlight

end Diagnostic
end ImpFront
