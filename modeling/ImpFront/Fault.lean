/-
Faults: the ways in which a program breaks the rules for variables and operands.

A fault carries texts and not types or operators.  It is shown and never decided upon, so the
rule that raises it chooses how the things involved are called.
-/
import ImpFront.Text.Message
import ImpFront.Text.Quoted

namespace ImpFront

/-- The operand of an operation that a fault points at. -/
inductive Side where
  | left
  | right
  deriving DecidableEq, Repr

namespace Side

def name : Side → String
  | left => "left"
  | right => "right"

end Side

inductive Fault where
  | alreadyDeclared (name : String)
  | notDeclared (name : String)
  /-- An assigned expression has the type of the variable. -/
  | assignmentMismatch (name expected received : String)
  /-- An operand has the one type its operation accepts. -/
  | operandMismatch (side : Side) (operator expected received : String)
  /-- Both operands of an addition have one of the two types it accepts. -/
  | additionMismatch (operator first second : String)
  | reservedTarget (name : String)
  deriving DecidableEq, Repr

namespace Fault

/-- The kind of the fault, as the heading of a rendered diagnostic gives it. -/
def label : Fault → String
  | alreadyDeclared _ => "DuplicateDeclarationError"
  | notDeclared _ => "UndeclaredVariableError"
  | assignmentMismatch .. | operandMismatch .. | additionMismatch .. => "TypeMismatchError"
  | reservedTarget _ => "ReservedIdentifierError"

/-- What to do about the fault, where there is one thing to do. -/
def tip : Fault → Option String
  | alreadyDeclared name => some ("Remove the second declaration of `" ++ name ++ "`")
  | notDeclared name => some ("Declare `" ++ name ++ "` before assigning to it")
  | assignmentMismatch _ expected received | operandMismatch _ _ expected received =>
    some ("Expected type `" ++ expected ++ "`, received `" ++ received ++ "`")
  | additionMismatch .. | reservedTarget _ => none

def message : Fault → Text.Message
  | alreadyDeclared name => [.plain "Variable ", .name name, .plain " was already declared"]
  | notDeclared name => [.plain "Variable ", .name name, .plain " is not declared"]
  | assignmentMismatch name expected received =>
    [.plain "Variable ", .name name, .plain " has type ", .name expected,
      .plain ", but a value of type ", .name received, .plain " is being assigned"]
  | operandMismatch side operator expected received =>
    [.plain "Operand on the ", .plain side.name, .plain " of operation ", .name operator,
      .plain " has type ", .name received, .plain ", but the operation only accepts ",
      .name expected]
  | additionMismatch operator first second =>
    [.plain "Operands on the left and right of operation ", .name operator,
      .plain " must both be of type ", .name first, .plain " or ", .name second]
  | reservedTarget _ => [.plain "Reserved words and numbers are invalid variable names"]

/-- The fault on one line for a log.  Names are quoted, so that no name can pass for a part of
the wording. -/
def summary : Fault → String
  | alreadyDeclared name => "variable " ++ Text.quoted name ++ " already declared"
  | notDeclared name => "variable " ++ Text.quoted name ++ " not declared"
  | assignmentMismatch name expected received =>
    "variable " ++ Text.quoted name ++ " has type " ++ expected ++
      ", assigned a value of type " ++ received
  | operandMismatch side operator expected received =>
    side.name ++ " operand of " ++ Text.quoted operator ++ " has type " ++ received ++
      ", expected " ++ expected
  | additionMismatch operator first second =>
    "operands of " ++ Text.quoted operator ++ " must both be " ++ first ++ " or " ++ second
  | reservedTarget name =>
    "reserved word or number " ++ Text.quoted name ++ " used as a variable name"

end Fault
end ImpFront
