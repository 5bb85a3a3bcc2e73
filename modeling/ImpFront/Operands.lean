/-
The operand rules.

Subtraction, multiplication and division take integers.  Addition takes two integers or two
strings, and in front of one operand it takes an integer or a string.  The other operators have
no rule.  An operand that is missing breaks none.
-/
import ImpFront.Checked
import ImpFront.Node.Basic

namespace ImpFront

/-- The types of the operands that are there. -/
structure Operands where
  left : Option Ty
  right : Option Ty
  deriving DecidableEq, Repr

namespace Operands

def additionName : String := "addition (+)"

def integerFault (op : Operator) (side : Side) : Option Ty → Option Fault
  | none | some .integer => none
  | some received =>
    some (.operandMismatch side op.symbol Ty.integer.name received.name)

/-- One fault for each operand that is not an integer, left before right, under an operator
that takes integers only. -/
def integerFaults (op : Operator) (operands : Operands) : List Fault :=
  if op.takesIntegersOnly then
    (integerFault op .left operands.left).toList ++ (integerFault op .right operands.right).toList
  else []

def isAddable (type : Ty) : Bool :=
  type = .integer || type = .string

def areAddable (operands : Operands) : Bool :=
  match operands.left, operands.right with
  | some left, some right => left = right && isAddable left
  | some type, none | none, some type => isAddable type
  | none, none => true

/-- One fault for an addition that does not take its operands. -/
def additionFaults (op : Operator) (operands : Operands) : List Fault :=
  if op = .addition ∧ ¬ operands.areAddable then
    [.additionMismatch additionName Ty.integer.name Ty.string.name]
  else []

def faults (op : Operator) (operands : Operands) : List Fault :=
  operands.integerFaults op ++ operands.additionFaults op

def ofNodes (table : SymbolTable) (left right : Option Node) : Operands :=
  { left := left.map (Node.typeIn table)
    right := right.map (Node.typeIn table) }

/-- Check the operands of an operation.  An operation with a fault leaves one event, however
many faults it has. -/
def check (op : Operator) (operands : Operands) (pos : Position) : Checked Unit :=
  let faults := operands.faults op
  { value := ()
    diagnostics := faults.map fun fault => ⟨fault, pos⟩
    events :=
      if faults.isEmpty then [] else [.operandMismatch op faults.length pos.line] }

end Operands
end ImpFront
