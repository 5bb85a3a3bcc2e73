/-
The events of a compilation that go to its log.
-/
import ImpFront.Diagnostic
import ImpFront.Operator
import ImpFront.Symbol.Table

namespace ImpFront

namespace Event

/-- How much an event matters, least first. -/
inductive Level where
  | trace
  | debug
  | warn
  | error
  deriving DecidableEq, Repr

inductive Field where
  | number (n : Nat)
  | text (s : String)
  deriving DecidableEq, Repr

end Event

inductive Event where
  /-- A name was used for the first time. -/
  | symbolCreated (name : String) (id : SymbolId)
  | variableDeclared (name : String)
  | duplicateDeclaration (name : String) (line : UInt32)
  | typeBound (name : String) (type : Ty)
  /-- A settled type was asked to change and did not. -/
  | typeKept (name : String) (bound requested : Ty)
  | undeclaredAssignment (name : String) (line : UInt32)
  /-- The operands of an operation broke `count` rules. -/
  | operandMismatch (operator : Operator) (count : Nat) (line : UInt32)
  /-- The resolver answered with a value of another type, which was dropped. -/
  | answerDropped (name : String) (expected received : Ty)
  | diagnosed (report : Report)
  deriving DecidableEq, Repr

namespace Event

def level : Event → Level
  | symbolCreated .. | typeBound .. => .trace
  | variableDeclared _ | duplicateDeclaration .. | typeKept .. | undeclaredAssignment ..
  | operandMismatch .. => .debug
  | answerDropped .. => .warn
  | diagnosed _ => .error

def message : Event → String
  | symbolCreated .. => "symbol created"
  | variableDeclared _ => "variable declared"
  | duplicateDeclaration .. => "duplicate declaration"
  | typeBound .. => "type bound"
  | typeKept .. => "type of a declared variable is fixed"
  | undeclaredAssignment .. => "assignment to undeclared variable"
  | operandMismatch .. => "operand type mismatch"
  | answerDropped .. => "resolver returned a value of the wrong type, keeping previous value"
  | diagnosed report => report.message

def fields : Event → List (String × Field)
  | symbolCreated name id => [("name", .text name), ("id", .number id.index.toNat)]
  | variableDeclared name => [("name", .text name)]
  | duplicateDeclaration name line | undeclaredAssignment name line =>
    [("name", .text name), ("line", .number line.toNat)]
  | typeBound name type => [("name", .text name), ("symbol_type", .text type.name)]
  | typeKept name bound requested =>
    [("name", .text name), ("bound", .text bound.name), ("requested", .text requested.name)]
  | operandMismatch operator count line =>
    [("operator", .text operator.symbol), ("count", .number count),
      ("line", .number line.toNat)]
  | answerDropped name expected received =>
    [("name", .text name), ("expected", .text expected.name),
      ("received", .text received.name)]
  | diagnosed report =>
    [("file", .text report.source), ("line", .number report.line.toNat),
      ("column", .number report.column.toNat)]

end Event
end ImpFront
