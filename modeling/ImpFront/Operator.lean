/-
Operators and the types of their results.
-/
import ImpFront.Value

namespace ImpFront

/-- The tag of an operation.  Besides the thirteen operators there are two marks for bare
operands, which no operation produces. -/
inductive Operator where
  | constantMark
  | variableMark
  | addition
  | subtraction
  | multiplication
  | division
  | greaterThan
  | greaterOrEqual
  | lessThan
  | lessOrEqual
  | equal
  | notEqual
  | disjunction
  | conjunction
  | negation
  deriving DecidableEq, Repr

namespace Operator

/-- The four groups of operators.  Each operator is in exactly one of them. -/
inductive Family where
  | operand
  | arithmetic
  | relational
  | logical
  deriving DecidableEq, Repr

def family : Operator → Family
  | constantMark | variableMark => .operand
  | addition | subtraction | multiplication | division => .arithmetic
  | greaterThan | greaterOrEqual | lessThan | lessOrEqual | equal | notEqual => .relational
  | disjunction | conjunction | negation => .logical

def all : List Operator :=
  [constantMark, variableMark, addition, subtraction, multiplication, division,
    greaterThan, greaterOrEqual, lessThan, lessOrEqual, equal, notEqual,
    disjunction, conjunction, negation]

def symbol : Operator → String
  | constantMark => "constant"
  | variableMark => "variable"
  | addition => "+"
  | subtraction => "-"
  | multiplication => "*"
  | division => "/"
  | greaterThan => ">"
  | greaterOrEqual => ">="
  | lessThan => "<"
  | lessOrEqual => "<="
  | equal => "=="
  | notEqual => "!="
  | disjunction => "||"
  | conjunction => "&&"
  | negation => "!"

/-- Every arithmetic operator except addition takes integers and nothing else. -/
def takesIntegersOnly (op : Operator) : Bool :=
  op.family = .arithmetic && op ≠ addition

/-- The type of the value an operation produces.  Addition of two strings is a string, and
every other arithmetic result is an integer, also where the operands are wrong: an error in an
operand is reported once, at that operand, and not again by everything above it. -/
def resultType (op : Operator) (left right : Ty) : Ty :=
  match op.family with
  | .operand => .undetermined
  | .arithmetic =>
    if op = addition ∧ left = .string ∧ right = .string then .string else .integer
  | .relational | .logical => .boolean

theorem mem_all (op : Operator) : op ∈ all := by
  cases op <;> decide

theorem symbol_injective {first second : Operator} (h : first.symbol = second.symbol) :
    first = second := by
  revert h
  cases first <;> cases second <;> decide

end Operator
end ImpFront
