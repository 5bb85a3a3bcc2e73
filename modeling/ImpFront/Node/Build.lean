/-
Building nodes whose stored type or whose diagnostics depend on a symbol table.
-/
import ImpFront.Operands

namespace ImpFront
namespace Node

def mkReference (table : SymbolTable) (symbol : SymbolId) (pos : Position) : Node :=
  reference pos (table.typeOf symbol) symbol

/-- An expression in parentheses, built with the type that the expression has now. -/
def mkParenthesized (table : SymbolTable) (inner : Node) (pos : Position) : Node :=
  parenthesized pos (inner.typeIn table) inner

/-- An operation on two operands.  The node is built also where the operands are wrong. -/
def mkBinary (table : SymbolTable) (left : Node) (op : Operator) (right : Node)
    (pos : Position) : Checked Node :=
  let type := op.resultType (left.typeIn table) (right.typeIn table)
  let checked := (Operands.ofNodes table (some left) (some right)).check op pos
  { value := binary pos type op left right
    diagnostics := checked.diagnostics
    events := checked.events }

/-- An operation with its operator in front.  Its result has the type it would have with the
operand on both sides. -/
def mkUnary (table : SymbolTable) (op : Operator) (right : Node) (pos : Position) :
    Checked Node :=
  let type := op.resultType (right.typeIn table) (right.typeIn table)
  let checked := (Operands.ofNodes table none (some right)).check op pos
  { value := unary pos type op right
    diagnostics := checked.diagnostics
    events := checked.events }

def mkListElement (symbol : SymbolId) (pos : Position) : Node :=
  listElement pos symbol none

end Node
end ImpFront
