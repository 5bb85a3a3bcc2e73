/-
The syntax tree of a program.

Every node keeps the position it was built at.  An operation also keeps the type it was given
when it was built.  The type of a variable may become known later, so a reference and a pair of
parentheses are asked for their type again each time; the type they were built with is kept and
tells two nodes apart, but `typeIn` does not read it.

An identifier list such as `a, b, c` is a chain of list elements.  A chain grows only at its
end, and any node may be put there; the identifiers are those before the first node that is not
a list element.
-/
import ImpFront.Operator
import ImpFront.Position
import ImpFront.Symbol.Table

namespace ImpFront

inductive Node where
  | constant (pos : Position) (value : Value)
  /-- The use of a variable in an expression. -/
  | reference (pos : Position) (seen : Ty) (symbol : SymbolId)
  | binary (pos : Position) (type : Ty) (op : Operator) (left right : Node)
  /-- An operation with its operator in front. -/
  | unary (pos : Position) (type : Ty) (op : Operator) (right : Node)
  | parenthesized (pos : Position) (seen : Ty) (inner : Node)
  | assignment (pos : Position) (target : SymbolId) (expression : Node)
  | print (pos : Position) (expression : Node)
  | input (pos : Position) (target : SymbolId)
  | forLoop (pos : Position) (counter : SymbolId) (first last : Node) (body : List Node)
  | whileLoop (pos : Position) (condition : Node) (body : List Node)
  | ifElse (pos : Position) (condition : Node) (thenBody elseBody : List Node)
  | root (pos : Position) (declarations statements : List Node)
  /-- One identifier of an identifier list, and what follows it. -/
  | listElement (pos : Position) (symbol : SymbolId) (next : Option Node)

namespace Node

def position : Node → Position
  | constant pos _ | reference pos .. | binary pos .. | unary pos .. | parenthesized pos ..
  | assignment pos .. | print pos _ | input pos _ | forLoop pos .. | whileLoop pos ..
  | ifElse pos .. | root pos .. | listElement pos .. => pos

/-- Whether the node is an expression.  All other nodes are statements or parts of them. -/
def isExpression : Node → Bool
  | constant .. | reference .. | binary .. | unary .. | parenthesized .. => true
  | assignment .. | print .. | input .. | forLoop .. | whileLoop .. | ifElse .. | root ..
  | listElement .. => false

/-- The type of a node in a table.  Constants and operations have the type they were built
with, a reference has the current type of its symbol, parentheses have the type of what they
enclose, and a statement has none. -/
def typeIn (table : SymbolTable) : Node → Ty
  | constant _ value => value.type
  | reference _ _ symbol => table.typeOf symbol
  | binary _ type _ _ _ | unary _ type _ _ => type
  | parenthesized _ _ inner => inner.typeIn table
  | assignment .. | print .. | input .. | forLoop .. | whileLoop .. | ifElse .. | root ..
  | listElement .. => .undetermined

/-! ## Identifier lists -/

/-- The symbols of the identifier list that starts at the node. -/
def listSymbols : Node → List SymbolId
  | listElement _ symbol none => [symbol]
  | listElement _ symbol (some next) => symbol :: next.listSymbols
  | _ => []

/-- The list with `tail` put at its end.  There is no such list if the node, or the node that
some element is followed by, is not a list element. -/
def link? : Node → Node → Option Node
  | listElement pos symbol none, tail => some (listElement pos symbol (some tail))
  | listElement pos symbol (some next), tail =>
    (next.link? tail).map fun next => listElement pos symbol (some next)
  | _, _ => none

/-- The symbols of the linked list are those of its two parts. -/
theorem listSymbols_of_link? {tail linked : Node} :
    ∀ {n : Node}, n.link? tail = some linked →
      linked.listSymbols = n.listSymbols ++ tail.listSymbols
  | listElement _ _ none, h => by
    cases h
    rfl
  | listElement _ _ (some next), h => by
    rw [link?, Option.map_eq_some_iff] at h
    obtain ⟨rest, hrest, rfl⟩ := h
    simp only [listSymbols, List.cons_append]
    rw [listSymbols_of_link? hrest]
  | constant .., h | reference .., h | binary .., h | unary .., h | parenthesized .., h
  | assignment .., h | print .., h | input .., h | forLoop .., h | whileLoop .., h
  | ifElse .., h | root .., h => by cases h

end Node
end ImpFront
