/-
Assignments, and the boundary to the evaluator.

An assignment does not compute.  It puts a question to a resolver, which may do anything it
likes to find the value, and stores the answer only if it has the type of the variable.
-/
import ImpFront.Checked
import ImpFront.Node.Basic

namespace ImpFront

/-- The question an assignment asks: the value of an expression in a table, for a variable of a
type. -/
structure Query where
  expression : Node
  table : SymbolTable
  target : Ty

/-- Answers questions.  A resolver may keep a memory, and what it can remember are the
questions it was asked before: they are its first argument, the oldest first. -/
abbrev Resolver := List Query → Query → Value

namespace Resolver

/-- Evaluates nothing and answers with the zero value of the type asked for. -/
def zero : Resolver := fun _ query => query.target.zero

end Resolver

namespace SymbolTable

/-- Assign an expression to a variable.  The value of the update is the question that was
asked, if the assignment got as far as that. -/
def assign (t : SymbolTable) (id : SymbolId) (expression : Node) (answer : Query → Value)
    (pos : Position) : Update (Option Query) :=
  match t.get? id with
  | none => .rejectUnknown t none pos
  | some symbol =>
    if ¬ symbol.declared then
      .reject t none ⟨.notDeclared symbol.name, pos⟩
        [.undeclaredAssignment symbol.name pos.line]
    else
      let received := expression.typeIn t
      if symbol.type ≠ received then
        .reject t none
          ⟨.assignmentMismatch symbol.name symbol.type.name received.name, pos⟩ []
      else
        let query := { expression := expression, table := t, target := symbol.type }
        let value := answer query
        if value.type = symbol.type then
          { value := some query, table := t.modify id (Symbol.store · value) }
        else
          { value := some query
            events := [.answerDropped symbol.name symbol.type value.type]
            table := t }

end SymbolTable
end ImpFront
