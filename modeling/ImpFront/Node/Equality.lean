/-
Equality of syntax trees is decidable.

Two nodes are equal if they have the same form, the same position, the same stored type and
equal parts.  The comparison is written out because a node holds lists of nodes; `same_iff`
says that it is equality.
-/
import ImpFront.Node.Basic

namespace ImpFront
namespace Node

mutual
def same : Node → Node → Bool
  | constant p v, constant q w => p = q && v = w
  | reference p s i, reference q t j => p = q && s = t && i = j
  | binary p s o a b, binary q t u c d => p = q && s = t && o = u && same a c && same b d
  | unary p s o a, unary q t u b => p = q && s = t && o = u && same a b
  | parenthesized p s a, parenthesized q t b => p = q && s = t && same a b
  | assignment p i a, assignment q j b => p = q && i = j && same a b
  | print p a, print q b => p = q && same a b
  | input p i, input q j => p = q && i = j
  | forLoop p i a b s, forLoop q j c d t =>
    p = q && i = j && same a c && same b d && sameList s t
  | whileLoop p a s, whileLoop q b t => p = q && same a b && sameList s t
  | ifElse p a s t, ifElse q b u v => p = q && same a b && sameList s u && sameList t v
  | root p s t, root q u v => p = q && sameList s u && sameList t v
  | listElement p i none, listElement q j none => p = q && i = j
  | listElement p i (some a), listElement q j (some b) => p = q && i = j && same a b
  | _, _ => false

def sameList : List Node → List Node → Bool
  | [], [] => true
  | a :: s, b :: t => same a b && sameList s t
  | _, _ => false
end

mutual
theorem same_iff : ∀ a b : Node, same a b = true ↔ a = b
  | constant .., b => by cases b <;> simp [same]
  | reference .., b => by cases b <;> simp [same, and_assoc]
  | binary _ _ _ l r, b => by cases b <;> simp [same, and_assoc, same_iff l, same_iff r]
  | unary _ _ _ r, b => by cases b <;> simp [same, and_assoc, same_iff r]
  | parenthesized _ _ a, b => by cases b <;> simp [same, and_assoc, same_iff a]
  | assignment _ _ a, b => by cases b <;> simp [same, and_assoc, same_iff a]
  | print _ a, b => by cases b <;> simp [same, same_iff a]
  | input .., b => by cases b <;> simp [same]
  | forLoop _ _ l r s, b => by
    cases b <;> simp [same, and_assoc, same_iff l, same_iff r, sameList_iff s]
  | whileLoop _ a s, b => by cases b <;> simp [same, and_assoc, same_iff a, sameList_iff s]
  | ifElse _ a s t, b => by
    cases b <;> simp [same, and_assoc, same_iff a, sameList_iff s, sameList_iff t]
  | root _ s t, b => by cases b <;> simp [same, and_assoc, sameList_iff s, sameList_iff t]
  | listElement _ _ none, b => by
    cases b with
    | listElement _ _ next => cases next <;> simp [same]
    | _ => simp [same]
  | listElement _ _ (some a), b => by
    cases b with
    | listElement _ _ next => cases next <;> simp [same, and_assoc, same_iff a]
    | _ => simp [same]

theorem sameList_iff : ∀ s t : List Node, sameList s t = true ↔ s = t
  | [], t => by cases t <;> simp [sameList]
  | a :: s, t => by cases t <;> simp [sameList, same_iff a, sameList_iff s]
end

instance : DecidableEq Node := fun a b => decidable_of_iff _ (same_iff a b)

end Node
end ImpFront
