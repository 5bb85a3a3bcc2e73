/-
What the values of symbols have to do with their types.

A symbol has no value before its declaration and a value of its type from then on.  A declared
symbol without a type is the case that needs care: its value is the integer zero and stays so,
although an expression without a type can be assigned to it, because no answer of a resolver
has the type of such a symbol.
-/
import ImpFront.Proofs.Run

namespace ImpFront
namespace Symbol

/-- The value of the symbol goes with its declaration and its type. -/
structure Coherent (y : Symbol) : Prop where
  undeclared : y.declared = false → y.value = none
  typed : y.declared = true → y.type ≠ .undetermined →
    ∃ v, y.value = some v ∧ v.type = y.type
  untyped : y.declared = true → y.type = .undetermined → y.value = some (.integer 0)

theorem coherent_fresh (name : String) : Coherent { name := name } where
  undeclared _ := rfl
  typed h := by cases h
  untyped h := by cases h

/-- A declared symbol with the zero value of its type. -/
theorem coherent_zero {y : Symbol} (hd : y.declared = true) (hv : y.value = some y.type.zero) :
    y.Coherent where
  undeclared h := by simp [hd] at h
  typed _ ht := ⟨y.type.zero, hv, Ty.type_zero ht⟩
  untyped _ ht := by
    rw [hv, ht]
    rfl

/-- A declared symbol with a value of its type.  The type is then determined. -/
theorem coherent_value {y : Symbol} {v : Value} (hd : y.declared = true)
    (hv : y.value = some v) (ht : v.type = y.type) : y.Coherent where
  undeclared h := by simp [hd] at h
  typed _ _ := ⟨v, hv, ht⟩
  untyped _ hu := absurd (ht.trans hu) v.type_ne_undetermined

theorem Coherent.onDeclare {y : Symbol} (hy : y.Coherent) : y.onDeclare.Coherent := by
  unfold Symbol.onDeclare
  split
  · exact hy
  · exact coherent_zero rfl rfl

/- Before the declaration a type comes without a value.  After it, the value that is there is
kept if it has the new type and is replaced by the zero value otherwise. -/
theorem Coherent.onBind {y : Symbol} (hy : y.Coherent) (type : Ty) :
    (y.onBind type).Coherent := by
  unfold Symbol.onBind
  split
  · exact hy
  · cases hd : y.declared with
    | false =>
      have hvalue : (y.bind type).value = none := by simp [Symbol.bind, hd, hy.undeclared hd]
      have hdeclared : (y.bind type).declared = false := hd
      exact ⟨fun _ => hvalue, fun h => by simp [hdeclared] at h, fun h => by simp [hdeclared] at h⟩
    | true =>
      by_cases hkeep : y.value.map Value.type = some type
      · obtain ⟨v, hv, ht⟩ := Option.map_eq_some_iff.mp hkeep
        have hvalue : (y.bind type).value = some v := by simp [Symbol.bind, hv, ht]
        exact coherent_value hd hvalue ht
      · have hvalue : (y.bind type).value = some type.zero := by simp [Symbol.bind, hd, hkeep]
        exact coherent_zero hd hvalue

theorem Coherent.onAssign {y : Symbol} (hy : y.Coherent) (received : Ty) (answer : Ty → Value) :
    (y.onAssign received answer).Coherent := by
  unfold Symbol.onAssign
  split
  · rename_i h
    exact coherent_value h.1 rfl h.2.2
  · exact hy

end Symbol

namespace Session

theorem kept_coherent : Kept Symbol.Coherent where
  fresh := Symbol.coherent_fresh
  onDeclare _ hy := hy.onDeclare
  onBind type _ hy := hy.onBind type
  onAssign received answer _ hy := hy.onAssign received answer

/-- However a session is used, and whatever its resolver answers, the values of its symbols go
with their declarations and types. -/
theorem coherent_performAll (options : Options) (sink : Sink) (resolver : Resolver)
    (ops : List (Operation Node)) {y : Symbol}
    (hy : y ∈ ((start options sink resolver).performAll ops).symbols.entries) : y.Coherent :=
  kept_coherent.performAll (fun _ h => absurd h List.not_mem_nil) ops y hy

/-- The variable `a` without a type is assigned the reference to itself, and the resolver
answers with a string. -/
theorem coherent_untyped_self_assignment :
    let s := (start {} .null fun _ _ => .string "a").performAll
      [.declare "a", .assign "a" (.reference (start {} .null .zero).position .undetermined ⟨0⟩)]
    let y : Symbol := { name := "a", declared := true, value := some (.integer 0) }
    s.hasErrors = false ∧ y ∈ s.symbols.entries ∧ y.Coherent := by
  intro s y
  have hy : y ∈ s.symbols.entries := by decide
  exact ⟨by decide, hy, coherent_performAll _ _ _ _ hy⟩

end Session
end ImpFront
