/-
What an assignment comes to.

An assignment is refused for one of three causes, of which the first counts
(`SymbolTable.Refuses`), or nothing stands against it (`SymbolTable.Takes`).  A refused assignment
adds one diagnostic, asks the resolver nothing and leaves the table as it is.  Any other one asks
the resolver once, and stores the answer if it has the type of the variable.  `SymbolTable.Assigned`
puts this together for one assignment to any table.

Over a run every assignment has left either a question or a diagnostic, and no other operation has
asked anything, so the questions can be counted (`asked_or_refused`).
-/
import ImpFront.Proofs.Run

namespace ImpFront

namespace SymbolTable

/-- The cause for which the assignment of an expression to a handle is refused. -/
inductive Refuses (t : SymbolTable) (id : SymbolId) (expression : Node) : Fault → Prop where
  | unknown : t.get? id = none → Refuses t id expression (.notDeclared "<unknown>")
  | undeclared {y : Symbol} : t.get? id = some y → y.declared = false →
    Refuses t id expression (.notDeclared y.name)
  | mismatch {y : Symbol} : t.get? id = some y → y.declared = true →
    y.type ≠ expression.typeIn t →
    Refuses t id expression
      (.assignmentMismatch y.name y.type.name (expression.typeIn t).name)

/-- Nothing stands against the assignment, and `y` is the symbol of the handle. -/
structure Takes (t : SymbolTable) (id : SymbolId) (expression : Node) (y : Symbol) : Prop where
  symbol : t.get? id = some y
  declared : y.declared = true
  type : y.type = expression.typeIn t

/-- What the assignment of an expression to a handle comes to. -/
structure Assigned (t : SymbolTable) (id : SymbolId) (expression : Node)
    (answer : Query → Value) (pos : Position) (u : Update (Option Query)) : Prop where
  refused_iff : u.diagnostics ≠ [] ↔ ∃ fault, t.Refuses id expression fault
  refused : ∀ fault, t.Refuses id expression fault →
    u.diagnostics = [⟨fault, pos⟩] ∧ u.value = none ∧ u.table = t
  taken : u.diagnostics = [] → ∃ y, t.Takes id expression y ∧
    let query : Query := { expression := expression, table := t, target := y.type }
    u.value = some query ∧
      u.table.entries =
        if (answer query).type = y.type then
          t.entries.set id.index.toNat { y with value := some (answer query) }
        else t.entries
  /-- The answers to questions that were not put do not matter. -/
  heard : ∀ other, (∀ query, u.value = some query → other query = answer query) →
    t.assign id expression other pos = u

end SymbolTable

namespace Operation

def isAssignment : Operation Node → Bool
  | .assign .. => true
  | _ => false

end Operation

/-- The question that an operation puts to the resolver, if it comes to that. -/
def Session.question? (s : Session) : Operation Node → Option Query
  | .assign name expression =>
    match Target.check name s.position with
    | some _ => none
    | none =>
      let assigned := (s.symbols.intern name).andThen fun id t =>
        t.assign id expression (s.resolver s.queries) s.position
      assigned.value
  | _ => none

/-- The questions that reach the resolver in the step. -/
def Step.asked (st : Step) : List Query := st.after.queries.drop st.before.queries.length

/-! ## One assignment -/

namespace SymbolTable

variable {t : SymbolTable} {id : SymbolId} {expression : Node} {answer : Query → Value}
  {pos : Position}

theorem refuses_or_takes (t : SymbolTable) (id : SymbolId) (expression : Node) :
    (∃ fault, t.Refuses id expression fault) ∨ ∃ y, t.Takes id expression y := by
  cases hy : t.get? id with
  | none => exact .inl ⟨_, .unknown hy⟩
  | some y =>
    cases hd : y.declared with
    | false => exact .inl ⟨_, .undeclared hy hd⟩
    | true =>
      by_cases ht : y.type = expression.typeIn t
      · exact .inr ⟨y, hy, hd, ht⟩
      · exact .inl ⟨_, .mismatch hy hd ht⟩

theorem assign_of_refuses {fault : Fault} (h : t.Refuses id expression fault)
    (answer : Query → Value) (pos : Position) :
    let u := t.assign id expression answer pos
    u.diagnostics = [⟨fault, pos⟩] ∧ u.value = none ∧ u.table = t := by
  cases h with
  | unknown hy =>
    rw [assign_of_unknown hy]
    exact ⟨rfl, rfl, rfl⟩
  | undeclared hy hd =>
    rw [assign_of_undeclared hy hd]
    exact ⟨rfl, rfl, rfl⟩
  | mismatch hy hd ht =>
    rw [assign_of_mismatch hy hd ht]
    exact ⟨rfl, rfl, rfl⟩

theorem assign_of_takes {y : Symbol} (h : t.Takes id expression y) (answer : Query → Value)
    (pos : Position) :
    let u := t.assign id expression answer pos
    let query : Query := { expression := expression, table := t, target := y.type }
    u.diagnostics = [] ∧ u.value = some query ∧
      u.table.entries =
        if (answer query).type = y.type then
          t.entries.set id.index.toNat { y with value := some (answer query) }
        else t.entries := by
  intro u query
  have hu : u = _ := assign_of_match h.symbol h.declared h.type answer pos
  by_cases hanswer : (answer query).type = y.type
  · rw [if_pos hanswer] at hu
    rw [if_pos hanswer, hu]
    exact ⟨rfl, rfl, entries_modify_of_get? h.symbol _⟩
  · rw [if_neg hanswer] at hu
    rw [if_neg hanswer, hu]
    exact ⟨rfl, rfl, rfl⟩

/-- A resolver that gives the same answer to the question put leaves the same behind. -/
theorem assign_congr {other : Query → Value}
    (h : ∀ query, (t.assign id expression answer pos).value = some query →
      other query = answer query) :
    t.assign id expression other pos = t.assign id expression answer pos := by
  obtain ⟨fault, hfault⟩ | ⟨y, hy⟩ := refuses_or_takes t id expression
  · cases hfault with
    | unknown hy => rw [assign_of_unknown hy, assign_of_unknown hy]
    | undeclared hy hd => rw [assign_of_undeclared hy hd, assign_of_undeclared hy hd]
    | mismatch hy hd ht => rw [assign_of_mismatch hy hd ht, assign_of_mismatch hy hd ht]
  · have hanswer := h _ (assign_of_takes hy answer pos).2.1
    have hother := assign_of_match hy.symbol hy.declared hy.type other pos
    rw [hother, assign_of_match hy.symbol hy.declared hy.type answer pos, hanswer]

theorem assigned (t : SymbolTable) (id : SymbolId) (expression : Node) (answer : Query → Value)
    (pos : Position) :
    t.Assigned id expression answer pos (t.assign id expression answer pos) where
  refused_iff := by
    constructor
    · intro hraised
      refine (refuses_or_takes t id expression).resolve_right ?_
      rintro ⟨y, hy⟩
      exact hraised (assign_of_takes hy answer pos).1
    · rintro ⟨fault, hfault⟩ hnone
      rw [(assign_of_refuses hfault answer pos).1] at hnone
      cases hnone
  refused _ hfault := assign_of_refuses hfault answer pos
  taken hnone := by
    obtain ⟨fault, hfault⟩ | ⟨y, hy⟩ := refuses_or_takes t id expression
    · rw [(assign_of_refuses hfault answer pos).1] at hnone
      cases hnone
    · exact ⟨y, hy, (assign_of_takes hy answer pos).2⟩
  heard _ h := assign_congr h

/-- An assignment leaves a question or a diagnostic, and not both. -/
theorem length_value_add_length_diagnostics (t : SymbolTable) (id : SymbolId) (expression : Node)
    (answer : Query → Value) (pos : Position) :
    (t.assign id expression answer pos).value.toList.length +
      (t.assign id expression answer pos).diagnostics.length = 1 := by
  obtain ⟨fault, hfault⟩ | ⟨y, hy⟩ := refuses_or_takes t id expression
  · obtain ⟨hraised, hasked, -⟩ := assign_of_refuses hfault answer pos
    rw [hraised, hasked]
    rfl
  · obtain ⟨hraised, hasked, -⟩ := assign_of_takes hy answer pos
    rw [hraised, hasked]
    rfl

end SymbolTable

/-! ## Assignments of a run -/

namespace Session

theorem queries_perform (s : Session) (op : Operation Node) :
    (s.perform op).2.queries = s.queries ++ (s.question? op).toList := by
  cases op with
  | assign name expression =>
    show (s.assign name expression).2.queries = _
    rw [assign, question?]
    cases Target.check name s.position with
    | some diagnostic => exact (List.append_nil _).symm
    | none => rfl
  | _ => exact (List.append_nil _).symm

theorem asked_eq (st : Step) : st.asked = (st.before.question? st.operation).toList := by
  rw [Step.asked, Step.after, queries_perform]
  exact List.drop_left

theorem queries_performAll (s : Session) (ops : List (Operation Node)) :
    (s.performAll ops).queries = s.queries ++ (s.steps ops).flatMap Step.asked := by
  induction ops generalizing s with
  | nil => exact (List.append_nil _).symm
  | cons op rest ih =>
    rw [steps, List.flatMap_cons, ← List.append_assoc, asked_eq, ← queries_perform]
    exact ih (s.perform op).2

end Session

namespace Step

theorem length_asked_add_length_raised {st : Step} (h : st.operation.isAssignment = true) :
    st.asked.length + st.raised.length = 1 := by
  obtain ⟨s, op⟩ := st
  rw [Session.asked_eq, Session.raised_eq]
  cases op with
  | assign name expression =>
    simp only [Session.question?, Session.effect]
    cases Target.check name s.position with
    | some diagnostic => rfl
    | none =>
      rw [Update.diagnostics_andThen, SymbolTable.diagnostics_intern, List.nil_append]
      exact SymbolTable.length_value_add_length_diagnostics ..
  | _ => cases h

theorem asked_of_not_isAssignment {st : Step} (h : st.operation.isAssignment = false) :
    st.asked = [] := by
  obtain ⟨s, op⟩ := st
  rw [Session.asked_eq]
  cases op with
  | assign name expression => cases h
  | _ => rfl

/-- The questions of steps are those of the assignments among them. -/
theorem flatMap_asked (sts : List Step) :
    sts.flatMap asked = (sts.filter fun st => st.operation.isAssignment).flatMap asked := by
  induction sts with
  | nil => rfl
  | cons st rest ih =>
    rw [List.flatMap_cons, List.filter_cons, ih]
    cases h : st.operation.isAssignment with
    | true => rfl
    | false =>
      rw [asked_of_not_isAssignment h]
      rfl

theorem length_flatMap_asked_add {sts : List Step}
    (h : ∀ st ∈ sts, st.operation.isAssignment = true) :
    (sts.flatMap asked).length + (sts.flatMap raised).length = sts.length := by
  induction sts with
  | nil => rfl
  | cons st rest ih =>
    have hone := length_asked_add_length_raised (h st List.mem_cons_self)
    have hrest := ih fun other hother => h other (List.mem_cons_of_mem st hother)
    simp only [List.flatMap_cons, List.length_append, List.length_cons]
    omega

end Step

/-- An assignment to any table is refused for the first cause that there is, with one diagnostic
and without a question or a change, or it asks once and stores an answer of the right type at its
place.  After every run there have been as many questions and diagnostics of assignments together
as assignments. -/
theorem Session.asked_or_refused :
    (∀ (t : SymbolTable) (id : SymbolId) (expression : Node) (answer : Query → Value)
        (pos : Position),
      t.Assigned id expression answer pos (t.assign id expression answer pos)) ∧
    ∀ (options : Options) (sink : Sink) (resolver : Resolver) (ops : List (Operation Node)),
      let s := start options sink resolver
      let assignments := (s.steps ops).filter fun st => st.operation.isAssignment
      (s.performAll ops).queries.length + (assignments.flatMap Step.raised).length =
        assignments.length := by
  refine ⟨SymbolTable.assigned, fun options sink resolver ops => ?_⟩
  intro s assignments
  have hqueries : (s.performAll ops).queries = assignments.flatMap Step.asked := by
    rw [queries_performAll, Step.flatMap_asked]
    rfl
  have hall : ∀ st ∈ assignments, st.operation.isAssignment = true :=
    fun st hst => (List.mem_filter.mp hst).2
  rw [hqueries]
  exact Step.length_flatMap_asked_add hall

/-- Of four assignments three are refused: to a reserved word, to a variable that is not declared
and to one without a type. -/
theorem Session.asked_or_refused_of_four_assignments :
    let s := start {} .null .zero
    let one := Node.constant s.position (.integer 1)
    let ops : List (Operation Node) :=
      [.assign "if" one, .assign "a" one, .declare "a", .assign "a" one, .bindType ⟨0⟩ .integer,
        .assign "a" one]
    let assignments := (s.steps ops).filter fun st => st.operation.isAssignment
    assignments.length = 4 ∧ (assignments.flatMap Step.raised).length = 3 ∧
      (s.performAll ops).queries.length = 1 := by
  intro s one ops assignments
  have hrun := asked_or_refused.2 {} .null .zero ops
  have hlength : assignments.length = 4 := rfl
  have hraised : (assignments.flatMap Step.raised).length = 3 := by decide
  refine ⟨hlength, hraised, ?_⟩
  have hsum : (s.performAll ops).queries.length + (assignments.flatMap Step.raised).length =
      assignments.length := hrun
  omega

end ImpFront
