/-
Sessions in which nothing is evaluated.

Until another resolver is chosen, every question is answered with the zero value of the type of
the variable.  Such an answer changes nothing: a declared variable has the zero value of its type
from its declaration on, also when the type is changed, and keeps it.  A variable without a type
is the exception that the log shows.  Its zero value is an integer, no value is undetermined, so
the answer is dropped with a warning, although nothing stands against the assignment.

`unevaluated_steps` says so for whole runs: what the values are, which steps warn, and what they
warn of.
-/
import ImpFront.Proofs.Journal
import ImpFront.Proofs.Reserved

namespace ImpFront

/-! ## Warnings -/

def Checked.warnings {α : Type} (c : Checked α) : List Event :=
  c.events.filter fun e => e.level = .warn

/-- The warnings of the operation of a step. -/
def Step.warnings (st : Step) : List Event := st.events.filter fun e => e.level = .warn

namespace Update

variable {α β : Type}

@[simp] theorem warnings_pure (t : SymbolTable) (value : α) : (pure t value).warnings = [] := rfl

@[simp] theorem warnings_map (f : α → β) (u : Update α) : (u.map f).warnings = u.warnings := rfl

@[simp] theorem warnings_andThen (u : Update α) (next : α → SymbolTable → Update β) :
    (u.andThen next).warnings = u.warnings ++ (next u.value u.table).warnings :=
  List.filter_append ..

end Update

namespace SymbolTable

theorem warnings_intern (t : SymbolTable) (name : String) : (t.intern name).warnings = [] := by
  unfold intern
  split <;> rfl

theorem warnings_declare (t : SymbolTable) (id : SymbolId) (pos : Position) :
    (t.declare id pos).warnings = [] := by
  unfold declare
  split
  · rfl
  · split <;> rfl

theorem warnings_bindType (t : SymbolTable) (id : SymbolId) (type : Ty) :
    (t.bindType id type).warnings = [] := by
  cases hy : t.get? id with
  | none => rw [bindType_of_unknown hy, Update.warnings_pure]
  | some y =>
    cases hs : y.isSettled with
    | true =>
      rw [bindType_of_settled hy hs]
      by_cases ht : y.type = type <;> simp [Checked.warnings, ht, Event.level]
    | false =>
      rw [bindType_of_open hy hs]
      rfl

theorem warnings_declareTyped (t : SymbolTable) (id : SymbolId) (type : Ty) (pos : Position) :
    (t.declareTyped id type pos).warnings = [] := by
  cases hclean : (t.declare id pos).isClean with
  | true =>
    rw [declareTyped_of_clean hclean, Update.warnings_andThen, warnings_declare,
      Update.warnings_map, warnings_bindType, List.nil_append]
  | false => rw [declareTyped_of_not_clean hclean, warnings_declare]

theorem warnings_declareAll (t : SymbolTable) (ids : List SymbolId) (type : Ty)
    (pos : Position) : (t.declareAll ids type pos).warnings = [] := by
  induction ids generalizing t with
  | nil => rfl
  | cons id rest ih =>
    rw [declareAll, Update.warnings_andThen, warnings_declareTyped, ih, List.nil_append]

/-- An assignment warns of an answer of another type than it asked for. -/
theorem warnings_assign {t : SymbolTable} {id : SymbolId} {y : Symbol} (hy : t.get? id = some y)
    (expression : Node) (answer : Query → Value) (pos : Position) :
    let query : Query := { expression := expression, table := t, target := y.type }
    (t.assign id expression answer pos).warnings =
      if y.declared = true ∧ y.type = expression.typeIn t ∧ (answer query).type ≠ y.type then
        [.answerDropped y.name y.type (answer query).type]
      else [] := by
  intro query
  cases hd : y.declared with
  | false =>
    rw [assign_of_undeclared hy hd, if_neg (by simp)]
    rfl
  | true =>
    by_cases ht : y.type = expression.typeIn t
    · rw [assign_of_match hy hd ht]
      by_cases hanswer : (answer query).type = y.type
      · rw [if_pos hanswer, if_neg fun h => h.2.2 hanswer]
        rfl
      · rw [if_neg hanswer, if_pos ⟨rfl, ht, hanswer⟩]
        rfl
    · rw [assign_of_mismatch hy hd ht, if_neg fun h => ht h.2.1]
      rfl

/-- With zero values only an answer for a variable without a type is of another type. -/
theorem warnings_assign_zero {t : SymbolTable} {id : SymbolId} {y : Symbol}
    (hy : t.get? id = some y) (expression : Node) (earlier : List Query) (pos : Position) :
    (t.assign id expression (Resolver.zero earlier) pos).warnings =
      if y.declared = true ∧ y.type = .undetermined ∧ expression.typeIn t = .undetermined then
        [.answerDropped y.name .undetermined .integer]
      else [] := by
  rw [warnings_assign hy]
  by_cases hu : y.type = .undetermined
  · simp [hu, Resolver.zero, Ty.zero, Value.type, @eq_comm Ty .undetermined]
  · have hzero : y.type.zero.type = y.type := Ty.type_zero hu
    rw [if_neg fun h => h.2.2 hzero, if_neg fun h => hu h.2.1]

end SymbolTable

theorem Operands.warnings_check (op : Operator) (operands : Operands) (pos : Position) :
    (operands.check op pos).warnings = [] := by
  by_cases h : operands.faults op = [] <;> simp [check, Checked.warnings, h, Event.level]

/-! ## Zero values -/

theorem Symbol.Unassigned.onAssign_zero {y : Symbol} (hy : y.Unassigned) (received : Ty) :
    (y.onAssign received Ty.zero).Unassigned := by
  unfold Symbol.onAssign
  split
  · rename_i h
    simp [Unassigned, Symbol.store, h.1]
  · exact hy

/-- The symbol that an assignment to the name reaches. -/
def SymbolTable.reached? (t : SymbolTable) (name : String) : Option Symbol :=
  (t.intern name).table.get? (t.intern name).value

/-- The step assigns an expression without a type to the declared variable `y`, which has no
type, by a name that can be assigned to. -/
def Step.AssignsUntyped (st : Step) (y : Symbol) : Prop :=
  ∃ name expression, st.operation = .assign name expression ∧ ¬ Target.IsReserved name ∧
    st.before.symbols.reached? name = some y ∧ y.declared = true ∧ y.type = .undetermined ∧
    expression.typeIn st.before.symbols = .undetermined

/-! ## One step -/

namespace Step

theorem warnings_of_not_assignment {st : Step}
    (h : ∀ name expression, st.operation ≠ .assign name expression) : st.warnings = [] := by
  obtain ⟨s, op⟩ := st
  show (s.effect op).warnings = []
  cases op with
  | intern name | listElement name | reference name | input name | forLoop name =>
    exact s.symbols.warnings_intern name
  | declare name =>
    rw [Session.effect, Update.warnings_andThen, SymbolTable.warnings_intern,
      SymbolTable.warnings_declare, List.nil_append]
  | bindType id type => exact s.symbols.warnings_bindType id type
  | declareList head type => exact s.symbols.warnings_declareAll _ type s.position
  | binary left op right => exact Operands.warnings_check op _ s.position
  | unary op right => exact Operands.warnings_check op _ s.position
  | assign name expression => exact absurd rfl (h name expression)
  | _ => rfl

end Step

theorem Session.warnings_effect_assign (s : Session) (name : String) (expression : Node) :
    (s.effect (.assign name expression)).warnings =
      if Target.IsReserved name then []
      else
        ((s.symbols.intern name).table.assign (s.symbols.intern name).value expression
          (s.resolver s.queries) s.position).warnings := by
  by_cases hname : Target.IsReserved name
  · rw [if_pos hname, effect, Target.check_of_isReserved hname]
    rfl
  · have hcheck : Target.check name s.position = none :=
      (Target.check_eq name s.position).trans (if_neg hname)
    rw [if_neg hname, effect, hcheck]
    simp only [Update.warnings_andThen, SymbolTable.warnings_intern, Update.warnings_map,
      List.nil_append]

namespace Step

variable {st : Step} {y : Symbol}

theorem warnings_of_assignsUntyped (hzero : st.before.resolver = .zero)
    (h : st.AssignsUntyped y) :
    st.warnings = [.answerDropped y.name .undetermined .integer] := by
  obtain ⟨s, op⟩ := st
  obtain ⟨name, expression, hop, hname, hy, hd, ht, he⟩ := h
  subst hop
  have hexpression : expression.typeIn (s.symbols.intern name).table = .undetermined :=
    (expression.typeIn_intern s.symbols name).trans he
  show (s.effect (.assign name expression)).warnings = _
  rw [s.warnings_effect_assign, if_neg hname, hzero, SymbolTable.warnings_assign_zero hy,
    if_pos ⟨hd, ht, hexpression⟩]

theorem exists_assignsUntyped (hzero : st.before.resolver = .zero) (h : st.warnings ≠ []) :
    ∃ y, st.AssignsUntyped y := by
  obtain ⟨s, op⟩ := st
  obtain ⟨name, expression, rfl⟩ : ∃ name expression, op = .assign name expression := by
    by_contra hother
    exact h (warnings_of_not_assignment fun name expression hop =>
      hother ⟨name, expression, hop⟩)
  replace h : (s.effect (.assign name expression)).warnings ≠ [] := h
  rw [s.warnings_effect_assign, hzero] at h
  by_cases hname : Target.IsReserved name
  · exact absurd (if_pos hname) h
  · rw [if_neg hname] at h
    cases hy : s.symbols.reached? name with
    | none =>
      rw [SymbolTable.assign_of_unknown hy] at h
      exact absurd rfl h
    | some y =>
      rw [SymbolTable.warnings_assign_zero hy, expression.typeIn_intern] at h
      by_cases huntyped : y.declared = true ∧ y.type = .undetermined ∧
          expression.typeIn s.symbols = .undetermined
      · exact ⟨y, name, expression, rfl, hname, hy, huntyped⟩
      · exact absurd (if_neg huntyped) h

end Step

/-! ## Runs -/

namespace Session

/-- No operation chooses another resolver. -/
theorem resolver_perform (s : Session) (op : Operation Node) :
    (s.perform op).2.resolver = s.resolver := by
  obtain ⟨queries, h⟩ := s.exists_perform_eq op
  rw [h]
  rfl

/-- Nothing is evaluated, and nothing was so far. -/
structure Unevaluated (s : Session) : Prop where
  resolver : s.resolver = .zero
  unassigned : ∀ y ∈ s.symbols.entries, y.Unassigned

theorem Unevaluated.perform (s : Session) (op : Operation Node) (h : s.Unevaluated) :
    (s.perform op).2.Unevaluated where
  resolver := (s.resolver_perform op).trans h.resolver
  unassigned := by
    refine keptByDeclarations_unassigned.perform h.unassigned ?_
    intro name expression _ _ t y _ hy
    have hanswers : s.answers t expression = Ty.zero := by
      funext target
      rw [answers, h.resolver]
      rfl
    rw [hanswers]
    exact hy.onAssign_zero _

/-- With the resolver that a session comes with, every symbol has no value before its declaration
and the zero value of its type after it, in every state.  A step warns exactly if it assigns an
expression without a type to a declared variable without one, by a name that is not reserved and
not a number, and it warns once, of an integer for that variable. -/
theorem unevaluated_steps (options : Options) (sink : Sink) (ops : List (Operation Node)) :
    let s := (new options).withSink sink
    (∀ y ∈ (s.performAll ops).symbols.entries,
        (y.declared = false → y.value = none) ∧
          (y.declared = true → y.value = some y.type.zero)) ∧
      ∀ st ∈ s.steps ops,
        st.sent = st.events.map Output.event ++ st.forwarded ∧
          (st.warnings ≠ [] ↔ ∃ y, st.AssignsUntyped y) ∧
          ∀ y, st.AssignsUntyped y →
            st.warnings = [.answerDropped y.name .undetermined .integer] := by
  intro s
  have hstart : s.Unevaluated := ⟨rfl, fun _ h => absurd h List.not_mem_nil⟩
  refine ⟨fun y hy => ?_, fun st hst => ?_⟩
  · have hvalue : y.value = if y.declared then some y.type.zero else none :=
      (performAll_keeps Unevaluated.perform hstart ops).unassigned y hy
    constructor <;> intro hd <;> simpa [hd] using hvalue
  · have hzero : st.before.resolver = .zero :=
      (before_keeps Unevaluated.perform hstart hst).resolver
    refine ⟨st.sent_eq, ⟨Step.exists_assignsUntyped hzero, ?_⟩,
      fun y => Step.warnings_of_assignsUntyped hzero⟩
    rintro ⟨y, hy⟩
    rw [Step.warnings_of_assignsUntyped hzero hy]
    exact List.cons_ne_nil _ _

/-- The variable `a` is assigned the reference to itself, then it becomes a string and is assigned
another string, which is not evaluated. -/
theorem unevaluated_steps_of_late_type :
    let s := (new {}).withSink .null
    let self := Node.reference s.position .undetermined ⟨0⟩
    let ops : List (Operation Node) :=
      [.declare "a", .assign "a" self, .bindType ⟨0⟩ .string,
        .assign "a" (.constant s.position (.string "x"))]
    let st : Step := ⟨s.performAll (ops.take 1), .assign "a" self⟩
    let y : Symbol := { name := "a", declared := true, value := some (.integer 0) }
    let late : Symbol := { y with type := .string, value := some (.string "") }
    st ∈ s.steps ops ∧ st.AssignsUntyped y ∧
      st.warnings = [.answerDropped "a" .undetermined .integer] ∧
      late ∈ (s.performAll ops).symbols.entries ∧ late.value = some late.type.zero := by
  intro s self ops st y late
  have hst : st ∈ s.steps ops := .tail _ (.head _)
  have hy : st.AssignsUntyped y :=
    ⟨"a", self, rfl, by decide, by decide, rfl, rfl, by decide⟩
  have hlate : late ∈ (s.performAll ops).symbols.entries := by decide
  obtain ⟨hvalues, hsteps⟩ := unevaluated_steps {} .null ops
  exact ⟨hst, hy, (hsteps st hst).2.2 y hy, hlate, (hvalues late hlate).2 rfl⟩

end Session
end ImpFront
