/-
Reserved words and numbers are never assigned to.

Any name can be used, declared and typed, a reserved word like any other.  An assignment refuses
it by its text, and stores by a handle.  What ties the two together is that the handle of a name
leads to the symbol of that name: an assignment that is not refused does not reach a reserved
symbol (`unassigned_perform`), so the only value such a symbol ever gets is the zero value of its
type.  `reserved_steps` says so for whole runs, and with it what a refused assignment does and
that no assignment node holds the handle of a reserved symbol.
-/
import ImpFront.Proofs.Handles

namespace ImpFront

namespace Target

/-- A reserved word or a number. -/
def IsReserved (name : String) : Prop := name ∈ reservedWords ∨ isNumber name = true

instance (name : String) : Decidable (IsReserved name) := inferInstanceAs (Decidable (_ ∨ _))

theorem isRefused_iff (name : String) : isRefused name = true ↔ IsReserved name := by
  simp [isRefused, fault?, isReservedWord, IsReserved]

theorem check_of_isReserved {name : String} (h : IsReserved name) (pos : Position) :
    check name pos = some ⟨.reservedTarget name, pos⟩ :=
  (check_eq name pos).trans (if_pos h)

end Target

/-! ## Symbols that are not assigned to -/

namespace Symbol

/-- The symbol has no value before its declaration and the zero value of its type after it. -/
def Unassigned (y : Symbol) : Prop := y.value = if y.declared then some y.type.zero else none

theorem unassigned_fresh (name : String) : Unassigned { name := name } := rfl

theorem Unassigned.onDeclare {y : Symbol} (hy : y.Unassigned) : y.onDeclare.Unassigned := by
  unfold Symbol.onDeclare
  split
  · exact hy
  · rfl

/- A declared symbol is open if it has no type yet.  Its value is the integer zero then, which is
replaced unless the new type is that of integers. -/
theorem Unassigned.onBind {y : Symbol} (hy : y.Unassigned) (type : Ty) :
    (y.onBind type).Unassigned := by
  cases hs : y.isSettled with
  | true =>
    rw [Symbol.onBind, if_pos hs]
    exact hy
  | false =>
    rw [Symbol.onBind, if_neg (by simp [hs])]
    cases hd : y.declared with
    | false => simpa [Unassigned, Symbol.bind, hd] using hy
    | true =>
      have ht : y.type = .undetermined := by simpa [isSettled, hd] using hs
      have hv : y.value = some (.integer 0) := by simpa [Unassigned, hd, ht, Ty.zero] using hy
      cases type <;> simp [Unassigned, Symbol.bind, hd, hv, Value.type, Ty.zero]

end Symbol

theorem Session.keptByDeclarations_unassigned : KeptByDeclarations Symbol.Unassigned where
  fresh := Symbol.unassigned_fresh
  onDeclare _ hy := hy.onDeclare
  onBind type _ hy := hy.onBind type

namespace Session

/-- An assignment that is not refused does not reach the symbol of a reserved word. -/
theorem unassigned_perform {s : Session} {op : Operation Node}
    (hsize : (s.perform op).2.symbols.size < UInt32.size)
    (hs : ∀ y ∈ s.symbols.entries, Target.IsReserved y.name → y.Unassigned) :
    ∀ y ∈ (s.perform op).2.symbols.entries, Target.IsReserved y.name → y.Unassigned := by
  refine (keptByDeclarations_unassigned.guard Target.IsReserved).perform hs ?_
  rintro name expression rfl hcheck t y hy - hreserved
  have hallowed : ¬ Target.IsReserved name := by
    intro h
    rw [Target.check_of_isReserved h] at hcheck
    cases hcheck
  have hnames := s.names_perform_assign expression
    (Bool.eq_false_iff.mpr (mt (Target.isRefused_iff name).mp hallowed))
  rw [SymbolTable.size_eq_of_names hnames] at hsize
  obtain ⟨z, hz, hzname⟩ := SymbolTable.exists_get?_intern_value hsize
  have hyname : y.name = name := by rw [Option.some.inj (hy.symm.trans hz), hzname]
  rw [Symbol.name_onAssign, hyname] at hreserved
  exact absurd hreserved hallowed

theorem unassigned_performAll {s : Session} {ops : List (Operation Node)}
    (hsize : (s.performAll ops).symbols.size < UInt32.size)
    (hs : ∀ y ∈ s.symbols.entries, Target.IsReserved y.name → y.Unassigned) :
    ∀ y ∈ (s.performAll ops).symbols.entries, Target.IsReserved y.name → y.Unassigned := by
  induction ops generalizing s with
  | nil => exact hs
  | cons op rest ih =>
    have hop : (s.perform op).2.symbols.size < UInt32.size :=
      Nat.lt_of_le_of_lt (size_le_performAll _ rest) hsize
    exact ih hsize (unassigned_perform hop hs)

end Session

/-! ## Assignments -/

namespace Step

def result (st : Step) : Result Node := (st.before.perform st.operation).1

/-- An assignment node that a step builds holds the handle of no reserved symbol, in no table
with the names that the step leaves behind and any names after them. -/
theorem not_isReserved_of_assignment {st : Step} {t : SymbolTable}
    (hgrows : st.after.symbols.names <+: t.names) (hsize : t.size < UInt32.size)
    {pos : Position} {id : SymbolId} {expression : Node}
    (hresult : st.result = .node (.assignment pos id expression)) {y : Symbol}
    (hy : t.get? id = some y) : ¬ Target.IsReserved y.name := by
  have hafter : st.after.symbols.size < UInt32.size := by
    have hle := hgrows.length_le
    simp only [SymbolTable.names, List.length_map] at hle
    exact Nat.lt_of_le_of_lt hle hsize
  obtain ⟨hown, -⟩ := Session.own_perform hresult
  obtain ⟨passed, hpassed, hkept⟩ := Option.map_eq_some_iff.mp hown.symm
  have hstands := (Session.stands_own hpassed hafter).grow hgrows
  have hid : st.before.handleFor passed = id := congrArg Prod.snd hkept
  have hconstruct : passed.1 = .assignment := congrArg Prod.fst hkept
  have hvalid : id ≠ .invalid := by
    rintro rfl
    rw [SymbolTable.get?_invalid hsize] at hy
    cases hy
  have hname : y.name = passed.2 := by
    rw [← SymbolTable.nameOf_eq hy, ← hid]
    exact (hstands.held (hid ▸ hvalid)).2
  intro hreserved
  rw [hname, ← Target.isRefused_iff] at hreserved
  exact hvalid (hid ▸ hstands.invalid_iff.mpr ⟨hconstruct, hreserved⟩)

end Step

theorem Session.assign_of_isReserved (s : Session) {name : String} (h : Target.IsReserved name)
    (expression : Node) :
    s.assign name expression =
      s.take
        { value := .assignment s.position .invalid expression
          diagnostics := [⟨.reservedTarget name, s.position⟩] } := by
  rw [assign, Target.check_of_isReserved h]

namespace Session

/-- After every run, a reserved word or a number has no value or the zero value of its type, even
if it was declared and typed.  No assignment node of the run holds its handle.  An assignment to
it adds one diagnostic, leaves the table as it is, asks the resolver nothing and builds a node
with the reserved handle. -/
theorem reserved_steps (options : Options) (sink : Sink) (resolver : Resolver)
    (ops : List (Operation Node))
    (hsize : ((start options sink resolver).performAll ops).symbols.size < UInt32.size) :
    let s := start options sink resolver
    let t := (s.performAll ops).symbols
    (∀ y ∈ t.entries, Target.IsReserved y.name →
        y.value = none ∨ y.value = some y.type.zero) ∧
      ∀ st ∈ s.steps ops,
        (∀ pos id expression, st.result = .node (.assignment pos id expression) →
          ∀ y, t.get? id = some y → ¬ Target.IsReserved y.name) ∧
        ∀ name expression, st.operation = .assign name expression → Target.IsReserved name →
          st.raised = [⟨.reservedTarget name, st.before.position⟩] ∧
            st.after.symbols = st.before.symbols ∧ st.after.queries = st.before.queries ∧
            st.result = .node (.assignment st.before.position .invalid expression) := by
  intro s t
  refine ⟨fun y hy hreserved => ?_, fun st hst => ⟨?_, ?_⟩⟩
  · have hvalue : y.Unassigned :=
      unassigned_performAll hsize (fun _ h => absurd h List.not_mem_nil) y hy hreserved
    rw [Symbol.Unassigned] at hvalue
    split at hvalue
    · exact .inr hvalue
    · exact .inl hvalue
  · intro pos id expression hresult y hy
    exact Step.not_isReserved_of_assignment (names_prefix_after hst) hsize hresult hy
  · rintro name expression hop hreserved
    obtain ⟨before, op⟩ := st
    subst hop
    have hassign := before.assign_of_isReserved hreserved expression
    have hafter : (Step.mk before (.assign name expression)).after =
        (before.assign name expression).2 := rfl
    refine ⟨?_, ?_, ?_, ?_⟩
    · rw [Step.raised, hafter, hassign]
      exact List.drop_left
    · rw [hafter, hassign]
      rfl
    · rw [hafter, hassign]
      rfl
    · show Result.node (before.assign name expression).1 = _
      rw [hassign]
      rfl

/-- The word `if` is declared as a string and assigned to, and so is `a`. -/
theorem reserved_steps_of_declared_word :
    let s := start {} .null fun _ _ => .string "x"
    let text := Node.constant s.position (.string "x")
    let ops : List (Operation Node) :=
      [.declare "if", .bindType ⟨0⟩ .string, .assign "if" text, .declare "a",
        .bindType ⟨1⟩ .string, .assign "a" text]
    let t := (s.performAll ops).symbols
    let st : Step := ⟨s.performAll (ops.take 2), .assign "if" text⟩
    t.size < UInt32.size ∧ Target.IsReserved "if" ∧ st ∈ s.steps ops ∧
      (∀ y ∈ t.entries, Target.IsReserved y.name →
        y.value = none ∨ y.value = some y.type.zero) ∧
      st.raised = [⟨.reservedTarget "if", st.before.position⟩] ∧
      t.entries.map Symbol.value = [some (.string ""), some (.string "x")] := by
  intro s text ops t st
  have hsize : t.size < UInt32.size := by decide
  have hreserved : Target.IsReserved "if" := by decide
  have hst : st ∈ s.steps ops := .tail _ (.tail _ (.head _))
  obtain ⟨hvalues, hsteps⟩ := reserved_steps {} .null (fun _ _ => .string "x") ops hsize
  obtain ⟨-, hrefused⟩ := hsteps st hst
  refine ⟨hsize, hreserved, hst, ?_, (hrefused "if" text rfl hreserved).1, by decide⟩
  simpa only [t, s] using hvalues

end Session
end ImpFront
