/-
Runs: operations carried out one after the other.

`Session.effect` is what an operation does to the table of a session together with what it
finds, without what it builds.  Twelve of the eighteen operations do nothing to a table or only
use a name for the first time, so a statement about all operations has seven cases there.  The
session after an operation follows from its effect (`exists_perform_eq`).

`Session.steps` lists the operations of a run, each with the session it is carried out in, and
`Session.performAll` is where the run ends.  The operations may be about any nodes.  A run of a
workbench is a run of its session, with the operations that the commands come to
(`session_run`).
-/
import ImpFront.Workbench
import ImpFront.Proofs.Symbols

namespace ImpFront

/-- An operation and the session it is carried out in. -/
structure Step where
  before : Session
  operation : Operation Node

namespace Step

def after (st : Step) : Session := (st.before.perform st.operation).2

/-- The diagnostics that the step adds. -/
def raised (st : Step) : List Diagnostic :=
  st.after.diagnostics.drop st.before.diagnostics.length

end Step

/-- An operation that only builds a value after another one changes what that one gives back. -/
theorem Update.andThen_pure {α β : Type} (u : Update α) (f : α → SymbolTable → β) :
    (u.andThen fun x t => pure t (f x t)) = u.map fun x => f x u.table := by
  simp [andThen, map, pure]

namespace Operation

/-- Where the operation moves the session to, by line and column. -/
def move? : Operation Node → Option (UInt32 × UInt32)
  | setPosition line column => some (line, column)
  | _ => none

/-- The position after the operation. -/
def place (pos : Position) (op : Operation Node) : Position :=
  match op.move? with
  | some moved => { pos with line := moved.1, column := moved.2 }
  | none => pos

end Operation

namespace Session

/-- A session at the start of a source text, with a sink and a resolver of any kind. -/
def start (options : Options) (sink : Sink) (resolver : Resolver) : Session :=
  ((new options).withSink sink).withResolver resolver

/-- The session after operations carried out one after the other. -/
def performAll (s : Session) (ops : List (Operation Node)) : Session :=
  ops.foldl (fun s op => (s.perform op).2) s

/-- The steps of operations carried out one after the other. -/
def steps : Session → List (Operation Node) → List Step
  | _, [] => []
  | s, op :: rest => ⟨s, op⟩ :: steps (s.perform op).2 rest

/-! ## The effect of an operation -/

/-- What an operation does to the table, and what it finds. -/
def effect (s : Session) : Operation Node → Update Unit
  | .setPosition .. | .constant _ | .parenthesized _ | .print _ | .whileLoop .. | .ifElse ..
  | .root .. => .pure s.symbols ()
  | .intern name | .listElement name | .reference name | .input name | .forLoop name .. =>
    (s.symbols.intern name).map fun _ => ()
  | .declare name => (s.symbols.intern name).andThen fun id t => t.declare id s.position
  | .bindType symbol type => (s.symbols.bindType symbol type).map fun _ => ()
  | .declareList head type => s.symbols.declareList head type s.position
  | .binary left op right =>
    { toChecked := (Operands.ofNodes s.symbols (some left) (some right)).check op s.position
      table := s.symbols }
  | .unary op right =>
    { toChecked := (Operands.ofNodes s.symbols none (some right)).check op s.position
      table := s.symbols }
  | .assign name expression =>
    match Target.check name s.position with
    | some diagnostic => .reject s.symbols () diagnostic []
    | none => (s.symbols.intern name).andThen fun id t =>
      (t.assign id expression (s.resolver s.queries) s.position).map fun _ => ()

theorem absorb_pure {α : Type} (s : Session) (value : α) :
    s.absorb (.pure s.symbols value) = (value, s) := by
  simp [absorb, take, outputs, Update.pure, Sink.emitAll]

/-- All that an operation leaves behind, but for the questions that it put to the resolver. -/
theorem exists_perform_eq (s : Session) (op : Operation Node) :
    ∃ queries, (s.perform op).2 =
      { (s.absorb (s.effect op)).2 with position := op.place s.position, queries := queries } := by
  cases op with
  | setPosition | constant | parenthesized | print | whileLoop | ifElse | root =>
    rw [effect, absorb_pure]
    exact ⟨s.queries, rfl⟩
  | reference name =>
    show ∃ queries, (s.reference name).2 = _
    rw [reference, Update.andThen_pure]
    exact ⟨s.queries, rfl⟩
  | assign name expression =>
    show ∃ queries, (s.assign name expression).2 = _
    rw [assign, effect]
    cases Target.check name s.position with
    | some diagnostic => exact ⟨s.queries, rfl⟩
    | none => exact ⟨_, rfl⟩
  | _ => exact ⟨s.queries, rfl⟩

theorem symbols_perform (s : Session) (op : Operation Node) :
    (s.perform op).2.symbols = (s.effect op).table := by
  obtain ⟨queries, h⟩ := s.exists_perform_eq op
  exact congrArg symbols h

theorem diagnostics_perform (s : Session) (op : Operation Node) :
    (s.perform op).2.diagnostics = s.diagnostics ++ (s.effect op).diagnostics := by
  obtain ⟨queries, h⟩ := s.exists_perform_eq op
  exact congrArg diagnostics h

theorem position_perform (s : Session) (op : Operation Node) :
    (s.perform op).2.position = op.place s.position := by
  obtain ⟨queries, h⟩ := s.exists_perform_eq op
  exact congrArg position h

theorem raised_eq (st : Step) : st.raised = (st.before.effect st.operation).diagnostics := by
  rw [Step.raised, Step.after, diagnostics_perform]
  exact List.drop_left

/-- No operation renames a symbol or moves it, and none puts more than one at the end. -/
theorem names_perform (s : Session) (op : Operation Node) :
    (s.perform op).2.symbols.names = s.symbols.names ∨
      ∃ name, name ∉ s.symbols.names ∧
        (s.perform op).2.symbols.names = s.symbols.names ++ [name] := by
  have hintern (name : String) : (s.symbols.intern name).table.names = s.symbols.names ∨
      ∃ added, added ∉ s.symbols.names ∧
        (s.symbols.intern name).table.names = s.symbols.names ++ [added] := by
    rw [SymbolTable.names_intern]
    split
    · exact .inl rfl
    · rename_i h
      exact .inr ⟨name, h, rfl⟩
  rw [symbols_perform]
  cases op with
  | intern name | listElement name | reference name | input name | forLoop name =>
    exact hintern name
  | declare name =>
    rw [effect, Update.table_andThen, SymbolTable.table_declare,
      SymbolTable.names_modify Symbol.name_onDeclare]
    exact hintern name
  | bindType id type =>
    left
    rw [effect, Update.table_map, SymbolTable.table_bindType,
      SymbolTable.names_modify (Symbol.name_onBind type)]
  | declareList head type =>
    left
    rw [effect, SymbolTable.declareList, SymbolTable.names_declareAll]
  | assign name expression =>
    rw [effect]
    split
    · exact .inl rfl
    · rw [Update.table_andThen, Update.table_map, SymbolTable.table_assign,
        SymbolTable.names_modify (Symbol.name_onAssign _ _)]
      exact hintern name
  | _ => exact .inl rfl

theorem names_prefix_perform (s : Session) (op : Operation Node) :
    s.symbols.names <+: (s.perform op).2.symbols.names := by
  obtain h | ⟨name, -, h⟩ := names_perform s op
  · exact h ▸ List.prefix_rfl
  · exact h ▸ List.prefix_append ..

theorem size_le_perform (s : Session) (op : Operation Node) :
    s.symbols.size ≤ (s.perform op).2.symbols.size := by
  simpa [SymbolTable.names, SymbolTable.size] using (names_prefix_perform s op).length_le

/-- Names are used for the first time only once, so they stay different. -/
theorem nodup_names_perform {s : Session} (h : s.symbols.names.Nodup) (op : Operation Node) :
    (s.perform op).2.symbols.names.Nodup := by
  obtain heq | ⟨name, hname, heq⟩ := names_perform s op
  · rw [heq]
    exact h
  · rw [heq, List.nodup_append]
    refine ⟨h, by simp, fun x hx y hy => ?_⟩
    rintro rfl
    rw [List.mem_singleton] at hy
    exact hname (hy ▸ hx)

/-! ## Properties of every symbol

All that a run does to a symbol is to make it and to apply the four functions below, so a
property of symbols that these keep holds of every symbol of every run.  It needs no bound on
the size of the table: where a handle leads does not matter, since all symbols have the
property.  A property that not every assignment keeps is looked at assignment by assignment. -/

structure Kept (P : Symbol → Prop) : Prop where
  fresh : ∀ name, P { name := name }
  onDeclare : ∀ y, P y → P y.onDeclare
  onBind : ∀ type y, P y → P (y.onBind type)
  onAssign : ∀ received answer y, P y → P (y.onAssign received answer)

/-- What is kept by everything that comes before the values. -/
structure KeptByDeclarations (P : Symbol → Prop) : Prop where
  fresh : ∀ name, P { name := name }
  onDeclare : ∀ y, P y → P y.onDeclare
  onBind : ∀ type y, P y → P (y.onBind type)

theorem Kept.byDeclarations {P : Symbol → Prop} (hP : Kept P) : KeptByDeclarations P :=
  ⟨hP.fresh, hP.onDeclare, hP.onBind⟩

/-- A property that is kept is kept for the symbols of certain names, since no symbol is
renamed. -/
theorem KeptByDeclarations.guard {P : Symbol → Prop} (hP : KeptByDeclarations P)
    (names : String → Prop) : KeptByDeclarations fun y => names y.name → P y where
  fresh name _ := hP.fresh name
  onDeclare y hy h := hP.onDeclare y (hy (y.name_onDeclare ▸ h))
  onBind type y hy h := hP.onBind type y (hy (y.name_onBind type ▸ h))

/-- What the resolver would answer for a target of each type. -/
def answers (s : Session) (t : SymbolTable) (expression : Node) (target : Ty) : Value :=
  s.resolver s.queries { expression := expression, table := t, target := target }

namespace KeptByDeclarations

variable {P : Symbol → Prop}

theorem onDeclareTyped (hP : KeptByDeclarations P) (type : Ty) {y : Symbol} (hy : P y) :
    P (y.onDeclareTyped type) := by
  have hdeclare : P y.onDeclare := hP.onDeclare y hy
  unfold Symbol.onDeclareTyped
  split
  · exact hy
  · rename_i hd
    rw [Symbol.onDeclare, if_neg hd] at hdeclare
    exact hP.onBind type _ hdeclare

theorem intern (hP : KeptByDeclarations P) {t : SymbolTable} (ht : ∀ y ∈ t.entries, P y)
    (name : String) : ∀ y ∈ (t.intern name).table.entries, P y := by
  rw [SymbolTable.table_intern]
  split
  · exact ht
  · intro y hy
    rcases List.mem_append.mp hy with hy | hy
    · exact ht y hy
    · rw [List.mem_singleton.mp hy]
      exact hP.fresh name

theorem perform (hP : KeptByDeclarations P) {s : Session} {op : Operation Node}
    (hs : ∀ y ∈ s.symbols.entries, P y)
    (hassign : ∀ name expression, op = .assign name expression →
      Target.check name s.position = none →
      let t := (s.symbols.intern name).table
      ∀ y, t.get? (s.symbols.intern name).value = some y → P y →
        P (y.onAssign (expression.typeIn t) (s.answers t expression))) :
    ∀ y ∈ (s.perform op).2.symbols.entries, P y := by
  rw [symbols_perform]
  cases op with
  | intern name | listElement name | reference name | input name | forLoop name =>
    exact hP.intern hs name
  | declare name =>
    rw [effect, Update.table_andThen, SymbolTable.table_declare]
    exact SymbolTable.forall_entries_modify (hP.intern hs name) hP.onDeclare
  | bindType id type =>
    rw [effect, Update.table_map, SymbolTable.table_bindType]
    exact SymbolTable.forall_entries_modify hs (hP.onBind type)
  | declareList head type =>
    exact SymbolTable.forall_entries_declareAll hs (fun _ => hP.onDeclareTyped type) _ _
  | assign name expression =>
    rw [effect]
    split
    · exact hs
    · rename_i hcheck
      rw [Update.table_andThen, Update.table_map, SymbolTable.table_assign]
      refine SymbolTable.forall_entries_modify_at (hP.intern hs name) fun y hy => ?_
      exact hassign name expression rfl hcheck y hy
        (hP.intern hs name y (List.mem_of_getElem? hy))
  | _ => exact hs

end KeptByDeclarations

theorem Kept.perform {P : Symbol → Prop} (hP : Kept P) (s : Session) (op : Operation Node)
    (hs : ∀ y ∈ s.symbols.entries, P y) : ∀ y ∈ (s.perform op).2.symbols.entries, P y :=
  hP.byDeclarations.perform hs fun _ _ _ _ y _ hy => hP.onAssign _ _ y hy

/-! ## Runs -/

theorem performAll_append (s : Session) (first second : List (Operation Node)) :
    s.performAll (first ++ second) = (s.performAll first).performAll second :=
  List.foldl_append

/-- The diagnostics of a run are those that its steps add. -/
theorem diagnostics_eq_raised (s : Session) (ops : List (Operation Node)) :
    (s.performAll ops).diagnostics = s.diagnostics ++ (s.steps ops).flatMap Step.raised := by
  induction ops generalizing s with
  | nil => exact (List.append_nil _).symm
  | cons op rest ih =>
    rw [steps, List.flatMap_cons, ← List.append_assoc, raised_eq, ← diagnostics_perform]
    exact ih (s.perform op).2

theorem names_prefix_performAll (s : Session) (ops : List (Operation Node)) :
    s.symbols.names <+: (s.performAll ops).symbols.names := by
  induction ops generalizing s with
  | nil => exact List.prefix_rfl
  | cons op rest ih => exact (names_prefix_perform s op).trans (ih _)

theorem size_le_performAll (s : Session) (ops : List (Operation Node)) :
    s.symbols.size ≤ (s.performAll ops).symbols.size := by
  simpa [SymbolTable.names, SymbolTable.size] using (names_prefix_performAll s ops).length_le

theorem names_prefix_after {s : Session} {ops : List (Operation Node)} {st : Step}
    (h : st ∈ s.steps ops) : st.after.symbols.names <+: (s.performAll ops).symbols.names := by
  induction ops generalizing s with
  | nil => simp [steps] at h
  | cons op rest ih =>
    rcases List.mem_cons.mp h with rfl | h
    · exact names_prefix_performAll _ rest
    · exact ih h

theorem size_after_le {s : Session} {ops : List (Operation Node)} {st : Step}
    (h : st ∈ s.steps ops) : st.after.symbols.size ≤ (s.performAll ops).symbols.size := by
  simpa [SymbolTable.names, SymbolTable.size] using (names_prefix_after h).length_le

/-- What every operation keeps holds at the end of a run. -/
theorem performAll_keeps {P : Session → Prop} (hP : ∀ s op, P s → P (s.perform op).2)
    {s : Session} (hs : P s) (ops : List (Operation Node)) : P (s.performAll ops) := by
  induction ops generalizing s with
  | nil => exact hs
  | cons op rest ih => exact ih (hP s op hs)

/-- What every operation keeps holds before each step of a run. -/
theorem before_keeps {P : Session → Prop} (hP : ∀ s op, P s → P (s.perform op).2)
    {s : Session} (hs : P s) {ops : List (Operation Node)} {st : Step} (h : st ∈ s.steps ops) :
    P st.before := by
  induction ops generalizing s with
  | nil => cases h
  | cons op rest ih =>
    rcases List.mem_cons.mp h with rfl | h
    · exact hs
    · exact ih (hP s op hs) h

theorem Kept.performAll {P : Symbol → Prop} (hP : Kept P) {s : Session}
    (hs : ∀ y ∈ s.symbols.entries, P y) (ops : List (Operation Node)) :
    ∀ y ∈ (s.performAll ops).symbols.entries, P y :=
  performAll_keeps (P := fun s => ∀ y ∈ s.symbols.entries, P y) hP.perform hs ops

end Session

/-! ## Runs of a workbench -/

namespace Workbench

def start (options : Options) (sink : Sink) (resolver : Resolver) : Workbench :=
  { session := Session.start options sink resolver }

/-- The operation that a command comes to, if it is one and all its nodes are there. -/
def operation? (w : Workbench) : Command → Option (Operation Node)
  | .perform op => op.resolve? fun i => w.nodes[i]?
  | .link .. => none

/-- The operations that the commands of a run come to. -/
def operations : Workbench → List Command → List (Operation Node)
  | _, [] => []
  | w, command :: rest => (w.operation? command).toList ++ operations (w.exec command).2 rest

theorem session_keep (w : Workbench) (result : Result Node × Session) :
    (w.keep result).2.session = result.2 := by
  obtain ⟨r, s⟩ := result
  cases r <;> rfl

theorem session_exec (w : Workbench) (command : Command) :
    (w.exec command).2.session = w.session.performAll (w.operation? command).toList := by
  cases command with
  | perform op =>
    rw [exec, operation?]
    split
    · rename_i resolved h
      rw [h]
      exact session_keep w (w.session.perform resolved)
    · rename_i h
      rw [h]
      rfl
  | link index next =>
    rw [exec]
    split
    · rename_i node tail _ _
      show (w.link index node tail).2.session = w.session
      unfold link
      split <;> rfl
    · rfl

theorem session_run (w : Workbench) (commands : List Command) :
    (w.run commands).session = w.session.performAll (w.operations commands) := by
  induction commands generalizing w with
  | nil => rfl
  | cons command rest ih =>
    rw [run_cons, ih, operations, Session.performAll_append, session_exec]

end Workbench
end ImpFront
