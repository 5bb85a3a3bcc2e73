/-
Events that account for diagnostics.

An operation that goes wrong adds diagnostics and leaves events for the log.  An event is made
where the table or the operands are looked at, and a diagnostic is kept by the session later, once
for each fault.  Two kinds of events stand for one diagnostic each (`Account`).  The third kind
stands for an operation with wrong operands and counts its diagnostics (`Mismatch`).

`accounts_run` compares what a reader of the log is told with the diagnostics of a run.  The one
diagnostic that would have no event is that of a handle that leads nowhere.  No operation of a
workbench has such a handle, and this holds for tables of any size: also where the handles have
wrapped, the handle of a name leads to some symbol.
-/
import Mathlib.Data.List.Forall2
import ImpFront.Proofs.Replay
import ImpFront.Proofs.Rules

namespace ImpFront

/-- The kinds of events of which each stands for one diagnostic. -/
inductive Account where
  | redeclaration
  | undeclared
  deriving DecidableEq, Repr

namespace Account

def message : Account → String
  | redeclaration => "duplicate declaration"
  | undeclared => "assignment to undeclared variable"

/-- The variable and the line that a line of the log gives, if it is one of the account. -/
def ofEntry? (account : Account) (entry : Entry) : Option (String × Nat) :=
  match entry.level, entry.fields with
  | .debug, [("name", .text name), ("line", .number line)] =>
    if entry.message = account.message then some (name, line) else none
  | _, _ => none

/-- The variable and the line of a diagnostic, if it is one of the account. -/
def ofDiagnostic? (account : Account) (d : Diagnostic) : Option (String × Nat) :=
  match account, d.fault with
  | redeclaration, .alreadyDeclared name | undeclared, .notDeclared name =>
    some (name, d.position.line.toNat)
  | _, _ => none

end Account

/-- What the log tells of an operation with wrong operands. -/
structure Mismatch where
  operator : String
  count : Nat
  line : Nat
  deriving DecidableEq, Repr

namespace Mismatch

def ofEntry? (entry : Entry) : Option Mismatch :=
  match entry.level, entry.message, entry.fields with
  | .debug, "operand type mismatch",
    [("operator", .text operator), ("count", .number count), ("line", .number line)] =>
    some ⟨operator, count, line⟩
  | _, _, _ => none

end Mismatch

/-- Whether the fault is one of the operands of an operation. -/
def Fault.isOfOperands : Fault → Bool
  | operandMismatch .. | additionMismatch .. => true
  | _ => false

namespace Operation

def operator? : Operation Node → Option Operator
  | binary _ op _ | unary op _ => some op
  | _ => none

end Operation

namespace Step

/-- The lines of the log that the operation of the step leaves. -/
def log (st : Step) : List Entry := st.events.map Event.entry

/-- Whether the step builds an operation and finds something wrong. -/
def hasWrongOperands (st : Step) : Bool :=
  st.operation.operator?.isSome && !st.raised.isEmpty

/-- The log tells of the step by its operator, the number of its diagnostics and their line. -/
structure Told (st : Step) (m : Mismatch) : Prop where
  operator : st.operation.operator?.map Operator.symbol = some m.operator
  count : m.count = (st.raised.filter fun d => d.fault.isOfOperands).length
  count_ne_zero : m.count ≠ 0
  line : ∀ d ∈ st.raised, d.position.line.toNat = m.line

end Step

/-! ## Accounts of one operation -/

/-- The events and the diagnostics of an update come to the same in both accounts, and no event
tells of wrong operands. -/
structure Checked.Accounted {α : Type} (c : Checked α) : Prop where
  balanced : ∀ account : Account, (c.events.map Event.entry).filterMap account.ofEntry? =
    c.diagnostics.filterMap account.ofDiagnostic?
  matched : (c.events.map Event.entry).filterMap Mismatch.ofEntry? = []

theorem Update.accounted_pure {α : Type} (t : SymbolTable) (value : α) :
    (Update.pure t value).Accounted :=
  ⟨fun _ => rfl, rfl⟩

namespace Checked.Accounted

variable {α β : Type} {u : Update α}

theorem map (f : α → β) (h : u.Accounted) : (u.map f).Accounted := ⟨h.balanced, h.matched⟩

theorem andThen {next : α → SymbolTable → Update β} (h : u.Accounted)
    (hnext : (next u.value u.table).Accounted) : (u.andThen next).Accounted := by
  constructor
  · intro account
    simp only [Update.andThen, List.map_append, List.filterMap_append, h.balanced,
      hnext.balanced]
  · simp only [Update.andThen, List.map_append, List.filterMap_append, h.matched, hnext.matched,
      List.append_nil]

end Checked.Accounted

namespace SymbolTable

variable {t : SymbolTable} {id : SymbolId}

theorem accounted_intern (t : SymbolTable) (name : String) : (t.intern name).Accounted := by
  unfold intern
  split
  · exact Update.accounted_pure t _
  · exact ⟨fun account => by cases account <;> rfl, rfl⟩

theorem accounted_declare (hknown : (t.get? id).isSome) (pos : Position) :
    (t.declare id pos).Accounted := by
  obtain ⟨y, hy⟩ := Option.isSome_iff_exists.mp hknown
  cases hd : y.declared with
  | true =>
    rw [declare_of_declared hy hd]
    exact ⟨fun account => by cases account <;> rfl, rfl⟩
  | false =>
    rw [declare_of_fresh hy hd]
    exact ⟨fun account => by cases account <;> rfl, rfl⟩

theorem accounted_bindType (t : SymbolTable) (id : SymbolId) (type : Ty) :
    (t.bindType id type).Accounted := by
  cases hy : t.get? id with
  | none =>
    rw [bindType_of_unknown hy]
    exact Update.accounted_pure t false
  | some y =>
    cases hs : y.isSettled with
    | true =>
      rw [bindType_of_settled hy hs]
      by_cases ht : y.type = type
      · rw [if_pos ht]
        exact ⟨fun _ => rfl, rfl⟩
      · rw [if_neg ht]
        exact ⟨fun account => by cases account <;> rfl, rfl⟩
    | false =>
      rw [bindType_of_open hy hs]
      exact ⟨fun account => by cases account <;> rfl, rfl⟩

theorem accounted_declareTyped (hknown : (t.get? id).isSome) (type : Ty) (pos : Position) :
    (t.declareTyped id type pos).Accounted := by
  cases hclean : (t.declare id pos).isClean with
  | true =>
    rw [declareTyped_of_clean hclean]
    exact (accounted_declare hknown pos).andThen ((accounted_bindType _ id type).map _)
  | false =>
    rw [declareTyped_of_not_clean hclean]
    exact accounted_declare hknown pos

theorem accounted_declareAll {ids : List SymbolId} (hknown : ∀ id ∈ ids, (t.get? id).isSome)
    (type : Ty) (pos : Position) : (t.declareAll ids type pos).Accounted := by
  induction ids generalizing t with
  | nil => exact Update.accounted_pure t ()
  | cons id rest ih =>
    refine (accounted_declareTyped (hknown id List.mem_cons_self) type pos).andThen (ih ?_)
    intro other hother
    rw [get?_isSome_iff, table_declareTyped, size_modify, ← get?_isSome_iff]
    exact hknown other (List.mem_cons_of_mem id hother)

theorem accounted_assign (hknown : (t.get? id).isSome) (expression : Node)
    (answer : Query → Value) (pos : Position) :
    (t.assign id expression answer pos).Accounted := by
  obtain ⟨y, hy⟩ := Option.isSome_iff_exists.mp hknown
  cases hd : y.declared with
  | false =>
    rw [assign_of_undeclared hy hd]
    exact ⟨fun account => by cases account <;> rfl, rfl⟩
  | true =>
    by_cases ht : y.type = expression.typeIn t
    · rw [assign_of_match hy hd ht]
      split
      · exact ⟨fun _ => rfl, rfl⟩
      · exact ⟨fun account => by cases account <;> rfl, rfl⟩
    · rw [assign_of_mismatch hy hd ht]
      exact ⟨fun account => by cases account <;> rfl, rfl⟩

end SymbolTable

theorem Session.accounted_effect {s : Session} {op : Operation Node}
    (hknown : op.Known s.symbols) (hop : op.operator? = none) : (s.effect op).Accounted := by
  -- a handle given out here leads to a symbol, though to an earlier one once handles have wrapped
  have hheld := s.symbols.isSome_get?_intern_value
  cases op with
  | intern name | listElement name | reference name | input name | forLoop name =>
    exact (s.symbols.accounted_intern name).map _
  | declare name =>
    exact (s.symbols.accounted_intern name).andThen
      (SymbolTable.accounted_declare (hheld name) s.position)
  | bindType id type => exact (s.symbols.accounted_bindType id type).map _
  | declareList head type => exact SymbolTable.accounted_declareAll hknown type s.position
  | binary | unary => cases hop
  | assign name expression =>
    rw [effect, Target.check_eq]
    split
    · rename_i diagnostic h
      obtain ⟨-, hfault⟩ := Option.ite_none_right_eq_some.mp h
      rw [← Option.some.inj hfault]
      exact ⟨fun account => by cases account <;> rfl, rfl⟩
    · exact (s.symbols.accounted_intern name).andThen
        ((SymbolTable.accounted_assign (hheld name) expression _ _).map _)
  | _ => exact Update.accounted_pure s.symbols ()

/-! ## Operations with operands -/

theorem Account.ofDiagnostic?_of_isOfOperands (account : Account) {d : Diagnostic}
    (h : d.fault.isOfOperands = true) : account.ofDiagnostic? d = none := by
  obtain ⟨fault, pos⟩ := d
  cases fault with
  | operandMismatch | additionMismatch => cases account <;> rfl
  | _ => cases h

/-- What a step that builds an operation adds and logs is what the check of its operands does. -/
theorem Step.exists_check {st : Step} {operator : Operator}
    (hop : st.operation.operator? = some operator) :
    ∃ operands : Operands,
      st.raised = (operands.check operator st.before.position).diagnostics ∧
        st.log = (operands.check operator st.before.position).events.map Event.entry := by
  have heffect : ∃ operands : Operands, st.before.effect st.operation =
      { toChecked := operands.check operator st.before.position, table := st.before.symbols } := by
    cases hst : st.operation with
    | binary | unary =>
      rw [hst] at hop
      cases hop
      exact ⟨_, rfl⟩
    | _ =>
      rw [hst] at hop
      cases hop
  obtain ⟨operands, heffect⟩ := heffect
  refine ⟨operands, ?_, ?_⟩
  · rw [Session.raised_eq, heffect]
  · rw [log, events, heffect]

namespace Operands

variable {op : Operator} {operands : Operands} {pos : Position} {d : Diagnostic}

theorem isOfOperands_of_mem_faults {fault : Fault} (h : fault ∈ operands.faults op) :
    fault.isOfOperands = true := by
  rcases cases_of_mem_faults h with ⟨side, received, rfl⟩ | rfl <;> rfl

theorem of_mem_diagnostics_check (h : d ∈ (operands.check op pos).diagnostics) :
    d.fault.isOfOperands = true ∧ d.position = pos := by
  obtain ⟨fault, hfault, rfl⟩ := List.mem_map.mp h
  exact ⟨isOfOperands_of_mem_faults hfault, rfl⟩

/-- The events and the diagnostics of a check belong to neither account. -/
theorem balanced_check (op : Operator) (operands : Operands) (pos : Position)
    (account : Account) :
    ((operands.check op pos).events.map Event.entry).filterMap account.ofEntry? =
      (operands.check op pos).diagnostics.filterMap account.ofDiagnostic? := by
  have hdiagnostics :
      (operands.check op pos).diagnostics.filterMap account.ofDiagnostic? = [] := by
    refine List.filterMap_eq_nil_iff.mpr fun d hd => ?_
    exact account.ofDiagnostic?_of_isOfOperands (of_mem_diagnostics_check hd).1
  rw [hdiagnostics, check]
  split
  · rfl
  · cases account <;> rfl

/-- The log tells of a check that finds something wrong, once. -/
theorem mismatches_check (op : Operator) (operands : Operands) (pos : Position) :
    ((operands.check op pos).events.map Event.entry).filterMap Mismatch.ofEntry? =
      if (operands.check op pos).diagnostics = [] then []
      else [⟨op.symbol, (operands.check op pos).diagnostics.length, pos.line.toNat⟩] := by
  cases hfaults : operands.faults op with
  | nil => simp [check, hfaults]
  | cons fault rest =>
    simp only [check, hfaults, List.map_cons, List.length_cons, List.length_map, reduceCtorEq,
      if_false]
    rfl

end Operands

/-! ## Steps -/

namespace Step

variable {st : Step}

theorem balanced (hknown : st.operation.Known st.before.symbols) (account : Account) :
    st.log.filterMap account.ofEntry? = st.raised.filterMap account.ofDiagnostic? := by
  cases hop : st.operation.operator? with
  | none =>
    rw [Session.raised_eq]
    exact (Session.accounted_effect hknown hop).balanced account
  | some operator =>
    obtain ⟨operands, hraised, hlog⟩ := exists_check hop
    rw [hraised, hlog]
    exact operands.balanced_check operator st.before.position account

/-- An operation with wrong operands is told of once, and other steps are not told of. -/
theorem told (hknown : st.operation.Known st.before.symbols) :
    List.Forall₂ Told ([st].filter hasWrongOperands) (st.log.filterMap Mismatch.ofEntry?) := by
  cases hop : st.operation.operator? with
  | none =>
    have hquiet : st.log.filterMap Mismatch.ofEntry? = [] :=
      (Session.accounted_effect hknown hop).matched
    rw [hquiet, List.filter_cons_of_neg (by simp [hasWrongOperands, hop])]
    exact .nil
  | some operator =>
    obtain ⟨operands, hraised, hlog⟩ := exists_check hop
    have hfound : ∀ d ∈ st.raised, d.fault.isOfOperands = true ∧ d.position = st.before.position :=
      fun d hd => Operands.of_mem_diagnostics_check (hraised ▸ hd)
    rw [hlog, Operands.mismatches_check, ← hraised]
    by_cases hclean : st.raised = []
    · rw [if_pos hclean, List.filter_cons_of_neg (by simp [hasWrongOperands, hclean])]
      exact .nil
    · -- every diagnostic of the step is counted, since its operands are all that is checked
      have hall : (st.raised.filter fun d => d.fault.isOfOperands) = st.raised :=
        List.filter_eq_self.mpr fun d hd => (hfound d hd).1
      rw [if_neg hclean, List.filter_cons_of_pos (by simp [hasWrongOperands, hop, hclean])]
      refine .cons ⟨by rw [hop]; rfl, by rw [hall], ?_, fun d hd => ?_⟩ .nil
      · exact mt List.length_eq_zero_iff.mp hclean
      · rw [(hfound d hd).2]

end Step

/-! ## Runs -/

namespace Step

theorem balanced_flatMap {sts : List Step}
    (hknown : ∀ st ∈ sts, st.operation.Known st.before.symbols) (account : Account) :
    (sts.flatMap log).filterMap account.ofEntry? =
      (sts.flatMap raised).filterMap account.ofDiagnostic? := by
  induction sts with
  | nil => rfl
  | cons st rest ih =>
    have hrest := ih fun other hother => hknown other (List.mem_cons_of_mem st hother)
    rw [List.flatMap_cons, List.flatMap_cons, List.filterMap_append, List.filterMap_append,
      balanced (hknown st List.mem_cons_self), hrest]

theorem told_flatMap {sts : List Step}
    (hknown : ∀ st ∈ sts, st.operation.Known st.before.symbols) :
    List.Forall₂ Told (sts.filter hasWrongOperands)
      ((sts.flatMap log).filterMap Mismatch.ofEntry?) := by
  induction sts with
  | nil => exact .nil
  | cons st rest ih =>
    have hrest := ih fun other hother => hknown other (List.mem_cons_of_mem st hother)
    rw [← List.singleton_append, List.filter_append, List.flatMap_append, List.filterMap_append,
      List.flatMap_singleton]
    exact List.rel_append (told (hknown st List.mem_cons_self)) hrest

end Step

/-- What leaves the session of a compilation in a step are the events of the operation and what the
sink makes of the diagnostics.  In the log that the events make, the lines of each account give
the variables and the lines of its diagnostics, one for each and in their order.  The operations
with wrong operands are told of in their order, each once, with the number of its diagnostics,
which is never zero, and their line. -/
theorem Workbench.accounts_run (options : Options) (sink : Sink) (resolver : Resolver)
    (commands : List Command) :
    let w := start options sink resolver
    let steps := w.session.steps (w.operations commands)
    let log := steps.flatMap Step.log
    (∀ st ∈ steps, st.sent = st.events.map Output.event ++ st.forwarded) ∧
      (∀ account : Account, log.filterMap account.ofEntry? =
        (w.run commands).session.diagnostics.filterMap account.ofDiagnostic?) ∧
      List.Forall₂ Step.Told (steps.filter Step.hasWrongOperands)
        (log.filterMap Mismatch.ofEntry?) := by
  intro w steps log
  have hstart : w.Known := fun n hn => absurd hn List.not_mem_nil
  have hknown : ∀ st ∈ steps, st.operation.Known st.before.symbols :=
    known_operations hstart commands
  have hdiagnostics : (w.run commands).session.diagnostics = steps.flatMap Step.raised := by
    rw [session_run]
    exact w.session.diagnostics_eq_raised (w.operations commands)
  refine ⟨fun st _ => st.sent_eq, fun account => ?_, Step.told_flatMap hknown⟩
  rw [hdiagnostics]
  exact Step.balanced_flatMap hknown account

end ImpFront
