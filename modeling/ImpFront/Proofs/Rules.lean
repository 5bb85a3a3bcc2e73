/-
The rules of the language, and the diagnostics of a run.

`Operation.Obeys` states the rule of each operation about the table it is carried out in, and
`Operation.violations` lists what breaks it.  Neither looks at a checker: a rule speaks of the
first symbol of a name, of the places in an identifier list and of the types of operands.

The theorem this file exists for is `diagnostics_run_eq_violations`: the diagnostics of a run
are the violations of its operations, in order and at their positions, so that a run without
errors is a run that obeyed all the rules.  It needs the handles of identifier lists to lead to
symbols, which holds because a workbench only knows nodes that it built itself
(`known_operations`), and it needs the table not to outgrow the handles.
-/
import ImpFront.Proofs.IdentifierLists

namespace ImpFront

/-! ## The rules -/

namespace SymbolTable

def isDeclared (t : SymbolTable) (id : SymbolId) : Bool := (t.get? id).any Symbol.declared

/-- The elements of an identifier list that are declared already, by the table or by an element
before them.  The elements before the list are `seen`. -/
def redeclared (t : SymbolTable) (seen : List SymbolId) : List SymbolId → List SymbolId
  | [] => []
  | id :: rest =>
    if t.isDeclared id ∨ id ∈ seen then id :: t.redeclared (id :: seen) rest
    else t.redeclared (id :: seen) rest

end SymbolTable

namespace Operation

/-- Subtraction, multiplication and division take integers.  The operands of an addition are all
integers or all strings.  The other operators take anything. -/
def OperandRule (op : Operator) (operands : List Ty) : Prop :=
  match op with
  | .subtraction | .multiplication | .division => ∀ type ∈ operands, type = .integer
  | .addition => (∀ type ∈ operands, type = .integer) ∨ ∀ type ∈ operands, type = .string
  | _ => True

/-- The rule of an operation.  A name is declared once, and so is each element of a list.  An
assigned name is no reserved word and no number, and it is declared with the type of the
expression. -/
def Obeys (t : SymbolTable) : Operation Node → Prop
  | .declare name => ∀ y, t.find? name = some y → y.declared = false
  | .declareList head _ =>
    head.listSymbols.Nodup ∧
      ∀ id ∈ head.listSymbols, ∃ y, t.get? id = some y ∧ y.declared = false
  | .assign name expression =>
    name ∉ Target.reservedWords ∧ Target.isNumber name = false ∧
      ∃ y, t.find? name = some y ∧ y.declared = true ∧ y.type = expression.typeIn t
  | .binary left op right => OperandRule op [left.typeIn t, right.typeIn t]
  | .unary op right => OperandRule op [right.typeIn t]
  | _ => True

/-- Whether an addition takes operands of these types. -/
def areSummands (operands : List Ty) : Bool :=
  operands.all (· = .integer) || operands.all (· = .string)

/-- What breaks the rule of an operator, for its operands from left to right: each operand that
is no integer, or the operands of an addition together. -/
def operandViolations (op : Operator) (operands : List (Side × Ty)) : List Fault :=
  match op with
  | .subtraction | .multiplication | .division =>
    (operands.filter fun operand => operand.2 ≠ .integer).map fun operand =>
      .operandMismatch operand.1 op.symbol "integer" operand.2.name
  | .addition =>
    if areSummands (operands.map Prod.snd) then []
    else [.additionMismatch "addition (+)" "integer" "string"]
  | _ => []

/-- What breaks the rule of an operation.  Of an assignment only the first fault counts. -/
def violations (t : SymbolTable) : Operation Node → List Fault
  | .declare name =>
    if t.hasDeclared name then [.alreadyDeclared name] else []
  | .declareList head _ =>
    (t.redeclared [] head.listSymbols).map fun id => .alreadyDeclared (t.nameOf id)
  | .assign name expression =>
    if name ∈ Target.reservedWords ∨ Target.isNumber name = true then [.reservedTarget name]
    else
      match t.find? name with
      | none => [.notDeclared name]
      | some y =>
        if y.declared = false then [.notDeclared name]
        else if y.type ≠ expression.typeIn t then
          [.assignmentMismatch name y.type.name (expression.typeIn t).name]
        else []
  | .binary left op right =>
    operandViolations op [(.left, left.typeIn t), (.right, right.typeIn t)]
  | .unary op right => operandViolations op [(.right, right.typeIn t)]
  | _ => []

/-- The handles of an identifier list lead to symbols. -/
def Known (t : SymbolTable) : Operation Node → Prop
  | .declareList head _ => ∀ id ∈ head.listSymbols, (t.get? id).isSome
  | _ => True

end Operation

namespace Step

/-- What breaks the rule of the step, at the position of the step. -/
def violations (st : Step) : List Diagnostic :=
  (st.operation.violations st.before.symbols).map fun fault => ⟨fault, st.before.position⟩

end Step

/-! ## An operation obeys its rule exactly if nothing breaks it -/

namespace SymbolTable

theorem redeclared_eq_nil_iff (t : SymbolTable) (seen ids : List SymbolId) :
    t.redeclared seen ids = [] ↔
      ids.Nodup ∧ ∀ id ∈ ids, t.isDeclared id = false ∧ id ∉ seen := by
  induction ids generalizing seen with
  | nil => simp [redeclared]
  | cons id rest ih =>
    rw [redeclared]
    by_cases h : t.isDeclared id = true ∨ id ∈ seen
    · rw [if_pos h]
      refine iff_of_false (by simp) fun hfresh => ?_
      obtain ⟨hd, hs⟩ := hfresh.2 id (by simp)
      rcases h with h | h
      · simp [hd] at h
      · exact hs h
    · rw [if_neg h, ih, List.nodup_cons]
      obtain ⟨hd, hs⟩ := not_or.mp h
      constructor
      · intro h
        obtain ⟨hrest, hfresh⟩ := h
        refine ⟨⟨fun hmem => (hfresh id hmem).2 (by simp), hrest⟩, fun other hother => ?_⟩
        rcases List.mem_cons.mp hother with rfl | hother
        · exact ⟨by simpa using hd, hs⟩
        · obtain ⟨hod, hos⟩ := hfresh other hother
          exact ⟨hod, fun hmem => hos (List.mem_cons_of_mem id hmem)⟩
      · intro h
        obtain ⟨⟨hid, hrest⟩, hfresh⟩ := h
        refine ⟨hrest, fun other hother => ?_⟩
        obtain ⟨hod, hos⟩ := hfresh other (List.mem_cons_of_mem id hother)
        refine ⟨hod, fun hmem => ?_⟩
        rcases List.mem_cons.mp hmem with rfl | hmem
        · exact hid hother
        · exact hos hmem

end SymbolTable

namespace Operation

theorem areSummands_iff (operands : List Ty) :
    areSummands operands = true ↔ OperandRule .addition operands := by
  simp [areSummands, OperandRule]

theorem operandRule_iff (op : Operator) (operands : List (Side × Ty)) :
    OperandRule op (operands.map Prod.snd) ↔ operandViolations op operands = [] := by
  cases op with
  | subtraction | multiplication | division =>
    rw [OperandRule, operandViolations, List.map_eq_nil_iff, List.filter_eq_nil_iff,
      List.forall_mem_map]
    simp
  | addition =>
    rw [operandViolations, ← areSummands_iff]
    split
    · rename_i h
      exact iff_of_true h rfl
    · rename_i h
      exact iff_of_false h (by simp)
  | _ => simp [OperandRule, operandViolations]

theorem obeys_iff {t : SymbolTable} {op : Operation Node} (hknown : op.Known t) :
    op.Obeys t ↔ op.violations t = [] := by
  cases op with
  | declare name => cases h : t.find? name <;> simp [Obeys, violations, SymbolTable.hasDeclared, h]
  | declareList head type =>
    rw [violations, List.map_eq_nil_iff, SymbolTable.redeclared_eq_nil_iff, Obeys]
    refine and_congr_right fun _ => forall_congr' fun id => ?_
    refine forall_congr' fun hid => ?_
    obtain ⟨y, hy⟩ := Option.isSome_iff_exists.mp (hknown id hid)
    simp [SymbolTable.isDeclared, hy]
  | assign name expression =>
    rw [Obeys, violations]
    by_cases hname : name ∈ Target.reservedWords ∨ Target.isNumber name = true
    · rw [if_pos hname]
      refine iff_of_false ?_ (by simp)
      intro h
      obtain ⟨hword, hnumber, -⟩ := h
      rcases hname with h | h
      · exact hword h
      · simp [hnumber] at h
    · rw [if_neg hname]
      rw [not_or, Bool.not_eq_true] at hname
      cases h : t.find? name with
      | none => simp
      | some y =>
        cases hd : y.declared with
        | false => simp [hd]
        | true => by_cases ht : y.type = expression.typeIn t <;> simp [hname, hd, ht]
  | binary left op right =>
    exact operandRule_iff op [(.left, left.typeIn t), (.right, right.typeIn t)]
  | unary op right => exact operandRule_iff op [(.right, right.typeIn t)]
  | _ => simp [Obeys, violations]

end Operation

/-! ## An operation reports exactly what breaks its rule -/

namespace SymbolTable

/-- Where every handle leads to a symbol, only elements that are declared already are wrong. -/
theorem listFaults_eq {t : SymbolTable} {earlier seen ids : List SymbolId}
    (hknown : ∀ id ∈ ids, (t.get? id).isSome) (hseen : ∀ id, id ∈ earlier ↔ id ∈ seen) :
    t.listFaults earlier ids =
      (t.redeclared seen ids).map fun id => .alreadyDeclared (t.nameOf id) := by
  induction ids generalizing earlier seen with
  | nil => rfl
  | cons id rest ih =>
    obtain ⟨y, hy⟩ := Option.isSome_iff_exists.mp (hknown id List.mem_cons_self)
    have hnext : ∀ other, other ∈ earlier ++ [id] ↔ other ∈ id :: seen := by
      intro other
      rw [List.mem_append, List.mem_singleton, List.mem_cons, hseen, or_comm]
    have hrest := ih (fun other hother => hknown other (List.mem_cons_of_mem id hother)) hnext
    have hfault : t.elementFault? earlier id =
        if t.isDeclared id = true ∨ id ∈ seen then some (.alreadyDeclared (t.nameOf id))
        else none := by
      simp only [elementFault?, isDeclared, nameOf, hy, hseen, Option.any_some]
    rw [listFaults_cons, hrest, hfault, redeclared]
    split <;> rfl

theorem diagnostics_declareList {t : SymbolTable} {head : Node} (type : Ty) (pos : Position)
    (hknown : ∀ id ∈ head.listSymbols, (t.get? id).isSome) :
    (t.declareList head type pos).diagnostics =
      (t.redeclared [] head.listSymbols).map fun id => ⟨.alreadyDeclared (t.nameOf id), pos⟩ := by
  rw [declareList, diagnostics_declareAll, listFaults_eq hknown fun _ => Iff.rfl, List.map_map]
  rfl

theorem diagnostics_intern_declare {t : SymbolTable} {name : String} (pos : Position)
    (hsize : (t.intern name).table.size < UInt32.size) :
    ((t.intern name).table.declare (t.intern name).value pos).diagnostics =
      if t.hasDeclared name then [⟨.alreadyDeclared name, pos⟩] else [] := by
  rw [diagnostics_declare (get?_intern_value hsize), hasDeclared]
  cases h : t.find? name with
  | none => rfl
  | some y => simp [name_of_find? h]

end SymbolTable

theorem SymbolTable.diagnostics_intern_assign {t : SymbolTable} {name : String}
    (expression : Node) (answer : Query → Value) (pos : Position)
    (hsize : (t.intern name).table.size < UInt32.size) :
    ((t.intern name).table.assign (t.intern name).value expression answer pos).diagnostics =
      match t.find? name with
      | none => [⟨.notDeclared name, pos⟩]
      | some y =>
        if y.declared = false then [⟨.notDeclared name, pos⟩]
        else if y.type ≠ expression.typeIn t then
          [⟨.assignmentMismatch name y.type.name (expression.typeIn t).name, pos⟩]
        else [] := by
  rw [diagnostics_assign (get?_intern_value hsize), expression.typeIn_intern]
  cases h : t.find? name with
  | none => rfl
  | some y => rw [Option.getD_some, name_of_find? h]

namespace Operands

theorem faults_binary (op : Operator) (left right : Ty) :
    faults op { left := some left, right := some right } =
      Operation.operandViolations op [(.left, left), (.right, right)] := by
  cases op <;> cases left <;> cases right <;> rfl

theorem faults_unary (op : Operator) (right : Ty) :
    faults op { left := none, right := some right } =
      Operation.operandViolations op [(.right, right)] := by
  cases op <;> cases right <;> rfl

/-- Operands are found wrong one by one, where integers are asked for, or together as summands. -/
theorem cases_of_mem_faults {op : Operator} {operands : Operands} {fault : Fault}
    (h : fault ∈ operands.faults op) :
    (∃ (side : Side) (received : Ty),
      fault = .operandMismatch side op.symbol Ty.integer.name received.name) ∨
    fault = .additionMismatch additionName Ty.integer.name Ty.string.name := by
  have hinteger : ∀ (side : Side) (type : Option Ty), fault ∈ integerFault op side type →
      ∃ received : Ty,
        fault = .operandMismatch side op.symbol Ty.integer.name received.name := by
    intro side type hfault
    unfold integerFault at hfault
    split at hfault
    case h_3 received _ => exact ⟨received, (Option.some.inj hfault).symm⟩
    all_goals cases hfault
  rcases List.mem_append.mp h with h | h
  · left
    rw [integerFaults] at h
    split at h
    · rcases List.mem_append.mp h with h | h
      · exact ⟨.left, hinteger .left _ (Option.mem_toList.mp h)⟩
      · exact ⟨.right, hinteger .right _ (Option.mem_toList.mp h)⟩
    · cases h
  · right
    rw [additionFaults] at h
    split at h
    · exact List.mem_singleton.mp h
    · cases h

end Operands

/-- The guard of an assignment refuses reserved words and numbers. -/
theorem Target.check_eq (name : String) (pos : Position) :
    Target.check name pos =
      if name ∈ Target.reservedWords ∨ Target.isNumber name = true then
        some ⟨.reservedTarget name, pos⟩
      else none := by
  simp only [Target.check, Target.fault?, Target.isReservedWord, Bool.or_eq_true,
    List.contains_iff_mem]
  split <;> rfl

namespace Session

theorem diagnostics_effect {s : Session} {op : Operation Node} (hknown : op.Known s.symbols)
    (hsize : (s.perform op).2.symbols.size < UInt32.size) :
    (s.effect op).diagnostics = (Step.mk s op).violations := by
  rw [symbols_perform] at hsize
  cases op with
  | intern name | listElement name | reference name | input name | forLoop name =>
    exact SymbolTable.diagnostics_intern s.symbols name
  | declare name =>
    rw [effect, Update.table_andThen, SymbolTable.table_declare, SymbolTable.size_modify] at hsize
    rw [effect, Update.diagnostics_andThen, SymbolTable.diagnostics_intern,
      SymbolTable.diagnostics_intern_declare _ hsize, Step.violations, Operation.violations]
    split <;> rfl
  | bindType id type => exact SymbolTable.diagnostics_bindType s.symbols id type
  | declareList head type =>
    rw [effect, SymbolTable.diagnostics_declareList type _ hknown, Step.violations,
      Operation.violations, List.map_map]
    rfl
  | assign name expression =>
    by_cases hname : name ∈ Target.reservedWords ∨ Target.isNumber name = true
    · simp only [effect, Target.check_eq, if_pos hname, Step.violations, Operation.violations]
      rfl
    · simp only [effect, Target.check_eq, if_neg hname, Update.table_andThen, Update.table_map,
        SymbolTable.table_assign, SymbolTable.size_modify] at hsize
      simp only [effect, Target.check_eq, if_neg hname, Update.diagnostics_andThen,
        SymbolTable.diagnostics_intern, Update.diagnostics_map,
        SymbolTable.diagnostics_intern_assign expression _ _ hsize, Step.violations,
        Operation.violations]
      cases s.symbols.find? name with
      | none => rfl
      | some y =>
        by_cases hd : y.declared = false
        · simp [hd]
        · by_cases ht : y.type = expression.typeIn s.symbols <;> simp [hd, ht]
  | binary left op right =>
    show (Operands.faults op _).map _ = _
    rw [Operands.ofNodes, Option.map_some, Option.map_some, Operands.faults_binary]
    rfl
  | unary op right =>
    show (Operands.faults op _).map _ = _
    rw [Operands.ofNodes, Option.map_none, Option.map_some, Operands.faults_unary]
    rfl
  | _ => rfl

theorem diagnostics_performAll {s : Session} {ops : List (Operation Node)}
    (hknown : ∀ st ∈ s.steps ops, st.operation.Known st.before.symbols)
    (hsize : (s.performAll ops).symbols.size < UInt32.size) :
    (s.performAll ops).diagnostics = s.diagnostics ++ (s.steps ops).flatMap Step.violations := by
  induction ops generalizing s with
  | nil => exact (List.append_nil _).symm
  | cons op rest ih =>
    have hop : (s.perform op).2.symbols.size < UInt32.size :=
      Nat.lt_of_le_of_lt (size_le_performAll _ rest) hsize
    have hrest := ih (fun st hst => hknown st (List.mem_cons_of_mem _ hst)) hsize
    rw [steps, List.flatMap_cons, ← List.append_assoc,
      ← diagnostics_effect (hknown ⟨s, op⟩ List.mem_cons_self) hop, ← diagnostics_perform]
    exact hrest

/-! ## The nodes of a workbench -/

/-- An assignment builds a node in every case. -/
theorem assign_fst (s : Session) (name : String) (expression : Node) :
    ∃ target, (s.assign name expression).1 = .assignment s.position target expression := by
  unfold assign
  split
  · exact ⟨.invalid, rfl⟩
  · exact ⟨(s.symbols.intern name).value, rfl⟩

/-- Of the nodes that an operation builds only an element of a list starts a list, and its name
has just been used. -/
theorem known_perform {s : Session} {op : Operation Node} {n : Node}
    (h : (s.perform op).1 = .node n) :
    ∀ id ∈ n.listSymbols, ((s.perform op).2.symbols.get? id).isSome := by
  cases op with
  | listElement name =>
    cases h
    intro id hid
    have hvalue : id = (s.symbols.intern name).value := List.mem_singleton.mp hid
    rw [symbols_perform, hvalue]
    exact s.symbols.isSome_get?_intern_value name
  | setPosition | intern | declare | bindType | declareList => cases h
  | assign name expression =>
    obtain ⟨target, htarget⟩ := assign_fst s name expression
    have hn : n = .assignment s.position target expression :=
      (Result.node.inj h).symm.trans htarget
    subst hn
    exact fun id hid => absurd hid List.not_mem_nil
  | _ =>
    cases h
    exact fun id hid => absurd hid List.not_mem_nil

end Session

namespace Workbench

/-- The handles of all identifier lists of a workbench lead to symbols. -/
def Known (w : Workbench) : Prop :=
  ∀ n ∈ w.nodes, ∀ id ∈ n.listSymbols, (w.session.symbols.get? id).isSome

theorem known_operation {w : Workbench} (hw : w.Known) {command : Command}
    {op : Operation Node} (h : w.operation? command = some op) : op.Known w.session.symbols := by
  cases op with
  | declareList head type =>
    cases command with
    | link index next => cases h
    | perform op =>
      cases op with
      | declareList index type =>
        simp only [operation?, Operation.resolve?, Option.bind_eq_bind, Option.bind_eq_some_iff,
          Option.pure_def, Option.some.injEq, Operation.declareList.injEq] at h
        obtain ⟨found, hfound, rfl, -⟩ := h
        exact hw _ (List.mem_of_getElem? hfound)
      | _ => simp [operation?, Operation.resolve?, Option.bind_eq_some_iff] at h
  | _ => trivial

theorem mem_nodes_keep {w : Workbench} {result : Result Node × Session} {n : Node}
    (h : n ∈ (w.keep result).2.nodes) : n ∈ w.nodes ∨ result.1 = .node n := by
  obtain ⟨r, s⟩ := result
  cases r with
  | node built =>
    rcases List.mem_append.mp h with h | h
    · exact .inl h
    · exact .inr (congrArg Result.node (List.mem_singleton.mp h).symm)
  | _ => exact .inl h

theorem known_exec {w : Workbench} (hw : w.Known) (command : Command) :
    (w.exec command).2.Known := by
  have hgrows : w.session.symbols.size ≤ (w.exec command).2.session.symbols.size := by
    rw [session_exec]
    exact Session.size_le_performAll ..
  have hheld : ∀ n ∈ w.nodes, ∀ id ∈ n.listSymbols,
      ((w.exec command).2.session.symbols.get? id).isSome := by
    intro n hn id hid
    have hlt := (SymbolTable.get?_isSome_iff ..).mp (hw n hn id hid)
    exact (SymbolTable.get?_isSome_iff ..).mpr (Nat.lt_of_lt_of_le hlt hgrows)
  cases command with
  | perform op =>
    cases hop : op.resolve? fun i => w.nodes[i]? with
    | none => simpa [exec, hop] using hw
    | some resolved =>
      have hexec : (w.exec (.perform op)).2 = (w.keep (w.session.perform resolved)).2 := by
        simp [exec, hop]
      rw [hexec] at hheld ⊢
      intro n hn
      rcases mem_nodes_keep hn with hn | hn
      · exact hheld n hn
      · rw [session_keep]
        exact Session.known_perform hn
  | link index next =>
    rw [exec] at hheld ⊢
    split at hheld
    · rename_i node tail hnode htail
      have hsession : (w.link index node tail).2.session = w.session := by
        unfold link
        split <;> rfl
      intro n hn
      show ∀ id ∈ n.listSymbols, ((w.link index node tail).2.session.symbols.get? id).isSome
      rw [hsession]
      unfold link at hn
      split at hn
      · rename_i linked hlinked
        rcases List.mem_or_eq_of_mem_set hn with hn | rfl
        · exact hw n hn
        · intro id hid
          rw [Node.listSymbols_of_link? hlinked] at hid
          rcases List.mem_append.mp hid with hid | hid
          · exact hw node (List.mem_of_getElem? hnode) id hid
          · exact hw tail (List.mem_of_getElem? htail) id hid
      · exact hw n hn
    · exact hw

theorem known_operations {w : Workbench} (hw : w.Known) (commands : List Command) :
    ∀ st ∈ w.session.steps (w.operations commands), st.operation.Known st.before.symbols := by
  induction commands generalizing w with
  | nil => simp [operations, Session.steps]
  | cons command rest ih =>
    have hrest := ih (known_exec hw command)
    rw [session_exec] at hrest
    rw [operations]
    cases hop : w.operation? command with
    | none => simpa [hop, Session.performAll] using hrest
    | some op =>
      intro st hst
      rcases List.mem_cons.mp hst with rfl | hst
      · exact known_operation hw hop
      · exact hrest st (by simpa [hop, Session.performAll] using hst)

end Workbench

/-- The diagnostics of a compilation are what breaks the rules of its operations, in order and
with the positions of the operations.  There are no errors exactly if every operation obeyed its
rule in the table it was carried out in. -/
theorem Workbench.diagnostics_run_eq_violations (options : Options) (sink : Sink)
    (resolver : Resolver) (commands : List Command)
    (hsize : ((start options sink resolver).run commands).session.symbols.size < UInt32.size) :
    let w := start options sink resolver
    let steps := w.session.steps (w.operations commands)
    ((w.run commands).session.hasErrors = false ↔
        ∀ st ∈ steps, st.operation.Obeys st.before.symbols) ∧
      (w.run commands).session.diagnostics = steps.flatMap Step.violations := by
  intro w steps
  have hstart : w.Known := fun n hn => absurd hn List.not_mem_nil
  have hknown : ∀ st ∈ steps, st.operation.Known st.before.symbols :=
    known_operations hstart commands
  have hdiagnostics : (w.run commands).session.diagnostics = steps.flatMap Step.violations := by
    rw [session_run] at hsize ⊢
    exact Session.diagnostics_performAll hknown hsize
  refine ⟨?_, hdiagnostics⟩
  rw [Session.hasErrors, Bool.not_eq_false', List.isEmpty_iff, hdiagnostics,
    List.flatMap_eq_nil_iff]
  refine forall_congr' fun st => forall_congr' fun hst => ?_
  rw [Operation.obeys_iff (hknown st hst), Step.violations, List.map_eq_nil_iff]

/-- A list with `a` as its element, after a declaration of `a`. -/
theorem Workbench.diagnostics_run_of_declared_element :
    let w := start {} .null .zero
    let commands : List Command :=
      [.perform (.declare "a"), .perform (.listElement "a"), .perform (.declareList 0 .integer)]
    (w.run commands).session.symbols.size < UInt32.size ∧
      (w.run commands).session.hasErrors = true ∧
      (w.run commands).session.diagnostics = [⟨.alreadyDeclared "a", w.session.position⟩] := by
  intro w commands
  have hsize : (w.run commands).session.symbols.size < UInt32.size := by decide
  have hrun := (diagnostics_run_eq_violations {} .null .zero commands hsize).2
  have hviolations : (w.session.steps (w.operations commands)).flatMap Step.violations =
      [⟨.alreadyDeclared "a", w.session.position⟩] := by decide
  have hdiagnostics := hrun.trans hviolations
  refine ⟨hsize, ?_, hdiagnostics⟩
  rw [Session.hasErrors, hdiagnostics]
  rfl

end ImpFront
