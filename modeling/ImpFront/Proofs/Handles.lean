/-
The handles in the nodes of a workbench.

A node keeps handles and no names, and it outlives any number of changes to the table.
`Workbench.ledger` keeps the names: for each node of a run the names that were passed when its
constructs were built, read off the commands alone.  `stands_run` lays the two side by side.
Every handle in a node stands for the name at its place in the ledger, in the table at that time
and in every later one.  The one handle that stands for no name is the reserved one, which only
an assignment to a reserved word or a number gets.
-/
import Mathlib.Data.List.Forall2
import ImpFront.Proofs.Interning
import ImpFront.Proofs.Lifecycle
import ImpFront.Proofs.Nodes

namespace ImpFront

/-! ## Names passed and handles kept -/

namespace Operation

variable {ν μ : Type}

/-- The name passed for the node that an operation builds, with the construct it is for. -/
def own : Operation ν → Option (Construct × String)
  | listElement name => some (.listElement, name)
  | reference name => some (.reference, name)
  | assign name _ => some (.assignment, name)
  | input name => some (.input, name)
  | forLoop name _ _ _ => some (.forLoop, name)
  | _ => none

/-- The nodes passed for the node that an operation builds. -/
def parts : Operation ν → List ν
  | binary left _ right => [left, right]
  | unary _ part | parenthesized part | assign _ part | print part => [part]
  | forLoop _ first last body => first :: last :: body
  | whileLoop condition body => condition :: body
  | ifElse condition thenBody elseBody => condition :: (thenBody ++ elseBody)
  | root declarations statements => declarations ++ statements
  | _ => []

end Operation

/-- Whether an assignment to the name is refused before anything is looked up. -/
def Target.isRefused (name : String) : Bool := (Target.fault? name).isSome

/-- A handle in a node, with its construct, stands for the name that was passed for it. -/
structure SymbolTable.Stands (t : SymbolTable) (kept : Construct × SymbolId)
    (passed : Construct × String) : Prop where
  construct : kept.1 = passed.1
  invalid_iff : kept.2 = .invalid ↔ passed.1 = .assignment ∧ Target.isRefused passed.2 = true
  held : kept.2 ≠ .invalid → kept.2.index.toNat < t.size ∧ t.nameOf kept.2 = passed.2

namespace Workbench

/-- The names passed for the nodes, after one more command.  A link puts the names of one node
after those of another. -/
def record (w : Workbench) (names : List (List (Construct × String))) (command : Command) :
    List (List (Construct × String)) :=
  let entry (i : Nat) := names[i]?.getD []
  match command, (w.exec command).1 with
  | .perform op, some (.node _) => names ++ [op.own.toList ++ op.parts.flatMap entry]
  | .link index next, some (.flag true) => names.set index (entry index ++ entry next)
  | _, _ => names

/-- The names passed for the nodes of a run, which starts with the names given. -/
def ledger (w : Workbench) (names : List (List (Construct × String))) :
    List Command → List (List (Construct × String))
  | [] => names
  | command :: rest => (w.exec command).2.ledger (w.record names command) rest

/-- The handles in the nodes stand for the names in a table. -/
def Records (nodes : List Node) (t : SymbolTable) (names : List (List (Construct × String))) :
    Prop :=
  List.Forall₂ (fun n entry => List.Forall₂ t.Stands n.mentions entry) nodes names

end Workbench

/-! ## Handles in a growing table -/

namespace SymbolTable

variable {t t' : SymbolTable}

theorem getElem?_names_eq_some_iff {id : SymbolId} {name : String} :
    t.names[id.index.toNat]? = some name ↔ id.index.toNat < t.size ∧ t.nameOf id = name := by
  have hlength : t.names.length = t.size := List.length_map _
  constructor
  · intro h
    have hlt : id.index.toNat < t.size := hlength ▸ (List.getElem?_eq_some_iff.mp h).1
    rw [getElem?_names hlt] at h
    exact ⟨hlt, Option.some.inj h⟩
  · intro h
    rw [getElem?_names h.1, h.2]

theorem Stands.grow {kept : Construct × SymbolId} {passed : Construct × String}
    (h : t.Stands kept passed) (hgrows : t.names <+: t'.names) : t'.Stands kept passed where
  construct := h.construct
  invalid_iff := h.invalid_iff
  held hvalid := by
    have hname := getElem?_names_eq_some_iff.mpr (h.held hvalid)
    obtain ⟨added, hadded⟩ := hgrows
    have hlt := (List.getElem?_eq_some_iff.mp hname).1
    exact getElem?_names_eq_some_iff.mp (by rw [← hadded, List.getElem?_append_left hlt, hname])

theorem size_eq_of_names (h : t.names = t'.names) : t.size = t'.size := by
  simpa [names, size] using congrArg List.length h

/-- The handle that a name gets stands for it, in every table with the same names. -/
theorem stands_intern {name : String} (hnames : t'.names = (t.intern name).table.names)
    (hsize : t'.size < UInt32.size) {construct : Construct}
    (hallowed : ¬ (construct = .assignment ∧ Target.isRefused name = true)) :
    t'.Stands (construct, (t.intern name).value) (construct, name) := by
  have hroom : (t.intern name).table.size < UInt32.size := size_eq_of_names hnames ▸ hsize
  obtain ⟨y, hy, hyname⟩ := exists_get?_intern_value hroom
  have hlt := ((t.intern name).table.get?_isSome_iff _).mp (Option.isSome_of_eq_some hy)
  have hname : t'.names[(t.intern name).value.index.toNat]? = some name := by
    rw [hnames, getElem?_names hlt, nameOf_eq hy, hyname]
  have hvalid : (t.intern name).value ≠ .invalid := by
    intro h
    rw [h, get?_invalid hroom] at hy
    cases hy
  exact ⟨rfl, iff_of_false hvalid hallowed, fun _ => getElem?_names_eq_some_iff.mp hname⟩

end SymbolTable

/-! ## The node that an operation builds -/

namespace Session

/-- The handle that an operation keeps for a name. -/
def handleFor (s : Session) (passed : Construct × String) : SymbolId :=
  if passed.1 = .assignment ∧ Target.isRefused passed.2 = true then .invalid
  else (s.symbols.intern passed.2).value

theorem assign_eq (s : Session) (name : String) (expression : Node) :
    (s.assign name expression).1 =
      .assignment s.position (s.handleFor (.assignment, name)) expression := by
  cases h : Target.fault? name with
  | some fault => simp [assign, Target.check, handleFor, Target.isRefused, h, take]
  | none =>
    simp only [assign, Target.check, handleFor, Target.isRefused, h, Option.map_none]
    rfl

/-- The built node names what was passed and is made of the nodes that were passed. -/
theorem own_perform {s : Session} {op : Operation Node} {n : Node}
    (h : (s.perform op).1 = .node n) :
    n.own = op.own.map (fun passed => (passed.1, s.handleFor passed)) ∧ n.parts = op.parts := by
  cases op with
  | assign name expression =>
    have hn : n = (s.assign name expression).1 := (Result.node.inj h).symm
    rw [hn, assign_eq]
    exact ⟨rfl, rfl⟩
  | setPosition | intern | declare | bindType | declareList => cases h
  | _ =>
    cases h
    exact ⟨rfl, rfl⟩

theorem names_perform_assign (s : Session) {name : String} (expression : Node)
    (h : Target.isRefused name = false) :
    (s.perform (.assign name expression)).2.symbols.names =
      (s.symbols.intern name).table.names := by
  have hnone : Target.fault? name = none := by simpa [Target.isRefused] using h
  rw [symbols_perform]
  simp only [effect, Target.check, hnone, Option.map_none, Update.table_andThen, Update.table_map,
    SymbolTable.table_assign]
  exact SymbolTable.names_modify (Symbol.name_onAssign _ _)

/-- What an operation keeps for a name stands for it in the table that the operation leaves
behind. -/
theorem stands_own {s : Session} {op : Operation Node} {passed : Construct × String}
    (hown : op.own = some passed) (hsize : (s.perform op).2.symbols.size < UInt32.size) :
    (s.perform op).2.symbols.Stands (passed.1, s.handleFor passed) passed := by
  cases op with
  | listElement name | reference name | input name | forLoop name =>
    cases hown
    exact SymbolTable.stands_intern (congrArg _ (symbols_perform ..)) hsize (by simp)
  | assign name expression =>
    cases hown
    cases hrefused : Target.isRefused name with
    | true =>
      simp only [handleFor, hrefused]
      exact ⟨rfl, iff_of_true rfl ⟨rfl, hrefused⟩, fun h => absurd rfl h⟩
    | false =>
      simp only [handleFor, hrefused]
      exact SymbolTable.stands_intern (s.names_perform_assign expression hrefused) hsize
        (by simp [hrefused])
  | _ => cases hown

end Session

/-! ## Commands -/

theorem Node.mentions_of_link? {n tail linked : Node} (h : n.link? tail = some linked) :
    linked.mentions = n.mentions ++ tail.mentions := by
  induction n using Node.induct generalizing linked with
  | lastElement pos symbol =>
    cases h
    rfl
  | listElement pos symbol next ih =>
    rw [link?, Option.map_eq_some_iff] at h
    obtain ⟨rest, hrest, rfl⟩ := h
    rw [mentions, ih hrest, mentions, List.cons_append]
  | _ => cases h

/-- A list is looked up element by element. -/
theorem forall₂_of_mapM {ν μ : Type} {find : ν → Option μ} {called : List ν} {found : List μ}
    (h : called.mapM find = some found) :
    List.Forall₂ (fun i n => find i = some n) called found := by
  induction called generalizing found with
  | nil =>
    cases h
    exact .nil
  | cons i rest ih =>
    simp only [List.mapM_cons, Option.bind_eq_bind, Option.bind_eq_some_iff, Option.pure_def,
      Option.some.injEq] at h
    obtain ⟨n, hn, others, hothers, rfl⟩ := h
    exact .cons hn (ih hothers)

/-- Looking up the parts of an operation leaves its name as it is. -/
theorem Operation.own_resolve? {ν μ : Type} {find : ν → Option μ} {op : Operation ν}
    {found : Operation μ} (h : op.resolve? find = some found) :
    found.own = op.own ∧ List.Forall₂ (fun i n => find i = some n) op.parts found.parts := by
  cases op with
  | setPosition | intern | declare | bindType | listElement | constant | reference | input =>
    cases h
    exact ⟨rfl, .nil⟩
  | declareList head type =>
    simp only [resolve?, Option.bind_eq_bind, Option.bind_eq_some_iff, Option.pure_def,
      Option.some.injEq] at h
    obtain ⟨n, -, rfl⟩ := h
    exact ⟨rfl, .nil⟩
  | unary | parenthesized | assign | print =>
    simp only [resolve?, Option.bind_eq_bind, Option.bind_eq_some_iff, Option.pure_def,
      Option.some.injEq] at h
    obtain ⟨n, hn, rfl⟩ := h
    exact ⟨rfl, .cons hn .nil⟩
  | binary left op right =>
    simp only [resolve?, Option.bind_eq_bind, Option.bind_eq_some_iff, Option.pure_def,
      Option.some.injEq] at h
    obtain ⟨l, hl, r, hr, rfl⟩ := h
    exact ⟨rfl, .cons hl (.cons hr .nil)⟩
  | forLoop name first last body =>
    simp only [resolve?, Option.bind_eq_bind, Option.bind_eq_some_iff, Option.pure_def,
      Option.some.injEq] at h
    obtain ⟨f, hf, l, hl, ns, hns, rfl⟩ := h
    exact ⟨rfl, .cons hf (.cons hl (forall₂_of_mapM hns))⟩
  | whileLoop condition body =>
    simp only [resolve?, Option.bind_eq_bind, Option.bind_eq_some_iff, Option.pure_def,
      Option.some.injEq] at h
    obtain ⟨c, hc, ns, hns, rfl⟩ := h
    exact ⟨rfl, .cons hc (forall₂_of_mapM hns)⟩
  | ifElse condition thenBody elseBody =>
    simp only [resolve?, Option.bind_eq_bind, Option.bind_eq_some_iff, Option.pure_def,
      Option.some.injEq] at h
    obtain ⟨c, hc, ns, hns, ms, hms, rfl⟩ := h
    exact ⟨rfl, .cons hc (List.rel_append (forall₂_of_mapM hns) (forall₂_of_mapM hms))⟩
  | root declarations statements =>
    simp only [resolve?, Option.bind_eq_bind, Option.bind_eq_some_iff, Option.pure_def,
      Option.some.injEq] at h
    obtain ⟨ns, hns, ms, hms, rfl⟩ := h
    exact ⟨rfl, List.rel_append (forall₂_of_mapM hns) (forall₂_of_mapM hms)⟩

namespace Workbench

theorem Records.grow {nodes : List Node} {t t' : SymbolTable}
    {names : List (List (Construct × String))} (h : Records nodes t names)
    (hgrows : t.names <+: t'.names) : Records nodes t' names :=
  List.Forall₂.imp (fun _ _ hentry => List.Forall₂.imp (fun _ _ hm => hm.grow hgrows) hentry) h

theorem Records.entry {nodes : List Node} {t : SymbolTable}
    {names : List (List (Construct × String))} (h : Records nodes t names) {i : Nat} {n : Node}
    (hn : nodes[i]? = some n) : List.Forall₂ t.Stands n.mentions (names[i]?.getD []) := by
  induction h generalizing i with
  | nil => simp at hn
  | cons hentry _ ih =>
    cases i with
    | zero =>
      cases hn
      exact hentry
    | succ i => exact ih hn

theorem Records.set {nodes : List Node} {t : SymbolTable}
    {names : List (List (Construct × String))} (h : Records nodes t names) {n : Node}
    {entry : List (Construct × String)} (hentry : List.Forall₂ t.Stands n.mentions entry)
    (i : Nat) : Records (nodes.set i n) t (names.set i entry) := by
  induction h generalizing i with
  | nil => exact .nil
  | cons hfirst hrest ih =>
    cases i with
    | zero => exact .cons hentry hrest
    | succ i => exact .cons hfirst (ih i)

theorem names_prefix_exec (w : Workbench) (command : Command) :
    w.session.symbols.names <+: (w.exec command).2.session.symbols.names := by
  rw [session_exec]
  cases w.operation? command with
  | none => exact List.prefix_rfl
  | some op => exact Session.names_prefix_perform w.session op

theorem records_built {w : Workbench} {names : List (List (Construct × String))}
    (h : Records w.nodes w.session.symbols names) {op : Operation Nat} {resolved : Operation Node}
    (hop : op.resolve? (fun i => w.nodes[i]?) = some resolved) {n : Node}
    (hn : (w.session.perform resolved).1 = .node n)
    (hsize : (w.session.perform resolved).2.symbols.size < UInt32.size) :
    List.Forall₂ (w.session.perform resolved).2.symbols.Stands n.mentions
      (op.own.toList ++ op.parts.flatMap fun i => names[i]?.getD []) := by
  have hgrows := w.session.names_prefix_perform resolved
  obtain ⟨hown, hparts⟩ := Session.own_perform hn
  obtain ⟨hsame, hfound⟩ := Operation.own_resolve? hop
  rw [n.mentions_eq, hown, hparts, hsame]
  refine List.rel_append ?_ (List.rel_flatMap hfound.flip fun part i hpart => ?_)
  · cases hname : op.own with
    | none => exact .nil
    | some passed => exact .cons (Session.stands_own (hsame.trans hname) hsize) .nil
  · exact List.Forall₂.imp (fun _ _ hm => hm.grow hgrows) (h.entry hpart)

theorem records_exec {w : Workbench} {names : List (List (Construct × String))}
    (h : Records w.nodes w.session.symbols names) (command : Command)
    (hsize : (w.exec command).2.session.symbols.size < UInt32.size) :
    Records (w.exec command).2.nodes (w.exec command).2.session.symbols
      (w.record names command) := by
  have hkept := h.grow (names_prefix_exec w command)
  cases command with
  | perform op =>
    cases hop : op.resolve? fun i => w.nodes[i]? with
    | none => simpa [record, exec, hop] using hkept
    | some resolved =>
      simp only [exec, hop] at hkept hsize
      rw [Prod.map_snd, id_eq, session_keep] at hkept hsize
      cases hperform : w.session.perform resolved with
      | mk result s =>
        rw [hperform] at hkept hsize
        cases result with
        | node n =>
          have hbuilt := records_built h hop (n := n) (by rw [hperform]) (by rwa [hperform])
          rw [hperform] at hbuilt
          simp only [record, exec, hop, hperform, keep, Prod.map]
          exact List.rel_append hkept (.cons hbuilt .nil)
        | done | handle | declared | flag =>
          simpa only [record, exec, hop, hperform, keep, Prod.map, id_eq] using hkept
  | link index next =>
    cases hnode : w.nodes[index]? with
    | none => simpa [record, exec, hnode] using hkept
    | some node =>
      cases htail : w.nodes[next]? with
      | none => simpa [record, exec, hnode, htail] using hkept
      | some tail =>
        cases hlink : node.link? tail with
        | none => simpa [record, exec, hnode, htail, link, hlink] using hkept
        | some linked =>
          have hentry : List.Forall₂ w.session.symbols.Stands linked.mentions
              (names[index]?.getD [] ++ names[next]?.getD []) := by
            rw [Node.mentions_of_link? hlink]
            exact List.rel_append (h.entry hnode) (h.entry htail)
          simpa [record, exec, hnode, htail, link, hlink] using h.set hentry index

theorem records_run {w : Workbench} {names : List (List (Construct × String))}
    (h : Records w.nodes w.session.symbols names) {commands : List Command}
    (hsize : (w.run commands).session.symbols.size < UInt32.size) :
    Records (w.run commands).nodes (w.run commands).session.symbols (w.ledger names commands) := by
  induction commands generalizing w names with
  | nil => exact h
  | cons command rest ih =>
    have hnext : (w.exec command).2.session.symbols.size < UInt32.size := by
      rw [run_cons, session_run] at hsize
      exact Nat.lt_of_le_of_lt (Session.size_le_performAll ..) hsize
    exact ih (records_exec h command hnext) hsize

theorem names_prefix_run (w : Workbench) (commands : List Command) :
    w.session.symbols.names <+: (w.run commands).session.symbols.names := by
  induction commands generalizing w with
  | nil => exact List.prefix_rfl
  | cons command rest ih => exact (names_prefix_exec w command).trans (ih _)

end Workbench

/-! ## Handles that are looked up -/

/-- The tables and handles with which a list is declared, one element after the other. -/
def SymbolTable.declarations (t : SymbolTable) (ids : List SymbolId) (type : Ty) (pos : Position) :
    List (SymbolTable × SymbolId) :=
  match ids with
  | [] => []
  | id :: rest => (t, id) :: (t.declareTyped id type pos).table.declarations rest type pos

/-- The tables and handles with which the step declares variables and assigns to one. -/
def Step.lookups (st : Step) : List (SymbolTable × SymbolId) :=
  let t := st.before.symbols
  match st.operation with
  | .declare name => [((t.intern name).table, (t.intern name).value)]
  | .declareList head type => t.declarations head.listSymbols type st.before.position
  | .assign name _ =>
    if Target.isRefused name then [] else [((t.intern name).table, (t.intern name).value)]
  | _ => []

theorem SymbolTable.held_of_declarations {t : SymbolTable} {ids : List SymbolId} {type : Ty}
    {pos : Position} (hids : ∀ id ∈ ids, (t.get? id).isSome) :
    ∀ lookup ∈ t.declarations ids type pos, (lookup.1.get? lookup.2).isSome := by
  induction ids generalizing t with
  | nil => simp [declarations]
  | cons id rest ih =>
    intro lookup hlookup
    rcases List.mem_cons.mp hlookup with rfl | hlookup
    · exact hids id List.mem_cons_self
    · refine ih (fun other hother => ?_) lookup hlookup
      rw [get?_isSome_iff, table_declareTyped, size_modify, ← get?_isSome_iff]
      exact hids other (List.mem_cons_of_mem id hother)

theorem Step.held_of_lookups {st : Step} (hknown : st.operation.Known st.before.symbols)
    (hsize : st.after.symbols.size < UInt32.size) :
    ∀ lookup ∈ st.lookups, (lookup.1.get? lookup.2).isSome := by
  obtain ⟨s, op⟩ := st
  have hinterned : ∀ name, (Step.mk s op).after.symbols.names =
      (s.symbols.intern name).table.names →
      ((s.symbols.intern name).table.get? (s.symbols.intern name).value).isSome := by
    intro name hnames
    rw [SymbolTable.size_eq_of_names hnames] at hsize
    exact Option.isSome_of_eq_some (SymbolTable.get?_intern_value hsize)
  cases op with
  | declare name =>
    intro lookup hlookup
    rw [List.mem_singleton.mp hlookup]
    refine hinterned name ?_
    rw [Step.after, Session.symbols_perform, Session.effect, Update.table_andThen,
      SymbolTable.table_declare]
    exact SymbolTable.names_modify Symbol.name_onDeclare
  | declareList head type => exact SymbolTable.held_of_declarations hknown
  | assign name expression =>
    intro lookup hlookup
    cases hrefused : Target.isRefused name with
    | true => simp [lookups, hrefused] at hlookup
    | false =>
      simp only [lookups, hrefused] at hlookup
      rw [List.mem_singleton.mp hlookup]
      exact hinterned name (s.names_perform_assign expression hrefused)
  | _ => exact fun lookup hlookup => absurd hlookup List.not_mem_nil

/-- Only the rule of assignments speaks of undeclared variables. -/
theorem Operation.assigns_of_mem_violations {t : SymbolTable} {op : Operation Node} {name : String}
    (h : .notDeclared name ∈ op.violations t) : ∃ expression, op = .assign name expression := by
  have hoperands : ∀ (op : Operator) (operands : List (Side × Ty)),
      .notDeclared name ∉ operandViolations op operands := by
    intro op operands
    cases op <;> simp [operandViolations]
  cases op with
  | declare other => simp [violations] at h
  | declareList head type => simp [violations] at h
  | assign other expression =>
    rw [violations] at h
    split at h
    · simp at h
    · have hname : name = other := by
        split at h
        · simpa using h
        · split at h
          · simpa using h
          · split at h <;> simp at h
      exact ⟨expression, hname ▸ rfl⟩
  | binary left op right => exact absurd h (hoperands op _)
  | unary op right => exact absurd h (hoperands op _)
  | _ => simp [violations] at h

/-- What a step finds undeclared is the variable that it assigns to.  A handle that leads nowhere
would be reported under a name that was not passed. -/
theorem Step.assigns_of_raised {st : Step} (hknown : st.operation.Known st.before.symbols)
    (hsize : st.after.symbols.size < UInt32.size) {d : Diagnostic} (hd : d ∈ st.raised)
    {name : String} (hfault : d.fault = .notDeclared name) :
    ∃ expression, st.operation = .assign name expression := by
  rw [raised_eq_violations hknown hsize] at hd
  obtain ⟨fault, hmem, rfl⟩ := List.mem_map.mp hd
  rw [show fault = .notDeclared name from hfault] at hmem
  exact Operation.assigns_of_mem_violations hmem

namespace Workbench

/-- The handles in the nodes of a run stand for the names that were passed, at that time and after
any further commands, and no symbol has the reserved handle.  So no declaration, declaration of a
list or assignment ever looks up a handle that leads nowhere, and nothing but the variable of an
assignment is ever reported as undeclared. -/
theorem stands_run (options : Options) (sink : Sink) (resolver : Resolver)
    (commands later : List Command)
    (hsize : ((start options sink resolver).run (commands ++ later)).session.symbols.size <
      UInt32.size) :
    let w := start options sink resolver
    let t := (w.run (commands ++ later)).session.symbols
    List.Forall₂ (fun n entry => List.Forall₂ t.Stands n.mentions entry)
        (w.run commands).nodes (w.ledger [] commands) ∧
      t.get? .invalid = none ∧
      ∀ st ∈ w.session.steps (w.operations (commands ++ later)),
        (∀ lookup ∈ st.lookups, (lookup.1.get? lookup.2).isSome) ∧
          ∀ d ∈ st.raised, ∀ name, d.fault = .notDeclared name →
            ∃ expression, st.operation = .assign name expression := by
  intro w t
  have hgrows : (w.run commands).session.symbols.names <+: t.names := by
    have hprefix := names_prefix_run (w.run commands) later
    rwa [← run_append] at hprefix
  have hbefore : (w.run commands).session.symbols.size < UInt32.size := by
    have hle : (w.run commands).session.symbols.names.length ≤ t.names.length := hgrows.length_le
    simp only [SymbolTable.names, List.length_map] at hle
    exact Nat.lt_of_le_of_lt hle hsize
  have hempty : Records w.nodes w.session.symbols [] := .nil
  have hrecords := records_run hempty hbefore
  refine ⟨hrecords.grow hgrows, SymbolTable.get?_invalid hsize, fun st hst => ?_⟩
  have hstart : w.Known := fun n hn => absurd hn List.not_mem_nil
  have hafter : st.after.symbols.size < UInt32.size := by
    have hle := Session.size_after_le hst
    rw [← session_run] at hle
    exact Nat.lt_of_le_of_lt hle hsize
  have hknown : st.operation.Known st.before.symbols :=
    known_operations hstart (commands ++ later) st hst
  exact ⟨Step.held_of_lookups hknown hafter,
    fun d hd name => Step.assigns_of_raised hknown hafter hd⟩

/-- A linked list `a, b` and a refused assignment to `if`, seen from a table in which the list was
declared and another name was used. -/
theorem stands_run_of_linked_list :
    let w := start {} .null .zero
    let commands : List Command :=
      [.perform (.listElement "a"), .perform (.listElement "b"), .link 0 1,
        .perform (.reference "b"), .perform (.assign "if" 2)]
    let later : List Command := [.perform (.declareList 0 .integer), .perform (.intern "c")]
    let t := (w.run (commands ++ later)).session.symbols
    let names := [[(.listElement, "a"), (.listElement, "b")], [(.listElement, "b")],
      [(.reference, "b")], [(.assignment, "if"), (.reference, "b")]]
    t.size < UInt32.size ∧ t.names = ["a", "b", "c"] ∧
      List.Forall₂ (fun n entry => List.Forall₂ t.Stands n.mentions entry)
        (w.run commands).nodes names := by
  intro w commands later t names
  have hsize : t.size < UInt32.size := by decide
  have hledger : w.ledger [] commands = names := by decide
  obtain ⟨hstands, -, -⟩ := stands_run {} .null .zero commands later hsize
  exact ⟨hsize, by decide, hledger ▸ hstands⟩

end Workbench
end ImpFront
