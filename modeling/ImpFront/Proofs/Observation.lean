/-
What can be seen of a run besides positions and values.

The resolver writes its answers into the table that every check reads, and every node and every
diagnostic keeps a position.  An observation of a run lists what is left without them: after
each command its result, the rows of the table, the faults, the questions put to the resolver
and the nodes.  The theorem this file exists for is `observations_start`: two runs from fresh
sessions make the same observations, whatever their options, sinks and resolvers are and wherever
their commands set the position.

Each function of the model is looked at once, in two tables with the same rows.  What one
operation does is compared with what it does without its own positions (`outcome_unplaced`), which
leaves one case for each operation and none for each pair of them.
-/
import ImpFront.Node.Equality
import ImpFront.Proofs.Nodes
import ImpFront.Proofs.Rows
import ImpFront.Proofs.Run

namespace ImpFront

/-! ## Commands, results and states without positions and values -/

namespace Operation

/-- The operation without the position that it sets, and with a view of the things it is about. -/
def unplaced {ν μ : Type} (view : ν → μ) : Operation ν → Operation μ
  | setPosition _ _ => setPosition 0 0
  | intern name => intern name
  | declare name => declare name
  | bindType symbol type => bindType symbol type
  | listElement name => listElement name
  | declareList head type => declareList (view head) type
  | constant value => constant value
  | reference name => reference name
  | binary left op right => binary (view left) op (view right)
  | unary op right => unary op (view right)
  | parenthesized inner => parenthesized (view inner)
  | assign name expression => assign name (view expression)
  | print expression => print (view expression)
  | input name => input name
  | forLoop name first last body => forLoop name (view first) (view last) (body.map view)
  | whileLoop condition body => whileLoop (view condition) (body.map view)
  | ifElse condition thenBody elseBody =>
    ifElse (view condition) (thenBody.map view) (elseBody.map view)
  | root declarations statements => root (declarations.map view) (statements.map view)

end Operation

/-- The command without the position that it sets. -/
def Command.unplaced : Command → Command
  | perform op => perform (op.unplaced id)
  | link node next => link node next

def Result.unplaced : Result Node → Result Node
  | node n => node n.unplaced
  | result => result

/-- A question to the resolver without the positions in its expression and the values in its
table. -/
structure Question where
  expression : Node
  rows : List Row
  target : Ty
  deriving DecidableEq

def Query.question (q : Query) : Question :=
  { expression := q.expression.unplaced, rows := q.table.rows, target := q.target }

namespace Session

/-- A session without positions and values.  Its journal is left out with them, since it reports
positions and tells whether an answer was kept. -/
structure Content where
  rows : List Row
  faults : List Fault
  questions : List Question
  deriving DecidableEq

def content (s : Session) : Content :=
  { rows := s.symbols.rows
    faults := s.diagnostics.map Diagnostic.fault
    questions := s.queries.map Query.question }

end Session

namespace Workbench

structure Content where
  session : Session.Content
  nodes : List Node
  deriving DecidableEq

def content (w : Workbench) : Content :=
  { session := w.session.content, nodes := w.nodes.map Node.unplaced }

/-- The result of each command of a run and the content of the workbench after it. -/
def observations : Workbench → List Command → List (Option (Result Nat) × Content)
  | _, [] => []
  | w, command :: rest =>
    (w.exec command).map id content :: observations (w.exec command).2 rest

end Workbench

/-! ## Views -/

/-- Two options with the same view are both empty, or both hold something with the same view. -/
theorem cases_of_map_eq {α β : Type} {view : α → β} {o o' : Option α}
    (h : o.map view = o'.map view) :
    (o = none ∧ o' = none) ∨ ∃ a a', o = some a ∧ o' = some a' ∧ view a = view a' := by
  cases o with
  | none => exact .inl ⟨rfl, Option.map_eq_none_iff.mp h.symm⟩
  | some a =>
    obtain ⟨a', ha', hview⟩ := Option.map_eq_some_iff.mp h.symm
    exact .inr ⟨a, a', rfl, ha', hview.symm⟩

theorem map_mapM {ν μ κ : Type} (find : ν → Option μ) (view : μ → κ) (called : List ν) :
    (called.mapM find).map (List.map view) = called.mapM fun i => (find i).map view := by
  induction called with
  | nil => rfl
  | cons i rest ih =>
    rw [List.mapM_cons, List.mapM_cons, ← ih]
    cases find i with
    | none => rfl
    | some n => cases rest.mapM find <;> rfl

/-! ## Alike findings -/

/-- Checked values with the same faults and the same view of the value. -/
structure Checked.Alike {α β : Type} (view : α → β) (c c' : Checked α) : Prop where
  value : view c.value = view c'.value
  faults : c.diagnostics.map Diagnostic.fault = c'.diagnostics.map Diagnostic.fault

theorem Checked.Alike.isClean {α β : Type} {view : α → β} {c c' : Checked α}
    (h : c.Alike view c') : c.isClean = c'.isClean := by
  have hempty := congrArg List.isEmpty h.faults
  rwa [List.isEmpty_map, List.isEmpty_map] at hempty

/-- Updates that are alike and leave tables with the same rows. -/
structure Update.Alike {α β : Type} (view : α → β) (u u' : Update α) : Prop
    extends Checked.Alike view u.toChecked u'.toChecked where
  rows : u.table.rows = u'.table.rows

namespace Update.Alike

variable {α β γ δ : Type} {view : α → β} {view' : γ → δ} {u u' : Update α}

theorem comp (h : u.Alike view u') (further : β → γ) : u.Alike (further ∘ view) u' :=
  ⟨⟨congrArg further h.value, h.faults⟩, h.rows⟩

theorem map (h : u.Alike view u') {f f' : α → γ} (hf : view' (f u.value) = view' (f' u'.value)) :
    (u.map f).Alike view' (u'.map f') :=
  ⟨⟨hf, h.faults⟩, h.rows⟩

theorem andThen (h : u.Alike view u') {next next' : α → SymbolTable → Update γ}
    (hnext : (next u.value u.table).Alike view' (next' u'.value u'.table)) :
    (u.andThen next).Alike view' (u'.andThen next') := by
  refine ⟨⟨hnext.value, ?_⟩, hnext.rows⟩
  rw [diagnostics_andThen, diagnostics_andThen, List.map_append, List.map_append, h.faults,
    hnext.faults]

end Update.Alike

/-! ## Tables with the same rows -/

namespace SymbolTable

variable {t t' : SymbolTable}

/-- In tables with the same rows a handle leads nowhere or to symbols with the same row. -/
theorem get?_cases_of_rows (h : t.rows = t'.rows) (id : SymbolId) :
    (t.get? id = none ∧ t'.get? id = none) ∨
      ∃ y y', t.get? id = some y ∧ t'.get? id = some y' ∧ y.row = y'.row := by
  have hrow : (t.get? id).map Symbol.row = (t'.get? id).map Symbol.row := by
    rw [← getElem?_rows, ← getElem?_rows, h]
  exact cases_of_map_eq hrow

theorem agreeOn_of_rows (h : t.rows = t'.rows) (ids : List SymbolId) : t.AgreeOn t' ids := by
  intro id _
  rcases get?_cases_of_rows h id with ⟨hy, hy'⟩ | ⟨y, y', hy, hy', hrow⟩
  · simp [nameOf, typeOf, hy, hy']
  · obtain ⟨hname, -, htype⟩ := Symbol.row_eq_iff.mp hrow
    simp [nameOf, typeOf, hy, hy', hname, htype]

theorem typeIn_of_rows (h : t.rows = t'.rows) (n : Node) : n.typeIn t = n.unplaced.typeIn t' := by
  rw [Node.unplaced, Node.typeIn_relabel]
  exact Node.typeIn_congr (agreeOn_of_rows h _)

theorem alike_intern (h : t.rows = t'.rows) (name : String) :
    (t.intern name).Alike id (t'.intern name) where
  value := by
    have hnames : t.names = t'.names := by rw [names_eq_rows, names_eq_rows, h]
    have hsize : t.size = t'.size := by rw [← length_rows, ← length_rows, h]
    unfold intern
    rw [lookup_congr hnames, hsize]
    cases t'.lookup name <;> rfl
  faults := by rw [diagnostics_intern, diagnostics_intern]
  rows := by rw [rows_intern, rows_intern, names_eq_rows, names_eq_rows, h]

theorem intern_value_of_rows (h : t.rows = t'.rows) (name : String) :
    (t.intern name).value = (t'.intern name).value :=
  (alike_intern h name).value

theorem alike_declare (h : t.rows = t'.rows) (id : SymbolId) (pos pos' : Position) :
    (t.declare id pos).Alike (fun u => u) (t'.declare id pos') where
  value := rfl
  faults := by
    rcases get?_cases_of_rows h id with ⟨hy, hy'⟩ | ⟨y, y', hy, hy', hrow⟩
    · rw [declare_of_unknown hy, declare_of_unknown hy']
      rfl
    · obtain ⟨hname, hdeclared, -⟩ := Symbol.row_eq_iff.mp hrow
      rw [diagnostics_declare hy, diagnostics_declare hy', hname, hdeclared]
      split <;> rfl
  rows := by rw [rows_declare, rows_declare, h]

theorem alike_bindType (h : t.rows = t'.rows) (id : SymbolId) (type : Ty) :
    (t.bindType id type).Alike (fun b => b) (t'.bindType id type) where
  value := by
    rcases get?_cases_of_rows h id with ⟨hy, hy'⟩ | ⟨y, y', hy, hy', hrow⟩
    · rw [bindType_of_unknown hy, bindType_of_unknown hy']
      rfl
    · obtain ⟨-, hdeclared, htype⟩ := Symbol.row_eq_iff.mp hrow
      have hsettled : y.isSettled = y'.isSettled := by
        rw [Symbol.isSettled, Symbol.isSettled, hdeclared, htype]
      cases hs : y'.isSettled with
      | true =>
        rw [bindType_of_settled hy (hsettled.trans hs), bindType_of_settled hy' hs, htype]
      | false => rw [bindType_of_open hy (hsettled.trans hs), bindType_of_open hy' hs]
  faults := by rw [diagnostics_bindType, diagnostics_bindType]
  rows := by rw [rows_bindType, rows_bindType, h]

theorem alike_declareTyped (h : t.rows = t'.rows) (id : SymbolId) (type : Ty)
    (pos pos' : Position) :
    (t.declareTyped id type pos).Alike (fun u => u) (t'.declareTyped id type pos') := by
  have hdeclare := alike_declare h id pos pos'
  cases hclean : (t'.declare id pos').isClean with
  | true =>
    rw [declareTyped_of_clean (hdeclare.isClean.trans hclean), declareTyped_of_clean hclean]
    exact hdeclare.andThen ((alike_bindType hdeclare.rows id type).map rfl)
  | false =>
    rw [declareTyped_of_not_clean (hdeclare.isClean.trans hclean),
      declareTyped_of_not_clean hclean]
    exact hdeclare

theorem alike_declareAll (h : t.rows = t'.rows) (ids : List SymbolId) (type : Ty)
    (pos pos' : Position) :
    (t.declareAll ids type pos).Alike (fun u => u) (t'.declareAll ids type pos') := by
  induction ids generalizing t t' with
  | nil => exact ⟨⟨rfl, rfl⟩, h⟩
  | cons id rest ih =>
    have hhead := alike_declareTyped h id type pos pos'
    exact hhead.andThen (ih hhead.rows)

theorem alike_declareList (h : t.rows = t'.rows) (head : Node) (type : Ty)
    (pos pos' : Position) :
    (t.declareList head type pos).Alike (fun u => u)
      (t'.declareList head.unplaced type pos') := by
  rw [declareList, declareList, Node.unplaced, Node.listSymbols_relabel]
  exact alike_declareAll h head.listSymbols type pos pos'

/-- Two assignments put alike questions or none.  What the answers are makes no difference to the
rows. -/
theorem alike_assign (h : t.rows = t'.rows) (id : SymbolId) (expression : Node)
    (answer answer' : Query → Value) (pos pos' : Position) :
    (t.assign id expression answer pos).Alike (Option.map Query.question)
      (t'.assign id expression.unplaced answer' pos') := by
  have hreceived : expression.typeIn t = expression.unplaced.typeIn t' := typeIn_of_rows h _
  refine ⟨?_, by rw [rows_assign, rows_assign, h]⟩
  rcases get?_cases_of_rows h id with ⟨hy, hy'⟩ | ⟨y, y', hy, hy', hrow⟩
  · rw [assign_of_unknown hy, assign_of_unknown hy']
    exact ⟨rfl, rfl⟩
  · obtain ⟨hname, hdeclared, htype⟩ := Symbol.row_eq_iff.mp hrow
    constructor
    · rw [value_assign hy, value_assign hy', hdeclared, htype, hreceived]
      split
      · simp [Query.question, h, Node.unplaced_unplaced]
      · rfl
    · rw [diagnostics_assign hy, diagnostics_assign hy', hname, hdeclared, htype, hreceived]
      split
      · rfl
      · split <;> rfl

end SymbolTable

/-! ## Nodes built in tables with the same rows -/

namespace Operands

theorem ofNodes_of_rows {t t' : SymbolTable} (h : t.rows = t'.rows) (left right : Option Node) :
    ofNodes t left right = ofNodes t' (left.map Node.unplaced) (right.map Node.unplaced) := by
  have htype : Node.typeIn t = Node.typeIn t' ∘ Node.unplaced :=
    funext (SymbolTable.typeIn_of_rows h)
  rw [ofNodes, ofNodes, Option.map_map, Option.map_map, htype]

theorem faults_check (op : Operator) (operands : Operands) (pos : Position) :
    (operands.check op pos).diagnostics.map Diagnostic.fault = operands.faults op := by
  simp [check, Function.comp_def]

end Operands

namespace Node

variable {t t' : SymbolTable}

theorem relabelList_unplaced (ns : List Node) :
    relabelList (fun _ => .null) id (ns.map unplaced) = relabelList (fun _ => .null) id ns := by
  rw [relabelList_eq, relabelList_eq, List.map_map]
  exact List.map_congr_left fun n _ => n.unplaced_unplaced

theorem alike_mkBinary (h : t.rows = t'.rows) (left : Node) (op : Operator) (right : Node)
    (pos pos' : Position) :
    (mkBinary t left op right pos).Alike unplaced
      (mkBinary t' left.unplaced op right.unplaced pos') where
  value := by
    rw [mkBinary, mkBinary, SymbolTable.typeIn_of_rows h left, SymbolTable.typeIn_of_rows h right]
    exact congrArg₂ (binary .null _ op) left.unplaced_unplaced.symm right.unplaced_unplaced.symm
  faults := by
    simp only [mkBinary, Operands.faults_check, Operands.ofNodes_of_rows h, Option.map_some]

theorem alike_mkUnary (h : t.rows = t'.rows) (op : Operator) (right : Node)
    (pos pos' : Position) :
    (mkUnary t op right pos).Alike unplaced (mkUnary t' op right.unplaced pos') where
  value := by
    rw [mkUnary, mkUnary, SymbolTable.typeIn_of_rows h right]
    exact congrArg (unary .null _ op) right.unplaced_unplaced.symm
  faults := by
    simp only [mkUnary, Operands.faults_check, Operands.ofNodes_of_rows h, Option.map_some,
      Option.map_none]

end Node

namespace SymbolTable

variable {t t' : SymbolTable}

/-- Nodes built with the handle of the same name. -/
theorem alike_intern_map (h : t.rows = t'.rows) (name : String) {build build' : SymbolId → Node}
    (hbuild : ∀ id, (build id).unplaced = (build' id).unplaced) :
    ((t.intern name).map build).Alike Node.unplaced ((t'.intern name).map build') :=
  (alike_intern h name).map (by rw [intern_value_of_rows h, hbuild])

theorem alike_reference (h : t.rows = t'.rows) (name : String) (pos pos' : Position) :
    ((t.intern name).andThen fun id t => .pure t (.mkReference t id pos)).Alike Node.unplaced
      ((t'.intern name).andThen fun id t => .pure t (.mkReference t id pos')) := by
  have hrows := (alike_intern h name).rows
  have htype := (agreeOn_of_rows hrows [(t'.intern name).value] _ List.mem_cons_self).2
  rw [Update.andThen_pure, Update.andThen_pure]
  refine (alike_intern h name).map ?_
  rw [intern_value_of_rows h, Node.mkReference, Node.mkReference, htype]
  rfl

theorem alike_declareNamed (h : t.rows = t'.rows) (name : String) (pos pos' : Position) :
    ((t.intern name).andThen fun id t =>
        (t.declare id pos).map fun _ => if (t.declare id pos).isClean then some id else none).Alike
      (fun declared => declared)
      ((t'.intern name).andThen fun id t =>
        (t.declare id pos').map fun _ =>
          if (t.declare id pos').isClean then some id else none) := by
  refine (alike_intern h name).andThen ?_
  rw [intern_value_of_rows h]
  have hdeclare := alike_declare (alike_intern h name).rows (t'.intern name).value pos pos'
  exact hdeclare.map (by rw [hdeclare.isClean])

theorem alike_assignNamed (h : t.rows = t'.rows) (name : String) (expression : Node)
    (answer answer' : Query → Value) (pos pos' : Position) :
    ((t.intern name).andThen fun id t =>
        (t.assign id expression answer pos).map fun query => (id, query)).Alike
      (Prod.map id (Option.map Query.question))
      ((t'.intern name).andThen fun id t =>
        (t.assign id expression.unplaced answer' pos').map fun query => (id, query)) := by
  refine (alike_intern h name).andThen ?_
  rw [intern_value_of_rows h]
  have hassign := alike_assign (alike_intern h name).rows (t'.intern name).value expression
    answer answer' pos pos'
  exact hassign.map (Prod.ext rfl hassign.value)

end SymbolTable

/-! ## One operation -/

namespace Session

variable {s s' : Session}

theorem content_eq_iff :
    s.content = s'.content ↔
      s.symbols.rows = s'.symbols.rows ∧
        s.diagnostics.map Diagnostic.fault = s'.diagnostics.map Diagnostic.fault ∧
        s.queries.map Query.question = s'.queries.map Query.question :=
  Content.mk.injEq .. ▸ Iff.rfl

theorem content_take {α β : Type} (h : s.content = s'.content) {view : α → β}
    {c c' : Checked α} (hc : c.Alike view c') :
    (s.take c).map view content = (s'.take c').map view content := by
  obtain ⟨hrows, hfaults, hquestions⟩ := content_eq_iff.mp h
  refine Prod.ext hc.value (content_eq_iff.mpr ⟨hrows, ?_, hquestions⟩)
  simp only [List.map_append, hfaults, hc.faults]

theorem content_absorb {α β : Type} (h : s.content = s'.content) {view : α → β}
    {u u' : Update α} (hu : u.Alike view u') :
    (s.absorb u).map view content = (s'.absorb u').map view content := by
  obtain ⟨-, hfaults, hquestions⟩ := content_eq_iff.mp h
  have htable : content { s with symbols := u.table } = content { s' with symbols := u'.table } :=
    content_eq_iff.mpr ⟨hu.rows, hfaults, hquestions⟩
  exact content_take htable hu.toAlike

/-- What an operation gives back and leaves behind, without positions and values. -/
def outcome (s : Session) (op : Operation Node) : Result Node × Content :=
  (s.perform op).map Result.unplaced content

theorem outcome_built {p p' : Node × Session}
    (h : p.map Node.unplaced content = p'.map Node.unplaced content) :
    (built p).map Result.unplaced content = (built p').map Result.unplaced content :=
  congrArg (Prod.map Result.node id) h

/-- An operation that only builds a node. -/
theorem outcome_node (h : s.content = s'.content) {n n' : Node} (hn : n.unplaced = n'.unplaced) :
    (built (n, s)).map Result.unplaced content = (built (n', s')).map Result.unplaced content :=
  outcome_built (Prod.ext hn h)

/-- What an assignment leaves behind, with the question that it put if it got as far as that. -/
theorem content_ask (h : s.content = s'.content) {u u' : Update (SymbolId × Option Query)}
    (hu : u.Alike (Prod.map id (Option.map Query.question)) u') :
    content { (s.absorb u).2 with queries := s.queries ++ u.value.2.toList } =
      content { (s'.absorb u').2 with queries := s'.queries ++ u'.value.2.toList } := by
  obtain ⟨-, -, hqueries⟩ := content_eq_iff.mp h
  have habsorbed : (s.absorb u).2.content = (s'.absorb u').2.content :=
    congrArg Prod.snd (content_absorb h hu)
  obtain ⟨hrows, hfaults, -⟩ := content_eq_iff.mp habsorbed
  have hasked : u.value.2.map Query.question = u'.value.2.map Query.question :=
    congrArg Prod.snd hu.value
  refine content_eq_iff.mpr ⟨hrows, hfaults, ?_⟩
  simp only [List.map_append, ← Option.toList_map, hqueries, hasked]

theorem content_assign (h : s.content = s'.content) (name : String) (expression : Node) :
    (s.assign name expression).map Node.unplaced content =
      (s'.assign name expression.unplaced).map Node.unplaced content := by
  obtain ⟨hrows, -, -⟩ := content_eq_iff.mp h
  have hnode {id id' : SymbolId} (hid : id = id') :
      (Node.assignment s.position id expression).unplaced =
        (Node.assignment s'.position id' expression.unplaced).unplaced :=
    congrArg₂ (Node.assignment .null) hid expression.unplaced_unplaced.symm
  rw [assign, assign, Target.check, Target.check]
  cases Target.fault? name with
  | some fault => exact content_take h ⟨hnode rfl, rfl⟩
  | none =>
    have hassigned := SymbolTable.alike_assignNamed hrows name expression
      (s.resolver s.queries) (s'.resolver s'.queries) s.position s'.position
    exact Prod.ext (hnode (congrArg Prod.fst hassigned.value)) (content_ask h hassigned)

/-- What an operation comes to does not depend on positions and values.  The nodes it is about may
stand anywhere, as the second session takes them without their positions. -/
theorem outcome_unplaced (h : s.content = s'.content) (op : Operation Node) :
    s.outcome op = s'.outcome (op.unplaced Node.unplaced) := by
  obtain ⟨hrows, -, -⟩ := content_eq_iff.mp h
  cases op with
  | setPosition line column => exact Prod.ext rfl h
  | intern name =>
    exact content_absorb h ((SymbolTable.alike_intern hrows name).comp Result.handle)
  | declare name =>
    have hdeclare := SymbolTable.alike_declareNamed hrows name s.position s'.position
    exact content_absorb h (hdeclare.comp Result.declared)
  | bindType id type =>
    exact content_absorb h ((SymbolTable.alike_bindType hrows id type).comp Result.flag)
  | listElement name | input name =>
    exact outcome_built (content_absorb h (SymbolTable.alike_intern_map hrows name fun _ => rfl))
  | declareList head type =>
    have hdeclare := SymbolTable.alike_declareList hrows head type s.position s'.position
    exact content_absorb h (hdeclare.comp fun _ => (.done : Result Node))
  | constant value => exact outcome_node h rfl
  | reference name =>
    have hreference := SymbolTable.alike_reference hrows name s.position s'.position
    exact outcome_built (content_absorb h hreference)
  | binary left op right =>
    have hbinary := Node.alike_mkBinary hrows left op right s.position s'.position
    exact outcome_built (content_take h hbinary)
  | unary op right =>
    have hunary := Node.alike_mkUnary hrows op right s.position s'.position
    exact outcome_built (content_take h hunary)
  | parenthesized inner =>
    refine outcome_node h ?_
    rw [parenthesized, parenthesized, Node.mkParenthesized, Node.mkParenthesized,
      SymbolTable.typeIn_of_rows hrows]
    exact congrArg (Node.parenthesized .null _) inner.unplaced_unplaced.symm
  | assign name expression => exact outcome_built (content_assign h name expression)
  | print expression =>
    exact outcome_node h (congrArg (Node.print .null) expression.unplaced_unplaced.symm)
  | forLoop name first last body =>
    refine outcome_built (content_absorb h (SymbolTable.alike_intern_map hrows name fun id => ?_))
    show Node.forLoop .null id first.unplaced last.unplaced _ =
      Node.forLoop .null id first.unplaced.unplaced last.unplaced.unplaced _
    rw [first.unplaced_unplaced, last.unplaced_unplaced, Node.relabelList_unplaced]
  | whileLoop condition body =>
    exact outcome_node h (congrArg₂ (Node.whileLoop .null) condition.unplaced_unplaced.symm
      (Node.relabelList_unplaced body).symm)
  | ifElse condition thenBody elseBody =>
    refine outcome_node h ?_
    show Node.ifElse .null condition.unplaced _ _ =
      Node.ifElse .null condition.unplaced.unplaced _ _
    rw [condition.unplaced_unplaced, Node.relabelList_unplaced, Node.relabelList_unplaced]
  | root declarations statements =>
    exact outcome_node h (congrArg₂ (Node.root .null) (Node.relabelList_unplaced declarations).symm
      (Node.relabelList_unplaced statements).symm)

theorem outcome_congr (h : s.content = s'.content) {op op' : Operation Node}
    (hop : op.unplaced Node.unplaced = op'.unplaced Node.unplaced) :
    s.outcome op = s'.outcome op' :=
  calc s.outcome op
    _ = s'.outcome (op.unplaced Node.unplaced) := outcome_unplaced h op
    _ = s'.outcome (op'.unplaced Node.unplaced) := by rw [hop]
    _ = s'.outcome op' := (outcome_unplaced rfl op').symm

end Session

/-! ## One command -/

/-- To look up the things an operation is about and then to view them is to look up their views. -/
theorem Operation.unplaced_resolve? {ν μ κ : Type} (find : ν → Option μ) (view : μ → κ)
    (op : Operation ν) :
    (op.resolve? find).map (unplaced view) =
      (op.unplaced id).resolve? fun i => (find i).map view := by
  cases op with
  | declareList part | unary op part | parenthesized part | assign name part | print part =>
    simp only [resolve?, unplaced, id]
    cases find part <;> rfl
  | binary left op right =>
    simp only [resolve?, unplaced, id]
    cases find left <;> cases find right <;> rfl
  | forLoop name first last body =>
    simp only [resolve?, unplaced, id, List.map_id, ← map_mapM]
    cases find first <;> cases find last <;> cases body.mapM find <;> rfl
  | whileLoop condition body =>
    simp only [resolve?, unplaced, id, List.map_id, ← map_mapM]
    cases find condition <;> cases body.mapM find <;> rfl
  | ifElse condition thenBody elseBody =>
    simp only [resolve?, unplaced, id, List.map_id, ← map_mapM]
    cases find condition <;> cases thenBody.mapM find <;> cases elseBody.mapM find <;> rfl
  | root declarations statements =>
    simp only [resolve?, unplaced, List.map_id, ← map_mapM]
    cases declarations.mapM find <;> cases statements.mapM find <;> rfl
  | _ => rfl

theorem Operation.resolve?_congr {find find' : Nat → Option Node}
    (hfind : ∀ i, (find i).map Node.unplaced = (find' i).map Node.unplaced)
    {op op' : Operation Nat} (hop : op.unplaced id = op'.unplaced id) :
    (op.resolve? find).map (unplaced Node.unplaced) =
      (op'.resolve? find').map (unplaced Node.unplaced) := by
  rw [unplaced_resolve?, unplaced_resolve?, hop, funext hfind]

namespace Workbench

variable {w w' : Workbench}

theorem content_eq_iff :
    w.content = w'.content ↔
      w.session.content = w'.session.content ∧
        w.nodes.map Node.unplaced = w'.nodes.map Node.unplaced :=
  Content.mk.injEq .. ▸ Iff.rfl

theorem content_keep (h : w.content = w'.content) {r r' : Result Node × Session}
    (hr : r.map Result.unplaced Session.content = r'.map Result.unplaced Session.content) :
    (w.keep r).map id content = (w'.keep r').map id content := by
  obtain ⟨-, hnodes⟩ := content_eq_iff.mp h
  obtain ⟨result, s⟩ := r
  obtain ⟨result', s'⟩ := r'
  obtain ⟨hresult, hs⟩ := Prod.mk.inj hr
  have hlength : w.nodes.length = w'.nodes.length := by simpa using congrArg List.length hnodes
  cases result with
  | node n =>
    cases result' with
    | node n' =>
      refine Prod.ext (congrArg Result.node hlength) (content_eq_iff.mpr ⟨hs, ?_⟩)
      simp only [List.map_append, hnodes, List.map_cons, Result.node.inj hresult]
    | _ => cases hresult
  | done | handle | declared | flag =>
    cases result' <;> cases hresult
    exact Prod.ext rfl (content_eq_iff.mpr ⟨hs, hnodes⟩)

theorem content_link (h : w.content = w'.content) (index : Nat) {n n' tail tail' : Node}
    (hn : n.unplaced = n'.unplaced) (htail : tail.unplaced = tail'.unplaced) :
    (w.link index n tail).map id content = (w'.link index n' tail').map id content := by
  obtain ⟨hs, hnodes⟩ := content_eq_iff.mp h
  have hlinked : (n.link? tail).map Node.unplaced = (n'.link? tail').map Node.unplaced := by
    unfold Node.unplaced at hn htail ⊢
    rw [← Node.link?_relabel, ← Node.link?_relabel, hn, htail]
  rcases cases_of_map_eq hlinked with ⟨hl, hl'⟩ | ⟨linked, linked', hl, hl', hview⟩
  · rw [link, link, hl, hl']
    exact Prod.ext rfl h
  · rw [link, link, hl, hl']
    refine Prod.ext rfl (content_eq_iff.mpr ⟨hs, ?_⟩)
    rw [List.map_set, List.map_set, hnodes, hview]

theorem content_exec (h : w.content = w'.content) {command command' : Command}
    (hcommand : command.unplaced = command'.unplaced) :
    (w.exec command).map id content = (w'.exec command').map id content := by
  obtain ⟨hs, hnodes⟩ := content_eq_iff.mp h
  have hfind (i : Nat) : w.nodes[i]?.map Node.unplaced = w'.nodes[i]?.map Node.unplaced := by
    rw [← List.getElem?_map, ← List.getElem?_map, hnodes]
  cases command with
  | perform op =>
    cases command' with
    | link => cases hcommand
    | perform op' =>
      have hresolved := Operation.resolve?_congr hfind (Command.perform.inj hcommand)
      rw [exec, exec]
      rcases cases_of_map_eq hresolved with ⟨hop, hop'⟩ | ⟨found, found', hop, hop', hview⟩
      · rw [hop, hop']
        exact Prod.ext rfl h
      · rw [hop, hop']
        exact congrArg (Prod.map some id) (content_keep h (Session.outcome_congr hs hview))
  | link index next =>
    cases command' with
    | perform => cases hcommand
    | link index' next' =>
      obtain ⟨rfl, rfl⟩ := Command.link.inj hcommand
      rw [exec, exec]
      rcases cases_of_map_eq (hfind index) with ⟨hn, hn'⟩ | ⟨n, n', hn, hn', hnode⟩
      · rw [hn, hn']
        exact Prod.ext rfl h
      rcases cases_of_map_eq (hfind next) with ⟨ht, ht'⟩ | ⟨tail, tail', ht, ht', htail⟩
      · rw [hn, hn', ht, ht']
        exact Prod.ext rfl h
      · rw [hn, hn', ht, ht']
        exact congrArg (Prod.map some id) (content_link h index hnode htail)

theorem observations_congr (h : w.content = w'.content) {commands commands' : List Command}
    (hcommands : commands.map Command.unplaced = commands'.map Command.unplaced) :
    w.observations commands = w'.observations commands' := by
  induction commands generalizing w w' commands' with
  | nil =>
    cases commands' with
    | nil => rfl
    | cons => cases hcommands
  | cons command rest ih =>
    cases commands' with
    | nil => cases hcommands
    | cons command' rest' =>
      obtain ⟨hcommand, hrest⟩ := List.cons.inj hcommands
      have hexec := content_exec h hcommand
      exact congrArg₂ List.cons hexec (ih (congrArg Prod.snd hexec) hrest)

/-- Two runs from fresh sessions make the same observations if their commands differ at most in
the positions that they set.  Their options, sinks and resolvers may be any, and each may start
with nodes that were built elsewhere, the same but for their positions. -/
theorem observations_start (options options' : Options) (sink sink' : Sink)
    (resolver resolver' : Resolver) {nodes nodes' : List Node}
    (hnodes : nodes.map Node.unplaced = nodes'.map Node.unplaced) {commands commands' : List Command}
    (hcommands : commands.map Command.unplaced = commands'.map Command.unplaced) :
    observations ⟨Session.start options sink resolver, nodes⟩ commands =
      observations ⟨Session.start options' sink' resolver', nodes'⟩ commands' := by
  have hcontent : content ⟨Session.start options sink resolver, nodes⟩ =
      content ⟨Session.start options' sink' resolver', nodes'⟩ :=
    content_eq_iff.mpr ⟨rfl, hnodes⟩
  exact observations_congr hcontent hcommands

/-- The resolvers answer with different numbers, which the tables hold at the end, and one of the
two assignments is to a variable that was not declared. -/
theorem observations_start_of_two_answers :
    let w : Workbench :=
      ⟨Session.start {} .memory fun _ _ => .integer 1, [.constant ⟨1, 2, "a"⟩ (.integer 5)]⟩
    let w' : Workbench :=
      ⟨Session.start { highlight := false, sourceName := "b" } .errorStream
          fun asked _ => .integer (.ofNat asked.length), [.constant ⟨8, 9, "b"⟩ (.integer 5)]⟩
    let commands (line column : UInt32) : List Command :=
      [.perform (.declare "x"), .perform (.bindType ⟨0⟩ .integer),
        .perform (.setPosition line column), .perform (.assign "x" 0), .perform (.assign "y" 0)]
    w.nodes.map Node.unplaced = w'.nodes.map Node.unplaced ∧
      (commands 3 4).map Command.unplaced = (commands 6 7).map Command.unplaced ∧
      w.observations (commands 3 4) = w'.observations (commands 6 7) ∧
      (w.run (commands 3 4)).session.symbols ≠ (w'.run (commands 6 7)).session.symbols ∧
      (w.run (commands 3 4)).session.content.faults = [.notDeclared "y"] := by
  intro w w' commands
  have hnodes : w.nodes.map Node.unplaced = w'.nodes.map Node.unplaced := rfl
  have hcommands : (commands 3 4).map Command.unplaced = (commands 6 7).map Command.unplaced := rfl
  exact ⟨hnodes, hcommands, observations_start _ _ _ _ _ _ hnodes hcommands, by decide, by decide⟩

end Workbench
end ImpFront
