/-
Expressions over variables whose types are settled.

An operation keeps the type it was given when it was built, while a reference is asked for its
type again each time.  The two can only agree as long as nothing gives a variable a new type, and
of a variable that is declared and typed this is so for the rest of the run.

`Session.express` builds an expression with the operations of a session, and `expresses` says
that this comes to `Expr.build` in the table of the session.  The theorem this file exists for is
`express_performAll`: an expression over settled variables keeps its type and its outline
whatever a session does after it was built, and building it again makes the same node and the
same faults, at other positions.
-/
import ImpFront.Proofs.Interning
import ImpFront.Proofs.Lifecycle
import ImpFront.Proofs.Nodes
import ImpFront.Proofs.Typing

namespace ImpFront

/-! ## Symbols over a run -/

theorem Symbol.Advances.trans {x y z : Symbol} (hxy : x.Advances y) (hyz : y.Advances z) :
    x.Advances z where
  name := hyz.name.trans hxy.name
  declared h := hyz.declared (hxy.declared h)
  type hd ht := by
    have htype : y.type = x.type := hxy.type hd ht
    exact (hyz.type (hxy.declared hd) (htype ▸ ht)).trans htype

namespace Session

theorem advances_performAll {s : Session} {ops : List (Operation Node)}
    (hsize : (s.performAll ops).symbols.size < UInt32.size) {id : SymbolId} {y : Symbol}
    (hy : s.symbols.get? id = some y) :
    ∃ z, (s.performAll ops).symbols.get? id = some z ∧ y.Advances z := by
  induction ops generalizing s y with
  | nil => exact ⟨y, hy, .refl y⟩
  | cons op rest ih =>
    have hafter : (Step.mk s op).after.symbols.size < UInt32.size :=
      Nat.lt_of_le_of_lt (size_le_performAll _ rest) hsize
    obtain ⟨x, hx, hyx, -⟩ := (Step.mk s op).symbols_after hafter id y hy
    obtain ⟨z, hz, hxz⟩ := ih hsize hx
    exact ⟨z, hz, hyx.trans hxz⟩

theorem nodup_names_performAll {s : Session} (h : s.symbols.names.Nodup)
    (ops : List (Operation Node)) : (s.performAll ops).symbols.names.Nodup :=
  performAll_keeps (P := fun s => s.symbols.names.Nodup)
    (fun _ op hs => nodup_names_perform hs op) h ops

/-- The handles of settled symbols keep their names and types. -/
theorem agreeOn_of_settled {s : Session} {ops : List (Operation Node)}
    (hsize : (s.performAll ops).symbols.size < UInt32.size) {ids : List SymbolId}
    (hids : ∀ id ∈ ids, ∃ y, s.symbols.get? id = some y ∧ y.isSettled = true) :
    (s.performAll ops).symbols.AgreeOn s.symbols ids := by
  intro id hid
  obtain ⟨y, hy, hsettled⟩ := hids id hid
  obtain ⟨hd, ht⟩ : y.declared = true ∧ y.type ≠ .undetermined := by
    simpa [Symbol.isSettled] using hsettled
  obtain ⟨z, hz, hyz⟩ := advances_performAll hsize hy
  rw [SymbolTable.nameOf_eq hz, SymbolTable.nameOf_eq hy, SymbolTable.typeOf, SymbolTable.typeOf,
    hz, hy]
  exact ⟨hyz.name, hyz.type hd ht⟩

end Session

/-! ## Building in another table and at other positions -/

namespace Expr

/-- The variables of an expression. -/
def symbols : Expr → List SymbolId
  | constant .. => []
  | reference _ symbol => [symbol]
  | parenthesized _ inner => inner.symbols
  | binary _ left _ right => left.symbols ++ right.symbols
  | unary _ _ right => right.symbols

/-- The expression at other positions. -/
def moved (place : Position → Position) : Expr → Expr
  | constant pos value => constant (place pos) value
  | reference pos symbol => reference (place pos) symbol
  | parenthesized pos inner => parenthesized (place pos) (inner.moved place)
  | binary pos left op right => binary (place pos) (left.moved place) op (right.moved place)
  | unary pos op right => unary (place pos) op (right.moved place)

/-- The expression without its positions. -/
def unplaced (e : Expr) : Expr := e.moved fun _ => .null

theorem symbols_moved (place : Position → Position) (e : Expr) :
    (e.moved place).symbols = e.symbols := by
  induction e with
  | constant | reference => rfl
  | parenthesized pos inner ih => exact ih
  | binary pos left op right ihleft ihright => rw [moved, symbols, ihleft, ihright, symbols]
  | unary pos op right ih => exact ih

theorem unplaced_moved (place : Position → Position) (e : Expr) :
    (e.moved place).unplaced = e.unplaced := by
  unfold unplaced
  induction e with
  | constant | reference => rfl
  | parenthesized pos inner ih => simp only [moved, ih]
  | binary pos left op right ihleft ihright => simp only [moved, ihleft, ihright]
  | unary pos op right ih => simp only [moved, ih]

/-- A built node names the variables of its expression. -/
theorem handles_build (t : SymbolTable) (e : Expr) : (e.build t).value.handles = e.symbols := by
  induction e with
  | constant | reference => rfl
  | parenthesized pos inner ih => exact ih
  | binary pos left op right ihleft ihright =>
    rw [symbols, ← ihleft, ← ihright]
    exact List.map_append
  | unary pos op right ih => exact ih

theorem typeIn_build {t t' : SymbolTable} {e : Expr} (h : t.AgreeOn t' e.symbols)
    (t₀ : SymbolTable) : (e.build t₀).value.typeIn t = (e.build t₀).value.typeIn t' :=
  Node.typeIn_congr (by rwa [handles_build])

/-- Tables that agree on the variables of an expression build the same. -/
theorem build_congr {t t' : SymbolTable} {e : Expr} (h : t.AgreeOn t' e.symbols) :
    e.build t = e.build t' := by
  induction e with
  | constant pos value => rfl
  | reference pos symbol =>
    rw [build, build, Node.mkReference, Node.mkReference, (h symbol List.mem_cons_self).2]
  | parenthesized pos inner ih =>
    have hinner : inner.build t = inner.build t' := ih h
    simp only [build, Checked.andThen, Checked.clean, Node.mkParenthesized, hinner,
      typeIn_build (e := inner) h t']
  | binary pos left op right ihleft ihright =>
    have hl : t.AgreeOn t' left.symbols := fun id hid => h id (List.mem_append_left _ hid)
    have hr : t.AgreeOn t' right.symbols := fun id hid => h id (List.mem_append_right _ hid)
    simp only [build, Checked.andThen, Node.mkBinary, Operands.ofNodes, Option.map_some,
      ihleft hl, ihright hr, typeIn_build hl t', typeIn_build hr t']
  | unary pos op right ih =>
    have hright : right.build t = right.build t' := ih h
    simp only [build, Checked.andThen, Node.mkUnary, Operands.ofNodes, Option.map_some,
      Option.map_none, hright, typeIn_build (e := right) h t']

/-- Building at other positions makes the same node and the same faults there. -/
theorem build_moved (t : SymbolTable) (place : Position → Position) (e : Expr) :
    ((e.moved place).build t).value = (e.build t).value.relabel place id ∧
      ((e.moved place).build t).diagnostics =
        (e.build t).diagnostics.map fun d => { d with position := place d.position } := by
  have htype : ∀ {e : Expr}, ((e.moved place).build t).value = (e.build t).value.relabel place id →
      (e.moved place).builtType t = e.builtType t := by
    intro e he
    rw [builtType, he, Node.typeIn_relabel, builtType]
  induction e with
  | constant | reference => exact ⟨rfl, rfl⟩
  | parenthesized pos inner ih =>
    obtain ⟨hvalue, hdiagnostics⟩ := ih
    refine ⟨?_, ?_⟩
    · show Node.parenthesized (place pos) ((inner.moved place).builtType t) _ = _
      rw [htype hvalue, hvalue]
      rfl
    · rw [moved, diagnostics_parenthesized, diagnostics_parenthesized, hdiagnostics]
  | binary pos left op right ihleft ihright =>
    obtain ⟨hleft, hleftDiagnostics⟩ := ihleft
    obtain ⟨hright, hrightDiagnostics⟩ := ihright
    refine ⟨?_, ?_⟩
    · show Node.binary (place pos)
        (op.resultType ((left.moved place).builtType t) ((right.moved place).builtType t)) op
        _ _ = _
      rw [htype hleft, htype hright, hleft, hright]
      rfl
    · rw [moved, diagnostics_binary, diagnostics_binary, hleftDiagnostics, hrightDiagnostics,
        htype hleft, htype hright]
      simp
  | unary pos op right ih =>
    obtain ⟨hright, hrightDiagnostics⟩ := ih
    refine ⟨?_, ?_⟩
    · show Node.unary (place pos)
        (op.resultType ((right.moved place).builtType t) ((right.moved place).builtType t)) op _ = _
      rw [htype hright, hright]
      rfl
    · rw [moved, diagnostics_unary, diagnostics_unary, hrightDiagnostics, htype hright]
      simp

/-- Building the same expression at any two choices of positions differs in the positions. -/
theorem build_of_unplaced_eq {e e' : Expr} (h : e.unplaced = e'.unplaced) (t : SymbolTable) :
    (e.build t).value.unplaced = (e'.build t).value.unplaced ∧
      (e.build t).diagnostics.map Diagnostic.fault =
        (e'.build t).diagnostics.map Diagnostic.fault := by
  have hfaults : ∀ e : Expr, (e.unplaced.build t).diagnostics.map Diagnostic.fault =
      (e.build t).diagnostics.map Diagnostic.fault := by
    intro e
    rw [unplaced, (build_moved t _ e).2, List.map_map]
    rfl
  constructor
  · rw [Node.unplaced, Node.unplaced, ← (build_moved t _ e).1, ← (build_moved t _ e').1]
    exact congrArg (fun e => (build t e).value) h
  · rw [← hfaults e, ← hfaults e', h]

end Expr

/-! ## Building with the operations of a session -/

namespace Session

def moveTo (s : Session) (pos : Position) : Session := s.setPosition pos.line pos.column

/-- Build an expression from its leaves upwards, with one operation for each part.  A variable is
called by its name. -/
def express (s : Session) : Expr → Node × Session
  | .constant pos value => ((s.moveTo pos).constant value, s.moveTo pos)
  | .reference pos symbol => (s.moveTo pos).reference (s.symbols.nameOf symbol)
  | .parenthesized pos inner =>
    let (n, s) := s.express inner
    ((s.moveTo pos).parenthesized n, s.moveTo pos)
  | .binary pos left op right =>
    let (l, s) := s.express left
    let (r, s) := s.express right
    (s.moveTo pos).binary l op r
  | .unary pos op right =>
    let (r, s) := s.express right
    (s.moveTo pos).unary op r

/-- The position at which a session builds what stands at a line and a column. -/
def place (s : Session) (pos : Position) : Position := { pos with file := s.position.file }

/-- What is found wrong while an expression is built. -/
def faultsOf (s : Session) (e : Expr) : List Fault :=
  ((s.express e).2.diagnostics.drop s.diagnostics.length).map Diagnostic.fault

/-- The session did nothing but to build the expression in its table. -/
structure Expresses (s : Session) (e : Expr) : Prop where
  node : (s.express e).1 = ((e.moved s.place).build s.symbols).value
  diagnostics : (s.express e).2.diagnostics =
    s.diagnostics ++ ((e.moved s.place).build s.symbols).diagnostics
  symbols : (s.express e).2.symbols = s.symbols
  file : (s.express e).2.position.file = s.position.file

theorem reference_nameOf {s : Session} (hnames : s.symbols.names.Nodup)
    (hsize : s.symbols.size ≤ UInt32.size) {id : SymbolId} (hid : id.index.toNat < s.symbols.size) :
    (s.reference (s.symbols.nameOf id)).1 = .mkReference s.symbols id s.position ∧
      (s.reference (s.symbols.nameOf id)).2.diagnostics = s.diagnostics ∧
      (s.reference (s.symbols.nameOf id)).2.symbols = s.symbols ∧
      (s.reference (s.symbols.nameOf id)).2.position = s.position := by
  have hlookup : s.symbols.lookup (s.symbols.nameOf id) = some id :=
    (SymbolTable.lookup_eq_some_iff hnames hsize _ id).mpr ⟨hid, rfl⟩
  rw [reference, SymbolTable.intern_of_lookup hlookup]
  exact ⟨rfl, List.append_nil _, rfl, rfl⟩

theorem place_eq_of_file {s s' : Session} (h : s'.position.file = s.position.file) :
    s'.place = s.place := by
  funext pos
  rw [place, place, h]

/- Building a part leaves the table as it was, so the next part is built in the same table. -/
theorem expresses {s : Session} (hnames : s.symbols.names.Nodup)
    (hsize : s.symbols.size ≤ UInt32.size) {e : Expr}
    (hheld : ∀ id ∈ e.symbols, id.index.toNat < s.symbols.size) : s.Expresses e := by
  induction e generalizing s with
  | constant pos value => exact ⟨rfl, (List.append_nil _).symm, rfl, rfl⟩
  | reference pos symbol =>
    obtain ⟨hnode, hdiagnostics, hsymbols, hposition⟩ :=
      reference_nameOf (s := s.moveTo pos) hnames hsize (hheld symbol List.mem_cons_self)
    refine ⟨hnode, hdiagnostics.trans (List.append_nil _).symm, hsymbols, ?_⟩
    exact (congrArg Position.file hposition :)
  | parenthesized pos inner ih =>
    have hinner : s.Expresses inner := ih hnames hsize hheld
    have hplace := place_eq_of_file hinner.file
    refine ⟨?_, ?_, hinner.symbols, hinner.file⟩
    · show Node.mkParenthesized (s.express inner).2.symbols (s.express inner).1
        ((s.express inner).2.place pos) = _
      rw [hinner.symbols, hinner.node, hplace]
      rfl
    · rw [Expr.moved, Expr.diagnostics_parenthesized]
      exact hinner.diagnostics
  | binary pos left op right ihleft ihright =>
    have hl : s.Expresses left :=
      ihleft hnames hsize fun id hid => hheld id (List.mem_append_left _ hid)
    have hr : (s.express left).2.Expresses right := by
      refine ihright (hl.symbols ▸ hnames) (hl.symbols ▸ hsize) fun id hid => ?_
      rw [hl.symbols]
      exact hheld id (List.mem_append_right _ hid)
    have hsymbols : ((s.express left).2.express right).2.symbols = s.symbols :=
      hr.symbols.trans hl.symbols
    have hfile := hr.file.trans hl.file
    have hnode := hr.node
    have hdiagnostics := hr.diagnostics
    rw [hl.symbols, place_eq_of_file hl.file] at hnode hdiagnostics
    have hchecked : Node.mkBinary ((s.express left).2.express right).2.symbols (s.express left).1 op
        ((s.express left).2.express right).1 (((s.express left).2.express right).2.place pos) =
        Node.mkBinary s.symbols ((left.moved s.place).build s.symbols).value op
          ((right.moved s.place).build s.symbols).value (s.place pos) := by
      rw [hsymbols, hl.node, hnode, place_eq_of_file hfile]
    have hvalue := congrArg Checked.value hchecked
    refine ⟨hvalue, ?_, hsymbols, hfile⟩
    show ((s.express left).2.express right).2.diagnostics ++
        (Node.mkBinary _ _ op _ _).diagnostics = s.diagnostics ++ (_ ++ (_ ++ _))
    rw [hdiagnostics, hl.diagnostics, List.append_assoc, List.append_assoc]
    exact congrArg (fun c : Checked Node => _ ++ (_ ++ (_ ++ c.diagnostics))) hchecked
  | unary pos op right ih =>
    have hr : s.Expresses right := ih hnames hsize hheld
    have hchecked : Node.mkUnary (s.express right).2.symbols op (s.express right).1
        ((s.express right).2.place pos) =
        Node.mkUnary s.symbols op ((right.moved s.place).build s.symbols).value (s.place pos) := by
      rw [hr.symbols, hr.node, place_eq_of_file hr.file]
    have hvalue := congrArg Checked.value hchecked
    refine ⟨hvalue, ?_, hr.symbols, hr.file⟩
    show (s.express right).2.diagnostics ++ (Node.mkUnary _ op _ _).diagnostics =
      s.diagnostics ++ (_ ++ _)
    rw [hr.diagnostics, List.append_assoc]
    exact congrArg (fun c : Checked Node => _ ++ (_ ++ c.diagnostics)) hchecked

/-- Building an expression is a run of operations. -/
theorem exists_performAll_express (s : Session) (e : Expr) :
    ∃ ops, (s.express e).2 = s.performAll ops := by
  induction e generalizing s with
  | constant pos value => exact ⟨[.setPosition pos.line pos.column], rfl⟩
  | reference pos symbol =>
    exact ⟨[.setPosition pos.line pos.column, .reference (s.symbols.nameOf symbol)], rfl⟩
  | parenthesized pos inner ih =>
    obtain ⟨ops, hops⟩ := ih s
    refine ⟨ops ++ [.setPosition pos.line pos.column], ?_⟩
    rw [performAll_append, ← hops]
    rfl
  | binary pos left op right ihleft ihright =>
    obtain ⟨first, hfirst⟩ := ihleft s
    obtain ⟨second, hsecond⟩ := ihright (s.express left).2
    refine ⟨first ++ second ++ [.setPosition pos.line pos.column,
      .binary (s.express left).1 op ((s.express left).2.express right).1], ?_⟩
    rw [performAll_append, performAll_append, ← hfirst, ← hsecond]
    rfl
  | unary pos op right ih =>
    obtain ⟨ops, hops⟩ := ih s
    refine ⟨ops ++ [.setPosition pos.line pos.column, .unary op (s.express right).1], ?_⟩
    rw [performAll_append, ← hops]
    rfl

theorem faultsOf_eq {s : Session} {e : Expr} (h : s.Expresses e) :
    s.faultsOf e = ((e.moved s.place).build s.symbols).diagnostics.map Diagnostic.fault := by
  rw [faultsOf, h.diagnostics, List.drop_left]

/-- An expression over declared variables with types keeps its type and its outline, whatever the
session does after building it.  Building it again, from its leaves and at any positions, makes
the same node up to the positions and finds the same faults.  Building is itself a run, so it may
stand at the start of what the session does afterwards. -/
theorem express_performAll (options : Options) (sink : Sink) (resolver : Resolver)
    (before after : List (Operation Node)) (e again : Expr) (hagain : again.unplaced = e.unplaced)
    (hsize : ((start options sink resolver).performAll (before ++ after)).symbols.size <
      UInt32.size)
    (hsettled : ∀ id ∈ e.symbols, ∃ y,
      ((start options sink resolver).performAll before).symbols.get? id = some y ∧
        y.declared = true ∧ y.type ≠ .undetermined) :
    let s := (start options sink resolver).performAll before
    let s' := s.performAll after
    let n := (s.express e).1
    (∃ ops, (s.express e).2 = s.performAll ops) ∧
      n.typeIn s'.symbols = n.typeIn s.symbols ∧
      n.pretty s'.symbols = n.pretty s.symbols ∧
      (s'.express again).1.unplaced = n.unplaced ∧
      s'.faultsOf again = s.faultsOf e := by
  intro s s' n
  have hreached : s'.symbols.size < UInt32.size := by rwa [performAll_append] at hsize
  have hbefore : s.symbols.size < UInt32.size :=
    Nat.lt_of_le_of_lt (size_le_performAll s after) hreached
  have hnames : s.symbols.names.Nodup :=
    nodup_names_performAll (s := start options sink resolver) List.nodup_nil before
  have hagree : s'.symbols.AgreeOn s.symbols e.symbols := by
    refine agreeOn_of_settled hreached fun id hid => ?_
    obtain ⟨y, hy, hd, ht⟩ := hsettled id hid
    exact ⟨y, hy, by simp [Symbol.isSettled, hd, ht]⟩
  have hheld : ∀ id ∈ e.symbols, id.index.toNat < s.symbols.size := by
    intro id hid
    obtain ⟨y, hy, -, -⟩ := hsettled id hid
    exact (s.symbols.get?_isSome_iff id).mp (Option.isSome_of_eq_some hy)
  have hfirst : s.Expresses e := expresses hnames (Nat.le_of_lt hbefore) hheld
  have hsecond : s'.Expresses again := by
    refine expresses (nodup_names_performAll hnames after) (Nat.le_of_lt hreached) fun id hid => ?_
    rw [← Expr.symbols_moved (fun _ => .null), ← Expr.unplaced, hagain, Expr.unplaced,
      Expr.symbols_moved] at hid
    exact Nat.lt_of_lt_of_le (hheld id hid) (size_le_performAll s after)
  have hhandles : s'.symbols.AgreeOn s.symbols n.handles := by
    show s'.symbols.AgreeOn s.symbols (s.express e).1.handles
    rwa [hfirst.node, Expr.handles_build, Expr.symbols_moved]
  have hplaces : (again.moved s'.place).unplaced = (e.moved s.place).unplaced := by
    rw [Expr.unplaced_moved, Expr.unplaced_moved, hagain]
  have hbuild : (e.moved s.place).build s'.symbols = (e.moved s.place).build s.symbols :=
    Expr.build_congr (by rwa [Expr.symbols_moved])
  obtain ⟨hnode, hfaults⟩ := Expr.build_of_unplaced_eq hplaces s'.symbols
  refine ⟨exists_performAll_express s e, Node.typeIn_congr hhandles, Node.pretty_congr hhandles,
    ?_, ?_⟩
  · show (s'.express again).1.unplaced = (s.express e).1.unplaced
    rw [hsecond.node, hnode, hbuild, hfirst.node]
  · rw [faultsOf_eq hsecond, faultsOf_eq hfirst, hfaults, hbuild]

/-- The sum `a + 1`, built before and after an attempt to make a string of `a`. -/
theorem express_performAll_of_rebound_variable :
    let before : List (Operation Node) := [.declare "a", .bindType ⟨0⟩ .integer]
    let after : List (Operation Node) := [.declare "b", .bindType ⟨0⟩ .string]
    let sum (pos : Position) : Expr :=
      .binary pos (.reference pos ⟨0⟩) .addition (.constant pos (.integer 1))
    let s := (start {} .null .zero).performAll before
    let s' := s.performAll after
    let n := (s.express (sum .null)).1
    let place : Position := { line := 3, column := 7, file := "" }
    n.pretty s'.symbols = n.pretty s.symbols ∧
      (s'.express (sum place)).1.unplaced = n.unplaced ∧ s'.faultsOf (sum place) = [] := by
  intro before after sum s s' n place
  have hsettled : ∀ id ∈ (sum .null).symbols, ∃ y, s.symbols.get? id = some y ∧
      y.declared = true ∧ y.type ≠ .undetermined := by
    intro id hid
    rw [List.mem_singleton.mp hid]
    exact ⟨{ name := "a", declared := true, type := .integer, value := some (.integer 0) },
      by decide, rfl, by decide⟩
  obtain ⟨-, -, hpretty, hnode, hfaults⟩ := express_performAll {} .null .zero before after
    (sum .null) (sum place) rfl (by decide) hsettled
  exact ⟨hpretty, hnode, hfaults.trans (by decide)⟩

end Session
end ImpFront
