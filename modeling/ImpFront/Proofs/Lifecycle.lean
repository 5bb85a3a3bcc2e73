/-
The life of a symbol over a run.

A symbol goes one way.  `Step.Orderly` says what one operation may do to the symbols that are
there: put others after them, declare them, give them types until they are settled, and store
values.  `DeclaredOnce` follows one name through a whole run.  The first attempt to declare it
goes well, and each further attempt adds one diagnostic and does nothing else.

Attempts are counted where they are made, in declarations and in identifier lists, and a list
can hold a name more than once.  What ties an attempt to the symbol of its name is that the
names of a table are all different.
-/
import ImpFront.Proofs.Rules

namespace ImpFront

/-! ## What one operation may do -/

/-- A symbol and what became of it. -/
structure Symbol.Advances (y y' : Symbol) : Prop where
  name : y'.name = y.name
  declared : y.declared = true → y'.declared = true
  type : y.declared = true → y.type ≠ .undetermined → y'.type = y.type

/-- An attempt to declare a variable, and the diagnostics that it adds. -/
structure Attempt where
  name : String
  raised : List Diagnostic

def Fault.isRedeclaration : Fault → Bool
  | .alreadyDeclared _ => true
  | _ => false

/-- The attempts of an identifier list, one after the other.  A handle that leads nowhere
attempts nothing. -/
def SymbolTable.attempts (t : SymbolTable) (ids : List SymbolId) (type : Ty) (pos : Position) :
    List Attempt :=
  match ids with
  | [] => []
  | id :: rest =>
    let u := t.declareTyped id type pos
    match t.get? id with
    | some y => ⟨y.name, u.diagnostics⟩ :: u.table.attempts rest type pos
    | none => u.table.attempts rest type pos

namespace Step

def attempts (st : Step) : List Attempt :=
  match st.operation with
  | .declare name => [⟨name, st.raised⟩]
  | .declareList head type =>
    st.before.symbols.attempts head.listSymbols type st.before.position
  | _ => []

/-- Whether the step may turn the symbol `y` of a handle into `y'`. -/
def MayChange (st : Step) (id : SymbolId) (y y' : Symbol) : Prop :=
  match st.operation with
  | .declare name => y.name = name ∧ y.declared = false
  | .declareList head _ => id ∈ head.listSymbols ∧ y.declared = false
  | .bindType symbol _ => symbol = id ∧ (y.declared = false ∨ y.type = .undetermined)
  | .assign name _ => y.name = name ∧ st.raised = [] ∧ ∃ v, y' = { y with value := v }
  | _ => False

structure Orderly (st : Step) : Prop where
  /-- The symbols keep their names and handles, and new ones come after them. -/
  names : st.before.symbols.names <+: st.after.symbols.names
  symbols : ∀ id y, st.before.symbols.get? id = some y →
    ∃ y', st.after.symbols.get? id = some y' ∧ y.Advances y' ∧
      (y' ≠ y → st.MayChange id y y')
  /-- Declarations are reported by the attempts of the step and nothing else. -/
  reported : (st.raised.filter fun d => d.fault.isRedeclaration) =
    st.attempts.flatMap Attempt.raised

end Step

/-! ## The functions on one symbol -/

namespace Symbol

theorem Advances.refl (y : Symbol) : y.Advances y := ⟨rfl, id, fun _ _ => rfl⟩

theorem advances_onDeclare (y : Symbol) : y.Advances y.onDeclare where
  name := y.name_onDeclare
  declared _ := y.declared_onDeclare
  type _ _ := by
    unfold onDeclare
    split <;> rfl

theorem advances_onBind (type : Ty) (y : Symbol) : y.Advances (y.onBind type) where
  name := y.name_onBind type
  declared h := by rw [declared_onBind, h]
  type hd ht := by simp [onBind, isSettled, hd, ht]

theorem advances_onDeclareTyped (type : Ty) (y : Symbol) :
    y.Advances (y.onDeclareTyped type) where
  name := y.name_onDeclareTyped type
  declared _ := y.declared_onDeclareTyped type
  type hd _ := by rw [onDeclareTyped_of_declared hd]

theorem advances_onAssign (received : Ty) (answer : Ty → Value) (y : Symbol) :
    y.Advances (y.onAssign received answer) where
  name := y.name_onAssign received answer
  declared h := by
    unfold onAssign
    split <;> exact h
  type _ _ := by
    unfold onAssign
    split <;> rfl

theorem declared_of_onDeclare_ne {y : Symbol} (h : y.onDeclare ≠ y) : y.declared = false := by
  cases hd : y.declared with
  | false => rfl
  | true => simp [onDeclare, hd] at h

theorem open_of_onBind_ne {type : Ty} {y : Symbol} (h : y.onBind type ≠ y) :
    y.declared = false ∨ y.type = .undetermined := by
  cases hs : y.isSettled with
  | true => simp [onBind, hs] at h
  | false => simpa [isSettled, or_iff_not_imp_left] using hs

theorem declared_of_onDeclareTyped_ne {type : Ty} {y : Symbol} (h : y.onDeclareTyped type ≠ y) :
    y.declared = false := by
  cases hd : y.declared with
  | false => rfl
  | true => exact absurd (onDeclareTyped_of_declared hd) h

theorem of_onAssign_ne {received : Ty} {answer : Ty → Value} {y : Symbol}
    (h : y.onAssign received answer ≠ y) :
    y.declared = true ∧ y.type = received ∧
      ∃ v, y.onAssign received answer = { y with value := v } := by
  unfold onAssign at h ⊢
  split at h
  · rename_i hopen
    rw [if_pos hopen]
    exact ⟨hopen.1, hopen.2.1, _, rfl⟩
  · exact absurd rfl h

end Symbol

/-! ## The symbols after an operation -/

namespace SymbolTable

/-- The handle of a name belongs to a symbol of that name, or to no symbol yet. -/
theorem name_of_intern_value {t : SymbolTable} {name : String} {id : SymbolId} {y : Symbol}
    (hsize : t.size < UInt32.size) (hy : t.get? id = some y) (h : (t.intern name).value = id) :
    y.name = name := by
  have hlt : id.index.toNat < t.size := (t.get?_isSome_iff id).mp (Option.isSome_of_eq_some hy)
  have hlookup : t.lookup name = some id := (intern_value_eq_iff hsize hlt).mp h
  rw [get?_of_lookup (Nat.le_of_lt hsize) hlookup] at hy
  exact name_of_find? hy

end SymbolTable

namespace Step

/- The operations that use a name first and then change the symbol of its handle `target`. -/
theorem symbols_of_modify {st : Step} {id target : SymbolId} {y : Symbol} {t : SymbolTable}
    {f : Symbol → Symbol} (hafter : st.after.symbols = t.modify target f)
    (hy : t.get? id = some y) (hf : y.Advances (f y))
    (hchange : id = target → f y ≠ y → st.MayChange id y (f y)) :
    ∃ y', st.after.symbols.get? id = some y' ∧ y.Advances y' ∧
      (y' ≠ y → st.MayChange id y y') := by
  by_cases hid : id = target
  · refine ⟨f y, ?_, hf, hchange hid⟩
    rw [hafter, SymbolTable.get?_modify, hy, Option.map_some, if_pos hid]
  · refine ⟨y, ?_, .refl y, fun h => absurd rfl h⟩
    rw [hafter, SymbolTable.get?_modify, hy, Option.map_some, if_neg hid]

theorem symbols_of_unchanged {st : Step} {id : SymbolId} {y : Symbol}
    (h : st.after.symbols.get? id = some y) :
    ∃ y', st.after.symbols.get? id = some y' ∧ y.Advances y' ∧
      (y' ≠ y → st.MayChange id y y') :=
  ⟨y, h, .refl y, fun hne => absurd rfl hne⟩

theorem symbols_after (st : Step) (hsize : st.after.symbols.size < UInt32.size) (id : SymbolId)
    (y : Symbol) (hy : st.before.symbols.get? id = some y) :
    ∃ y', st.after.symbols.get? id = some y' ∧ y.Advances y' ∧
      (y' ≠ y → st.MayChange id y y') := by
  obtain ⟨s, op⟩ := st
  have hbefore : s.symbols.size < UInt32.size := Nat.lt_of_le_of_lt (s.size_le_perform op) hsize
  have hafter : (Step.mk s op).after.symbols = (s.effect op).table := s.symbols_perform op
  cases op with
  | intern name | listElement name | reference name | input name | forLoop name =>
    exact symbols_of_unchanged (hafter ▸ SymbolTable.get?_intern hy name)
  | declare name =>
    rw [Session.effect, Update.table_andThen, SymbolTable.table_declare] at hafter
    refine symbols_of_modify hafter (SymbolTable.get?_intern hy name) y.advances_onDeclare ?_
    intro hid hne
    exact ⟨SymbolTable.name_of_intern_value hbefore hy hid.symm,
      Symbol.declared_of_onDeclare_ne hne⟩
  | bindType target type =>
    rw [Session.effect, Update.table_map, SymbolTable.table_bindType] at hafter
    refine symbols_of_modify hafter hy (y.advances_onBind type) ?_
    exact fun hid hne => ⟨hid.symm, Symbol.open_of_onBind_ne hne⟩
  | declareList head type =>
    have hget := SymbolTable.get?_declareAll s.symbols head.listSymbols type s.position id
    rw [hy, Option.map_some] at hget
    by_cases hid : id ∈ head.listSymbols
    · rw [if_pos hid] at hget
      exact ⟨_, hafter ▸ hget, y.advances_onDeclareTyped type,
        fun hne => ⟨hid, Symbol.declared_of_onDeclareTyped_ne hne⟩⟩
    · rw [if_neg hid] at hget
      exact symbols_of_unchanged (hafter ▸ hget)
  | assign name expression =>
    have hraised := Session.raised_eq (Step.mk s (.assign name expression))
    rw [Session.effect] at hafter hraised
    split at hafter
    · exact symbols_of_unchanged (hafter ▸ hy)
    · rename_i hcheck
      rw [Update.table_andThen, Update.table_map, SymbolTable.table_assign] at hafter
      have hinterned := SymbolTable.get?_intern hy name
      refine symbols_of_modify hafter hinterned (y.advances_onAssign _ _) ?_
      intro hid hne
      obtain ⟨hd, ht, hvalue⟩ := Symbol.of_onAssign_ne hne
      refine ⟨SymbolTable.name_of_intern_value hbefore hy hid.symm, ?_, hvalue⟩
      rw [hraised, hcheck, Update.diagnostics_andThen, Update.diagnostics_map,
        SymbolTable.diagnostics_intern, SymbolTable.diagnostics_assign (hid ▸ hinterned)]
      simp [hd, ht]
  | _ => exact symbols_of_unchanged (hafter ▸ hy)

end Step

/-! ## What declarations report -/

theorem SymbolTable.filter_diagnostics_declareAll (t : SymbolTable) (ids : List SymbolId)
    (type : Ty) (pos : Position) :
    ((t.declareAll ids type pos).diagnostics.filter fun d => d.fault.isRedeclaration) =
      (t.attempts ids type pos).flatMap Attempt.raised := by
  induction ids generalizing t with
  | nil => rfl
  | cons id rest ih =>
    rw [declareAll, Update.diagnostics_andThen, List.filter_append, ih, attempts]
    cases hy : t.get? id with
    | none =>
      rw [diagnostics_declareTyped, declare_of_unknown hy]
      rfl
    | some y =>
      have hall : ∀ d ∈ (t.declareTyped id type pos).diagnostics,
          d.fault.isRedeclaration = true := by
        rw [diagnostics_declareTyped, diagnostics_declare hy]
        split <;> simp [Fault.isRedeclaration]
      rw [List.filter_eq_self.mpr hall, List.flatMap_cons]

namespace Operation

def isDeclaration : Operation Node → Bool
  | .declare _ | .declareList .. => true
  | _ => false

theorem isRedeclaration_operandViolations {op : Operator} {operands : List (Side × Ty)}
    {fault : Fault} (h : fault ∈ operandViolations op operands) :
    fault.isRedeclaration = false := by
  cases op with
  | subtraction | multiplication | division =>
    obtain ⟨operand, -, rfl⟩ := List.mem_map.mp h
    rfl
  | addition =>
    rw [operandViolations] at h
    split at h
    · simp at h
    · rw [List.mem_singleton.mp h]
      rfl
  | _ => simp [operandViolations] at h

/-- A declaration breaks no rule but that a name is declared once, and no other operation
breaks that one. -/
theorem isRedeclaration_of_mem_violations {t : SymbolTable} {op : Operation Node} {fault : Fault}
    (h : fault ∈ op.violations t) : fault.isRedeclaration = op.isDeclaration := by
  cases op with
  | declare name =>
    rw [violations] at h
    split at h
    · rw [List.mem_singleton.mp h]
      rfl
    · simp at h
  | declareList head type =>
    obtain ⟨id, -, rfl⟩ := List.mem_map.mp h
    rfl
  | assign name expression =>
    rw [violations] at h
    split at h
    · rw [List.mem_singleton.mp h]
      rfl
    · split at h
      · rw [List.mem_singleton.mp h]
        rfl
      · split at h
        · rw [List.mem_singleton.mp h]
          rfl
        · split at h
          · rw [List.mem_singleton.mp h]
            rfl
          · simp at h
  | binary | unary => exact isRedeclaration_operandViolations h
  | _ => simp [violations] at h

end Operation

namespace Step

theorem raised_eq_violations {st : Step} (hknown : st.operation.Known st.before.symbols)
    (hsize : st.after.symbols.size < UInt32.size) : st.raised = st.violations :=
  (Session.raised_eq st).trans (Session.diagnostics_effect hknown hsize)

theorem reported_by_attempts (st : Step) (hsize : st.after.symbols.size < UInt32.size) :
    (st.raised.filter fun d => d.fault.isRedeclaration) =
      st.attempts.flatMap Attempt.raised := by
  obtain ⟨s, op⟩ := st
  have hother : (∀ fault ∈ op.violations s.symbols, fault.isRedeclaration = false) →
      op.Known s.symbols →
      ((Step.mk s op).raised.filter fun d => d.fault.isRedeclaration) = [] := by
    intro hfaults hknown
    rw [raised_eq_violations hknown hsize, violations, List.filter_eq_nil_iff]
    intro d hd
    obtain ⟨fault, hfault, rfl⟩ := List.mem_map.mp hd
    simp [hfaults fault hfault]
  cases op with
  | declare name =>
    have hall : ∀ d ∈ (Step.mk s (.declare name)).raised, d.fault.isRedeclaration = true := by
      intro d hd
      rw [raised_eq_violations (by trivial) hsize] at hd
      obtain ⟨fault, hfault, rfl⟩ := List.mem_map.mp hd
      exact Operation.isRedeclaration_of_mem_violations hfault
    rw [List.filter_eq_self.mpr hall]
    exact (List.append_nil _).symm
  | declareList head type =>
    rw [Session.raised_eq]
    exact s.symbols.filter_diagnostics_declareAll head.listSymbols type s.position
  | _ => exact hother (fun _ h => Operation.isRedeclaration_of_mem_violations h) trivial

theorem orderly (st : Step) (hsize : st.after.symbols.size < UInt32.size) : st.Orderly where
  names := st.before.names_prefix_perform st.operation
  symbols := st.symbols_after hsize
  reported := st.reported_by_attempts hsize

end Step

/-! ## One name over a run -/

/-- What the attempts to declare one name add, one after the other. -/
def raisedFor (name : String) (attempts : List Attempt) : List (List Diagnostic) :=
  (attempts.filter fun a => a.name = name).map Attempt.raised

theorem raisedFor_append (name : String) (first second : List Attempt) :
    raisedFor name (first ++ second) = raisedFor name first ++ raisedFor name second := by
  simp [raisedFor]

/-- Attempts to declare a name that is declared at first or not, and whether it is in the end.
The attempt that declares it adds nothing.  Each one after that adds a diagnostic. -/
inductive DeclaredOnce (name : String) : Bool → List (List Diagnostic) → Bool → Prop where
  | none (declared : Bool) : DeclaredOnce name declared [] declared
  | first {rest : List (List Diagnostic)} {final : Bool} :
    DeclaredOnce name true rest final → DeclaredOnce name false ([] :: rest) final
  | again (pos : Position) {rest : List (List Diagnostic)} {final : Bool} :
    DeclaredOnce name true rest final →
      DeclaredOnce name true ([⟨.alreadyDeclared name, pos⟩] :: rest) final

namespace DeclaredOnce

variable {name : String}

theorem append {first second : List (List Diagnostic)} {before between after : Bool}
    (h : DeclaredOnce name before first between)
    (hsecond : DeclaredOnce name between second after) :
    DeclaredOnce name before (first ++ second) after := by
  induction h with
  | none => exact hsecond
  | first _ ih => exact .first (ih hsecond)
  | again pos _ ih => exact .again pos (ih hsecond)

theorem of_declared {raised : List (List Diagnostic)} {before after : Bool}
    (h : DeclaredOnce name before raised after) (hbefore : before = true) :
    after = true ∧ ∀ r ∈ raised, ∃ pos, r = [⟨.alreadyDeclared name, pos⟩] := by
  induction h with
  | none => exact ⟨hbefore, by simp⟩
  | first => cases hbefore
  | again pos _ ih =>
    obtain ⟨hafter, hrest⟩ := ih rfl
    refine ⟨hafter, fun r hr => ?_⟩
    rcases List.mem_cons.mp hr with rfl | hr
    · exact ⟨pos, rfl⟩
    · exact hrest r hr

theorem of_undeclared {raised : List (List Diagnostic)} {after : Bool}
    (h : DeclaredOnce name false raised after) :
    (after = true ↔ raised ≠ []) ∧ raised.count [] = (if after then 1 else 0) ∧
      ∀ r ∈ raised.tail, ∃ pos, r = [⟨.alreadyDeclared name, pos⟩] := by
  cases h with
  | none => exact ⟨by simp, rfl, by simp⟩
  | first h =>
    obtain ⟨rfl, hrest⟩ := h.of_declared rfl
    refine ⟨by simp, ?_, hrest⟩
    rw [List.count_cons_self, List.count_eq_zero.mpr]
    · rfl
    · intro hmem
      obtain ⟨pos, hpos⟩ := hrest _ hmem
      cases hpos

/-- One attempt: a function that declares the symbol of a handle, and what a declaration of
that handle reports. -/
theorem of_attempt (name : String) {t : SymbolTable} (hnames : t.names.Nodup) {id : SymbolId}
    {y : Symbol} (hy : t.get? id = some y) {f : Symbol → Symbol}
    (hname : ∀ y, (f y).name = y.name) (hf : ∀ y, (f y).declared = true) (pos : Position) :
    DeclaredOnce name (t.hasDeclared name)
      (raisedFor name [⟨y.name, (t.declare id pos).diagnostics⟩])
      ((t.modify id f).hasDeclared name) := by
  rw [SymbolTable.hasDeclared_modify hnames hy hname, hf, SymbolTable.diagnostics_declare hy]
  by_cases h : y.name = name
  · have hfind : t.find? name = some y :=
      (SymbolTable.find?_eq_some_iff hnames).mpr ⟨List.mem_of_getElem? hy, h⟩
    rw [SymbolTable.hasDeclared, hfind, if_pos h]
    cases hd : y.declared with
    | true => simpa [raisedFor, h, hd] using again pos (.none true)
    | false => simpa [raisedFor, h, hd] using first (.none true)
  · rw [if_neg h]
    simpa [raisedFor, h] using none (t.hasDeclared name)

theorem of_attempts {t : SymbolTable} (hnames : t.names.Nodup) (ids : List SymbolId) (type : Ty)
    (pos : Position) :
    DeclaredOnce name (t.hasDeclared name) (raisedFor name (t.attempts ids type pos))
      ((t.declareAll ids type pos).table.hasDeclared name) := by
  induction ids generalizing t with
  | nil => exact none _
  | cons id rest ih =>
    have htable := t.table_declareTyped id type pos
    have hnext : (t.declareTyped id type pos).table.names.Nodup := by
      rwa [htable, SymbolTable.names_modify (Symbol.name_onDeclareTyped type)]
    have hrest := ih hnext
    rw [SymbolTable.declareAll, Update.table_andThen, SymbolTable.attempts]
    cases hy : t.get? id with
    | none =>
      rw [htable, SymbolTable.modify_eq_self (by simp [hy])] at hrest ⊢
      exact hrest
    | some y =>
      have hone := of_attempt name hnames hy (Symbol.name_onDeclareTyped type)
        (Symbol.declared_onDeclareTyped type) pos
      rw [← htable, ← SymbolTable.diagnostics_declareTyped t id type pos] at hone
      have happend := raisedFor_append name [⟨y.name, (t.declareTyped id type pos).diagnostics⟩]
        ((t.declareTyped id type pos).table.attempts rest type pos)
      rw [List.singleton_append] at happend
      rw [happend]
      exact hone.append hrest

theorem of_step (st : Step) (hnames : st.before.symbols.names.Nodup)
    (hsize : st.after.symbols.size < UInt32.size) :
    DeclaredOnce name (st.before.symbols.hasDeclared name) (raisedFor name st.attempts)
      (st.after.symbols.hasDeclared name) := by
  obtain ⟨s, op⟩ := st
  have hafter : (Step.mk s op).after.symbols = (s.effect op).table := s.symbols_perform op
  have hsame : ((s.effect op).table.hasDeclared name = s.symbols.hasDeclared name) →
      DeclaredOnce name (s.symbols.hasDeclared name) []
        ((Step.mk s op).after.symbols.hasDeclared name) := by
    intro h
    rw [hafter, h]
    exact none _
  cases op with
  | intern first | listElement first | reference first | input first | forLoop first =>
    exact hsame (s.symbols.hasDeclared_intern first name)
  | bindType id type =>
    apply hsame
    rw [Session.effect, Update.table_map, SymbolTable.table_bindType]
    exact SymbolTable.hasDeclared_modify_same hnames (Symbol.name_onBind type)
      (Symbol.declared_onBind type) id name
  | assign target expression =>
    apply hsame
    rw [Session.effect]
    split
    · rfl
    · rw [Update.table_andThen, Update.table_map, SymbolTable.table_assign,
        SymbolTable.hasDeclared_modify_same (SymbolTable.nodup_names_intern hnames target)
          (Symbol.name_onAssign _ _) (Symbol.declared_onAssign _ _)]
      exact s.symbols.hasDeclared_intern target name
  | declareList head type =>
    rw [hafter]
    exact of_attempts hnames head.listSymbols type s.position
  | declare declared =>
    have hraised := Session.raised_eq (Step.mk s (.declare declared))
    rw [Session.effect, Update.diagnostics_andThen, SymbolTable.diagnostics_intern,
      List.nil_append] at hraised
    rw [hafter, Session.effect, Update.table_andThen, SymbolTable.table_declare,
      SymbolTable.size_modify] at hsize
    obtain ⟨y, hy, hyname⟩ := SymbolTable.exists_get?_intern_value hsize
    have hone := of_attempt name (SymbolTable.nodup_names_intern hnames declared) hy
      Symbol.name_onDeclare Symbol.declared_onDeclare s.position
    rw [SymbolTable.hasDeclared_intern, hyname] at hone
    rw [hafter, Session.effect, Update.table_andThen, SymbolTable.table_declare, Step.attempts,
      hraised]
    exact hone
  | _ => exact hsame rfl

theorem of_steps {s : Session} (hnames : s.symbols.names.Nodup) {ops : List (Operation Node)}
    (hsize : (s.performAll ops).symbols.size < UInt32.size) :
    DeclaredOnce name (s.symbols.hasDeclared name)
      (raisedFor name ((s.steps ops).flatMap Step.attempts))
      ((s.performAll ops).symbols.hasDeclared name) := by
  induction ops generalizing s with
  | nil => exact none _
  | cons op rest ih =>
    have hafter : (Step.mk s op).after.symbols.size < UInt32.size :=
      Nat.lt_of_le_of_lt (Session.size_le_performAll _ rest) hsize
    rw [Session.steps, List.flatMap_cons, raisedFor_append]
    exact (of_step ⟨s, op⟩ hnames hafter).append
      (ih (Session.nodup_names_perform hnames op) hsize)

end DeclaredOnce

namespace Session

/-- Every operation of a run changes the symbols in an orderly way.  A name is declared in the
end exactly if there was an attempt to declare it.  Then one attempt went well, the first, and
each attempt after it added one diagnostic. -/
theorem lifecycle_steps (options : Options) (sink : Sink) (resolver : Resolver)
    (ops : List (Operation Node))
    (hsize : ((start options sink resolver).performAll ops).symbols.size < UInt32.size) :
    let s := start options sink resolver
    (∀ st ∈ s.steps ops, st.Orderly) ∧
      ∀ name,
        let raised := raisedFor name ((s.steps ops).flatMap Step.attempts)
        let declared := (s.performAll ops).symbols.hasDeclared name
        (declared = true ↔ raised ≠ []) ∧ raised.count [] = (if declared then 1 else 0) ∧
          ∀ r ∈ raised.tail, ∃ pos, r = [⟨.alreadyDeclared name, pos⟩] := by
  intro s
  constructor
  · intro st hst
    exact st.orderly (Nat.lt_of_le_of_lt (size_after_le hst) hsize)
  · intro name raised declared
    exact (DeclaredOnce.of_steps (s := s) List.nodup_nil hsize).of_undeclared

/-- The list `b, a, b` after a declaration of `a`.  Both names are declared once. -/
theorem lifecycle_steps_of_repeated_list :
    let s := start {} .null .zero
    let list := Node.listElement s.position ⟨1⟩ <| some <|
      .listElement s.position ⟨0⟩ <| some <| .listElement s.position ⟨1⟩ none
    let ops : List (Operation Node) := [.declare "a", .intern "b", .declareList list .integer]
    let attempts := (s.steps ops).flatMap Step.attempts
    (s.performAll ops).symbols.size < UInt32.size ∧
      (raisedFor "a" attempts).count [] = 1 ∧ (raisedFor "b" attempts).count [] = 1 ∧
      ∀ r ∈ (raisedFor "b" attempts).tail, ∃ pos, r = [⟨.alreadyDeclared "b", pos⟩] := by
  intro s list ops attempts
  have hsize : (s.performAll ops).symbols.size < UInt32.size := by decide
  have hrun := (lifecycle_steps {} .null .zero ops hsize).2
  have ha : (s.performAll ops).symbols.hasDeclared "a" = true := by decide
  have hb : (s.performAll ops).symbols.hasDeclared "b" = true := by decide
  obtain ⟨-, hacount, -⟩ := hrun "a"
  obtain ⟨-, hbcount, hbrest⟩ := hrun "b"
  exact ⟨hsize, hacount.trans (if_pos ha), hbcount.trans (if_pos hb), hbrest⟩

end Session
end ImpFront
