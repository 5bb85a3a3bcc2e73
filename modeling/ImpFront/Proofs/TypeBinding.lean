/-
Types given to a symbol, around its declaration and one after the other.

A declaration reads the type that a symbol has, and a type that is given reads whether the symbol
is declared.  The two orders come to the same exactly if the symbol had no other type before
(`declare_bindType_comm_iff`).

A declared symbol takes the first determined type that it is asked to take, and keeps it.
`bindType_typedOnce` says so for calls of any kind carried out on a table, of which the ones that
ask this symbol are the requests: what type it has in the end, which requests are granted, and that
a request changes nothing after the first determined one.
-/
import ImpFront.Proofs.IdentifierLists
import ImpFront.Proofs.Interning

namespace ImpFront

/-! ## Requests and answers -/

namespace Ty

/-- The type that a symbol has after it was asked to take another one. -/
def settle (held asked : Ty) : Ty := if held = .undetermined then asked else held

def firstDetermined? (types : List Ty) : Option Ty :=
  types.find? (· ≠ .undetermined)

end Ty

namespace TableCall

/-- The type that the call asks the symbol of a handle to take, if it does. -/
def request? (id : SymbolId) : TableCall → Option Ty
  | bindType other type => if other = id then some type else none
  | _ => none

/-- The types that the symbol of a handle is asked to take, in order. -/
def requests (id : SymbolId) (calls : List TableCall) : List Ty :=
  calls.filterMap (request? id)

end TableCall

namespace SymbolTable

/-- The answers to the requests to the symbol of a handle, in order. -/
def grants (id : SymbolId) : SymbolTable → List TableCall → List Bool
  | _, [] => []
  | t, c :: rest =>
    ((c.request? id).toList.map fun type => (t.bindType id type).value) ++
      grants id (t.call c) rest

/-- What calls do to a symbol that is declared and has no type when they start. -/
structure TypedOnce (t : SymbolTable) (id : SymbolId) (calls : List TableCall) : Prop where
  /-- In the end it has the first determined type that it was asked to take. -/
  final : ∃ y, (t.callAll calls).get? id = some y ∧ y.declared = true ∧
    y.type = (Ty.firstDetermined? (TableCall.requests id calls)).getD .undetermined
  answered : (t.grants id calls).length = (TableCall.requests id calls).length
  /-- A request is granted if no type was determined before or if it asks for the first one. -/
  granted_iff : ∀ k type, (TableCall.requests id calls)[k]? = some type →
    ((t.grants id calls)[k]? = some true ↔
      (∀ earlier ∈ (TableCall.requests id calls).take k, earlier = .undetermined) ∨
        Ty.firstDetermined? (TableCall.requests id calls) = some type)
  /-- After a determined type no request changes the table, so the requests among the calls that
  follow can be left out. -/
  kept : ∀ before after, calls = before ++ after →
    (∃ type ∈ TableCall.requests id before, type ≠ .undetermined) →
    (∀ type, ((t.callAll before).bindType id type).table = t.callAll before) ∧
      t.callAll calls =
        (t.callAll before).callAll (after.filter fun c => (c.request? id).isNone)

end SymbolTable

/-! ## The first determined type -/

namespace Ty

theorem settle_eq_asked_iff (held asked : Ty) :
    held.settle asked = asked ↔ held = .undetermined ∨ held = asked := by
  by_cases h : held = .undetermined <;> simp [settle, h]

theorem settle_undetermined (held : Ty) : held.settle .undetermined = held := by
  by_cases h : held = .undetermined <;> simp [settle, h]

theorem foldl_settle (held : Ty) (types : List Ty) :
    types.foldl settle held = held.settle ((firstDetermined? types).getD .undetermined) := by
  induction types generalizing held with
  | nil => exact held.settle_undetermined.symm
  | cons type rest ih =>
    rw [List.foldl_cons, ih]
    by_cases h : held = .undetermined
    · by_cases ht : type = .undetermined <;> simp [settle, firstDetermined?, h, ht]
    · simp [settle, h]

theorem firstDetermined?_eq_none_iff (types : List Ty) :
    firstDetermined? types = none ↔ ∀ type ∈ types, type = .undetermined := by
  simp [firstDetermined?]

theorem ne_undetermined_of_firstDetermined? {types : List Ty} {type : Ty}
    (h : firstDetermined? types = some type) : type ≠ .undetermined := by
  simpa using List.find?_some h

theorem firstDetermined?_of_take {types : List Ty} {k : Nat} {type : Ty}
    (h : firstDetermined? (types.take k) = some type) : firstDetermined? types = some type := by
  rw [firstDetermined?] at h ⊢
  rw [← List.take_append_drop k types, List.find?_append, h]
  rfl

/-- What the first requests leave behind fits another request exactly if none of them was
determined or if it asks for the first determined one of all. -/
theorem foldl_settle_take_iff (types : List Ty) (k : Nat) (asked : Ty) :
    ((types.take k).foldl settle .undetermined).settle asked = asked ↔
      (∀ earlier ∈ types.take k, earlier = .undetermined) ∨
        firstDetermined? types = some asked := by
  have hheld : (types.take k).foldl settle .undetermined =
      (firstDetermined? (types.take k)).getD .undetermined := foldl_settle _ _
  rw [settle_eq_asked_iff, hheld, ← firstDetermined?_eq_none_iff]
  cases h : firstDetermined? (types.take k) with
  | none => simp
  | some first =>
    have hfirst : first ≠ .undetermined := ne_undetermined_of_firstDetermined? h
    simp [hfirst, firstDetermined?_of_take h]

end Ty

/-! ## A declaration and a type -/

namespace Symbol

/-- A type that is given before the declaration replaces the one that the symbol had. -/
theorem onDeclare_onBind_of_fresh {y : Symbol} (hd : y.declared = false) (type : Ty) :
    (y.onBind type).onDeclare =
      { name := y.name, declared := true, type := type, value := some type.zero } := by
  simp [onBind, isSettled, bind, onDeclare, declare, hd]

/-- A type that is given after the declaration does not, since the declaration settled it. -/
theorem onBind_onDeclare_of_fresh {y : Symbol} (hd : y.declared = false) (type : Ty) :
    y.onDeclare.onBind type =
      { name := y.name
        declared := true
        type := y.type.settle type
        value := some (y.type.settle type).zero } := by
  have htyped : y.onDeclareTyped type = y.onDeclare.onBind type := by
    simp [onDeclareTyped, onDeclare, hd]
  rw [← htyped, onDeclareTyped_of_fresh hd]
  rfl

theorem type_onBind_of_declared {y : Symbol} (hd : y.declared = true) (type : Ty) :
    (y.onBind type).type = y.type.settle type := by
  by_cases ht : y.type = .undetermined <;> simp [onBind, isSettled, bind, Ty.settle, hd, ht]

end Symbol

namespace SymbolTable

variable {t : SymbolTable} {id : SymbolId} {y : Symbol}

theorem modify_eq_modify_iff (hy : t.get? id = some y) {f g : Symbol → Symbol} :
    t.modify id f = t.modify id g ↔ f y = g y := by
  constructor
  · intro h
    have hget : (t.modify id f).get? id = (t.modify id g).get? id := congrArg (get? · id) h
    rw [get?_modify_self, get?_modify_self, hy] at hget
    exact Option.some.inj hget
  · intro h
    refine modify_congr fun z hz => ?_
    rwa [Option.some.inj (hz.symm.trans hy)]

/-- A type is granted if the symbol has it then. -/
theorem value_bindType (hy : t.get? id = some y) (type : Ty) :
    (t.bindType id type).value = decide ((y.onBind type).type = type) := by
  cases hs : y.isSettled with
  | true => simp [bindType_of_settled hy hs, Symbol.onBind, hs]
  | false => simp [bindType_of_open hy hs, Symbol.onBind, hs, Symbol.bind]

/-- A fresh symbol is declared and given a type in both orders.  They end in the same table exactly
if the symbol had no type before or this one.  Then it is declared with the type and its zero
value, all other symbols are as they were, and every call goes well.  Otherwise the declaration
settles the earlier type, and the type that comes after it is refused. -/
theorem declare_bindType_comm_iff (hy : t.get? id = some y) (hd : y.declared = false) (type : Ty)
    (pos pos' : Position) :
    let declared := t.declare id pos
    let typed := declared.table.bindType id type
    let typed' := t.bindType id type
    let declared' := typed'.table.declare id pos'
    let agreed := y.type = .undetermined ∨ y.type = type
    (typed.table = declared'.table ↔ agreed) ∧
      (agreed →
        typed.table.entries =
            t.entries.set id.index.toNat
              { name := y.name, declared := true, type := type, value := some type.zero } ∧
          declared.diagnostics = [] ∧ typed.value = true ∧
          typed'.value = true ∧ declared'.diagnostics = []) ∧
      (¬ agreed → typed.value = false ∧ typed.table.typeOf id = y.type) := by
  intro declared typed typed' declared' agreed
  have hagreed : y.type.settle type = type ↔ agreed := y.type.settle_eq_asked_iff type
  have hdeclared : declared.table.get? id = some y.onDeclare := by
    rw [table_declare, get?_modify_self, hy, Option.map_some]
  have htyped : typed.table = t.modify id fun y => y.onDeclare.onBind type := by
    rw [table_bindType, table_declare, modify_modify]
    rfl
  have hdeclared' : declared'.table = t.modify id fun y => (y.onBind type).onDeclare := by
    rw [table_declare, table_bindType, modify_modify]
    rfl
  have hanswer : typed.value = decide (y.type.settle type = type) := by
    rw [value_bindType hdeclared, Symbol.onBind_onDeclare_of_fresh hd]
  -- each order changes this symbol only, so the tables are alike if the two symbols are
  have hboth : typed.table = declared'.table ↔ y.type.settle type = type := by
    rw [htyped, hdeclared', modify_eq_modify_iff hy, Symbol.onBind_onDeclare_of_fresh hd,
      Symbol.onDeclare_onBind_of_fresh hd]
    constructor
    · exact fun h => congrArg Symbol.type h
    · intro h
      rw [h]
  refine ⟨hboth.trans hagreed, fun h => ⟨?_, ?_, ?_, ?_, ?_⟩, fun h => ⟨?_, ?_⟩⟩
  · rw [hboth.mpr (hagreed.mpr h), hdeclared', entries_modify_of_get? hy,
      Symbol.onDeclare_onBind_of_fresh hd]
  · simp [declared, diagnostics_declare hy, hd]
  · rw [hanswer, hagreed.mpr h, decide_eq_true rfl]
  · simp [typed', value_bindType hy, Symbol.onBind, Symbol.isSettled, hd, Symbol.bind]
  · have hget : typed'.table.get? id = some (y.onBind type) := by
      rw [table_bindType, get?_modify_self, hy, Option.map_some]
    simp [declared', diagnostics_declare hget, Symbol.declared_onBind, hd]
  · rw [hanswer, decide_eq_false (mt hagreed.mp h)]
  · have hearlier : y.type.settle type = y.type := by simp [Ty.settle, (not_or.mp h).1]
    rw [htyped, typeOf, get?_modify_self, hy, Option.map_some,
      Symbol.onBind_onDeclare_of_fresh hd, hearlier]

/-- The variable `a` was given strings before.  With strings the two orders agree, with integers
they do not. -/
theorem declare_bindType_comm_iff_of_bound_string :
    let pos := Position.null
    let t : SymbolTable := { entries := [{ name := "b" }, { name := "a", type := .string }] }
    let y : Symbol := { name := "a", type := .string }
    t.get? ⟨1⟩ = some y ∧ y.declared = false ∧
      ((t.declare ⟨1⟩ pos).table.bindType ⟨1⟩ .string).table =
        ((t.bindType ⟨1⟩ .string).table.declare ⟨1⟩ pos).table ∧
      ((t.declare ⟨1⟩ pos).table.bindType ⟨1⟩ .string).table.entries =
        [{ name := "b" },
          { name := "a", declared := true, type := .string, value := some (.string "") }] ∧
      ((t.declare ⟨1⟩ pos).table.bindType ⟨1⟩ .integer).table ≠
        ((t.bindType ⟨1⟩ .integer).table.declare ⟨1⟩ pos).table := by
  intro pos t y
  have hy : t.get? ⟨1⟩ = some y := rfl
  obtain ⟨hsame, hagreed, -⟩ := declare_bindType_comm_iff hy rfl .string pos pos
  obtain ⟨hother, -, -⟩ := declare_bindType_comm_iff hy rfl .integer pos pos
  have hinteger : ¬ (y.type = .undetermined ∨ y.type = .integer) := by decide
  exact ⟨hy, rfl, hsame.mpr (.inr rfl), (hagreed (.inr rfl)).1, mt hother.mp hinteger⟩

/-! ## One call -/

/-- A type is granted exactly if the handle is known and its symbol has the type afterwards.  A
type that is refused changes nothing. -/
theorem bindType_value_iff (t : SymbolTable) (id : SymbolId) (type : Ty) :
    ((t.bindType id type).value = true ↔
        (t.get? id).isSome = true ∧ (t.bindType id type).table.typeOf id = type) ∧
      ((t.bindType id type).value = false → (t.bindType id type).table = t) := by
  cases hy : t.get? id with
  | none => simp [bindType_of_unknown hy, Update.pure]
  | some y =>
    have htype : (t.bindType id type).table.typeOf id = (y.onBind type).type := by
      rw [table_bindType, typeOf, get?_modify_self, hy, Option.map_some]
    refine ⟨by simp [value_bindType hy, htype], fun hrefused => ?_⟩
    cases hs : y.isSettled with
    | true => rw [bindType_of_settled hy hs]
    | false =>
      rw [bindType_of_open hy hs] at hrefused
      cases hrefused

/-- Of all calls only a request has a say in the type of a declared symbol. -/
theorem get?_call_of_declared (hy : t.get? id = some y) (hd : y.declared = true)
    (c : TableCall) :
    ∃ y', (t.call c).get? id = some y' ∧ y'.declared = true ∧
      y'.type = (c.request? id).elim y.type y.type.settle := by
  cases c with
  | intern name => exact ⟨y, get?_intern hy name, hd, rfl⟩
  | declare other pos =>
    have hkept : y.onDeclare = y := by simp [Symbol.onDeclare, hd]
    refine ⟨y, ?_, hd, rfl⟩
    rw [call, table_declare, get?_modify, hy, Option.map_some, hkept, ite_self]
  | declareList head type pos =>
    refine ⟨y, ?_, hd, rfl⟩
    rw [call, declareList, get?_declareAll, hy, Option.map_some,
      Symbol.onDeclareTyped_of_declared hd, ite_self]
  | bindType other type =>
    rw [call, table_bindType]
    by_cases hid : other = id
    · subst hid
      refine ⟨y.onBind type, ?_, (y.declared_onBind type).trans hd, ?_⟩
      · rw [get?_modify_self, hy, Option.map_some]
      · simp [Symbol.type_onBind_of_declared hd, TableCall.request?]
    · refine ⟨y, ?_, hd, by simp [TableCall.request?, hid]⟩
      rw [get?_modify_of_ne t _ (Ne.symm hid), hy]
  | assign other expression answer pos =>
    rw [call, table_assign, get?_modify, hy, Option.map_some]
    refine ⟨_, rfl, ?_, ?_⟩
    · split
      · exact (y.declared_onAssign _ _).trans hd
      · exact hd
    · split
      · exact y.type_onAssign _ _
      · rfl

theorem bindType_of_request {c : TableCall} {type : Ty} (h : c.request? id = some type) :
    c = .bindType id type := by
  cases c with
  | bindType other asked =>
    rw [TableCall.request?, Option.ite_none_right_eq_some] at h
    obtain ⟨rfl, hasked⟩ := h
    rw [Option.some.inj hasked]
  | _ => cases h

theorem table_bindType_of_settled (hy : t.get? id = some y) (hs : y.isSettled = true)
    (type : Ty) : (t.bindType id type).table = t := by
  rw [bindType_of_settled hy hs]

/-! ## Calls one after the other -/

theorem get?_callAll_of_declared (hy : t.get? id = some y) (hd : y.declared = true)
    (calls : List TableCall) :
    ∃ y', (t.callAll calls).get? id = some y' ∧ y'.declared = true ∧
      y'.type = (TableCall.requests id calls).foldl Ty.settle y.type := by
  induction calls generalizing t y with
  | nil => exact ⟨y, hy, hd, rfl⟩
  | cons c rest ih =>
    obtain ⟨y', hy', hd', htype⟩ := get?_call_of_declared hy hd c
    have hrest := ih hy' hd'
    rw [htype] at hrest
    rw [callAll_cons]
    cases hc : c.request? id with
    | none => simpa [TableCall.requests, hc] using hrest
    | some asked => simpa [TableCall.requests, hc] using hrest

/-- A request is answered by the type that the requests before it have left. -/
theorem grants_of_declared (hy : t.get? id = some y) (hd : y.declared = true)
    (calls : List TableCall) :
    t.grants id calls = (TableCall.requests id calls).mapIdx fun k type =>
      let held := ((TableCall.requests id calls).take k).foldl Ty.settle y.type
      decide (held.settle type = type) := by
  -- the earlier requests are in the type of `y`, so it may be any type here
  induction calls generalizing t y with
  | nil => rfl
  | cons c rest ih =>
    obtain ⟨y', hy', hd', htype⟩ := get?_call_of_declared hy hd c
    have hrest := ih hy' hd'
    rw [htype] at hrest
    cases hc : c.request? id with
    | none => simpa [grants, TableCall.requests, hc] using hrest
    | some type =>
      have hasked : TableCall.requests id (c :: rest) = type :: TableCall.requests id rest := by
        simp [TableCall.requests, hc]
      have hanswer : (t.bindType id type).value = decide (y.type.settle type = type) := by
        rw [value_bindType hy, Symbol.type_onBind_of_declared hd]
      have hgrants : t.grants id (c :: rest) =
          (t.bindType id type).value :: grants id (t.call c) rest := by
        simp [grants, hc]
      rw [hc, Option.elim_some] at hrest
      rw [hasked, List.mapIdx_cons, hgrants, hanswer, hrest]
      rfl

/-- Once the type of a symbol is settled, the calls that ask it to take one can be left out. -/
theorem callAll_of_settled (hy : t.get? id = some y) (hs : y.isSettled = true)
    (calls : List TableCall) :
    t.callAll calls = t.callAll (calls.filter fun c => (c.request? id).isNone) := by
  induction calls generalizing t y with
  | nil => rfl
  | cons c rest ih =>
    cases hc : c.request? id with
    | some type =>
      have hcall : t.call c = t := by
        rw [bindType_of_request hc]
        exact table_bindType_of_settled hy hs type
      rw [List.filter_cons_of_neg (by simp [hc]), ← ih hy hs]
      exact congrArg (callAll · rest) hcall
    | none =>
      -- such a call may store a value, but it leaves the symbol declared and its type as it is
      obtain ⟨hd, ht⟩ : y.declared = true ∧ y.type ≠ .undetermined := by
        simpa [Symbol.isSettled] using hs
      obtain ⟨y', hy', hd', htype⟩ := get?_call_of_declared hy hd c
      have hs' : y'.isSettled = true := by simp [Symbol.isSettled, hd', htype, hc, ht]
      rw [List.filter_cons_of_pos (by simp [hc])]
      exact ih hy' hs'

/-- A type is granted exactly if the handle is known and its symbol has the type afterwards, and a
type that is refused changes nothing.  A symbol that is declared and has no type takes the first
determined type that it is asked to take, whatever calls are carried out in between, and keeps
it. -/
theorem bindType_typedOnce :
    (∀ (t : SymbolTable) (id : SymbolId) (type : Ty),
      ((t.bindType id type).value = true ↔
          (t.get? id).isSome = true ∧ (t.bindType id type).table.typeOf id = type) ∧
        ((t.bindType id type).value = false → (t.bindType id type).table = t)) ∧
    ∀ (t : SymbolTable) (id : SymbolId) (y : Symbol), t.get? id = some y →
      y.declared = true → y.type = .undetermined →
        ∀ calls : List TableCall, t.TypedOnce id calls := by
  refine ⟨bindType_value_iff, fun t id y hy hd hu calls => ?_⟩
  have hfinal : ∀ calls : List TableCall, ∃ y', (t.callAll calls).get? id = some y' ∧
      y'.declared = true ∧
      y'.type = (Ty.firstDetermined? (TableCall.requests id calls)).getD .undetermined := by
    intro calls
    obtain ⟨y', hy', hd', htype⟩ := get?_callAll_of_declared hy hd calls
    rw [hu, Ty.foldl_settle] at htype
    exact ⟨y', hy', hd', htype⟩
  have hgrants := grants_of_declared hy hd calls
  rw [hu] at hgrants
  refine ⟨hfinal calls, ?_, fun k type hk => ?_, fun before after hcalls hdetermined => ?_⟩
  · rw [hgrants, List.length_mapIdx]
  · rw [hgrants, List.getElem?_mapIdx, hk, Option.map_some, Option.some.injEq,
      decide_eq_true_iff]
    exact Ty.foldl_settle_take_iff _ k type
  · obtain ⟨y', hy', hd', htype⟩ := hfinal before
    have hs : y'.isSettled = true := by
      cases hfirst : Ty.firstDetermined? (TableCall.requests id before) with
      | none =>
        obtain ⟨type, hmem, ht⟩ := hdetermined
        exact absurd ((Ty.firstDetermined?_eq_none_iff _).mp hfirst type hmem) ht
      | some first =>
        have hne : first ≠ .undetermined := Ty.ne_undetermined_of_firstDetermined? hfirst
        rw [hfirst, Option.getD_some] at htype
        simp [Symbol.isSettled, hd', htype, hne]
    refine ⟨table_bindType_of_settled hy' hs, ?_⟩
    rw [hcalls, callAll_append]
    exact callAll_of_settled hy' hs after

/-- The variable `x` is asked to be an integer before and after it is assigned a number, and a
string after that. -/
theorem bindType_typedOnce_of_assigned_number :
    let pos := Position.null
    let x : SymbolId := ⟨0⟩
    let y : Symbol := { name := "x", declared := true, value := some (.integer 0) }
    let t : SymbolTable := { entries := [y] }
    let before : List TableCall :=
      [.bindType x .undetermined, .bindType x .integer,
        .assign x (.constant pos (.integer 7)) (fun _ => .integer 7) pos]
    let after : List TableCall := [.bindType x .string, .bindType x .integer]
    let calls := before ++ after
    t.get? x = some y ∧ y.declared = true ∧ y.type = .undetermined ∧
      TableCall.requests x calls = [.undetermined, .integer, .string, .integer] ∧
      (t.grants x calls)[2]? ≠ some true ∧ (t.grants x calls)[3]? = some true ∧
      (t.callAll calls).get? x = some { y with type := .integer, value := some (.integer 7) } := by
  intro pos x y t before after calls
  have hy : t.get? x = some y := rfl
  have hasked : TableCall.requests x calls = [.undetermined, .integer, .string, .integer] := rfl
  have honce := bindType_typedOnce.2 t x y hy rfl rfl calls
  have hdetermined : ∃ type ∈ TableCall.requests x before, type ≠ .undetermined := by decide
  refine ⟨hy, rfl, rfl, hasked, ?_, ?_, ?_⟩
  · rw [ne_eq, honce.granted_iff 2 .string rfl]
    decide
  · exact (honce.granted_iff 3 .integer rfl).mpr (.inr rfl)
  · rw [(honce.kept before after rfl hdetermined).2]
    decide

end SymbolTable
end ImpFront
