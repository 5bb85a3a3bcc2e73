/-
Identifier lists and the symbols that they declare.

A list is declared element by element, and an element is looked up in a table in which the elements
before it are declared already.  What is reported can be said on the table before the list all the
same: an element is wrong if its handle leads nowhere, if its symbol is declared, or if it stands
in the list before (`elementFault?`).  The symbols that are declared by a list get its type, unless
they were given another type before (`declareList_types_fresh`), and all other symbols stay as they
are.  A second declaration of the same list finds every element wrong (`declareList_outcome`).
-/
import ImpFront.Proofs.Run

namespace ImpFront

/-! ## What is wrong with an element -/

namespace SymbolTable

/-- What is wrong with an element of a list, by the table before the list and the elements before
this one. -/
def elementFault? (t : SymbolTable) (earlier : List SymbolId) (id : SymbolId) : Option Fault :=
  match t.get? id with
  | none => some (.notDeclared "<unknown>")
  | some y => if y.declared = true ∨ id ∈ earlier then some (.alreadyDeclared y.name) else none

/-- What is wrong with the elements of a list that goes on from the elements `earlier`, in their
order. -/
def listFaults (t : SymbolTable) (earlier ids : List SymbolId) : List Fault :=
  (ids.mapIdx fun i id => t.elementFault? (earlier ++ ids.take i) id).filterMap id

theorem listFaults_cons (t : SymbolTable) (earlier : List SymbolId) (id : SymbolId)
    (rest : List SymbolId) :
    t.listFaults earlier (id :: rest) =
      (t.elementFault? earlier id).toList ++ t.listFaults (earlier ++ [id]) rest := by
  rw [listFaults, listFaults, List.mapIdx_cons]
  cases h : t.elementFault? earlier id <;> simp [h]

end SymbolTable

/-! ## The symbols after a list -/

/-- A symbol that is declared with a type gets the type if it has none, and the zero value of the
type that it has then. -/
theorem Symbol.onDeclareTyped_of_fresh {y : Symbol} (hd : y.declared = false) (type : Ty) :
    let final := if y.type = .undetermined then type else y.type
    y.onDeclareTyped type =
      { name := y.name, declared := true, type := final, value := some final.zero } := by
  intro final
  have hdeclare : y.onDeclareTyped type = y.declare.onBind type := by simp [onDeclareTyped, hd]
  rw [hdeclare]
  by_cases ht : y.type = .undetermined
  · -- The declaration has put the integer zero, which the type has to replace unless it fits.
    have hfinal : final = type := if_pos ht
    rw [hfinal]
    cases type <;> simp [onBind, isSettled, declare, ht, bind, Ty.zero, Value.type]
  · have hfinal : final = y.type := if_neg ht
    rw [hfinal]
    simp [onBind, isSettled, declare, ht]

namespace SymbolTable

theorem size_declareAll (t : SymbolTable) (ids : List SymbolId) (type : Ty) (pos : Position) :
    (t.declareAll ids type pos).table.size = t.size := by
  simpa [names, size] using congrArg List.length (t.names_declareAll ids type pos)

/-! ## What a list reports -/

/-- A declaration in a table `t` in which the elements before are declared already. -/
theorem diagnostics_declare_element {t₀ t : SymbolTable} {earlier : List SymbolId} {type : Ty}
    (ht : ∀ id, t.get? id =
      (t₀.get? id).map fun y => if id ∈ earlier then y.onDeclareTyped type else y)
    (id : SymbolId) (pos : Position) :
    (t.declare id pos).diagnostics =
      (t₀.elementFault? earlier id).toList.map fun fault => ⟨fault, pos⟩ := by
  have hget := ht id
  cases hy : t₀.get? id with
  | none =>
    rw [hy, Option.map_none] at hget
    rw [declare_of_unknown hget, elementFault?, hy]
    rfl
  | some y =>
    rw [hy, Option.map_some] at hget
    rw [diagnostics_declare hget, elementFault?, hy]
    by_cases hearlier : id ∈ earlier
    · simp [hearlier, y.declared_onDeclareTyped type, y.name_onDeclareTyped type]
    · by_cases hd : y.declared = true <;> simp [hearlier, hd]

/- The loop over a list looks at a table in which the elements before the current one are
declared.  The induction keeps what that table `t` has to do with the table `t₀` that the loop
started from: it differs in the elements `earlier`, and there by their declaration. -/
theorem diagnostics_declareAll_of_earlier {t₀ t : SymbolTable} {earlier ids : List SymbolId}
    {type : Ty} (pos : Position)
    (ht : ∀ id, t.get? id =
      (t₀.get? id).map fun y => if id ∈ earlier then y.onDeclareTyped type else y) :
    (t.declareAll ids type pos).diagnostics =
      (t₀.listFaults earlier ids).map fun fault => ⟨fault, pos⟩ := by
  induction ids generalizing t earlier with
  | nil => rfl
  | cons id rest ih =>
    have hnext : ∀ other, (t.declareTyped id type pos).table.get? other = (t₀.get? other).map
        fun y => if other ∈ earlier ++ [id] then y.onDeclareTyped type else y := by
      intro other
      rw [table_declareTyped, get?_modify, ht, Option.map_map]
      congr 1
      funext y
      have hfix : (y.onDeclareTyped type).onDeclareTyped type = y.onDeclareTyped type :=
        Symbol.onDeclareTyped_of_declared (y.declared_onDeclareTyped type)
      by_cases hid : other = id
      · by_cases hearlier : id ∈ earlier <;> simp [hid, hearlier, hfix]
      · simp [hid]
    rw [declareAll, Update.diagnostics_andThen, diagnostics_declareTyped,
      diagnostics_declare_element ht, ih hnext, listFaults_cons, List.map_append]

theorem diagnostics_declareAll (t : SymbolTable) (ids : List SymbolId) (type : Ty)
    (pos : Position) :
    (t.declareAll ids type pos).diagnostics =
      (t.listFaults [] ids).map fun fault => ⟨fault, pos⟩ :=
  diagnostics_declareAll_of_earlier pos (by simp)

/-! ## A list that is declared already -/

theorem declareAll_of_declared {t : SymbolTable} {ids : List SymbolId}
    (h : ∀ id ∈ ids, ∀ y, t.get? id = some y → y.declared = true) (type : Ty) (pos : Position) :
    (t.declareAll ids type pos).table = t := by
  refine congrArg SymbolTable.mk (List.ext_getElem? fun i => ?_)
  rw [getElem?_declareAll]
  cases hy : t.entries[i]? with
  | none => rfl
  | some y =>
    rw [Option.map_some]
    split
    · rename_i hi
      obtain ⟨id, hid, rfl⟩ := List.mem_map.mp hi
      rw [Symbol.onDeclareTyped_of_declared (h id hid y hy)]
    · rfl

theorem length_listFaults_of_declared {t : SymbolTable} {ids : List SymbolId}
    (h : ∀ id ∈ ids, ∀ y, t.get? id = some y → y.declared = true) (earlier : List SymbolId) :
    (t.listFaults earlier ids).length = ids.length := by
  induction ids generalizing earlier with
  | nil => rfl
  | cons id rest ih =>
    have hfault : (t.elementFault? earlier id).toList.length = 1 := by
      rw [elementFault?]
      cases hy : t.get? id with
      | none => rfl
      | some y => simp [h id List.mem_cons_self y hy]
    have hrest := ih (fun other hother => h other (List.mem_cons_of_mem id hother))
      (earlier ++ [id])
    rw [listFaults_cons, List.length_append, hfault, hrest, List.length_cons, Nat.add_comm]

theorem declared_of_mem_declareAll {t : SymbolTable} {ids : List SymbolId} {type : Ty}
    {pos : Position} {id : SymbolId} (hid : id ∈ ids) {y : Symbol}
    (hy : (t.declareAll ids type pos).table.get? id = some y) : y.declared = true := by
  rw [get?_declareAll] at hy
  obtain ⟨x, -, rfl⟩ := Option.map_eq_some_iff.mp hy
  rw [if_pos hid]
  exact x.declared_onDeclareTyped type

/-- A list reports each of its elements that is unknown, declared before the list or standing in it
before, in the order of the list.  Afterwards its symbols are declared.  Those that were fresh have
the zero value of their type, and a symbol that was declared or is not in the list is as it was.
The same list again, with any type, finds every element wrong and changes nothing. -/
theorem declareList_outcome (t : SymbolTable) (head : Node) (type : Ty) (pos : Position) :
    let ids := head.listSymbols
    let places := ids.map fun id => id.index.toNat
    let u := t.declareList head type pos
    u.diagnostics = (t.listFaults [] ids).map (fun fault => ⟨fault, pos⟩) ∧
      u.table.size = t.size ∧
      (∀ i y, t.entries[i]? = some y → ∃ y', u.table.entries[i]? = some y' ∧
        (i ∈ places → y'.declared = true ∧
          (y.declared = false → y'.value = some y'.type.zero)) ∧
        (i ∉ places ∨ y.declared = true → y' = y)) ∧
      ∀ type' pos',
        let again := u.table.declareList head type' pos'
        again.table = u.table ∧ again.diagnostics.length = ids.length := by
  intro ids places u
  have hdeclared : ∀ id ∈ ids, ∀ y, u.table.get? id = some y → y.declared = true :=
    fun id hid y hy => declared_of_mem_declareAll hid hy
  refine ⟨t.diagnostics_declareAll ids type pos, t.size_declareAll ids type pos, ?_, ?_⟩
  · intro i y hy
    have hentry : u.table.entries[i]? = some (if i ∈ places then y.onDeclareTyped type else y) := by
      have hplace := t.getElem?_declareAll ids type pos i
      rwa [hy, Option.map_some] at hplace
    refine ⟨_, hentry, fun hi => ?_, fun hkept => ?_⟩
    · rw [if_pos hi]
      refine ⟨y.declared_onDeclareTyped type, fun hd => ?_⟩
      rw [Symbol.onDeclareTyped_of_fresh hd]
    · by_cases hi : i ∈ places
      · rw [if_pos hi]
        exact Symbol.onDeclareTyped_of_declared (hkept.resolve_left (not_not_intro hi))
      · exact if_neg hi
  · intro type' pos' again
    refine ⟨declareAll_of_declared hdeclared type' pos', ?_⟩
    have hagain : again.diagnostics = _ := u.table.diagnostics_declareAll ids type' pos'
    rw [hagain, List.length_map, length_listFaults_of_declared hdeclared]

/-- The list `a, a` with a handle between that leads nowhere, in a table that also knows `b`. -/
theorem declareList_outcome_of_repeated_name :
    let pos := Position.null
    let t : SymbolTable := { entries := [{ name := "a" }, { name := "b" }] }
    let list := Node.listElement pos ⟨0⟩ <| some <|
      .listElement pos ⟨7⟩ <| some <| .listElement pos ⟨0⟩ none
    let u := t.declareList list .boolean pos
    u.diagnostics.map Diagnostic.fault = [.notDeclared "<unknown>", .alreadyDeclared "a"] ∧
      u.table.entries[1]? = some { name := "b" } ∧
      (u.table.declareList list .string pos).diagnostics.length = 3 := by
  intro pos t list u
  obtain ⟨hfaults, -, hsymbols, hagain⟩ := declareList_outcome t list .boolean pos
  obtain ⟨y', hy', -, hkept⟩ := hsymbols 1 { name := "b" } rfl
  have hother : 1 ∉ list.listSymbols.map fun id => id.index.toNat := by decide
  refine ⟨?_, ?_, ?_⟩
  · rw [hfaults]
    decide
  · rw [hy', hkept (.inl hother)]
  · rw [(hagain .string pos).2]
    rfl

/-! ## The type that a list gives -/

/-- A fresh symbol of a list is declared.  It gets the type of the list if it had no type before
and keeps the type that it had otherwise, so the list has its say exactly if nobody had given
another type before. -/
theorem declareList_types_fresh {t : SymbolTable} {head : Node} {id : SymbolId} {y : Symbol}
    (hid : id ∈ head.listSymbols) (hy : t.get? id = some y) (hd : y.declared = false)
    (type : Ty) (pos : Position) :
    ∃ y', (t.declareList head type pos).table.get? id = some y' ∧ y'.declared = true ∧
      y'.type = (if y.type = .undetermined then type else y.type) ∧
      y'.value = some y'.type.zero ∧
      (y'.type = type ∧ y'.value = some type.zero ↔ y.type = .undetermined ∨ y.type = type) := by
  have hget : (t.declareList head type pos).table.get? id = some (y.onDeclareTyped type) := by
    rw [declareList, get?_declareAll, hy, Option.map_some, if_pos hid]
  rw [Symbol.onDeclareTyped_of_fresh hd] at hget
  refine ⟨_, hget, rfl, rfl, rfl, ?_⟩
  by_cases ht : y.type = .undetermined
  · simp [ht]
  · simp only [ht, false_or, Option.some.injEq]
    exact ⟨And.left, fun h => ⟨h, congrArg Ty.zero h⟩⟩

/-- The symbol `x` is bound to strings and stands in a list of integers. -/
theorem declareList_types_fresh_of_bound_string :
    let pos := Position.null
    let t : SymbolTable := { entries := [{ name := "x", type := .string }] }
    let head := Node.listElement pos ⟨0⟩ none
    ⟨0⟩ ∈ head.listSymbols ∧ t.get? ⟨0⟩ = some { name := "x", type := .string } ∧
      ∃ y', (t.declareList head .integer pos).table.get? ⟨0⟩ = some y' ∧ y'.declared = true ∧
        y'.type = .string ∧ y'.value = some (.string "") := by
  intro pos t head
  have hid : ⟨0⟩ ∈ head.listSymbols := by decide
  have hy : t.get? ⟨0⟩ = some { name := "x", type := .string } := rfl
  obtain ⟨y', hget, hdeclared, htype, hvalue, -⟩ :=
    declareList_types_fresh hid hy rfl .integer pos
  have hstring : y'.type = .string := htype
  rw [hstring] at hvalue
  exact ⟨hid, hy, y', hget, hdeclared, hstring, hvalue⟩

end SymbolTable

namespace Session

/-- The variable `x` is bound to strings and then stands in a list of integers.  It is declared as a
string, and nothing is reported. -/
theorem declareList_keeps_earlier_type :
    let s := (start {} .null .zero).performAll
      [.intern "x", .bindType ⟨0⟩ .string, .listElement "x"]
    let head := Node.listElement s.position ⟨0⟩ none
    let u := s.symbols.declareList head .integer s.position
    ⟨0⟩ ∈ head.listSymbols ∧
      s.symbols.get? ⟨0⟩ = some { name := "x", type := .string } ∧
      u.diagnostics = [] ∧
      ¬ ∃ y', u.table.get? ⟨0⟩ = some y' ∧ y'.type = .integer ∧
        y'.value = some Ty.integer.zero := by
  intro s head u
  have hget : u.table.get? ⟨0⟩ =
      some { name := "x", declared := true, type := .string, value := some (.string "") } := by
    decide
  refine ⟨by decide, by decide, by decide, ?_⟩
  rintro ⟨y', hy', htype, -⟩
  rw [← Option.some.inj (hget.symm.trans hy')] at htype
  cases htype

end Session

end ImpFront
