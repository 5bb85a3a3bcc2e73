/-
What the operations on a table do to its symbols.

After the first use of a name, a table only changes by `SymbolTable.modify`.  Each operation
applies to one handle a function on symbols that leaves a symbol alone wherever the operation
refuses it, and the lemmas `table_declare`, `table_bindType`, `getElem?_declareAll` and
`table_assign` name that function.  A property of tables is therefore a property of four
functions on one symbol, and no later proof looks into an operation again.

A name is found by search and a handle has 32 bits, so what a handle leads to is stated for
tables that have not outgrown the handles.
-/
import Mathlib.Data.List.Nodup
import ImpFront.Assignment
import ImpFront.Declaration

namespace ImpFront

/-! ## The functions on one symbol -/

namespace Symbol

/-- What a declaration makes of a symbol.  A second declaration changes nothing. -/
def onDeclare (y : Symbol) : Symbol :=
  if y.declared then y else y.declare

/-- What giving a type makes of a symbol.  A settled type stays. -/
def onBind (type : Ty) (y : Symbol) : Symbol :=
  if y.isSettled then y else y.bind type

/-- What a declaration with a type makes of a symbol.  A symbol that was declared before keeps
its type, and so does one that was given a type before it was declared. -/
def onDeclareTyped (type : Ty) (y : Symbol) : Symbol :=
  if y.declared then y else y.declare.onBind type

/-- What an assignment makes of a symbol, for an expression of the type `received` and the
answers that a resolver has ready for each type of a target. -/
def onAssign (received : Ty) (answer : Ty → Value) (y : Symbol) : Symbol :=
  if y.declared ∧ y.type = received ∧ (answer y.type).type = y.type then y.store (answer y.type)
  else y

theorem name_onDeclare (y : Symbol) : y.onDeclare.name = y.name := by
  unfold onDeclare
  split <;> rfl

theorem name_onBind (type : Ty) (y : Symbol) : (y.onBind type).name = y.name := by
  unfold onBind
  split <;> rfl

theorem name_onDeclareTyped (type : Ty) (y : Symbol) :
    (y.onDeclareTyped type).name = y.name := by
  unfold onDeclareTyped
  split
  · rfl
  · exact name_onBind type y.declare

theorem name_onAssign (received : Ty) (answer : Ty → Value) (y : Symbol) :
    (y.onAssign received answer).name = y.name := by
  unfold onAssign
  split <;> rfl

theorem declared_onDeclare (y : Symbol) : y.onDeclare.declared = true := by
  unfold onDeclare
  split
  · assumption
  · rfl

theorem declared_onBind (type : Ty) (y : Symbol) : (y.onBind type).declared = y.declared := by
  unfold onBind
  split <;> rfl

theorem declared_onDeclareTyped (type : Ty) (y : Symbol) :
    (y.onDeclareTyped type).declared = true := by
  unfold onDeclareTyped
  split
  · assumption
  · exact declared_onBind type y.declare

theorem declared_onAssign (received : Ty) (answer : Ty → Value) (y : Symbol) :
    (y.onAssign received answer).declared = y.declared := by
  unfold onAssign
  split <;> rfl

theorem type_onAssign (received : Ty) (answer : Ty → Value) (y : Symbol) :
    (y.onAssign received answer).type = y.type := by
  unfold onAssign
  split <;> rfl

theorem onDeclareTyped_of_declared {type : Ty} {y : Symbol} (h : y.declared = true) :
    y.onDeclareTyped type = y := by
  simp [onDeclareTyped, h]

end Symbol

/-! ## Changing the symbol of a handle -/

theorem SymbolId.toNat_index_injective :
    Function.Injective fun id : SymbolId => id.index.toNat := by
  intro id other h
  cases id
  cases other
  exact congrArg SymbolId.mk (UInt32.toNat_inj.mp h)

theorem SymbolId.toNat_ofNat {n : Nat} (h : n < UInt32.size) :
    (SymbolId.ofNat n).index.toNat = n :=
  UInt32.toNat_ofNat_of_lt' h

namespace SymbolTable

/-- The names of the symbols, in the order of their first use. -/
def names (t : SymbolTable) : List String := t.entries.map Symbol.name

/-- The first symbol of a name. -/
def find? (t : SymbolTable) (name : String) : Option Symbol :=
  t.entries.find? fun y => y.name = name

theorem get?_modify (t : SymbolTable) (id other : SymbolId) (f : Symbol → Symbol) :
    (t.modify id f).get? other = (t.get? other).map fun y => if other = id then f y else y := by
  by_cases h : other = id
  · subst h
    simp [get?_modify_self]
  · simp [get?_modify_of_ne t f h, h]

/-- Only what the function does to the symbol of the handle matters. -/
theorem modify_congr {t : SymbolTable} {id : SymbolId} {f g : Symbol → Symbol}
    (h : ∀ y, t.get? id = some y → f y = g y) : t.modify id f = t.modify id g := by
  unfold modify
  congr 1
  refine List.ext_getElem? fun i => ?_
  rw [List.getElem?_modify, List.getElem?_modify]
  by_cases hi : id.index.toNat = i
  · subst hi
    cases hy : t.entries[id.index.toNat]? with
    | none => rfl
    | some y => simp [h y hy]
  · simp [hi]

theorem modify_eq_self {t : SymbolTable} {id : SymbolId} {f : Symbol → Symbol}
    (h : ∀ y, t.get? id = some y → f y = y) : t.modify id f = t := by
  have hid : t.modify id f = t.modify id fun y => y := modify_congr h
  rw [hid, modify]
  exact congrArg SymbolTable.mk (List.modify_id id.index.toNat t.entries)

theorem modify_modify (t : SymbolTable) (id : SymbolId) (f g : Symbol → Symbol) :
    (t.modify id f).modify id g = t.modify id (g ∘ f) := by
  simp [modify, List.modify_modify_eq]

theorem entries_modify_of_get? {t : SymbolTable} {id : SymbolId} {y : Symbol}
    (hy : t.get? id = some y) (f : Symbol → Symbol) :
    (t.modify id f).entries = t.entries.set id.index.toNat (f y) := by
  have hentry : t.entries[id.index.toNat]? = some y := hy
  rw [modify, List.modify_eq_set_getElem?, hentry]
  rfl

theorem names_modify {t : SymbolTable} {id : SymbolId} {f : Symbol → Symbol}
    (h : ∀ y, (f y).name = y.name) : (t.modify id f).names = t.names := by
  unfold names modify
  refine List.ext_getElem? fun i => ?_
  simp only [List.getElem?_map, List.getElem?_modify]
  cases t.entries[i]? with
  | none => rfl
  | some y => by_cases hi : id.index.toNat = i <;> simp [hi, h]

/-- A property of all symbols is kept in the table if the new symbol of the handle has it. -/
theorem forall_entries_modify_at {P : Symbol → Prop} {t : SymbolTable} {id : SymbolId}
    {f : Symbol → Symbol} (ht : ∀ y ∈ t.entries, P y) (hf : ∀ y, t.get? id = some y → P (f y)) :
    ∀ y ∈ (t.modify id f).entries, P y := by
  intro y hy
  obtain ⟨i, hi⟩ := List.mem_iff_getElem?.mp hy
  simp only [modify, List.getElem?_modify, Option.map_eq_map, Option.map_eq_some_iff] at hi
  obtain ⟨x, hx, rfl⟩ := hi
  split
  · rename_i hindex
    subst hindex
    exact hf x hx
  · exact ht x (List.mem_of_getElem? hx)

/-- A property of symbols that the function keeps is kept in the table. -/
theorem forall_entries_modify {P : Symbol → Prop} {t : SymbolTable} {id : SymbolId}
    {f : Symbol → Symbol} (ht : ∀ y ∈ t.entries, P y) (hf : ∀ y, P y → P (f y)) :
    ∀ y ∈ (t.modify id f).entries, P y :=
  forall_entries_modify_at ht fun y hy => hf y (ht y (List.mem_of_getElem? hy))

/-! ## Names that are all different -/

/-- Whether the name is that of a declared variable. -/
def hasDeclared (t : SymbolTable) (name : String) : Bool :=
  (t.find? name).any Symbol.declared

theorem name_of_find? {t : SymbolTable} {name : String} {y : Symbol}
    (h : t.find? name = some y) : y.name = name := by
  simpa using List.find?_some h

theorem find?_eq_none_iff (t : SymbolTable) (name : String) :
    t.find? name = none ↔ name ∉ t.names := by
  simp [find?, names]

theorem find?_eq_some_iff {t : SymbolTable} (hnames : t.names.Nodup) {name : String}
    {y : Symbol} : t.find? name = some y ↔ y ∈ t.entries ∧ y.name = name := by
  constructor
  · exact fun h => ⟨List.mem_of_find?_eq_some h, name_of_find? h⟩
  · intro h
    obtain ⟨hy, hname⟩ := h
    cases h : t.find? name with
    | none =>
      rw [find?_eq_none_iff] at h
      exact absurd (hname ▸ List.mem_map_of_mem hy) h
    | some z =>
      have hz : z ∈ t.entries := List.mem_of_find?_eq_some h
      rw [List.inj_on_of_nodup_map hnames hz hy ((name_of_find? h).trans hname.symm)]

theorem find?_modify {t : SymbolTable} (hnames : t.names.Nodup) {id : SymbolId} {y : Symbol}
    (hy : t.get? id = some y) {f : Symbol → Symbol} (hf : ∀ y, (f y).name = y.name)
    (name : String) :
    (t.modify id f).find? name = if y.name = name then some (f y) else t.find? name := by
  have hmodified : (t.modify id f).names.Nodup := by rwa [names_modify hf]
  split
  · rename_i hname
    have hget : (t.modify id f).get? id = some (f y) := by
      rw [get?_modify_self, hy, Option.map_some]
    exact (find?_eq_some_iff hmodified).mpr ⟨List.mem_of_getElem? hget, (hf y).trans hname⟩
  · rename_i hname
    cases h : t.find? name with
    | none =>
      rw [find?_eq_none_iff] at h ⊢
      rwa [names_modify hf]
    | some z =>
      obtain ⟨hz, hzname⟩ := (find?_eq_some_iff hnames).mp h
      obtain ⟨i, hi⟩ := List.mem_iff_getElem?.mp hz
      have hne : id.index.toNat ≠ i := by
        rintro rfl
        have hyz : y = z := Option.some.inj (hy.symm.trans hi)
        exact hname (hyz ▸ hzname)
      refine (find?_eq_some_iff hmodified).mpr ⟨List.mem_of_getElem? (i := i) ?_, hzname⟩
      rw [modify, List.getElem?_modify, hi]
      simp [hne]

theorem hasDeclared_modify {t : SymbolTable} (hnames : t.names.Nodup) {id : SymbolId} {y : Symbol}
    (hy : t.get? id = some y) {f : Symbol → Symbol} (hf : ∀ y, (f y).name = y.name)
    (name : String) :
    (t.modify id f).hasDeclared name =
      if y.name = name then (f y).declared else t.hasDeclared name := by
  rw [hasDeclared, find?_modify hnames hy hf]
  split <;> rfl

theorem hasDeclared_modify_same {t : SymbolTable} (hnames : t.names.Nodup) {f : Symbol → Symbol}
    (hf : ∀ y, (f y).name = y.name) (hd : ∀ y, (f y).declared = y.declared) (id : SymbolId)
    (name : String) : (t.modify id f).hasDeclared name = t.hasDeclared name := by
  cases hy : t.get? id with
  | none => rw [modify_eq_self (by simp [hy])]
  | some y =>
    rw [hasDeclared_modify hnames hy hf]
    split
    · rename_i hname
      have hfind : t.find? name = some y :=
        (find?_eq_some_iff hnames).mpr ⟨List.mem_of_getElem? hy, hname⟩
      rw [hd, hasDeclared, hfind]
      rfl
    · rfl

/-! ## The first use of a name -/

theorem names_push (t : SymbolTable) (name : String) : (t.push name).names = t.names ++ [name] := by
  simp [names, push]

theorem lookup_eq_none_iff (t : SymbolTable) (name : String) :
    t.lookup name = none ↔ name ∉ t.names := by
  simp [lookup, names, List.findIdx?_eq_none_iff]

theorem exists_lookup {t : SymbolTable} {name : String} (h : name ∈ t.names) :
    ∃ id, t.lookup name = some id := by
  rw [← Option.ne_none_iff_exists', ne_eq, lookup_eq_none_iff]
  exact fun hnot => hnot h

theorem exists_find? {t : SymbolTable} {name : String} (h : name ∈ t.names) :
    ∃ y, t.find? name = some y := by
  rw [← Option.ne_none_iff_exists', ne_eq, find?_eq_none_iff]
  exact fun hnot => hnot h

/-- The handle of a name leads to the first symbol of that name. -/
theorem get?_of_lookup {t : SymbolTable} {name : String} {id : SymbolId}
    (hsize : t.size ≤ UInt32.size) (h : t.lookup name = some id) : t.get? id = t.find? name := by
  rw [lookup, Option.map_eq_some_iff] at h
  obtain ⟨i, hi, rfl⟩ := h
  obtain ⟨hlt, hname, hfirst⟩ := List.findIdx?_eq_some_iff_getElem.mp hi
  have hindex : (SymbolId.ofNat i).index.toNat = i :=
    SymbolId.toNat_ofNat (Nat.lt_of_lt_of_le hlt hsize)
  rw [get?, hindex, List.getElem?_eq_getElem hlt, eq_comm]
  exact List.find?_eq_some_iff_getElem.mpr ⟨hname, i, hlt, rfl, fun j hj => by simp [hfirst j hj]⟩

theorem intern_of_lookup {t : SymbolTable} {name : String} {id : SymbolId}
    (h : t.lookup name = some id) : t.intern name = .pure t id := by
  simp [intern, h]

theorem intern_of_not_mem {t : SymbolTable} {name : String} (h : name ∉ t.names) :
    t.intern name =
      { value := SymbolId.ofNat t.size
        events := [.symbolCreated name (SymbolId.ofNat t.size)]
        table := t.push name } := by
  simp [intern, (lookup_eq_none_iff t name).mpr h]

/-- A name is either known, and then nothing happens, or it is put at the end. -/
theorem table_intern (t : SymbolTable) (name : String) :
    (t.intern name).table = if name ∈ t.names then t else t.push name := by
  split
  · rename_i h
    obtain ⟨id, hid⟩ := exists_lookup h
    rw [intern_of_lookup hid]
    rfl
  · rename_i h
    rw [intern_of_not_mem h]

theorem diagnostics_intern (t : SymbolTable) (name : String) :
    (t.intern name).diagnostics = [] := by
  unfold intern
  split <;> rfl

theorem names_intern (t : SymbolTable) (name : String) :
    (t.intern name).table.names = if name ∈ t.names then t.names else t.names ++ [name] := by
  rw [table_intern]
  split
  · rfl
  · exact names_push t name

theorem nodup_names_intern {t : SymbolTable} (h : t.names.Nodup) (name : String) :
    (t.intern name).table.names.Nodup := by
  rw [names_intern]
  split
  · exact h
  · rename_i hname
    exact List.nodup_append.mpr ⟨h, List.nodup_singleton name,
      fun x hx y hy hxy => hname (List.mem_singleton.mp hy ▸ hxy ▸ hx)⟩

theorem size_le_intern (t : SymbolTable) (name : String) :
    t.size ≤ (t.intern name).table.size := by
  rw [table_intern]
  split
  · exact Nat.le_refl _
  · rw [size_push]
    exact Nat.le_add_right _ 1

/-- The symbol of a name that is used for the first time is not declared. -/
theorem hasDeclared_intern (t : SymbolTable) (first name : String) :
    (t.intern first).table.hasDeclared name = t.hasDeclared name := by
  rw [table_intern]
  split
  · rfl
  · rw [hasDeclared, hasDeclared, find?, push, List.find?_append, find?]
    cases t.entries.find? fun y => y.name = name with
    | some y => rfl
    | none => by_cases h : first = name <;> simp [h]

/-- The first use of a name leaves the symbols that are there alone. -/
theorem get?_intern_of_lt {t : SymbolTable} {id : SymbolId} (h : id.index.toNat < t.size)
    (name : String) : (t.intern name).table.get? id = t.get? id := by
  rw [table_intern]
  split
  · rfl
  · exact List.getElem?_append_left h

theorem get?_intern {t : SymbolTable} {id : SymbolId} {y : Symbol} (hy : t.get? id = some y)
    (name : String) : (t.intern name).table.get? id = some y := by
  rw [get?_intern_of_lt ((t.get?_isSome_iff id).mp (Option.isSome_of_eq_some hy)), hy]

/-- The handle of a name leads to some symbol, also where handles have wrapped. -/
theorem isSome_get?_intern_value (t : SymbolTable) (name : String) :
    ((t.intern name).table.get? (t.intern name).value).isSome := by
  have hwrap : ∀ n, (SymbolId.ofNat n).index.toNat ≤ n := fun n => Nat.mod_le n UInt32.size
  rw [get?_isSome_iff]
  by_cases h : name ∈ t.names
  · obtain ⟨id, hid⟩ := exists_lookup h
    obtain ⟨i, hi, rfl⟩ := Option.map_eq_some_iff.mp hid
    obtain ⟨hlt, -⟩ := List.findIdx?_eq_some_iff_getElem.mp hi
    rw [intern_of_lookup hid]
    exact Nat.lt_of_le_of_lt (hwrap i) hlt
  · rw [intern_of_not_mem h, size_push]
    exact Nat.lt_succ_of_le (hwrap t.size)

/-- A symbol without a type has the type of a handle that leads nowhere. -/
theorem typeOf_intern (t : SymbolTable) (name : String) (id : SymbolId) :
    (t.intern name).table.typeOf id = t.typeOf id := by
  rw [table_intern]
  split
  · rfl
  · rcases Nat.lt_trichotomy id.index.toNat t.entries.length with h | h | h
    · simp [typeOf, get?, push, List.getElem?_append_left h]
    · simp [typeOf, get?, push, h]
    · have hpast : (t.push name).entries.length ≤ id.index.toNat := by
        have hpush : (t.push name).entries.length = t.entries.length + 1 := size_push t name
        omega
      rw [typeOf, typeOf, get?, get?, List.getElem?_eq_none hpast,
        List.getElem?_eq_none (Nat.le_of_lt h)]

/-- The handle that the first use gives, or a later one finds, leads to the symbol of the
name. -/
theorem get?_intern_value {t : SymbolTable} {name : String}
    (hsize : (t.intern name).table.size < UInt32.size) :
    (t.intern name).table.get? (t.intern name).value =
      some ((t.find? name).getD { name := name }) := by
  have hlt : t.size < UInt32.size := Nat.lt_of_le_of_lt (size_le_intern t name) hsize
  by_cases h : name ∈ t.names
  · obtain ⟨id, hid⟩ := exists_lookup h
    obtain ⟨y, hy⟩ := exists_find? h
    rw [intern_of_lookup hid, hy]
    exact (get?_of_lookup (Nat.le_of_lt hlt) hid).trans hy
  · rw [intern_of_not_mem h, (find?_eq_none_iff t name).mpr h]
    rw [get?, SymbolId.toNat_ofNat hlt]
    simp [push, size]

theorem exists_get?_intern_value {t : SymbolTable} {name : String}
    (hsize : (t.intern name).table.size < UInt32.size) :
    ∃ y, (t.intern name).table.get? (t.intern name).value = some y ∧ y.name = name := by
  refine ⟨_, get?_intern_value hsize, ?_⟩
  cases h : t.find? name with
  | none => rfl
  | some y => exact name_of_find? h

/-- Only the handle of a name is found for it. -/
theorem intern_value_eq_iff {t : SymbolTable} {name : String} {id : SymbolId}
    (hsize : t.size < UInt32.size) (h : id.index.toNat < t.size) :
    (t.intern name).value = id ↔ t.lookup name = some id := by
  cases hlookup : t.lookup name with
  | some known => simp [intern_of_lookup hlookup, Update.pure]
  | none =>
    rw [intern_of_not_mem ((lookup_eq_none_iff t name).mp hlookup)]
    have hne : SymbolId.ofNat t.size ≠ id := by
      rintro rfl
      rw [SymbolId.toNat_ofNat hsize] at h
      exact Nat.lt_irrefl _ h
    simp [hne]

/-! ## Declarations -/

theorem declare_of_unknown {t : SymbolTable} {id : SymbolId} (h : t.get? id = none)
    (pos : Position) : t.declare id pos = .rejectUnknown t () pos := by
  simp [declare, h]

theorem declare_of_declared {t : SymbolTable} {id : SymbolId} {y : Symbol}
    (h : t.get? id = some y) (hd : y.declared = true) (pos : Position) :
    t.declare id pos =
      .reject t () ⟨.alreadyDeclared y.name, pos⟩ [.duplicateDeclaration y.name pos.line] := by
  simp [declare, h, hd]

theorem declare_of_fresh {t : SymbolTable} {id : SymbolId} {y : Symbol}
    (h : t.get? id = some y) (hd : y.declared = false) (pos : Position) :
    t.declare id pos =
      { value := ()
        events := [.variableDeclared y.name]
        table := t.modify id Symbol.declare } := by
  simp [declare, h, hd]

theorem table_declare (t : SymbolTable) (id : SymbolId) (pos : Position) :
    (t.declare id pos).table = t.modify id Symbol.onDeclare := by
  cases hy : t.get? id with
  | none =>
    rw [declare_of_unknown hy, modify_eq_self]
    · rfl
    · simp [hy]
  | some y =>
    cases hd : y.declared with
    | true =>
      rw [declare_of_declared hy hd, modify_eq_self]
      · rfl
      · simp [hy, Symbol.onDeclare, hd]
    | false =>
      rw [declare_of_fresh hy hd]
      exact modify_congr (by simp [hy, Symbol.onDeclare, hd])

theorem diagnostics_declare {t : SymbolTable} {id : SymbolId} {y : Symbol}
    (h : t.get? id = some y) (pos : Position) :
    (t.declare id pos).diagnostics =
      if y.declared then [⟨.alreadyDeclared y.name, pos⟩] else [] := by
  cases hd : y.declared with
  | true => rw [declare_of_declared h hd]; rfl
  | false => rw [declare_of_fresh h hd]; rfl

/-- A declaration goes well exactly for a symbol that is there and not declared. -/
theorem isClean_declare_iff (t : SymbolTable) (id : SymbolId) (pos : Position) :
    (t.declare id pos).isClean = true ↔ ∃ y, t.get? id = some y ∧ y.declared = false := by
  cases hy : t.get? id with
  | none => simp [declare_of_unknown hy, Update.rejectUnknown, Update.reject, Checked.isClean]
  | some y => simp [Checked.isClean, diagnostics_declare hy]

/-! ## Types -/

theorem bindType_of_unknown {t : SymbolTable} {id : SymbolId} (h : t.get? id = none)
    (type : Ty) : t.bindType id type = .pure t false := by
  simp [bindType, h]

theorem bindType_of_settled {t : SymbolTable} {id : SymbolId} {y : Symbol}
    (h : t.get? id = some y) (hs : y.isSettled = true) (type : Ty) :
    t.bindType id type =
      { value := y.type = type
        events := if y.type = type then [] else [.typeKept y.name y.type type]
        table := t } := by
  simp [bindType, h, hs]

theorem bindType_of_open {t : SymbolTable} {id : SymbolId} {y : Symbol}
    (h : t.get? id = some y) (hs : y.isSettled = false) (type : Ty) :
    t.bindType id type =
      { value := true
        events := [.typeBound y.name type]
        table := t.modify id (Symbol.bind · type) } := by
  simp [bindType, h, hs]

theorem table_bindType (t : SymbolTable) (id : SymbolId) (type : Ty) :
    (t.bindType id type).table = t.modify id (Symbol.onBind type) := by
  cases hy : t.get? id with
  | none =>
    rw [bindType_of_unknown hy, modify_eq_self]
    · rfl
    · simp [hy]
  | some y =>
    cases hs : y.isSettled with
    | true =>
      rw [bindType_of_settled hy hs, modify_eq_self]
      simp [hy, Symbol.onBind, hs]
    | false =>
      rw [bindType_of_open hy hs]
      exact modify_congr (by simp [hy, Symbol.onBind, hs])

theorem diagnostics_bindType (t : SymbolTable) (id : SymbolId) (type : Ty) :
    (t.bindType id type).diagnostics = [] := by
  cases hy : t.get? id with
  | none => rw [bindType_of_unknown hy]; rfl
  | some y =>
    cases hs : y.isSettled with
    | true => rw [bindType_of_settled hy hs]
    | false => rw [bindType_of_open hy hs]

/-! ## Identifier lists -/

theorem declareTyped_of_clean {t : SymbolTable} {id : SymbolId} {pos : Position}
    (h : (t.declare id pos).isClean = true) (type : Ty) :
    t.declareTyped id type pos =
      (t.declare id pos).andThen fun _ t => (t.bindType id type).map fun _ => () := by
  simp [declareTyped, h]

theorem declareTyped_of_not_clean {t : SymbolTable} {id : SymbolId} {pos : Position}
    (h : (t.declare id pos).isClean = false) (type : Ty) :
    t.declareTyped id type pos = t.declare id pos := by
  simp [declareTyped, h]

theorem table_declareTyped (t : SymbolTable) (id : SymbolId) (type : Ty) (pos : Position) :
    (t.declareTyped id type pos).table = t.modify id (Symbol.onDeclareTyped type) := by
  cases hclean : (t.declare id pos).isClean with
  | true =>
    obtain ⟨y, hy, hd⟩ := (isClean_declare_iff t id pos).mp hclean
    rw [declareTyped_of_clean hclean]
    show ((t.declare id pos).table.bindType id type).table = _
    rw [table_bindType, table_declare, modify_modify]
    exact modify_congr (by simp [hy, Symbol.onDeclareTyped, Symbol.onDeclare, hd])
  | false =>
    rw [declareTyped_of_not_clean hclean, table_declare]
    refine modify_congr fun y hy => ?_
    have hd : y.declared = true := by
      cases hd : y.declared with
      | true => rfl
      | false => simp [(isClean_declare_iff t id pos).mpr ⟨y, hy, hd⟩] at hclean
    simp [Symbol.onDeclareTyped, Symbol.onDeclare, hd]

theorem diagnostics_declareTyped (t : SymbolTable) (id : SymbolId) (type : Ty)
    (pos : Position) :
    (t.declareTyped id type pos).diagnostics = (t.declare id pos).diagnostics := by
  cases hclean : (t.declare id pos).isClean with
  | true =>
    rw [declareTyped_of_clean hclean]
    simp [Update.andThen, Update.map, diagnostics_bindType]
  | false => rw [declareTyped_of_not_clean hclean]

/-- The symbols of a list are declared at their first place in it.  At a later place they are
declared already and stay as they are. -/
theorem getElem?_declareAll (t : SymbolTable) (ids : List SymbolId) (type : Ty) (pos : Position)
    (i : Nat) :
    (t.declareAll ids type pos).table.entries[i]? =
      t.entries[i]?.map fun y =>
        if i ∈ ids.map fun id => id.index.toNat then y.onDeclareTyped type else y := by
  induction ids generalizing t with
  | nil => simp [declareAll, Update.pure]
  | cons head rest ih =>
    rw [declareAll, Update.table_andThen, ih, table_declareTyped, modify, List.getElem?_modify,
      Option.map_eq_map, Option.map_map]
    congr 1
    funext y
    by_cases hhead : i = head.index.toNat
    · simp [hhead, Symbol.onDeclareTyped_of_declared (y.declared_onDeclareTyped type)]
    · simp [hhead, Ne.symm hhead]

theorem get?_declareAll (t : SymbolTable) (ids : List SymbolId) (type : Ty) (pos : Position)
    (id : SymbolId) :
    (t.declareAll ids type pos).table.get? id =
      (t.get? id).map fun y => if id ∈ ids then y.onDeclareTyped type else y := by
  have hplace : (id.index.toNat ∈ ids.map fun other => other.index.toNat) ↔ id ∈ ids :=
    List.mem_map_of_injective SymbolId.toNat_index_injective
  simp only [get?, getElem?_declareAll, hplace]

theorem names_declareAll (t : SymbolTable) (ids : List SymbolId) (type : Ty) (pos : Position) :
    (t.declareAll ids type pos).table.names = t.names := by
  induction ids generalizing t with
  | nil => rfl
  | cons head rest ih =>
    show ((t.declareTyped head type pos).table.declareAll rest type pos).table.names = _
    rw [ih, table_declareTyped]
    exact names_modify (Symbol.name_onDeclareTyped type)

theorem forall_entries_declareAll {P : Symbol → Prop} {t : SymbolTable} {type : Ty}
    (ht : ∀ y ∈ t.entries, P y) (hP : ∀ y, P y → P (y.onDeclareTyped type))
    (ids : List SymbolId) (pos : Position) :
    ∀ y ∈ (t.declareAll ids type pos).table.entries, P y := by
  induction ids generalizing t with
  | nil => exact ht
  | cons head rest ih =>
    show ∀ y ∈ ((t.declareTyped head type pos).table.declareAll rest type pos).table.entries, P y
    apply ih
    rw [table_declareTyped]
    exact forall_entries_modify ht hP

/-! ## Assignments -/

theorem assign_of_unknown {t : SymbolTable} {id : SymbolId} (h : t.get? id = none)
    (expression : Node) (answer : Query → Value) (pos : Position) :
    t.assign id expression answer pos = .rejectUnknown t none pos := by
  simp [assign, h]

theorem assign_of_undeclared {t : SymbolTable} {id : SymbolId} {y : Symbol}
    (h : t.get? id = some y) (hd : y.declared = false) (expression : Node)
    (answer : Query → Value) (pos : Position) :
    t.assign id expression answer pos =
      .reject t none ⟨.notDeclared y.name, pos⟩ [.undeclaredAssignment y.name pos.line] := by
  simp [assign, h, hd]

theorem assign_of_mismatch {t : SymbolTable} {id : SymbolId} {y : Symbol} {expression : Node}
    (h : t.get? id = some y) (hd : y.declared = true) (ht : y.type ≠ expression.typeIn t)
    (answer : Query → Value) (pos : Position) :
    t.assign id expression answer pos =
      .reject t none
        ⟨.assignmentMismatch y.name y.type.name (expression.typeIn t).name, pos⟩ [] := by
  simp [assign, h, hd, ht]

/-- An assignment to which nothing stands against asks its question, and keeps the answer if
that has the type of the symbol. -/
theorem assign_of_match {t : SymbolTable} {id : SymbolId} {y : Symbol} {expression : Node}
    (h : t.get? id = some y) (hd : y.declared = true) (ht : y.type = expression.typeIn t)
    (answer : Query → Value) (pos : Position) :
    let query : Query := { expression := expression, table := t, target := y.type }
    t.assign id expression answer pos =
      if (answer query).type = y.type then
        { value := some query, table := t.modify id (Symbol.store · (answer query)) }
      else
        { value := some query
          events := [.answerDropped y.name y.type (answer query).type]
          table := t } := by
  simp [assign, h, hd, ht]

theorem value_assign {t : SymbolTable} {id : SymbolId} {y : Symbol} (h : t.get? id = some y)
    (expression : Node) (answer : Query → Value) (pos : Position) :
    (t.assign id expression answer pos).value =
      if y.declared = true ∧ y.type = expression.typeIn t then
        some { expression := expression, table := t, target := y.type }
      else none := by
  cases hd : y.declared with
  | false =>
    rw [assign_of_undeclared h hd]
    rfl
  | true =>
    by_cases ht : y.type = expression.typeIn t
    · rw [if_pos ⟨rfl, ht⟩, assign_of_match h hd ht]
      split <;> rfl
    · rw [assign_of_mismatch h hd ht, if_neg fun hmatch => ht hmatch.2]
      rfl

theorem diagnostics_assign {t : SymbolTable} {id : SymbolId} {y : Symbol}
    (h : t.get? id = some y) (expression : Node) (answer : Query → Value) (pos : Position) :
    (t.assign id expression answer pos).diagnostics =
      if y.declared = false then [⟨.notDeclared y.name, pos⟩]
      else if y.type ≠ expression.typeIn t then
        [⟨.assignmentMismatch y.name y.type.name (expression.typeIn t).name, pos⟩]
      else [] := by
  cases hd : y.declared with
  | false =>
    rw [assign_of_undeclared h hd]
    rfl
  | true =>
    by_cases ht : y.type = expression.typeIn t
    · rw [assign_of_match h hd ht]
      split <;> simp [ht]
    · rw [assign_of_mismatch h hd ht]
      simp [Update.reject, ht]

theorem table_assign (t : SymbolTable) (id : SymbolId) (expression : Node)
    (answer : Query → Value) (pos : Position) :
    (t.assign id expression answer pos).table =
      t.modify id (Symbol.onAssign (expression.typeIn t) fun target =>
        answer { expression := expression, table := t, target := target }) := by
  cases hy : t.get? id with
  | none =>
    rw [assign_of_unknown hy, modify_eq_self]
    · rfl
    · simp [hy]
  | some y =>
    cases hd : y.declared with
    | false =>
      rw [assign_of_undeclared hy hd, modify_eq_self]
      · rfl
      · simp [hy, Symbol.onAssign, hd]
    | true =>
      by_cases ht : y.type = expression.typeIn t
      · rw [assign_of_match hy hd ht]
        split
        · rename_i hv
          exact modify_congr (by simp [hy, Symbol.onAssign, hd, ← ht, hv])
        · rename_i hv
          rw [modify_eq_self]
          simp [hy, Symbol.onAssign, hd, ← ht, hv]
      · rw [assign_of_mismatch hy hd ht, modify_eq_self]
        · rfl
        · simp [hy, Symbol.onAssign, ht]

end SymbolTable

theorem Node.typeIn_intern (t : SymbolTable) (name : String) :
    ∀ n : Node, n.typeIn (t.intern name).table = n.typeIn t
  | reference _ _ symbol => SymbolTable.typeOf_intern t name symbol
  | parenthesized _ _ inner => inner.typeIn_intern t name
  | constant .. | binary .. | unary .. | assignment .. | print .. | input .. | forLoop ..
  | whileLoop .. | ifElse .. | root .. | listElement .. => rfl

end ImpFront
