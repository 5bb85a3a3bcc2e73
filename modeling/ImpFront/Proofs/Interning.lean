/-
Names, handles and places of a table under any sequence of its operations.

A name is put at the end of the table when it is first used and never moves, so the names of a
table are all different.  As long as the handles do not wrap, a name and a handle therefore find
each other (`lookup_eq_some_iff`).

A table finds a name by search.  `IndexedTable` keeps a map from names to handles beside the
list instead, and writes it at the one place where a name is new.  The map answers like the
search after every sequence of operations (`IndexedTable.agrees_callAll`), and this needs no
bound on the size of the table.
-/
import Mathlib.Data.List.Induction
import ImpFront.Proofs.Symbols

namespace ImpFront

/-- An operation on a table with its arguments.  A resolver with a memory can answer every call
in another way, so each assignment has its own answer. -/
inductive TableCall where
  | intern (name : String)
  | declare (id : SymbolId) (pos : Position)
  | bindType (id : SymbolId) (type : Ty)
  | declareList (head : Node) (type : Ty) (pos : Position)
  | assign (id : SymbolId) (expression : Node) (answer : Query → Value) (pos : Position)

namespace TableCall

/-- The name that the call uses, if it is one that uses a name. -/
def used? : TableCall → Option String
  | intern name => some name
  | _ => none

end TableCall

namespace SymbolTable

def call (t : SymbolTable) : TableCall → SymbolTable
  | .intern name => (t.intern name).table
  | .declare id pos => (t.declare id pos).table
  | .bindType id type => (t.bindType id type).table
  | .declareList head type pos => (t.declareList head type pos).table
  | .assign id expression answer pos => (t.assign id expression answer pos).table

def callAll (t : SymbolTable) (calls : List TableCall) : SymbolTable :=
  calls.foldl call t

theorem callAll_cons (t : SymbolTable) (c : TableCall) (rest : List TableCall) :
    t.callAll (c :: rest) = (t.call c).callAll rest := rfl

theorem callAll_append (t : SymbolTable) (first second : List TableCall) :
    t.callAll (first ++ second) = (t.callAll first).callAll second :=
  List.foldl_append

/-! ## The names of a table -/

/-- No operation but the first use of a name changes the names. -/
theorem names_call (t : SymbolTable) (c : TableCall) :
    (t.call c).names = t.names ++ c.used?.toList.removeAll t.names := by
  cases c with
  | intern name =>
    rw [call, names_intern, TableCall.used?]
    by_cases h : name ∈ t.names <;> simp [h, List.removeAll]
  | declare id pos =>
    rw [call, table_declare, names_modify Symbol.name_onDeclare]
    exact (List.append_nil _).symm
  | bindType id type =>
    rw [call, table_bindType, names_modify (Symbol.name_onBind type)]
    exact (List.append_nil _).symm
  | declareList head type pos =>
    rw [call, declareList, names_declareAll]
    exact (List.append_nil _).symm
  | assign id expression answer pos =>
    rw [call, table_assign, names_modify (Symbol.name_onAssign _ _)]
    exact (List.append_nil _).symm

/-- The names of a table are the names used so far, each at the place of its first use. -/
theorem names_callAll (calls : List TableCall) :
    (empty.callAll calls).names = (calls.filterMap TableCall.used?).eraseDups := by
  induction calls using List.reverseRecOn with
  | nil => rfl
  | append_singleton calls c ih =>
    have hone : [c].filterMap TableCall.used? = c.used?.toList := by
      cases h : c.used? <;> simp [h]
    have hsame : ∀ names : List String,
        (c.used?.toList.removeAll names).eraseDups = c.used?.toList.removeAll names := by
      intro names
      cases c.used? with
      | none => rfl
      | some name => by_cases h : name ∈ names <;> simp [h, List.removeAll, List.eraseDups_cons]
    rw [callAll_append, List.filterMap_append, List.eraseDups_append, hone]
    show ((empty.callAll calls).call c).names = _
    rw [names_call, ih, ← hsame]
    congr 2
    simp [List.removeAll]

theorem nodup_names_call {t : SymbolTable} (h : t.names.Nodup) (c : TableCall) :
    (t.call c).names.Nodup := by
  rw [names_call]
  cases c.used? with
  | none => simpa [List.removeAll] using h
  | some name =>
    by_cases hname : name ∈ t.names
    · simpa [List.removeAll, hname] using h
    · have hfresh : ∀ used ∈ t.names, used ≠ name := fun used hused heq => hname (heq ▸ hused)
      simpa [List.removeAll, hname, List.nodup_append] using ⟨h, hfresh⟩

theorem nodup_names_callAll {t : SymbolTable} (h : t.names.Nodup) (calls : List TableCall) :
    (t.callAll calls).names.Nodup := by
  induction calls generalizing t with
  | nil => exact h
  | cons c rest ih => exact ih (nodup_names_call h c)

/-! ## Names and handles -/

theorem lookup_eq (t : SymbolTable) (name : String) :
    t.lookup name = (t.names.findIdx? fun used => used = name).map SymbolId.ofNat := by
  rw [lookup, names, List.findIdx?_map]
  rfl

/-- Where a name is found depends on the names alone. -/
theorem lookup_congr {t t' : SymbolTable} (h : t.names = t'.names) (name : String) :
    t.lookup name = t'.lookup name := by
  rw [lookup_eq, lookup_eq, h]

theorem nameOf_eq {t : SymbolTable} {id : SymbolId} {y : Symbol} (h : t.get? id = some y) :
    t.nameOf id = y.name := by
  rw [nameOf, h]

theorem exists_get?_of_lt {t : SymbolTable} {id : SymbolId} (h : id.index.toNat < t.size) :
    ∃ y, t.get? id = some y :=
  Option.isSome_iff_exists.mp ((t.get?_isSome_iff id).mpr h)

theorem getElem?_names {t : SymbolTable} {id : SymbolId} (h : id.index.toNat < t.size) :
    t.names[id.index.toNat]? = some (t.nameOf id) := by
  obtain ⟨y, hy⟩ := exists_get?_of_lt h
  rw [nameOf_eq hy, names, List.getElem?_map]
  exact congrArg (Option.map Symbol.name) hy

/-- The name tells the handle. -/
theorem eq_of_nameOf_eq {t : SymbolTable} (hnames : t.names.Nodup) {first second : SymbolId}
    (hfirst : first.index.toNat < t.size) (hsecond : second.index.toNat < t.size)
    (h : t.nameOf first = t.nameOf second) : first = second := by
  have hlength : t.names.length = t.size := List.length_map _
  have hplaces : t.names[first.index.toNat]? = t.names[second.index.toNat]? := by
    rw [getElem?_names hfirst, getElem?_names hsecond, h]
  have hindex : first.index.toNat = second.index.toNat :=
    (List.getElem?_inj (hlength ▸ hfirst) hnames).mp hplaces
  cases first
  cases second
  exact congrArg SymbolId.mk (UInt32.toNat_inj.mp hindex)

theorem lookup_eq_some_iff {t : SymbolTable} (hnames : t.names.Nodup)
    (hsize : t.size ≤ UInt32.size) (name : String) (id : SymbolId) :
    t.lookup name = some id ↔ id.index.toNat < t.size ∧ t.nameOf id = name := by
  have hfound : ∀ found, t.lookup name = some found →
      found.index.toNat < t.size ∧ t.nameOf found = name := by
    intro found h
    have hmem : name ∈ t.names := by
      by_contra hnot
      rw [(lookup_eq_none_iff t name).mpr hnot] at h
      cases h
    obtain ⟨y, hy⟩ := exists_find? hmem
    have hget : t.get? found = some y := (get?_of_lookup hsize h).trans hy
    exact ⟨(t.get?_isSome_iff found).mp (Option.isSome_of_eq_some hget),
      (nameOf_eq hget).trans (name_of_find? hy)⟩
  constructor
  · exact hfound id
  · intro h
    obtain ⟨hlt, hname⟩ := h
    have hmem : name ∈ t.names := List.mem_of_getElem? (hname ▸ getElem?_names hlt)
    obtain ⟨found, hlookup⟩ := exists_lookup hmem
    obtain ⟨hfoundlt, hfoundname⟩ := hfound found hlookup
    rw [hlookup, eq_of_nameOf_eq hnames hfoundlt hlt (hfoundname.trans hname.symm)]

/-- A new name is found nowhere else, so no other name is found in another way than before. -/
theorem lookup_push_of_ne (t : SymbolTable) {name other : String} (h : other ≠ name) :
    (t.push name).lookup other = t.lookup other := by
  rw [lookup_eq, lookup_eq, names_push, List.findIdx?_append]
  simp [h.symm]

theorem lookup_push_self {t : SymbolTable} {name : String} (h : name ∉ t.names) :
    (t.push name).lookup name = some (SymbolId.ofNat t.size) := by
  have hnone : t.names.findIdx? (fun used => used = name) = none := by
    rw [List.findIdx?_eq_none_iff]
    intro used hused
    have hne : used ≠ name := fun heq => h (heq ▸ hused)
    simp [hne]
  rw [lookup_eq, names_push, List.findIdx?_append, hnone]
  simp [names, size]

/-- The reserved handle lies past the end of every table that it has not been given out in. -/
theorem get?_invalid {t : SymbolTable} (h : t.size < UInt32.size) : t.get? .invalid = none := by
  have hlast : t.size ≤ 4294967295 := Nat.le_of_lt_succ h
  exact List.getElem?_eq_none hlast

end SymbolTable

/-! ## A map beside the list -/

/-- A table that finds its names in a map. -/
structure IndexedTable where
  symbols : SymbolTable := .empty
  index : Std.HashMap String SymbolId := ∅

namespace IndexedTable

def intern (t : IndexedTable) (name : String) : SymbolId × IndexedTable :=
  match t.index[name]? with
  | some id => (id, t)
  | none =>
    let id := SymbolId.ofNat t.symbols.size
    (id, { symbols := t.symbols.push name, index := t.index.insert name id })

/-- All operations but the first use of a name leave the map alone. -/
def call (t : IndexedTable) : TableCall → IndexedTable
  | .intern name => (t.intern name).2
  | c => { t with symbols := t.symbols.call c }

def callAll (t : IndexedTable) (calls : List TableCall) : IndexedTable :=
  calls.foldl call t

/-- The map answers like a search in the list. -/
def Agrees (t : IndexedTable) : Prop :=
  ∀ name, t.index[name]? = t.symbols.lookup name

theorem agrees_empty : Agrees {} := fun _ => Std.HashMap.getElem?_empty

theorem intern_of_agrees {t : IndexedTable} (h : t.Agrees) (name : String) :
    (t.intern name).1 = (t.symbols.intern name).value ∧
      (t.intern name).2.symbols = (t.symbols.intern name).table ∧ (t.intern name).2.Agrees := by
  cases hlookup : t.symbols.lookup name with
  | some id =>
    have hindex : t.index[name]? = some id := (h name).trans hlookup
    have hintern : t.intern name = (id, t) := by simp [intern, hindex]
    rw [hintern, SymbolTable.intern_of_lookup hlookup]
    exact ⟨rfl, rfl, h⟩
  | none =>
    have hindex : t.index[name]? = none := (h name).trans hlookup
    have hfresh : name ∉ t.symbols.names := (SymbolTable.lookup_eq_none_iff ..).mp hlookup
    have hintern : t.intern name =
        (SymbolId.ofNat t.symbols.size,
          { symbols := t.symbols.push name
            index := t.index.insert name (SymbolId.ofNat t.symbols.size) }) := by
      simp [intern, hindex]
    rw [hintern, SymbolTable.intern_of_not_mem hfresh]
    refine ⟨rfl, rfl, fun other => ?_⟩
    show (t.index.insert name (SymbolId.ofNat t.symbols.size))[other]? =
      (t.symbols.push name).lookup other
    rw [Std.HashMap.getElem?_insert]
    by_cases hname : other = name
    · rw [hname, SymbolTable.lookup_push_self hfresh]
      simp
    · rw [SymbolTable.lookup_push_of_ne _ hname, ← h other]
      simp [Ne.symm hname]

theorem agrees_call {t : IndexedTable} (h : t.Agrees) (c : TableCall) :
    (t.call c).symbols = t.symbols.call c ∧ (t.call c).Agrees := by
  cases c with
  | intern name => exact (intern_of_agrees h name).2
  | declare | bindType | declareList | assign =>
    refine ⟨rfl, fun name => (h name).trans (SymbolTable.lookup_congr ?_ name)⟩
    exact ((SymbolTable.names_call ..).trans (List.append_nil _)).symm

theorem agrees_callAll {t : IndexedTable} (h : t.Agrees) (calls : List TableCall) :
    (t.callAll calls).symbols = t.symbols.callAll calls ∧ (t.callAll calls).Agrees := by
  induction calls generalizing t with
  | nil => exact ⟨rfl, h⟩
  | cons c rest ih =>
    obtain ⟨hsymbols, hnext⟩ := agrees_call h c
    obtain ⟨hrest, hagrees⟩ := ih hnext
    exact ⟨hrest.trans (hsymbols ▸ rfl), hagrees⟩

end IndexedTable

/-! ## What holds after every sequence of operations -/

namespace SymbolTable

/-- Names, handles and places of a table fit together. -/
structure FindsNames (t : SymbolTable) : Prop where
  /-- A name and its handle find each other. -/
  lookup_iff : ∀ name id, t.lookup name = some id ↔ id.index.toNat < t.size ∧ t.nameOf id = name
  nodup : t.names.Nodup
  /-- Using a known name gives its handle and does nothing. -/
  known : ∀ name id, t.lookup name = some id → t.intern name = .pure t id
  /-- Using a new name puts one symbol at the end, which is not declared, not typed and has no
  value.  The handle is the old size of the table. -/
  new : ∀ name, t.lookup name = none → t.size < UInt32.size →
    (t.intern name).value.index.toNat = t.size ∧
      (t.intern name).table.entries =
        t.entries ++ [{ name := name, declared := false, type := .undetermined, value := none }] ∧
      ∀ other, other ≠ name → (t.intern name).table.lookup other = t.lookup other
  /-- The symbols are listed with their handles, counted from zero. -/
  listed : t.symbols.map (fun entry => (entry.1.index.toNat, entry.2)) =
    t.entries.mapIdx fun i y => (i, y)

theorem findsNames {t : SymbolTable} (hnames : t.names.Nodup) (hsize : t.size ≤ UInt32.size) :
    t.FindsNames where
  lookup_iff := lookup_eq_some_iff hnames hsize
  nodup := hnames
  known _ _ := intern_of_lookup
  new name hnone hroom := by
    have hfresh : name ∉ t.names := (lookup_eq_none_iff t name).mp hnone
    rw [intern_of_not_mem hfresh]
    exact ⟨SymbolId.toNat_ofNat hroom, rfl, fun other h => lookup_push_of_ne t h⟩
  listed := by
    rw [symbols]
    refine List.ext_getElem (by simp) fun i hi _ => ?_
    have hlt : i < UInt32.size := by
      have hlength : i < t.entries.length := by simpa using hi
      exact Nat.lt_of_lt_of_le hlength hsize
    simp [SymbolId.toNat_ofNat hlt]

/-- Names and handles fit together after every sequence of operations that keeps the table within
the reach of the handles, and the names stand in the order in which they were first used.  No
symbol has the reserved handle while there is a handle left.  A map that is written when a name
is new finds the same handles, and a name used next gets the same handle through it. -/
theorem findsNames_callAll (calls : List TableCall)
    (hsize : (empty.callAll calls).size ≤ UInt32.size) :
    let t := empty.callAll calls
    let indexed := ({} : IndexedTable).callAll calls
    t.FindsNames ∧ t.names = (calls.filterMap TableCall.used?).eraseDups ∧
      (t.size < UInt32.size → t.get? .invalid = none) ∧
      indexed.symbols = t ∧ ∀ name, indexed.index[name]? = t.lookup name ∧
        (indexed.intern name).1 = (t.intern name).value := by
  intro t indexed
  have hnames : t.names.Nodup := nodup_names_callAll (t := empty) List.nodup_nil calls
  obtain ⟨hsymbols, hagrees⟩ := IndexedTable.agrees_callAll IndexedTable.agrees_empty calls
  refine ⟨findsNames hnames hsize, names_callAll calls, get?_invalid, hsymbols, fun name => ?_⟩
  have hfound : indexed.index[name]? = indexed.symbols.lookup name := hagrees name
  have hgiven : (indexed.intern name).1 = (indexed.symbols.intern name).value :=
    (IndexedTable.intern_of_agrees hagrees name).1
  rw [hsymbols] at hfound hgiven
  exact ⟨hfound, hgiven⟩

/-- Two names, of which one is used again after both symbols have changed. -/
theorem findsNames_after_second_use :
    let calls : List TableCall :=
      [.intern "a", .intern "b", .declare ⟨1⟩ .null, .bindType ⟨0⟩ .string, .intern "a",
        .declareList (.listElement .null ⟨0⟩ none) .integer .null]
    let t := empty.callAll calls
    t.size ≤ UInt32.size ∧ t.names = ["a", "b"] ∧ t.lookup "b" = some ⟨1⟩ ∧
      t.intern "b" = .pure t ⟨1⟩ ∧ t.get? .invalid = none ∧
      ((({} : IndexedTable).callAll calls).intern "b").1 = ⟨1⟩ := by
  intro calls t
  have hsize : t.size ≤ UInt32.size := by decide
  obtain ⟨hfinds, hnames, hinvalid, -, hindexed⟩ := findsNames_callAll calls hsize
  have hb : t.lookup "b" = some ⟨1⟩ := (hfinds.lookup_iff "b" ⟨1⟩).mpr (by decide)
  have hintern : t.intern "b" = .pure t ⟨1⟩ := hfinds.known "b" ⟨1⟩ hb
  refine ⟨hsize, hnames.trans (by decide), hb, hintern, hinvalid (by decide), ?_⟩
  rw [(hindexed "b").2, hintern]
  rfl

end SymbolTable
end ImpFront
