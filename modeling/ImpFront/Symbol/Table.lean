/-
The table of the symbols of a compilation unit.

The table is the list of its symbols in the order in which their names were first used.  A
handle is the place of a symbol in that list and a name is found by search, so the table has
no second structure that could disagree with the list.
-/
import ImpFront.Symbol.Basic

namespace ImpFront

/-- The symbols of one compilation unit, in the order of their first use. -/
structure SymbolTable where
  entries : List Symbol := []
  deriving DecidableEq, Repr

namespace SymbolTable

/-- The name shown for a handle that the table does not hold. -/
def unknownName : String := "<unknown>"

def empty : SymbolTable := {}

def size (t : SymbolTable) : Nat := t.entries.length

def isEmpty (t : SymbolTable) : Bool := t.entries.isEmpty

def get? (t : SymbolTable) (id : SymbolId) : Option Symbol :=
  t.entries[id.index.toNat]?

/-- The handle of a name, if the name was used before. -/
def lookup (t : SymbolTable) (name : String) : Option SymbolId :=
  (t.entries.findIdx? fun s => s.name = name).map SymbolId.ofNat

/-- The current type of a symbol.  An unknown handle has no type. -/
def typeOf (t : SymbolTable) (id : SymbolId) : Ty :=
  match t.get? id with
  | some s => s.type
  | none => .undetermined

def nameOf (t : SymbolTable) (id : SymbolId) : String :=
  match t.get? id with
  | some s => s.name
  | none => unknownName

def symbols (t : SymbolTable) : List (SymbolId × Symbol) :=
  t.entries.mapIdx fun i s => (SymbolId.ofNat i, s)

def push (t : SymbolTable) (name : String) : SymbolTable :=
  { entries := t.entries ++ [{ name := name }] }

/-- The table with `f` applied to the symbol of a handle.  An unknown handle changes
nothing. -/
def modify (t : SymbolTable) (id : SymbolId) (f : Symbol → Symbol) : SymbolTable :=
  { entries := t.entries.modify id.index.toNat f }

/-- The symbols of `now` that have no equal symbol at the same place in `before`. -/
def changes : List (SymbolId × Symbol) → List Symbol → List (SymbolId × Symbol)
  | now, [] => now
  | [], _ :: _ => []
  | (id, s) :: now, old :: before =>
    if s = old then changes now before else (id, s) :: changes now before

/-- The symbols that are new since an earlier state of the table or differ from it. -/
def changedSince (t before : SymbolTable) : List (SymbolId × Symbol) :=
  changes t.symbols before.entries

/-! ## What the operations do to a handle -/

theorem size_push (t : SymbolTable) (name : String) : (t.push name).size = t.size + 1 := by
  simp [push, size]

theorem size_modify (t : SymbolTable) (id : SymbolId) (f : Symbol → Symbol) :
    (t.modify id f).size = t.size := by
  simp [modify, size]

theorem get?_modify_self (t : SymbolTable) (id : SymbolId) (f : Symbol → Symbol) :
    (t.modify id f).get? id = (t.get? id).map f := by
  simp [modify, get?]

theorem get?_modify_of_ne (t : SymbolTable) {id other : SymbolId} (f : Symbol → Symbol)
    (h : other ≠ id) : (t.modify id f).get? other = t.get? other := by
  have hne : id.index.toNat ≠ other.index.toNat := by
    intro e
    apply h
    cases id
    cases other
    exact congrArg SymbolId.mk (UInt32.toNat_inj.mp e.symm)
  simp [modify, get?, hne]

theorem get?_isSome_iff (t : SymbolTable) (id : SymbolId) :
    (t.get? id).isSome ↔ id.index.toNat < t.size := by
  simp [get?, size]

end SymbolTable
end ImpFront
