/-
Tables without the values of their symbols.

The row of a symbol says how it is called, whether it is declared and which type it has.  An
operation changes the rows of a table by rules of their own, in which no value occurs
(`rows_declare`, `rows_bindType`, `rows_assign`), so two tables with the same rows keep the same
rows, whatever their symbols hold.
-/
import ImpFront.Proofs.Interning

namespace ImpFront

/-- A symbol without its value. -/
structure Row where
  name : String
  declared : Bool := false
  type : Ty := .undetermined
  deriving DecidableEq, Repr

namespace Row

def declare (r : Row) : Row := { r with declared := true }

/-- A type that is settled stays. -/
def bind (type : Ty) (r : Row) : Row :=
  if r.declared && r.type ≠ .undetermined then r else { r with type := type }

end Row

namespace Symbol

def row (y : Symbol) : Row := { name := y.name, declared := y.declared, type := y.type }

@[simp] theorem name_row (y : Symbol) : y.row.name = y.name := rfl

theorem row_eq_iff {y y' : Symbol} :
    y.row = y'.row ↔ y.name = y'.name ∧ y.declared = y'.declared ∧ y.type = y'.type := by
  simp [row]

theorem row_onDeclare (y : Symbol) : y.onDeclare.row = y.row.declare := by
  unfold onDeclare
  split
  · rename_i h
    simp [row, Row.declare, h]
  · rfl

theorem row_onBind (type : Ty) (y : Symbol) : (y.onBind type).row = y.row.bind type := by
  cases hs : y.isSettled with
  | true =>
    rw [onBind, if_pos hs, Row.bind]
    exact (if_pos hs).symm
  | false =>
    have hopen : ¬ (y.isSettled = true) := by simp [hs]
    rw [onBind, if_neg hopen, Row.bind]
    exact (if_neg hopen).symm

theorem row_onAssign (received : Ty) (answer : Ty → Value) (y : Symbol) :
    (y.onAssign received answer).row = y.row := by
  unfold onAssign
  split <;> rfl

end Symbol

namespace SymbolTable

/-- The table without the values. -/
def rows (t : SymbolTable) : List Row := t.entries.map Symbol.row

theorem names_eq_rows (t : SymbolTable) : t.names = t.rows.map Row.name := by
  rw [rows, List.map_map]
  rfl

theorem length_rows (t : SymbolTable) : t.rows.length = t.size := List.length_map _

theorem getElem?_rows (t : SymbolTable) (id : SymbolId) :
    t.rows[id.index.toNat]? = (t.get? id).map Symbol.row := by
  rw [rows, List.getElem?_map]
  rfl

/-! ## Rows after an operation -/

theorem rows_modify {f : Symbol → Symbol} {g : Row → Row} (h : ∀ y, (f y).row = g y.row)
    (t : SymbolTable) (id : SymbolId) :
    (t.modify id f).rows = t.rows.modify id.index.toNat g := by
  unfold rows modify
  refine List.ext_getElem? fun i => ?_
  simp only [List.getElem?_map, List.getElem?_modify]
  cases t.entries[i]? with
  | none => rfl
  | some y => by_cases hi : id.index.toNat = i <;> simp [hi, h]

theorem rows_push (t : SymbolTable) (name : String) :
    (t.push name).rows = t.rows ++ [{ name := name }] := by
  simp [rows, push, Symbol.row]

theorem rows_intern (t : SymbolTable) (name : String) :
    (t.intern name).table.rows =
      if name ∈ t.names then t.rows else t.rows ++ [{ name := name }] := by
  rw [table_intern]
  split
  · rfl
  · exact rows_push t name

theorem rows_declare (t : SymbolTable) (id : SymbolId) (pos : Position) :
    (t.declare id pos).table.rows = t.rows.modify id.index.toNat Row.declare := by
  rw [table_declare, rows_modify Symbol.row_onDeclare]

theorem rows_bindType (t : SymbolTable) (id : SymbolId) (type : Ty) :
    (t.bindType id type).table.rows = t.rows.modify id.index.toNat (Row.bind type) := by
  rw [table_bindType, rows_modify (Symbol.row_onBind type)]

/-- An assignment changes no row. -/
theorem rows_assign (t : SymbolTable) (id : SymbolId) (expression : Node)
    (answer : Query → Value) (pos : Position) :
    (t.assign id expression answer pos).table.rows = t.rows := by
  rw [table_assign, rows_modify (g := fun r => r) (Symbol.row_onAssign _ _)]
  exact List.modify_id _ _

end SymbolTable
end ImpFront
