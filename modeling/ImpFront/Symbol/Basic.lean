/-
Symbols and their handles.

A symbol goes through its life in one direction: it is named, it is declared once, and from
the time it is both declared and typed its type is settled.
-/
import ImpFront.Value

namespace ImpFront

/-- A handle on a symbol of a table, 32 bits wide. -/
structure SymbolId where
  index : UInt32
  deriving DecidableEq, Repr

namespace SymbolId

/-- The handle on the `n`th symbol.  Handles wrap at `2 ^ 32`. -/
def ofNat (n : Nat) : SymbolId := { index := UInt32.ofNat n }

/-- The handle of a target that can never name a variable.  A table that keeps below
`2 ^ 32` symbols does not reach it. -/
def invalid : SymbolId := { index := 4294967295 }

end SymbolId

/-- A named slot.  It has a value from its declaration on. -/
structure Symbol where
  name : String
  declared : Bool := false
  type : Ty := .undetermined
  value : Option Value := none
  deriving DecidableEq, Repr

namespace Symbol

/-- The type is settled once the symbol is declared and typed. -/
def isSettled (s : Symbol) : Bool :=
  s.declared && s.type ≠ .undetermined

/-- Mark the symbol as declared and give it the zero value of its type. -/
def declare (s : Symbol) : Symbol :=
  { s with declared := true, value := some s.type.zero }

/-- Give the symbol a type.  A declared symbol whose value does not have that type gets the
zero value of the type, so that value and type keep matching. -/
def bind (s : Symbol) (type : Ty) : Symbol :=
  { s with
    type := type
    value :=
      if s.declared ∧ s.value.map Value.type ≠ some type then some type.zero else s.value }

def store (s : Symbol) (value : Value) : Symbol :=
  { s with value := some value }

end Symbol

end ImpFront
