/-
The life of a variable up to its first value: its name is used, it is declared, it is given a
type.

A variable is declared once.  Its type may change until it is both declared and typed, and is
settled from then on.
-/
import ImpFront.Checked
import ImpFront.Node.Basic

namespace ImpFront
namespace SymbolTable

/-- The handle of a name.  The first use of a name makes a symbol for it. -/
def intern (t : SymbolTable) (name : String) : Update SymbolId :=
  match t.lookup name with
  | some id => .pure t id
  | none =>
    let id := SymbolId.ofNat t.size
    { value := id, events := [.symbolCreated name id], table := t.push name }

/-- Declare a variable.  A second declaration is reported and changes nothing. -/
def declare (t : SymbolTable) (id : SymbolId) (pos : Position) : Update Unit :=
  match t.get? id with
  | none => .rejectUnknown t () pos
  | some symbol =>
    if symbol.declared then
      .reject t () ⟨.alreadyDeclared symbol.name, pos⟩
        [.duplicateDeclaration symbol.name pos.line]
    else
      { value := ()
        events := [.variableDeclared symbol.name]
        table := t.modify id Symbol.declare }

/-- Give a symbol a type, and say whether it has that type now.  A settled type stays. -/
def bindType (t : SymbolTable) (id : SymbolId) (type : Ty) : Update Bool :=
  match t.get? id with
  | none => .pure t false
  | some symbol =>
    if symbol.isSettled then
      { value := symbol.type = type
        events :=
          if symbol.type = type then [] else [.typeKept symbol.name symbol.type type]
        table := t }
    else
      { value := true
        events := [.typeBound symbol.name type]
        table := t.modify id (Symbol.bind · type) }

/-- Declare a variable and, if that went well, give it a type. -/
def declareTyped (t : SymbolTable) (id : SymbolId) (type : Ty) (pos : Position) :
    Update Unit :=
  let declared := t.declare id pos
  if declared.isClean then
    declared.andThen fun _ t => (t.bindType id type).map fun _ => ()
  else declared

/-- Declare variables one after the other, all with the same type. -/
def declareAll (t : SymbolTable) (ids : List SymbolId) (type : Ty) (pos : Position) :
    Update Unit :=
  match ids with
  | [] => .pure t ()
  | id :: rest => (t.declareTyped id type pos).andThen fun _ t => t.declareAll rest type pos

def declareList (t : SymbolTable) (head : Node) (type : Ty) (pos : Position) : Update Unit :=
  t.declareAll head.listSymbols type pos

end SymbolTable
end ImpFront
