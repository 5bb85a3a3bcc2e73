/-
Results of operations that check what they do.

No operation fails.  It always gives back a value that can be used, and beside it whatever it
found wrong and whatever the log should hold.  A caller that wants to stop at the first fault
looks at the diagnostics.
-/
import ImpFront.Event

namespace ImpFront

/-- A value with the diagnostics and the events that came up while it was made, each in the
order in which it came up. -/
structure Checked (α : Type) where
  value : α
  diagnostics : List Diagnostic := []
  events : List Event := []

namespace Checked

def clean {α : Type} (value : α) : Checked α := { value := value }

def isClean {α : Type} (c : Checked α) : Bool := c.diagnostics.isEmpty

end Checked

/-- A checked value together with the symbol table that the operation leaves behind. -/
structure Update (α : Type) extends Checked α where
  table : SymbolTable

namespace Update

def pure {α : Type} (table : SymbolTable) (value : α) : Update α :=
  { value := value, table := table }

/-- A value beside one diagnostic.  The table stays as it is. -/
def reject {α : Type} (table : SymbolTable) (value : α) (diagnostic : Diagnostic)
    (events : List Event) : Update α :=
  { value := value, diagnostics := [diagnostic], events := events, table := table }

/-- A handle that the table does not hold counts as a variable that nobody declared. -/
def rejectUnknown {α : Type} (table : SymbolTable) (value : α) (pos : Position) : Update α :=
  .reject table value ⟨.notDeclared SymbolTable.unknownName, pos⟩ []

def map {α β : Type} (f : α → β) (u : Update α) : Update β :=
  { value := f u.value
    diagnostics := u.diagnostics
    events := u.events
    table := u.table }

/-- Go on with the value and the table of an operation.  The findings of the first operation
come first. -/
def andThen {α β : Type} (u : Update α) (next : α → SymbolTable → Update β) : Update β :=
  let v := next u.value u.table
  { value := v.value
    diagnostics := u.diagnostics ++ v.diagnostics
    events := u.events ++ v.events
    table := v.table }

variable {α β : Type}

@[simp] theorem table_map (f : α → β) (u : Update α) : (u.map f).table = u.table := rfl

@[simp] theorem diagnostics_map (f : α → β) (u : Update α) :
    (u.map f).diagnostics = u.diagnostics := rfl

@[simp] theorem table_andThen (u : Update α) (next : α → SymbolTable → Update β) :
    (u.andThen next).table = (next u.value u.table).table := rfl

@[simp] theorem diagnostics_andThen (u : Update α) (next : α → SymbolTable → Update β) :
    (u.andThen next).diagnostics =
      u.diagnostics ++ (next u.value u.table).diagnostics := rfl

end Update
end ImpFront
