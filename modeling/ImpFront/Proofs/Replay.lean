/-
The log of a session tells its table.

A reader of the log has levels, messages and fields, and no table.  `Entry.change?` reads off a
line what it tells about the symbols, which is something for three kinds of lines, and `replay?`
puts the changes together.  It fails where a line does not fit: where a new symbol has another
handle than the next one, or where a symbol is called that is not there.

`replay_steps` says that the events of a run, replayed from nothing, come to the rows of the
table at the end.  Events call symbols by their names and operations by their handles, so the
proof rests on the names being all different.
-/
import ImpFront.Proofs.Journal
import ImpFront.Proofs.Rows

namespace ImpFront

/-! ## Reading a log -/

/-- A line of a log. -/
structure Entry where
  level : Event.Level
  message : String
  fields : List (String × Event.Field)
  deriving DecidableEq, Repr

def Event.entry (e : Event) : Entry :=
  { level := e.level, message := e.message, fields := e.fields }

def Ty.ofName? (name : String) : Option Ty :=
  [undetermined, integer, boolean, string].find? fun type => type.name = name

/-- What a line can tell about the symbols of a table. -/
inductive Change where
  | created (name : String) (index : Nat)
  | declared (name : String)
  | typed (name : String) (type : Ty)
  deriving DecidableEq, Repr

/-- What a line tells, if it is of one of the three kinds. -/
def Entry.change? (entry : Entry) : Option Change :=
  match entry.level, entry.message, entry.fields with
  | .trace, "symbol created", [("name", .text name), ("id", .number index)] =>
    some (.created name index)
  | .debug, "variable declared", [("name", .text name)] => some (.declared name)
  | .trace, "type bound", [("name", .text name), ("symbol_type", .text type)] =>
    (Ty.ofName? type).map (.typed name)
  | _, _, _ => none

namespace Row

/-- The rows with the row of a name changed.  There has to be one. -/
def update? (rows : List Row) (name : String) (f : Row → Row) : Option (List Row) :=
  if name ∈ rows.map Row.name then
    some (rows.map fun r => if r.name = name then f r else r)
  else none

/-- A symbol is put behind the others if its number is the next one. -/
def change? (rows : List Row) : Change → Option (List Row)
  | .created name index =>
    if index = rows.length then some (rows ++ [{ name := name }]) else none
  | .declared name => update? rows name fun r => { r with declared := true }
  | .typed name type => update? rows name fun r => { r with type := type }

/-- The rows after what the lines of a log tell, one after the other. -/
def replay? (rows : List Row) (log : List Entry) : Option (List Row) :=
  (log.filterMap Entry.change?).foldlM change? rows

theorem replay?_append {rows middle : List Row} {first : List Entry}
    (h : replay? rows first = some middle) (second : List Entry) :
    replay? rows (first ++ second) = replay? middle second := by
  rw [replay?, List.filterMap_append, List.foldlM_append]
  rw [replay?] at h
  rw [h]
  rfl

end Row

/-! ## What the events tell -/

namespace Event

def change? : Event → Option Change
  | symbolCreated name id => some (.created name id.index.toNat)
  | variableDeclared name => some (.declared name)
  | typeBound name type => some (.typed name type)
  | _ => none

/-- The line of an event tells what the event tells. -/
theorem change?_entry (e : Event) : e.entry.change? = e.change? := by
  cases e with
  | typeBound name type => cases type <;> rfl
  | _ => rfl

end Event

namespace Row

theorem replay?_entries (rows : List Row) (events : List Event) :
    replay? rows (events.map Event.entry) = (events.filterMap Event.change?).foldlM change? rows := by
  rw [replay?, List.filterMap_map]
  congr 2
  funext e
  exact e.change?_entry

theorem replay?_of_silent {events : List Event} (h : ∀ e ∈ events, e.change? = none)
    (rows : List Row) : replay? rows (events.map Event.entry) = some rows := by
  rw [replay?_entries, List.filterMap_eq_nil_iff.mpr h]
  rfl

end Row

namespace Update

variable {α β : Type} {t : SymbolTable} {u : Update α}

/-- The events of an update tell what it does to the rows of a table. -/
def Recorded (t : SymbolTable) (u : Update α) : Prop :=
  Row.replay? t.rows (u.events.map Event.entry) = some u.table.rows

theorem recorded_pure (t : SymbolTable) (value : α) : (pure t value).Recorded t := rfl

theorem recorded_of_silent (hevents : ∀ e ∈ u.events, e.change? = none)
    (hrows : u.table.rows = t.rows) : u.Recorded t := by
  rw [Recorded, Row.replay?_of_silent hevents, hrows]

theorem Recorded.map (h : u.Recorded t) (f : α → β) : (u.map f).Recorded t := h

theorem Recorded.andThen {next : α → SymbolTable → Update β} (h : u.Recorded t)
    (hnext : (next u.value u.table).Recorded u.table) : (u.andThen next).Recorded t := by
  show Row.replay? t.rows ((u.events ++ (next u.value u.table).events).map Event.entry) = _
  rw [List.map_append, Row.replay?_append h]
  exact hnext

end Update

namespace SymbolTable

variable {t : SymbolTable}

/-- To change the row of a name is to change the symbol of a handle. -/
theorem update?_rows (hnames : t.names.Nodup) {id : SymbolId} {y : Symbol}
    (hy : t.get? id = some y) {f : Symbol → Symbol} {g : Row → Row} (h : (f y).row = g y.row) :
    Row.update? t.rows y.name g = some (t.modify id f).rows := by
  have hmem : y.name ∈ t.rows.map Row.name := by
    rw [← names_eq_rows]
    exact List.mem_map_of_mem (List.mem_of_getElem? hy)
  have hname : t.names[id.index.toNat]? = some y.name := by
    rw [names, List.getElem?_map]
    exact congrArg (Option.map Symbol.name) hy
  rw [Row.update?, if_pos hmem]
  refine congrArg some (List.ext_getElem? fun i => ?_)
  simp only [rows, modify, List.getElem?_map, List.getElem?_modify]
  cases hz : t.entries[i]? with
  | none => rfl
  | some z =>
    by_cases hi : id.index.toNat = i
    · subst hi
      have hyz : z = y := Option.some.inj (hz.symm.trans hy)
      simp [hyz, h]
    · have hother : t.names[i]? = some z.name := by rw [names, List.getElem?_map, hz]; rfl
      have hne : z.name ≠ y.name := by
        intro heq
        have hlt := (List.getElem?_eq_some_iff.mp hname).1
        exact hi ((List.getElem?_inj hlt hnames).mp (hname.trans (heq ▸ hother.symm)))
      simp [hi, hne]

theorem recorded_intern (hsize : t.size < UInt32.size) (name : String) :
    (t.intern name).Recorded t := by
  by_cases h : name ∈ t.names
  · obtain ⟨id, hid⟩ := exists_lookup h
    rw [intern_of_lookup hid]
    exact Update.recorded_pure t id
  · have hindex : (SymbolId.ofNat t.size).index.toNat = t.rows.length := by
      rw [SymbolId.toNat_ofNat hsize, length_rows]
    rw [intern_of_not_mem h, Update.Recorded, Row.replay?_entries, rows_push]
    simp [Event.change?, Row.change?, hindex]

theorem recorded_declare (hnames : t.names.Nodup) (id : SymbolId) (pos : Position) :
    (t.declare id pos).Recorded t := by
  cases hy : t.get? id with
  | none =>
    rw [declare_of_unknown hy]
    exact Update.recorded_of_silent (fun _ h => absurd h List.not_mem_nil) rfl
  | some y =>
    cases hd : y.declared with
    | true =>
      rw [declare_of_declared hy hd]
      exact Update.recorded_of_silent (by simp [Update.reject, Event.change?]) rfl
    | false =>
      have hupdate := update?_rows hnames hy (f := Symbol.declare) (g := Row.declare) rfl
      rw [declare_of_fresh hy hd, Update.Recorded, Row.replay?_entries, ← hupdate]
      exact bind_pure _

theorem recorded_bindType (hnames : t.names.Nodup) (id : SymbolId) (type : Ty) :
    (t.bindType id type).Recorded t := by
  cases hy : t.get? id with
  | none =>
    rw [bindType_of_unknown hy]
    exact Update.recorded_pure t false
  | some y =>
    cases hs : y.isSettled with
    | true =>
      rw [bindType_of_settled hy hs]
      refine Update.recorded_of_silent (fun e he => ?_) rfl
      simp only at he
      split at he
      · exact absurd he List.not_mem_nil
      · rw [List.mem_singleton.mp he]
        rfl
    | false =>
      have hupdate := update?_rows hnames hy (f := (Symbol.bind · type))
        (g := fun r => { r with type := type }) rfl
      rw [bindType_of_open hy hs, Update.Recorded, Row.replay?_entries, ← hupdate]
      exact bind_pure _

theorem recorded_declareTyped (hnames : t.names.Nodup) (id : SymbolId) (type : Ty)
    (pos : Position) : (t.declareTyped id type pos).Recorded t := by
  have hdeclare := recorded_declare hnames id pos
  cases hclean : (t.declare id pos).isClean with
  | true =>
    have hnext : (t.declare id pos).table.names.Nodup := by
      rwa [table_declare, names_modify Symbol.name_onDeclare]
    rw [declareTyped_of_clean hclean]
    exact hdeclare.andThen ((recorded_bindType hnext id type).map _)
  | false =>
    rw [declareTyped_of_not_clean hclean]
    exact hdeclare

theorem recorded_declareAll (hnames : t.names.Nodup) (ids : List SymbolId) (type : Ty)
    (pos : Position) : (t.declareAll ids type pos).Recorded t := by
  induction ids generalizing t with
  | nil => exact Update.recorded_pure t ()
  | cons id rest ih =>
    have hnext : (t.declareTyped id type pos).table.names.Nodup := by
      rwa [table_declareTyped, names_modify (Symbol.name_onDeclareTyped type)]
    exact (recorded_declareTyped hnames id type pos).andThen (ih hnext)

/-- No event of an assignment tells anything about the rows. -/
theorem recorded_assign (id : SymbolId) (expression : Node) (answer : Query → Value)
    (pos : Position) : (t.assign id expression answer pos).Recorded t := by
  refine Update.recorded_of_silent ?_ (rows_assign t id expression answer pos)
  cases hy : t.get? id with
  | none => simp [assign_of_unknown hy, Update.rejectUnknown, Update.reject]
  | some y =>
    cases hd : y.declared with
    | false => simp [assign_of_undeclared hy hd, Update.reject, Event.change?]
    | true =>
      by_cases ht : y.type = expression.typeIn t
      · rw [assign_of_match hy hd ht]
        split <;> simp [Event.change?]
      · simp [assign_of_mismatch hy hd ht, Update.reject]

end SymbolTable

namespace Session

theorem recorded_effect {s : Session} (hnames : s.symbols.names.Nodup)
    (hsize : s.symbols.size < UInt32.size) (op : Operation Node) :
    (s.effect op).Recorded s.symbols := by
  have hchecked : ∀ (operator : Operator) (operands : Operands),
      ∀ e ∈ (operands.check operator s.position).events, e.change? = none := by
    intro operator operands
    rw [Operands.check]
    split <;> simp [Event.change?]
  cases op with
  | intern name | listElement name | reference name | input name | forLoop name =>
    exact (SymbolTable.recorded_intern hsize name).map _
  | declare name =>
    exact (SymbolTable.recorded_intern hsize name).andThen
      (SymbolTable.recorded_declare (SymbolTable.nodup_names_intern hnames name) _ _)
  | bindType id type => exact (SymbolTable.recorded_bindType hnames id type).map _
  | declareList head type => exact SymbolTable.recorded_declareAll hnames _ type _
  | binary left op right => exact Update.recorded_of_silent (hchecked op _) rfl
  | unary op right => exact Update.recorded_of_silent (hchecked op _) rfl
  | assign name expression =>
    rw [effect]
    split
    · exact Update.recorded_of_silent (fun _ h => absurd h List.not_mem_nil) rfl
    · exact (SymbolTable.recorded_intern hsize name).andThen
        ((SymbolTable.recorded_assign _ expression _ _).map _)
  | _ => exact Update.recorded_pure s.symbols ()

theorem replay_performAll {s : Session} (hnames : s.symbols.names.Nodup)
    {ops : List (Operation Node)} (hsize : (s.performAll ops).symbols.size < UInt32.size) :
    Row.replay? s.symbols.rows (((s.steps ops).flatMap Step.events).map Event.entry) =
      some (s.performAll ops).symbols.rows := by
  induction ops generalizing s with
  | nil => rfl
  | cons op rest ih =>
    have hbefore : s.symbols.size < UInt32.size :=
      Nat.lt_of_le_of_lt (size_le_performAll s (op :: rest)) hsize
    have hop : Row.replay? s.symbols.rows ((Step.mk s op).events.map Event.entry) =
        some (s.perform op).2.symbols.rows := by
      rw [symbols_perform]
      exact recorded_effect hnames hbefore op
    rw [steps, List.flatMap_cons, List.map_append, Row.replay?_append hop]
    exact ih (nodup_names_perform hnames op) hsize

/-- What leaves a session in a step are the events of the operation and what the sink makes of
the diagnostics.  The events of a whole run, read line by line from nothing, give the names, the
declarations and the types of all symbols at its end, in their order. -/
theorem replay_steps (options : Options) (sink : Sink) (resolver : Resolver)
    (ops : List (Operation Node))
    (hsize : ((start options sink resolver).performAll ops).symbols.size < UInt32.size) :
    let s := start options sink resolver
    (∀ st ∈ s.steps ops, st.sent = st.events.map Output.event ++ st.forwarded) ∧
      Row.replay? [] (((s.steps ops).flatMap Step.events).map Event.entry) =
        some (s.performAll ops).symbols.rows := by
  intro s
  have hnames : s.symbols.names.Nodup := List.nodup_nil
  exact ⟨fun st _ => st.sent_eq, replay_performAll hnames hsize⟩

/-- The list `b, a` is declared as integers after `a` was declared as a string, and then `a` is
asked to be a boolean.  Both are refused for `a`, so the log tells nothing of them. -/
theorem replay_steps_of_refused_declarations :
    let s := start {} .log .zero
    let list := Node.listElement s.position ⟨1⟩ <| some <| .listElement s.position ⟨0⟩ none
    let ops : List (Operation Node) :=
      [.intern "a", .bindType ⟨0⟩ .string, .declare "a", .intern "b", .declareList list .integer,
        .bindType ⟨0⟩ .boolean]
    (s.performAll ops).symbols.size < UInt32.size ∧
      Row.replay? [] (((s.steps ops).flatMap Step.events).map Event.entry) =
        some [⟨"a", true, .string⟩, ⟨"b", true, .integer⟩] := by
  intro s list ops
  have hsize : (s.performAll ops).symbols.size < UInt32.size := by decide
  exact ⟨hsize, (replay_steps {} .log .zero ops hsize).2⟩

end Session
end ImpFront
