/-
What leaves a session.

Everything that leaves a session stands in its journal.  A step adds the events of its operation
and then what the sink makes of the diagnostics of the step, and nothing else (`sent_eq`).  What
an operation finds is found at the position of the session, and no event of its own is an error
(`foundAt_effect`), so that in the journal the diagnostics can be told apart from the rest.

The theorem this file exists for is `shown_performAll`: with each of the three sinks that pass
diagnostics on, what the sink sent is the list of the diagnostics, form by form, and each
diagnostic stands where the session was last moved to before it came up.
-/
import Mathlib.Data.List.Forall2
import Mathlib.Data.List.Induction
import ImpFront.Proofs.Run

namespace ImpFront

/-! ## The journal over a step -/

namespace Step

/-- What leaves the session in the step. -/
def sent (st : Step) : List Output := st.after.journal.drop st.before.journal.length

/-- The events of the operation itself. -/
def events (st : Step) : List Event := (st.before.effect st.operation).events

/-- What the sink makes of the diagnostics of the step. -/
def forwarded (st : Step) : List Output :=
  let reports := List.map fun d : Diagnostic => d.report st.before.options.highlight
  st.before.sink.emitAll (reports st.before.diagnostics) (reports st.raised)

end Step

theorem Session.journal_perform (s : Session) (op : Operation Node) :
    (s.perform op).2.journal =
      s.journal ++ s.outputs (s.effect op).events (s.effect op).diagnostics := by
  obtain ⟨queries, h⟩ := s.exists_perform_eq op
  exact congrArg Session.journal h

theorem Step.sent_eq (st : Step) : st.sent = st.events.map Output.event ++ st.forwarded := by
  rw [sent, after, Session.journal_perform, List.drop_left, forwarded, Session.raised_eq]
  rfl

/-! ## What an operation finds -/

/-- What an update finds wrong is at a position, and nothing that it logs is an error. -/
structure Checked.FoundAt {α : Type} (c : Checked α) (pos : Position) : Prop where
  diagnostics : ∀ d ∈ c.diagnostics, d.position = pos
  events : ∀ e ∈ c.events, e.level ≠ .error

namespace Update

variable {α : Type} {pos : Position}

theorem foundAt_pure (t : SymbolTable) (value : α) : (pure t value).FoundAt pos :=
  ⟨fun _ h => absurd h List.not_mem_nil, fun _ h => absurd h List.not_mem_nil⟩

theorem foundAt_reject {t : SymbolTable} {value : α} {fault : Fault} {events : List Event}
    (h : ∀ e ∈ events, e.level ≠ .error) : (reject t value ⟨fault, pos⟩ events).FoundAt pos where
  diagnostics _ hd := by rw [List.mem_singleton.mp hd]
  events := h

end Update

namespace Checked.FoundAt

variable {α β : Type} {pos : Position} {u : Update α}

theorem map (f : α → β) (h : u.FoundAt pos) : (u.map f).FoundAt pos :=
  ⟨h.diagnostics, h.events⟩

theorem andThen {next : α → SymbolTable → Update β} (h : u.FoundAt pos)
    (hnext : ∀ x t, (next x t).FoundAt pos) : (u.andThen next).FoundAt pos where
  diagnostics d hd := (List.mem_append.mp hd).elim (h.diagnostics d) ((hnext _ _).diagnostics d)
  events e he := (List.mem_append.mp he).elim (h.events e) ((hnext _ _).events e)

end Checked.FoundAt

namespace SymbolTable

variable {t : SymbolTable} {id : SymbolId} {pos : Position}

theorem foundAt_intern {name : String} : (t.intern name).FoundAt pos := by
  unfold intern
  split
  · exact Update.foundAt_pure t _
  · exact ⟨fun _ h => absurd h List.not_mem_nil, by simp [Event.level]⟩

theorem foundAt_declare : (t.declare id pos).FoundAt pos := by
  unfold declare
  split
  · exact Update.foundAt_reject (fun _ h => absurd h List.not_mem_nil)
  · split
    · exact Update.foundAt_reject (by simp [Event.level])
    · exact ⟨fun _ h => absurd h List.not_mem_nil, by simp [Event.level]⟩

theorem foundAt_bindType {type : Ty} : (t.bindType id type).FoundAt pos where
  diagnostics _ hd := by simp [diagnostics_bindType] at hd
  events := by
    unfold bindType
    split
    · exact fun _ h => absurd h List.not_mem_nil
    · split
      · intro e he
        split at he
        · exact absurd he List.not_mem_nil
        · rw [List.mem_singleton.mp he]
          simp [Event.level]
      · simp [Event.level]

theorem foundAt_declareTyped {type : Ty} : (t.declareTyped id type pos).FoundAt pos := by
  cases hclean : (t.declare id pos).isClean with
  | true =>
    rw [declareTyped_of_clean hclean]
    exact foundAt_declare.andThen fun _ _ => foundAt_bindType.map _
  | false =>
    rw [declareTyped_of_not_clean hclean]
    exact foundAt_declare

theorem foundAt_declareAll {ids : List SymbolId} {type : Ty} :
    (t.declareAll ids type pos).FoundAt pos := by
  induction ids generalizing t with
  | nil => exact Update.foundAt_pure t ()
  | cons id rest ih => exact foundAt_declareTyped.andThen fun _ _ => ih

theorem foundAt_assign {expression : Node} {answer : Query → Value} :
    (t.assign id expression answer pos).FoundAt pos := by
  cases hy : t.get? id with
  | none =>
    rw [assign_of_unknown hy]
    exact Update.foundAt_reject fun _ h => absurd h List.not_mem_nil
  | some y =>
    cases hd : y.declared with
    | false =>
      rw [assign_of_undeclared hy hd]
      exact Update.foundAt_reject (by simp [Event.level])
    | true =>
      by_cases ht : y.type = expression.typeIn t
      · rw [assign_of_match hy hd ht]
        split
        · exact ⟨fun _ h => absurd h List.not_mem_nil, fun _ h => absurd h List.not_mem_nil⟩
        · exact ⟨fun _ h => absurd h List.not_mem_nil, by simp [Event.level]⟩
      · rw [assign_of_mismatch hy hd ht]
        exact Update.foundAt_reject fun _ h => absurd h List.not_mem_nil

end SymbolTable

theorem Operands.foundAt_check {op : Operator} {operands : Operands} {pos : Position} :
    (operands.check op pos).FoundAt pos where
  diagnostics d hd := by
    obtain ⟨fault, -, rfl⟩ := List.mem_map.mp hd
    rfl
  events := by
    rw [check]
    split
    · exact fun _ h => absurd h List.not_mem_nil
    · simp [Event.level]

namespace Session

theorem foundAt_effect (s : Session) (op : Operation Node) : (s.effect op).FoundAt s.position := by
  cases op with
  | intern | listElement | reference | input | forLoop => exact SymbolTable.foundAt_intern.map _
  | declare name =>
    exact SymbolTable.foundAt_intern.andThen fun _ _ => SymbolTable.foundAt_declare
  | bindType id type => exact SymbolTable.foundAt_bindType.map _
  | declareList head type => exact SymbolTable.foundAt_declareAll
  | binary left op right => exact Operands.foundAt_check
  | unary op right => exact Operands.foundAt_check
  | assign name expression =>
    rw [effect]
    split
    · rename_i diagnostic h
      obtain ⟨fault, -, rfl⟩ := Option.map_eq_some_iff.mp h
      exact Update.foundAt_reject fun _ h => absurd h List.not_mem_nil
    · exact SymbolTable.foundAt_intern.andThen fun _ _ => SymbolTable.foundAt_assign.map _
  | _ => exact Update.foundAt_pure s.symbols ()

end Session

/-! ## What stays and what moves -/

namespace Operation

/-- The line and the column after operations at the start of a source text: those of the last
move, or the first line and column zero. -/
def lastPlace (ops : List (Operation Node)) : UInt32 × UInt32 :=
  (ops.filterMap move?).getLast?.getD (1, 0)

end Operation

namespace Session

/-- No operation chooses another sink or other options. -/
theorem options_perform (s : Session) (op : Operation Node) :
    (s.perform op).2.options = s.options ∧ (s.perform op).2.sink = s.sink := by
  obtain ⟨queries, h⟩ := s.exists_perform_eq op
  rw [h]
  exact ⟨rfl, rfl⟩

theorem performAll_append_singleton (s : Session) (ops : List (Operation Node))
    (op : Operation Node) : s.performAll (ops ++ [op]) = ((s.performAll ops).perform op).2 :=
  performAll_append s ops [op]

theorem position_performAll (options : Options) (sink : Sink) (resolver : Resolver)
    (ops : List (Operation Node)) :
    ((start options sink resolver).performAll ops).position =
      { line := (Operation.lastPlace ops).1
        column := (Operation.lastPlace ops).2
        file := options.sourceName } := by
  induction ops using List.reverseRecOn with
  | nil => rfl
  | append_singleton ops op ih =>
    rw [performAll_append_singleton, position_perform, ih, Operation.place]
    cases h : op.move? with
    | none => simp [Operation.lastPlace, h]
    | some place => simp [Operation.lastPlace, h]

end Session

/-! ## Sinks that pass diagnostics on -/

/-- Whether the output shows a diagnostic, and is not an event of an operation. -/
def Output.isDiagnostic : Output → Bool
  | .event e => e.level = .error
  | .report _ | .errorText _ => true

/-- The sinks that pass on every diagnostic. -/
inductive Channel where
  | memory
  | errorStream
  | log
  deriving DecidableEq, Repr

namespace Channel

def sink : Channel → Sink
  | memory => .memory
  | errorStream => .errorStream
  | log => .log

/-- What the sink makes of one report. -/
def form : Channel → Report → Output
  | memory, report => .report report
  | errorStream, report => .errorText (Sink.errorLine report)
  | log, report => .event (.diagnosed report)

/-- Whether the output is the form of the diagnostic: a report with its file, line, column and
message, these on one line of text, or one event at the level of errors with the message and
the rest as fields. -/
def Shows (channel : Channel) (highlight : Bool) (d : Diagnostic) (output : Output) : Prop :=
  match channel with
  | memory =>
    output = .report ⟨d.position.file, d.position.line, d.position.column, d.message highlight⟩
  | errorStream =>
    output = .errorText (d.position.display ++ ": error: " ++ d.message highlight ++ "\n")
  | log => ∃ e, output = .event e ∧ e.level = .error ∧ e.message = d.message highlight ∧
      e.fields = [("file", .text d.position.file), ("line", .number d.position.line.toNat),
        ("column", .number d.position.column.toNat)]

theorem shows_form (channel : Channel) (highlight : Bool) (d : Diagnostic) :
    channel.Shows highlight d (channel.form (d.report highlight)) := by
  cases channel with
  | memory => rfl
  | errorStream => rfl
  | log => exact ⟨.diagnosed (d.report highlight), rfl, rfl, rfl, rfl⟩

theorem isDiagnostic_form (channel : Channel) (report : Report) :
    (channel.form report).isDiagnostic = true := by
  cases channel <;> rfl

theorem emitAll_sink (channel : Channel) (earlier reports : List Report) :
    channel.sink.emitAll earlier reports = reports.map channel.form := by
  induction reports generalizing earlier with
  | nil => rfl
  | cons report rest ih =>
    rw [Sink.emitAll, ih, List.map_cons]
    cases channel <;> rfl

end Channel

namespace Session

/-- What the sink of a session sent. -/
def shown (s : Session) : List Output := s.journal.filter Output.isDiagnostic

theorem shown_perform {s : Session} {channel : Channel} (hsink : s.sink = channel.sink)
    (op : Operation Node) :
    (s.perform op).2.shown =
      s.shown ++ (s.effect op).diagnostics.map fun d =>
        channel.form (d.report s.options.highlight) := by
  have hevents : ((s.effect op).events.map Output.event).filter Output.isDiagnostic = [] := by
    refine List.filter_eq_nil_iff.mpr fun output houtput => ?_
    obtain ⟨e, he, rfl⟩ := List.mem_map.mp houtput
    simp [Output.isDiagnostic, (foundAt_effect s op).events e he]
  have hforms : ∀ reports : List Report,
      (reports.map channel.form).filter Output.isDiagnostic = reports.map channel.form := by
    intro reports
    refine List.filter_eq_self.mpr fun output houtput => ?_
    obtain ⟨report, -, rfl⟩ := List.mem_map.mp houtput
    exact channel.isDiagnostic_form report
  rw [shown, journal_perform, outputs, List.filter_append, List.filter_append, hevents, hsink,
    channel.emitAll_sink, hforms, List.nil_append, List.map_map]
  rfl

theorem shown_eq (options : Options) (channel : Channel) (resolver : Resolver)
    (ops : List (Operation Node)) :
    let s := (start options channel.sink resolver).performAll ops
    s.shown = s.diagnostics.map fun d => channel.form (d.report options.highlight) := by
  have hkept := performAll_keeps (s := start options channel.sink resolver)
    (P := fun s => (s.options = options ∧ s.sink = channel.sink) ∧
      s.shown = s.diagnostics.map fun d => channel.form (d.report options.highlight))
    ?_ ⟨⟨rfl, rfl⟩, rfl⟩ ops
  · exact hkept.2
  · intro s op hs
    obtain ⟨⟨hoptions, hsink⟩, hshown⟩ := hs
    obtain ⟨hoptions', hsink'⟩ := s.options_perform op
    refine ⟨⟨hoptions'.trans hoptions, hsink'.trans hsink⟩, ?_⟩
    rw [shown_perform hsink, hshown, diagnostics_perform, List.map_append, hoptions]

/-- With each of the three sinks, after every run, what the sink sent are the forms of the
diagnostics, one for each and in their order.  Another operation adds diagnostics behind those
that are there, and they are in the file of the source text, at the line and the column of the
last move before the operation. -/
theorem shown_performAll (options : Options) (channel : Channel) (resolver : Resolver)
    (ops : List (Operation Node)) (op : Operation Node) :
    let s := (start options channel.sink resolver).performAll ops
    List.Forall₂ (channel.Shows options.highlight) s.diagnostics s.shown ∧
      List.Forall₂ (channel.Shows options.highlight) (s.perform op).2.diagnostics
        (s.perform op).2.shown ∧
      ∃ raised, (s.perform op).2.diagnostics = s.diagnostics ++ raised ∧
        ∀ d ∈ raised, d.position =
          { line := (Operation.lastPlace ops).1
            column := (Operation.lastPlace ops).2
            file := options.sourceName } := by
  intro s
  have hshows : ∀ ops, List.Forall₂ (channel.Shows options.highlight)
      ((start options channel.sink resolver).performAll ops).diagnostics
      ((start options channel.sink resolver).performAll ops).shown := by
    intro ops
    rw [shown_eq, List.forall₂_map_right_iff]
    exact List.forall₂_same.mpr fun d _ => channel.shows_form options.highlight d
  refine ⟨hshows ops, ?_, (s.effect op).diagnostics, diagnostics_perform s op, ?_⟩
  · rw [← performAll_append_singleton]
    exact hshows (ops ++ [op])
  · intro d hd
    rw [(foundAt_effect s op).diagnostics d hd]
    exact position_performAll options channel.sink resolver ops

end Session
end ImpFront
