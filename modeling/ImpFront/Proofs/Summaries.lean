/-
What the one-line form of a diagnostic tells.

On one line a diagnostic is its position, a wording around one quoted text, and an ending.  A file
may be named like such a line, and a variable like the rest of one, so the line is read from its
end.  No ending holds a double quote, so the last one closes the quoted text.  The one that opens it
follows a space, and inside of the quoted text a double quote follows a backslash
(`append_encode_inj`).  The ending and the last character of the wording tell the kind of the fault
(`kind_eq_of_parts`), and the ending tells the types in it (`Ty.pair_inj`).  What is in front of the
wording ends with two numbers, which hold no colon (`Position.display_injective`).

The theorem this file exists for is `Diagnostic.summary_tells`.
-/
import ImpFront.Proofs.Headline
import ImpFront.Proofs.Rules

namespace ImpFront

/-! ## Reading from the end -/

/-- The last mark of a text splits it. -/
theorem append_inj_of_last_mark {α : Type} {mark : α} {first second rest rest' : List α}
    (hrest : mark ∉ rest) (hrest' : mark ∉ rest')
    (h : first ++ mark :: rest = second ++ mark :: rest') : first = second ∧ rest = rest' := by
  have hreverse :
      rest.reverse ++ mark :: first.reverse = rest'.reverse ++ mark :: second.reverse := by
    simpa using congrArg List.reverse h
  obtain ⟨hrests, hfirsts⟩ := append_inj_of_mark (mt List.mem_reverse.mp hrest)
    (mt List.mem_reverse.mp hrest') (fun _ hc => (Option.mem_some_iff.mp hc).symm)
    (fun _ hc => (Option.mem_some_iff.mp hc).symm) hreverse
  exact ⟨List.reverse_inj.mp (List.cons.inj hfirsts).2, List.reverse_inj.mp hrests⟩

namespace Text

theorem ne_append_space_quote {inner before after : List Char} (h : quotesEscaped inner = true) :
    inner ≠ before ++ ' ' :: '"' :: after := by
  rintro rfl
  have hsplit : before ++ ' ' :: '"' :: after = (before ++ [' ']) ++ '"' :: after := by simp
  rw [hsplit] at h
  have hlast := getLast?_of_quotesEscaped h
  rw [List.getLast?_concat] at hlast
  exact absurd hlast (by decide)

/-- The double quote behind a space that opens a text is the last one of its kind, so it cannot
stand further left. -/
theorem opening_quote_unique {inner inner' more : List Char} (h : quotesEscaped inner = true)
    (heq : ' ' :: '"' :: inner = more ++ ' ' :: '"' :: inner') : more = [] := by
  cases more with
  | nil => rfl
  | cons c more =>
    cases more with
    | nil => cases (List.cons.inj (List.cons.inj heq).2).1
    | cons d more =>
      exact absurd (List.cons.inj (List.cons.inj heq).2).2 (ne_append_space_quote h)

theorem opening_quote_inj {front front' inner inner' : List Char}
    (h : quotesEscaped inner = true) (h' : quotesEscaped inner' = true)
    (heq : front ++ ' ' :: '"' :: inner = front' ++ ' ' :: '"' :: inner') :
    front = front' ∧ inner = inner' := by
  rcases List.append_eq_append_iff.mp heq with ⟨more, hfront, hmore⟩ | ⟨more, hfront, hmore⟩
  · obtain rfl := opening_quote_unique h hmore
    exact ⟨by simpa using hfront.symm, by simpa using hmore⟩
  · obtain rfl := opening_quote_unique h' hmore
    exact ⟨by simpa using hfront, by simpa using hmore.symm⟩

/-- A quoted text behind a space, with an ending without double quotes, is found from the end. -/
theorem append_encode_inj {hidden : Char → Bool}
    {front front' text text' ending ending' : List Char} (hending : '"' ∉ ending)
    (hending' : '"' ∉ ending')
    (h : front ++ ' ' :: encode hidden text ++ ending =
      front' ++ ' ' :: encode hidden text' ++ ending') :
    front = front' ∧ text = text' ∧ ending = ending' := by
  have hsplit : ∀ front text ending : List Char,
      front ++ ' ' :: encode hidden text ++ ending =
        (front ++ ' ' :: '"' :: escapeAll hidden text) ++ '"' :: ending := by
    intro front text ending
    simp [encode]
  rw [hsplit, hsplit] at h
  obtain ⟨hopen, hendings⟩ := append_inj_of_last_mark hending hending' h
  obtain ⟨hfront, hinner⟩ := opening_quote_inj (quotesEscaped_escapeAll hidden text)
    (quotesEscaped_escapeAll hidden text') hopen
  have hencoded : encode hidden text = encode hidden text' := by rw [encode, encode, hinner]
  exact ⟨hfront, encode_injective hencoded, hendings⟩

end Text

namespace Position

theorem display_injective {pos pos' : Position} (h : pos.display = pos'.display) : pos = pos' := by
  have hcolon : ∀ n : Nat, ':' ∉ (toString n).toList :=
    fun n hmem => absurd (isDigit_of_mem_repr hmem) (by decide)
  have hnumber : ∀ {m n : UInt32}, (toString m.toNat).toList = (toString n.toNat).toList → m = n :=
    fun heq => UInt32.toNat_inj.mp (Nat.repr_injective (String.toList_inj.mp heq))
  have hsplit : ∀ pos : Position, pos.display.toList =
      (pos.file.toList ++ ':' :: (toString pos.line.toNat).toList) ++
        ':' :: (toString pos.column.toNat).toList := by
    intro pos
    simp [display, String.toList_append]
  have hlists := congrArg String.toList h
  rw [hsplit, hsplit] at hlists
  obtain ⟨hfront, hcolumn⟩ := append_inj_of_last_mark (hcolon _) (hcolon _) hlists
  obtain ⟨hfile, hline⟩ := append_inj_of_last_mark (hcolon _) (hcolon _) hfront
  cases pos
  cases pos'
  simp only [Position.mk.injEq]
  exact ⟨hnumber hline, hnumber hcolumn, String.toList_inj.mp hfile⟩

end Position

/-! ## Endings -/

/-- Two types with a wording before and between them.  The wording between starts with a mark that
is no letter, so it does not stand in the name of a type. -/
theorem Ty.pair_inj {before between : String} {first second first' second' : Ty} (mark : Char)
    (hmark : mark.isAlpha = false) (hbetween : between.toList.head? = some mark)
    (h : before ++ first.name ++ between ++ second.name =
      before ++ first'.name ++ between ++ second'.name) : first = first' ∧ second = second' := by
  have hhead : ∀ type : Ty, ∀ c ∈ (between.toList ++ type.name.toList).head?, c = mark := by
    intro type c hc
    rw [List.head?_append, hbetween] at hc
    exact (Option.mem_some_iff.mp hc).symm
  have hlists := congrArg String.toList h
  simp only [String.toList_append, List.append_assoc] at hlists
  obtain ⟨hfirst, hrest⟩ := append_inj_of_mark (first.not_mem_name hmark)
    (first'.not_mem_name hmark) (hhead second) (hhead second') (List.append_cancel_left hlists)
  exact ⟨Ty.name_injective (String.toList_inj.mp hfirst),
    Ty.name_injective (String.toList_inj.mp (List.append_cancel_left hrest))⟩

namespace Fault

/-- The kinds of faults. -/
inductive Kind where
  | alreadyDeclared
  | notDeclared
  | assignmentMismatch
  | operandMismatch
  | additionMismatch
  | reservedTarget
  deriving DecidableEq, Repr

def kind : Fault → Kind
  | alreadyDeclared _ => .alreadyDeclared
  | notDeclared _ => .notDeclared
  | assignmentMismatch .. => .assignmentMismatch
  | operandMismatch .. => .operandMismatch
  | additionMismatch .. => .additionMismatch
  | reservedTarget _ => .reservedTarget

/-- What a fault gives for a type is the name of a type.  All other texts may be anything. -/
inductive NamesTypes : Fault → Prop where
  | alreadyDeclared (name : String) : NamesTypes (.alreadyDeclared name)
  | notDeclared (name : String) : NamesTypes (.notDeclared name)
  | assignmentMismatch (name : String) (expected received : Ty) :
    NamesTypes (.assignmentMismatch name expected.name received.name)
  | operandMismatch (side : Side) (operator : String) (expected received : Ty) :
    NamesTypes (.operandMismatch side operator expected.name received.name)
  | additionMismatch (operator : String) (first second : Ty) :
    NamesTypes (.additionMismatch operator first.name second.name)
  | reservedTarget (name : String) : NamesTypes (.reservedTarget name)

/-- The wording in front of the quoted text. -/
def lead : Fault → String
  | alreadyDeclared _ | notDeclared _ | assignmentMismatch .. => "variable"
  | operandMismatch side .. => side.name ++ " operand of"
  | additionMismatch .. => "operands of"
  | reservedTarget _ => "reserved word or number"

/-- The text that is quoted. -/
def subject : Fault → String
  | alreadyDeclared name | notDeclared name | assignmentMismatch name .. | reservedTarget name =>
    name
  | operandMismatch _ operator .. | additionMismatch operator .. => operator

/-- What comes behind the quoted text. -/
def ending : Fault → String
  | alreadyDeclared _ => " already declared"
  | notDeclared _ => " not declared"
  | assignmentMismatch _ expected received =>
    " has type " ++ expected ++ ", assigned a value of type " ++ received
  | operandMismatch _ _ expected received => " has type " ++ received ++ ", expected " ++ expected
  | additionMismatch _ first second => " must both be " ++ first ++ " or " ++ second
  | reservedTarget _ => " used as a variable name"

theorem toList_summary (fault : Fault) : fault.summary.toList =
    fault.lead.toList ++ ' ' :: Text.encode Text.isHidden fault.subject.toList ++
      fault.ending.toList := by
  rw [summary.eq_def]
  cases fault <;> simp [lead, subject, ending, Text.toList_quoted]

variable {fault fault' : Fault}

theorem quote_not_mem_ending (h : fault.NamesTypes) : '"' ∉ fault.ending.toList := by
  have htype : ∀ type : Ty, '"' ∉ type.name.toList := Ty.not_mem_name rfl
  cases h with
  | alreadyDeclared | notDeclared | reservedTarget => simp [ending]
  | assignmentMismatch | operandMismatch | additionMismatch =>
    simp [ending, String.toList_append, htype]

/-- The second character of an ending and the last one of the wording in front.  No two kinds share
both. -/
def Kind.marks : Kind → Char × Char
  | alreadyDeclared => ('a', 'e')
  | notDeclared => ('n', 'e')
  | assignmentMismatch => ('h', 'e')
  | operandMismatch => ('h', 'f')
  | additionMismatch => ('m', 'f')
  | reservedTarget => ('u', 'r')

theorem Kind.marks_injective {kind kind' : Kind} (h : kind.marks = kind'.marks) : kind = kind' := by
  revert h
  cases kind <;> cases kind' <;> decide

theorem getElem?_ending (fault : Fault) :
    fault.ending.toList[1]? = some fault.kind.marks.1 := by
  cases fault <;> simp [ending, kind, Kind.marks]

theorem getLast?_lead (fault : Fault) : fault.lead.toList.getLast? = some fault.kind.marks.2 := by
  cases fault <;> simp [lead, kind, Kind.marks]

theorem kind_eq_of_parts {front front' : List Char}
    (hlead : front ++ fault.lead.toList = front' ++ fault'.lead.toList)
    (hending : fault.ending = fault'.ending) : fault.kind = fault'.kind := by
  have hlast : ∀ (front : List Char) (fault : Fault),
      (front ++ fault.lead.toList).getLast? = some fault.kind.marks.2 := by
    intro front fault
    rw [List.getLast?_append, getLast?_lead]
    rfl
  have hsecond : some fault.kind.marks.1 = some fault'.kind.marks.1 := by
    rw [← getElem?_ending, ← getElem?_ending, hending]
  have hlasts : some fault.kind.marks.2 = some fault'.kind.marks.2 := by
    rw [← hlast front, ← hlast front', hlead]
  exact Kind.marks_injective (Prod.ext (Option.some.inj hsecond) (Option.some.inj hlasts))

end Fault

/-- A side is told by the second character from its end. -/
theorem Side.eq_of_append_eq {front front' : List Char} {side side' : Side}
    (h : front ++ side.name.toList = front' ++ side'.name.toList) : side = side' := by
  have hbefore := congrArg (fun text => text.reverse[1]?) h
  revert hbefore
  cases side <;> cases side' <;> simp [name]

namespace Fault

variable {fault fault' : Fault}

/-- The three parts of a summary tell the fault, also when the first goes on to the left. -/
theorem NamesTypes.eq_of_parts (h : fault.NamesTypes) (h' : fault'.NamesTypes)
    {front front' : List Char} (hlead : front ++ fault.lead.toList = front' ++ fault'.lead.toList)
    (hsubject : fault.subject = fault'.subject) (hending : fault.ending = fault'.ending) :
    fault = fault' ∧ front = front' := by
  have hkind := kind_eq_of_parts hlead hending
  -- Two faults of different kinds are ruled out by `hkind`, so each case has one that is left.
  cases h with
  | alreadyDeclared name =>
    cases h' with
    | alreadyDeclared name' =>
      obtain rfl : name = name' := hsubject
      exact ⟨rfl, List.append_cancel_right hlead⟩
    | _ => cases hkind
  | notDeclared name =>
    cases h' with
    | notDeclared name' =>
      obtain rfl : name = name' := hsubject
      exact ⟨rfl, List.append_cancel_right hlead⟩
    | _ => cases hkind
  | reservedTarget name =>
    cases h' with
    | reservedTarget name' =>
      obtain rfl : name = name' := hsubject
      exact ⟨rfl, List.append_cancel_right hlead⟩
    | _ => cases hkind
  | assignmentMismatch name expected received =>
    cases h' with
    | assignmentMismatch name' expected' received' =>
      obtain rfl : name = name' := hsubject
      obtain ⟨rfl, rfl⟩ := Ty.pair_inj ',' rfl (by simp) hending
      exact ⟨rfl, List.append_cancel_right hlead⟩
    | _ => cases hkind
  | operandMismatch side operator expected received =>
    cases h' with
    | operandMismatch side' operator' expected' received' =>
      obtain rfl : operator = operator' := hsubject
      obtain ⟨rfl, rfl⟩ := Ty.pair_inj ',' rfl (by simp) hending
      simp only [lead, String.toList_append, ← List.append_assoc] at hlead
      -- The fronts are not known to be equal yet, so the side is read from the end.
      have hsides := List.append_cancel_right hlead
      obtain rfl := Side.eq_of_append_eq hsides
      exact ⟨rfl, List.append_cancel_right hsides⟩
    | _ => cases hkind
  | additionMismatch operator first second =>
    cases h' with
    | additionMismatch operator' first' second' =>
      obtain rfl : operator = operator' := hsubject
      obtain ⟨rfl, rfl⟩ := Ty.pair_inj ' ' rfl (by simp) hending
      exact ⟨rfl, List.append_cancel_right hlead⟩
    | _ => cases hkind

end Fault

theorem Diagnostic.toList_summary (d : Diagnostic) : d.summary.toList =
    (d.position.display.toList ++ ": ".toList ++ d.fault.lead.toList) ++
      ' ' :: Text.encode Text.isHidden d.fault.subject.toList ++ d.fault.ending.toList := by
  rw [summary, String.toList_append, Fault.toList_summary]
  simp

/-! ## Faults that are raised -/

namespace SymbolTable

variable {t : SymbolTable} {id : SymbolId} {pos : Position} {d : Diagnostic}

theorem namesTypes_declare (h : d ∈ (t.declare id pos).diagnostics) : d.fault.NamesTypes := by
  cases hy : t.get? id with
  | none =>
    rw [declare_of_unknown hy] at h
    rw [List.mem_singleton.mp h]
    exact .notDeclared unknownName
  | some y =>
    rw [diagnostics_declare hy] at h
    split at h
    · rw [List.mem_singleton.mp h]
      exact .alreadyDeclared y.name
    · cases h

theorem namesTypes_declareAll {ids : List SymbolId} {type : Ty}
    (h : d ∈ (t.declareAll ids type pos).diagnostics) : d.fault.NamesTypes := by
  induction ids generalizing t with
  | nil => cases h
  | cons id rest ih =>
    rw [declareAll, Update.diagnostics_andThen, diagnostics_declareTyped] at h
    rcases List.mem_append.mp h with h | h
    · exact namesTypes_declare h
    · exact ih h

theorem namesTypes_assign {expression : Node} {answer : Query → Value}
    (h : d ∈ (t.assign id expression answer pos).diagnostics) : d.fault.NamesTypes := by
  cases hy : t.get? id with
  | none =>
    rw [assign_of_unknown hy] at h
    rw [List.mem_singleton.mp h]
    exact .notDeclared unknownName
  | some y =>
    rw [diagnostics_assign hy] at h
    split at h
    · rw [List.mem_singleton.mp h]
      exact .notDeclared y.name
    · split at h
      · rw [List.mem_singleton.mp h]
        exact .assignmentMismatch y.name y.type (expression.typeIn t)
      · cases h

end SymbolTable

theorem Operands.namesTypes_of_mem_faults {op : Operator} {operands : Operands} {fault : Fault}
    (h : fault ∈ operands.faults op) : fault.NamesTypes := by
  rcases cases_of_mem_faults h with ⟨side, received, rfl⟩ | rfl
  · exact .operandMismatch side op.symbol .integer received
  · exact .additionMismatch additionName .integer .string

namespace Session

theorem namesTypes_effect {s : Session} {op : Operation Node} {d : Diagnostic}
    (h : d ∈ (s.effect op).diagnostics) : d.fault.NamesTypes := by
  cases op with
  | intern name | listElement name | reference name | input name | forLoop name =>
    rw [effect, Update.diagnostics_map, SymbolTable.diagnostics_intern] at h
    cases h
  | declare name =>
    rw [effect, Update.diagnostics_andThen, SymbolTable.diagnostics_intern, List.nil_append] at h
    exact SymbolTable.namesTypes_declare h
  | bindType id type =>
    rw [effect, Update.diagnostics_map, SymbolTable.diagnostics_bindType] at h
    cases h
  | declareList head type => exact SymbolTable.namesTypes_declareAll h
  | binary left op right | unary op right =>
    obtain ⟨fault, hfault, rfl⟩ := List.mem_map.mp h
    exact Operands.namesTypes_of_mem_faults hfault
  | assign name expression =>
    rw [effect] at h
    split at h
    · rename_i diagnostic hcheck
      obtain ⟨fault, hfault, rfl⟩ := Option.map_eq_some_iff.mp hcheck
      unfold Target.fault? at hfault
      split at hfault
      · cases hfault
        rw [List.mem_singleton.mp h]
        exact .reservedTarget name
      · cases hfault
    · rw [Update.diagnostics_andThen, SymbolTable.diagnostics_intern, List.nil_append,
        Update.diagnostics_map] at h
      exact SymbolTable.namesTypes_assign h
  | _ => cases h

theorem namesTypes_performAll (options : Options) (sink : Sink) (resolver : Resolver)
    (ops : List (Operation Node)) :
    ∀ d ∈ ((start options sink resolver).performAll ops).diagnostics, d.fault.NamesTypes := by
  refine performAll_keeps (P := fun s => ∀ d ∈ s.diagnostics, d.fault.NamesTypes)
    (fun s op hs d hd => ?_) (fun _ hd => absurd hd List.not_mem_nil) ops
  rw [diagnostics_perform] at hd
  rcases List.mem_append.mp hd with hd | hd
  · exact hs d hd
  · exact namesTypes_effect hd

end Session
namespace Diagnostic

/-- A summary tells its diagnostic, whatever the texts and the file name are, as long as the fault
calls types by their names.  That is so for all diagnostics of a session. -/
theorem summary_tells :
    (∀ d d' : Diagnostic, d.fault.NamesTypes → d'.fault.NamesTypes → d.summary = d'.summary →
      d = d') ∧
    ∀ (options : Options) (sink : Sink) (resolver : Resolver) (ops : List (Operation Node)),
      ∀ d ∈ ((Session.start options sink resolver).performAll ops).diagnostics,
        d.fault.NamesTypes := by
  refine ⟨fun d d' hd hd' h => ?_, Session.namesTypes_performAll⟩
  have hlists := congrArg String.toList h
  rw [toList_summary, toList_summary] at hlists
  obtain ⟨hlead, hsubject, hending⟩ := Text.append_encode_inj (Fault.quote_not_mem_ending hd)
    (Fault.quote_not_mem_ending hd') hlists
  obtain ⟨hfault, hfront⟩ := hd.eq_of_parts hd' hlead (String.toList_inj.mp hsubject)
    (String.toList_inj.mp hending)
  have hposition := Position.display_injective
    (String.toList_inj.mp (List.append_cancel_right hfront))
  cases d
  cases d'
  rw [Diagnostic.mk.injEq]
  exact ⟨hfault, hposition⟩

/-- A file that is named like the summary of another diagnostic, and a variable with a double quote
in its name. -/
theorem summary_tells_of_summary_like_file :
    let file := "a:1:2: variable \"x\" has type integer, assigned a value of type string"
    let s := (Session.start { sourceName := file } .memory .zero).performAll
      [.declare "x\" y", .assign "x\" y" (.constant .null (.boolean true))]
    let d : Diagnostic := ⟨.assignmentMismatch "x" "integer" "string", ⟨1, 2, "a"⟩⟩
    d.summary = file ∧
    s.diagnostics = [⟨.assignmentMismatch "x\" y" "undetermined" "boolean", ⟨1, 0, file⟩⟩] ∧
    ∀ d' ∈ s.diagnostics, d.fault.NamesTypes ∧ d'.fault.NamesTypes ∧ d.summary ≠ d'.summary := by
  intro file s d
  have hdiagnostics : s.diagnostics =
      [⟨.assignmentMismatch "x\" y" "undetermined" "boolean", ⟨1, 0, file⟩⟩] := by decide
  have hd : d.fault.NamesTypes := .assignmentMismatch "x" .integer .string
  refine ⟨by decide, hdiagnostics, fun d' hmem => ?_⟩
  have hd' : d'.fault.NamesTypes := summary_tells.2 _ _ _ _ d' hmem
  refine ⟨hd, hd', fun h => ?_⟩
  rw [← summary_tells.1 d d' hd hd' h, hdiagnostics] at hmem
  exact absurd hmem (by decide)

end Diagnostic
end ImpFront
