/-
The types of built expressions, read off their trees.

`Expr.prescribedType` says what type the operators of an expression are meant to give it, whether
or not its operands are right.  Binary operations are typed so.  For an operator in front the rule
for two operands is asked with the one operand on both sides, and there an addition with a string
behind it comes out as a string where an integer is prescribed.  `builtType_prescribed` says that
nothing else departs from the prescription, and where such a string is still seen further up.

Parentheses count for nothing.  Two expressions are `Reparenthesized` if each becomes the other when
pairs of parentheses are put in and taken out, which is so exactly if they are the same without any
(`Expr.unwrapped`).  By `reparenthesized_build` the same is then found wrong in both, and what is
built for them has the same type in every table and may be assigned to the same variables.
-/
import Mathlib.Logic.Relation
import ImpFront.Proofs.Settled

namespace ImpFront

/-! ## Definitions -/

/-- The type of the result of an operator that does not join two strings. -/
def Operator.plainResult : Operator → Ty
  | constantMark | variableMark => .undetermined
  | addition | subtraction | multiplication | division => .integer
  | greaterThan | greaterOrEqual | lessThan | lessOrEqual | equal | notEqual => .boolean
  | disjunction | conjunction | negation => .boolean

namespace Expr

/-- The type that an expression is meant to have. -/
def prescribedType (t : SymbolTable) : Expr → Ty
  | constant _ value => value.type
  | reference _ symbol => t.typeOf symbol
  | parenthesized _ inner => inner.prescribedType t
  | binary _ left op right =>
    if op = .addition ∧ left.prescribedType t = .string ∧ right.prescribedType t = .string then
      .string
    else op.plainResult
  | unary _ op _ => op.plainResult

/-- The expression is a string because of an addition in front of a string. -/
def IsSignedString (t : SymbolTable) : Expr → Prop
  | constant .. | reference .. => False
  | parenthesized _ inner => inner.IsSignedString t
  | binary _ left op right =>
    op = .addition ∧ left.builtType t = .string ∧ right.builtType t = .string ∧
      (left.IsSignedString t ∨ right.IsSignedString t)
  | unary _ op right => op = .addition ∧ right.builtType t = .string

/-- The second expression has one pair of parentheses more, at any place. -/
inductive Wraps : Expr → Expr → Prop where
  | here (pos : Position) (e : Expr) : Wraps e (parenthesized pos e)
  | inner (pos : Position) {inner inner' : Expr} (h : Wraps inner inner') :
    Wraps (parenthesized pos inner) (parenthesized pos inner')
  | left (pos : Position) {left left' : Expr} (op : Operator) (right : Expr)
    (h : Wraps left left') : Wraps (binary pos left op right) (binary pos left' op right)
  | right (pos : Position) (left : Expr) (op : Operator) {right right' : Expr}
    (h : Wraps right right') : Wraps (binary pos left op right) (binary pos left op right')
  | operand (pos : Position) (op : Operator) {right right' : Expr} (h : Wraps right right') :
    Wraps (unary pos op right) (unary pos op right')

/-- Each of the expressions becomes the other when parentheses are put in and taken out. -/
def Reparenthesized : Expr → Expr → Prop := Relation.EqvGen Wraps

/-- The expression without its parentheses. -/
def unwrapped : Expr → Expr
  | constant pos value => constant pos value
  | reference pos symbol => reference pos symbol
  | parenthesized _ inner => inner.unwrapped
  | binary pos left op right => binary pos left.unwrapped op right.unwrapped
  | unary pos op right => unary pos op right.unwrapped

end Expr

/-! ## Types of operations -/

theorem Operator.resultType_eq (op : Operator) (left right : Ty) :
    op.resultType left right =
      if op = addition ∧ left = .string ∧ right = .string then .string else op.plainResult := by
  by_cases hjoin : op = addition ∧ left = .string ∧ right = .string
  · obtain ⟨rfl, rfl, rfl⟩ := hjoin
    rfl
  · rw [if_neg hjoin, resultType, if_neg hjoin]
    cases op <;> rfl

namespace Expr

variable (t : SymbolTable) (pos : Position)

/- An operation keeps the type it was built with, so its type is the same in every table. -/
theorem typeIn_build_binary (t' : SymbolTable) (left : Expr) (op : Operator) (right : Expr) :
    ((binary pos left op right).build t).value.typeIn t' =
      op.resultType (left.builtType t) (right.builtType t) := rfl

theorem typeIn_build_unary (t' : SymbolTable) (op : Operator) (right : Expr) :
    ((unary pos op right).build t).value.typeIn t' =
      op.resultType (right.builtType t) (right.builtType t) := rfl

/-! ## The prescribed types -/

/-- What the prescription says of an expression and what becomes of it. -/
structure Prescribed (e : Expr) : Prop where
  plain (h : ¬ e.IsSignedString t) : e.builtType t = e.prescribedType t
  signed (h : e.IsSignedString t) : e.builtType t = .string ∧ e.prescribedType t = .integer

variable {t}

/- An operand that is a string through a sign does not count as a string in the prescription. -/
theorem Prescribed.eq_string_iff {e : Expr} (h : Prescribed t e) :
    e.prescribedType t = .string ↔ e.builtType t = .string ∧ ¬ e.IsSignedString t := by
  by_cases hsigned : e.IsSignedString t
  · rw [(h.signed hsigned).2]
    simp [hsigned]
  · rw [h.plain hsigned]
    simp [hsigned]

theorem prescribed_binary {left right : Expr} (hleft : Prescribed t left)
    (hright : Prescribed t right) (op : Operator) : Prescribed t (binary pos left op right) := by
  have htype : (binary pos left op right).builtType t = _ :=
    (typeIn_build_binary t pos t left op right).trans (op.resultType_eq _ _)
  have hjoins : op = .addition ∧ left.prescribedType t = .string ∧
      right.prescribedType t = .string ↔
      (op = .addition ∧ left.builtType t = .string ∧ right.builtType t = .string) ∧
        ¬ (binary pos left op right).IsSignedString t := by
    rw [hleft.eq_string_iff, hright.eq_string_iff, IsSignedString]
    tauto
  constructor
  · intro hplain
    rw [htype, prescribedType]
    exact if_congr (hjoins.trans (and_iff_left hplain)).symm rfl rfl
  · intro hsigned
    have ⟨hop, hl, hr, _⟩ := hsigned
    subst hop
    refine ⟨htype.trans (if_pos ⟨rfl, hl, hr⟩), ?_⟩
    rw [prescribedType, if_neg fun h => (hjoins.mp h).2 hsigned]
    rfl

theorem prescribed_unary (op : Operator) (right : Expr) : Prescribed t (unary pos op right) := by
  have htype : (unary pos op right).builtType t = _ :=
    (typeIn_build_unary t pos t op right).trans (op.resultType_eq _ _)
  constructor
  · intro hplain
    rw [htype, if_neg fun h => hplain ⟨h.1, h.2.1⟩, prescribedType]
  · rintro ⟨rfl, hr⟩
    rw [htype, if_pos ⟨rfl, hr, hr⟩]
    exact ⟨rfl, rfl⟩

variable (t)

theorem prescribed (e : Expr) : Prescribed t e := by
  induction e with
  | constant | reference => exact ⟨fun _ => rfl, False.elim⟩
  | parenthesized pos inner ih => exact ⟨ih.plain, ih.signed⟩
  | binary pos left op right ihleft ihright => exact prescribed_binary pos ihleft ihright op
  | unary pos op right => exact prescribed_unary pos op right

/-- The type of a built expression is the prescribed one, with one exception: an addition in front
of a string gives a string and not an integer.  The exception passes through parentheses and
through the addition of another string, and through nothing else. -/
theorem builtType_prescribed (e : Expr) :
    (e.builtType t = e.prescribedType t ↔ ¬ e.IsSignedString t) ∧
      (e.IsSignedString t → e.builtType t = .string ∧ e.prescribedType t = .integer) := by
  have h : Prescribed t e := prescribed t e
  refine ⟨⟨fun htype hsigned => ?_, h.plain⟩, h.signed⟩
  obtain ⟨hstring, hinteger⟩ := h.signed hsigned
  rw [hstring, hinteger] at htype
  cases htype

/-- In `-("a" + +"b")` the sum is a string through the sign of its right operand.  The subtraction
in front reports it and makes an integer of it. -/
theorem builtType_prescribed_of_signed_summand :
    let t : SymbolTable := {}
    let sum : Expr :=
      .binary .null (.constant .null (.string "a")) .addition
        (.unary .null .addition (.constant .null (.string "b")))
    let e : Expr := .unary .null .subtraction (.parenthesized .null sum)
    sum.builtType t = .string ∧ sum.prescribedType t = .integer ∧
      (e.build t).diagnostics ≠ [] ∧ e.builtType t = e.prescribedType t := by
  intro t sum e
  have hsum : sum.IsSignedString t := ⟨rfl, rfl, rfl, .inr ⟨rfl, rfl⟩⟩
  have he : ¬ e.IsSignedString t := fun h => nomatch h.1
  obtain ⟨hstring, hinteger⟩ := (builtType_prescribed t sum).2 hsum
  exact ⟨hstring, hinteger, by decide, (builtType_prescribed t e).1.mpr he⟩

/-- Nothing is reported for `+"a"`, and it is a string. -/
theorem builtType_signed_string :
    let t : SymbolTable := {}
    let e : Expr := .unary .null .addition (.constant .null (.string "a"))
    (e.build t).diagnostics = [] ∧ e.builtType t = .string ∧
      ¬ e.builtType t = e.prescribedType t := by
  decide

/-! ## Parentheses -/

theorem unwrapped_of_wraps {e e' : Expr} (h : Wraps e e') : e.unwrapped = e'.unwrapped := by
  induction h with
  | here => rfl
  | inner pos h ih => exact ih
  | left pos op right h ih | right pos left op h ih | operand pos op h ih =>
    simp only [unwrapped, ih]

theorem reflTransGen_wraps_unwrapped (e : Expr) : Relation.ReflTransGen Wraps e.unwrapped e := by
  induction e with
  | constant | reference => exact .refl
  | parenthesized pos inner ih => exact ih.tail (.here pos inner)
  | binary pos left op right ihleft ihright =>
    have hleft := ihleft.lift (binary pos · op right.unwrapped)
      fun _ _ h => Wraps.left pos op right.unwrapped h
    have hright := ihright.lift (binary pos left op ·) fun _ _ h => Wraps.right pos left op h
    exact hleft.trans hright
  | unary pos op right ih => exact ih.lift (unary pos op ·) fun _ _ h => Wraps.operand pos op h

theorem reparenthesized_iff {e e' : Expr} :
    e.Reparenthesized e' ↔ e.unwrapped = e'.unwrapped := by
  constructor
  · intro h
    induction h with
    | rel e e' h => exact unwrapped_of_wraps h
    | refl e => rfl
    | symm e e' h ih => exact ih.symm
    | trans e e' e'' h h' ih ih' => exact ih.trans ih'
  · intro h
    have hwraps : ∀ e : Expr, e.unwrapped.Reparenthesized e := fun e =>
      Relation.EqvGen.reflTransGen_le_eqvGen _ _ _ (reflTransGen_wraps_unwrapped e)
    have he := hwraps e
    rw [h] at he
    exact (he.symm _ _).trans _ _ _ (hwraps e')

theorem typeIn_build_unwrapped (e : Expr) (t' : SymbolTable) :
    (e.unwrapped.build t).value.typeIn t' = (e.build t).value.typeIn t' := by
  induction e generalizing t' with
  | constant | reference => rfl
  | parenthesized pos inner ih => exact ih t'
  | binary pos left op right ihleft ihright =>
    rw [unwrapped, typeIn_build_binary, typeIn_build_binary]
    exact congrArg₂ op.resultType (ihleft t) (ihright t)
  | unary pos op right ih =>
    rw [unwrapped, typeIn_build_unary, typeIn_build_unary]
    exact congrArg₂ op.resultType (ih t) (ih t)

theorem diagnostics_build_unwrapped (e : Expr) :
    (e.unwrapped.build t).diagnostics = (e.build t).diagnostics := by
  have htype : ∀ e : Expr, e.unwrapped.builtType t = e.builtType t := fun e =>
    typeIn_build_unwrapped t e t
  induction e with
  | constant | reference => rfl
  | parenthesized pos inner ih => rw [unwrapped, ih, diagnostics_parenthesized]
  | binary pos left op right ihleft ihright =>
    rw [unwrapped, diagnostics_binary, diagnostics_binary, ihleft, ihright, htype, htype]
  | unary pos op right ih =>
    rw [unwrapped, diagnostics_unary, diagnostics_unary, ih, htype]

/-- An expression is built like the one without its positions and its parentheses. -/
theorem build_unplaced_unwrapped (e : Expr) :
    (e.unplaced.unwrapped.build t).diagnostics.map Diagnostic.fault =
        (e.build t).diagnostics.map Diagnostic.fault ∧
      ∀ t', (e.unplaced.unwrapped.build t).value.typeIn t' = (e.build t).value.typeIn t' := by
  constructor
  · rw [diagnostics_build_unwrapped]
    exact (build_of_unplaced_eq (unplaced_moved _ e) t).2
  · intro t'
    rw [typeIn_build_unwrapped, unplaced, (build_moved t _ e).1, Node.typeIn_relabel]

end Expr

namespace SymbolTable

/- What an assignment reports depends on the type of the expression and on nothing else of it. -/
theorem diagnostics_assign_congr {t : SymbolTable} {n n' : Node} (h : n.typeIn t = n'.typeIn t)
    (id : SymbolId) (answer answer' : Query → Value) (pos : Position) :
    (t.assign id n answer pos).diagnostics = (t.assign id n' answer' pos).diagnostics := by
  cases hy : t.get? id with
  | none => rw [assign_of_unknown hy, assign_of_unknown hy]
  | some y => rw [diagnostics_assign hy, diagnostics_assign hy, h]

end SymbolTable

namespace Expr

/-- Expressions that are the same up to their parentheses, and up to positions, have the same
faults in the same order.  The nodes that are built for them have the same type in every table, not
only in the one they were built in, and assigning either to a variable goes well or is refused for
the same reason.  If the positions of the other parts are the same, so are the diagnostics. -/
theorem reparenthesized_build {e e' : Expr} (h : e.unplaced.Reparenthesized e'.unplaced)
    (t : SymbolTable) :
    let n := (e.build t).value
    let n' := (e'.build t).value
    (e.build t).diagnostics.map Diagnostic.fault =
        (e'.build t).diagnostics.map Diagnostic.fault ∧
      (e.Reparenthesized e' → (e.build t).diagnostics = (e'.build t).diagnostics) ∧
      (∀ t', n.typeIn t' = n'.typeIn t') ∧
      ∀ (t' : SymbolTable) (id : SymbolId) (answer answer' : Query → Value) (pos : Position),
        (t'.assign id n answer pos).diagnostics = (t'.assign id n' answer' pos).diagnostics := by
  intro n n'
  obtain ⟨hfaults, htypes⟩ := build_unplaced_unwrapped t e
  obtain ⟨hfaults', htypes'⟩ := build_unplaced_unwrapped t e'
  rw [reparenthesized_iff.mp h] at hfaults htypes
  have htype : ∀ t', n.typeIn t' = n'.typeIn t' := fun t' => (htypes t').symm.trans (htypes' t')
  refine ⟨hfaults.symm.trans hfaults', fun hplaced => ?_, htype, fun t' id answer answer' pos =>
    SymbolTable.diagnostics_assign_congr (htype t') id answer answer' pos⟩
  rw [← diagnostics_build_unwrapped t e, ← diagnostics_build_unwrapped t e',
    reparenthesized_iff.mp hplaced]

/-- The sums `x + 1` and `((x)) + (1)`, built before `x` is a string and assigned to it when it is
one. -/
theorem reparenthesized_build_of_sum :
    let place (column : UInt32) : Position := { line := 1, column := column, file := "" }
    let t : SymbolTable := { entries := [{ name := "x" }] }
    let t' : SymbolTable := { entries := [{ name := "x", declared := true, type := .string }] }
    let bare : Expr :=
      .binary (place 2) (.reference (place 1) ⟨0⟩) .addition (.constant (place 3) (.integer 1))
    let wrapped : Expr :=
      .binary (place 6)
        (.parenthesized (place 1) (.parenthesized (place 2) (.reference (place 3) ⟨0⟩)))
        .addition (.parenthesized (place 7) (.constant (place 8) (.integer 1)))
    bare.unplaced.Reparenthesized wrapped.unplaced ∧
      (wrapped.build t).diagnostics.map Diagnostic.fault =
        [.additionMismatch "addition (+)" "integer" "string"] ∧
      (t'.assign ⟨0⟩ (wrapped.build t).value (fun _ => .integer 0) .null).diagnostics =
        [⟨.assignmentMismatch "x" "string" "integer", .null⟩] := by
  intro place t t' bare wrapped
  have h : bare.unplaced.Reparenthesized wrapped.unplaced := reparenthesized_iff.mpr rfl
  obtain ⟨hfaults, -, -, hassign⟩ := reparenthesized_build h t
  refine ⟨h, ?_, ?_⟩
  · rw [← hfaults]
    decide
  · rw [← hassign t' ⟨0⟩ (fun _ => .integer 0)]
    decide

end Expr
end ImpFront
