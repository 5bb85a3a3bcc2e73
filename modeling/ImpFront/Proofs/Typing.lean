/-
The types of expressions.

`HasType` gives expressions their types by rules, and `Expr.build` makes nodes of expressions
with the constructors of nodes, from the leaves upwards.  The theorem this file exists for is
`build_decides_hasType`: building an expression finds nothing wrong exactly if the expression
has a type, which is then the type of the built node.

An expression without a type is built as well, and its operations are checked against the types
of whatever was built for their operands.  So the second half of the theorem, which counts the
diagnostics, speaks of the types of built nodes and not of `HasType`.
-/
import ImpFront.Node.Build
import ImpFront.Proofs.Rules

namespace ImpFront

/-- Expressions as they stand in a source text, with the positions of their parts. -/
inductive Expr where
  | constant (pos : Position) (value : Value)
  | reference (pos : Position) (symbol : SymbolId)
  | parenthesized (pos : Position) (inner : Expr)
  | binary (pos : Position) (left : Expr) (op : Operator) (right : Expr)
  | unary (pos : Position) (op : Operator) (right : Expr)
  deriving Repr

/-- Go on with a checked value.  The findings of the first part come first. -/
def Checked.andThen {α β : Type} (c : Checked α) (next : α → Checked β) : Checked β :=
  { value := (next c.value).value
    diagnostics := c.diagnostics ++ (next c.value).diagnostics
    events := c.events ++ (next c.value).events }

/-! ## The rules -/

/-- The type of an operation on operands of the given types. -/
inductive Operator.Gives : Operator → List Ty → Ty → Prop where
  | arithmetic {op : Operator} {operands : List Ty}
    (hop : op ∈ [subtraction, multiplication, division])
    (hoperands : ∀ type ∈ operands, type = .integer) : Gives op operands .integer
  | addition {type : Ty} {operands : List Ty} (htype : type = .integer ∨ type = .string)
    (hoperands : ∀ operand ∈ operands, operand = type) : Gives addition operands type
  | comparison {op : Operator} {operands : List Ty}
    (hop : op ∈ [greaterThan, greaterOrEqual, lessThan, lessOrEqual, equal, notEqual]) :
    Gives op operands .boolean
  | connective {op : Operator} {operands : List Ty}
    (hop : op ∈ [disjunction, conjunction, negation]) : Gives op operands .boolean
  | mark {op : Operator} {operands : List Ty} (hop : op ∈ [constantMark, variableMark]) :
    Gives op operands .undetermined

inductive HasType (t : SymbolTable) : Expr → Ty → Prop where
  | constant (pos : Position) (value : Value) : HasType t (.constant pos value) value.type
  | reference (pos : Position) (symbol : SymbolId) :
    HasType t (.reference pos symbol) (t.typeOf symbol)
  | parenthesized (pos : Position) {inner : Expr} {type : Ty} (hinner : HasType t inner type) :
    HasType t (.parenthesized pos inner) type
  | binary (pos : Position) {left right : Expr} {op : Operator} {leftType rightType type : Ty}
    (hleft : HasType t left leftType) (hright : HasType t right rightType)
    (hop : op.Gives [leftType, rightType] type) : HasType t (.binary pos left op right) type
  | unary (pos : Position) {right : Expr} {op : Operator} {rightType type : Ty}
    (hright : HasType t right rightType) (hop : op.Gives [rightType] type) :
    HasType t (.unary pos op right) type

/-- How many diagnostics an operation gets for operands of the given types: one for each operand
that is no integer, or one for an addition that does not take them. -/
def Operator.offences (op : Operator) (operands : List Ty) : Nat :=
  match op with
  | subtraction | multiplication | division => operands.countP fun type => type ≠ .integer
  | addition => if Operation.areSummands operands then 0 else 1
  | _ => 0

namespace Expr

def build (t : SymbolTable) : Expr → Checked Node
  | constant pos value => .clean (.constant pos value)
  | reference pos symbol => .clean (.mkReference t symbol pos)
  | parenthesized pos inner =>
    (inner.build t).andThen fun inner => .clean (.mkParenthesized t inner pos)
  | binary pos left op right =>
    (left.build t).andThen fun left =>
      (right.build t).andThen fun right => Node.mkBinary t left op right pos
  | unary pos op right => (right.build t).andThen fun right => Node.mkUnary t op right pos

/-- The type of the node that is built for an expression. -/
def builtType (t : SymbolTable) (e : Expr) : Ty := (e.build t).value.typeIn t

/-- The offences of all operations of an expression. -/
def offences (t : SymbolTable) : Expr → Nat
  | constant .. | reference .. => 0
  | parenthesized _ inner => inner.offences t
  | binary _ left op right =>
    left.offences t + right.offences t + op.offences [left.builtType t, right.builtType t]
  | unary _ op right => right.offences t + op.offences [right.builtType t]

end Expr

/-! ## Operations -/

namespace Operator

/-- The rules for types agree with the rule for operands and the type of the result.  The latter
looks at two operands, for an operator in front twice at the same one. -/
theorem gives_iff {op : Operator} {operands : List Ty} {left right type : Ty}
    (hleft : left ∈ operands) (hright : right ∈ operands) :
    op.Gives operands type ↔
      Operation.OperandRule op operands ∧ op.resultType left right = type := by
  constructor
  · intro h
    cases h with
    | arithmetic hop hoperands =>
      simp only [List.mem_cons, List.not_mem_nil, or_false] at hop
      rcases hop with rfl | rfl | rfl <;> exact ⟨hoperands, rfl⟩
    | addition htype hoperands =>
      have hl : left = type := hoperands left hleft
      have hr : right = type := hoperands right hright
      subst hl hr
      rcases htype with rfl | rfl
      · exact ⟨.inl hoperands, rfl⟩
      · exact ⟨.inr hoperands, rfl⟩
    | comparison hop =>
      simp only [List.mem_cons, List.not_mem_nil, or_false] at hop
      rcases hop with rfl | rfl | rfl | rfl | rfl | rfl <;> exact ⟨trivial, rfl⟩
    | connective hop =>
      simp only [List.mem_cons, List.not_mem_nil, or_false] at hop
      rcases hop with rfl | rfl | rfl <;> exact ⟨trivial, rfl⟩
    | mark hop =>
      simp only [List.mem_cons, List.not_mem_nil, or_false] at hop
      rcases hop with rfl | rfl <;> exact ⟨trivial, rfl⟩
  · intro h
    obtain ⟨hrule, rfl⟩ := h
    cases op with
    | subtraction | multiplication | division => exact .arithmetic (by simp) hrule
    | addition =>
      rcases hrule with hrule | hrule
      · have hl : left = .integer := hrule left hleft
        subst hl
        show addition.Gives operands .integer
        exact .addition (.inl rfl) hrule
      · have hl : left = .string := hrule left hleft
        have hr : right = .string := hrule right hright
        subst hl hr
        show addition.Gives operands .string
        exact .addition (.inr rfl) hrule
    | constantMark | variableMark => exact .mark (by simp)
    | disjunction | conjunction | negation => exact .connective (by simp)
    | greaterThan | greaterOrEqual | lessThan | lessOrEqual | equal | notEqual =>
      exact .comparison (by simp)

theorem length_operandViolations (op : Operator) (operands : List (Side × Ty)) :
    (Operation.operandViolations op operands).length = op.offences (operands.map Prod.snd) := by
  cases op with
  | subtraction | multiplication | division =>
    rw [Operation.operandViolations, List.length_map, offences, List.countP_map,
      List.countP_eq_length_filter]
    rfl
  | addition =>
    rw [Operation.operandViolations, offences]
    split <;> rfl
  | _ => rfl

end Operator

namespace Node

theorem diagnostics_mkBinary (t : SymbolTable) (left : Node) (op : Operator) (right : Node)
    (pos : Position) :
    (mkBinary t left op right pos).diagnostics =
      (Operation.operandViolations op
        [(.left, left.typeIn t), (.right, right.typeIn t)]).map fun fault => ⟨fault, pos⟩ := by
  rw [← Operands.faults_binary]
  rfl

theorem diagnostics_mkUnary (t : SymbolTable) (op : Operator) (right : Node) (pos : Position) :
    (mkUnary t op right pos).diagnostics =
      (Operation.operandViolations op [(.right, right.typeIn t)]).map fun fault =>
        ⟨fault, pos⟩ := by
  rw [← Operands.faults_unary]
  rfl

end Node

/-! ## Expressions -/

namespace Expr

theorem diagnostics_binary (t : SymbolTable) (pos : Position) (left : Expr) (op : Operator)
    (right : Expr) :
    ((binary pos left op right).build t).diagnostics =
      (left.build t).diagnostics ++ ((right.build t).diagnostics ++
        (Operation.operandViolations op
          [(.left, left.builtType t), (.right, right.builtType t)]).map fun fault =>
            ⟨fault, pos⟩) := by
  rw [builtType, builtType, ← Node.diagnostics_mkBinary]
  rfl

theorem diagnostics_unary (t : SymbolTable) (pos : Position) (op : Operator) (right : Expr) :
    ((unary pos op right).build t).diagnostics =
      (right.build t).diagnostics ++
        (Operation.operandViolations op [(.right, right.builtType t)]).map fun fault =>
          ⟨fault, pos⟩ := by
  rw [builtType, ← Node.diagnostics_mkUnary]
  rfl

theorem diagnostics_parenthesized (t : SymbolTable) (pos : Position) (inner : Expr) :
    ((parenthesized pos inner).build t).diagnostics = (inner.build t).diagnostics :=
  List.append_nil _

theorem hasType_iff (t : SymbolTable) (e : Expr) (type : Ty) :
    HasType t e type ↔ (e.build t).diagnostics = [] ∧ e.builtType t = type := by
  induction e generalizing type with
  | constant pos value =>
    constructor
    · intro h
      cases h
      exact ⟨rfl, rfl⟩
    · intro h
      obtain ⟨-, rfl⟩ := h
      exact .constant pos value
  | reference pos symbol =>
    constructor
    · intro h
      cases h
      exact ⟨rfl, rfl⟩
    · intro h
      obtain ⟨-, rfl⟩ := h
      exact .reference pos symbol
  | parenthesized pos inner ih =>
    rw [diagnostics_parenthesized]
    refine Iff.trans ⟨?_, .parenthesized pos⟩ (ih type)
    intro h
    cases h
    assumption
  | binary pos left op right ihleft ihright =>
    have htype : (binary pos left op right).builtType t =
        op.resultType (left.builtType t) (right.builtType t) := rfl
    have hgives : op.Gives [left.builtType t, right.builtType t] type ↔
        Operation.OperandRule op [left.builtType t, right.builtType t] ∧
          op.resultType (left.builtType t) (right.builtType t) = type :=
      Operator.gives_iff (by simp) (by simp)
    rw [diagnostics_binary, htype, List.append_eq_nil_iff, List.append_eq_nil_iff,
      List.map_eq_nil_iff, ← Operation.operandRule_iff]
    constructor
    · intro h
      cases h with
      | binary _ hleft hright hop =>
        obtain ⟨hleftClean, rfl⟩ := (ihleft _).mp hleft
        obtain ⟨hrightClean, rfl⟩ := (ihright _).mp hright
        obtain ⟨hrule, hresult⟩ := hgives.mp hop
        exact ⟨⟨hleftClean, hrightClean, hrule⟩, hresult⟩
    · intro h
      obtain ⟨⟨hleft, hright, hrule⟩, hresult⟩ := h
      exact .binary pos ((ihleft _).mpr ⟨hleft, rfl⟩) ((ihright _).mpr ⟨hright, rfl⟩)
        (hgives.mpr ⟨hrule, hresult⟩)
  | unary pos op right ih =>
    have htype : (unary pos op right).builtType t =
        op.resultType (right.builtType t) (right.builtType t) := rfl
    have hgives : op.Gives [right.builtType t] type ↔
        Operation.OperandRule op [right.builtType t] ∧
          op.resultType (right.builtType t) (right.builtType t) = type :=
      Operator.gives_iff (by simp) (by simp)
    rw [diagnostics_unary, htype, List.append_eq_nil_iff, List.map_eq_nil_iff,
      ← Operation.operandRule_iff]
    constructor
    · intro h
      cases h with
      | unary _ hright hop =>
        obtain ⟨hclean, rfl⟩ := (ih _).mp hright
        obtain ⟨hrule, hresult⟩ := hgives.mp hop
        exact ⟨⟨hclean, hrule⟩, hresult⟩
    · intro h
      obtain ⟨⟨hright, hrule⟩, hresult⟩ := h
      exact .unary pos ((ih _).mpr ⟨hright, rfl⟩)
        (hgives.mpr ⟨hrule, hresult⟩)

theorem length_diagnostics_build (t : SymbolTable) (e : Expr) :
    (e.build t).diagnostics.length = e.offences t := by
  induction e with
  | constant | reference => rfl
  | parenthesized pos inner ih => rw [diagnostics_parenthesized, ih, offences]
  | binary pos left op right ihleft ihright =>
    rw [diagnostics_binary, List.length_append, List.length_append, List.length_map,
      Operator.length_operandViolations, ihleft, ihright, offences, Nat.add_assoc]
    rfl
  | unary pos op right ih =>
    rw [diagnostics_unary, List.length_append, List.length_map,
      Operator.length_operandViolations, ih, offences]
    rfl

/-- Building an expression in a table decides whether it has a type there.  If it has one, it is
the type of the built node and no other.  In any case there is one diagnostic for each
offence. -/
theorem build_decides_hasType (t : SymbolTable) (e : Expr) :
    ((e.build t).diagnostics = [] ↔ ∃ type, HasType t e type) ∧
      (∀ type, HasType t e type → type = e.builtType t) ∧
      (e.build t).diagnostics.length = e.offences t := by
  refine ⟨⟨fun h => ?_, ?_⟩, fun type h => ((hasType_iff t e type).mp h).2.symm,
    length_diagnostics_build t e⟩
  · exact ⟨e.builtType t, (hasType_iff t e _).mpr ⟨h, rfl⟩⟩
  · intro h
    obtain ⟨type, h⟩ := h
    exact ((hasType_iff t e type).mp h).1

end Expr
end ImpFront
