/-
The variables that a node names, and the node without what says where and when it was built.

`Node.mentions` lists every handle in a node, in the order of the text, with the construct that
holds it.  What a node shows, and the type it has, depend on a table only through the names and
types of these handles (`typeIn_congr`, `pretty_congr`).

`Node.relabel` changes the positions of a node and the types that references and parentheses
were built with.  No other function on nodes reads either of them.

The lines of a node are its headline, then the lines of its `operands` one level below, then its
`sections`, each under a label (`outline_eq`).
-/
import ImpFront.Node.Outline
import ImpFront.Proofs.Symbols

namespace ImpFront

/-- The constructs that name a variable. -/
inductive Construct where
  | reference
  | assignment
  | input
  | forLoop
  | listElement
  deriving DecidableEq, Repr

namespace Node

mutual
/-- The variables named in a node, by their handles. -/
def mentions : Node → List (Construct × SymbolId)
  | constant .. => []
  | reference _ _ symbol => [(.reference, symbol)]
  | binary _ _ _ left right => left.mentions ++ right.mentions
  | unary _ _ _ part | parenthesized _ _ part | print _ part => part.mentions
  | assignment _ target expression => (.assignment, target) :: expression.mentions
  | input _ target => [(.input, target)]
  | forLoop _ counter first last body =>
    (.forLoop, counter) :: (first.mentions ++ last.mentions ++ mentionsList body)
  | whileLoop _ condition body => condition.mentions ++ mentionsList body
  | ifElse _ condition thenBody elseBody =>
    condition.mentions ++ mentionsList thenBody ++ mentionsList elseBody
  | root _ declarations statements => mentionsList declarations ++ mentionsList statements
  | listElement _ symbol none => [(.listElement, symbol)]
  | listElement _ symbol (some next) => (.listElement, symbol) :: next.mentions

def mentionsList : List Node → List (Construct × SymbolId)
  | [] => []
  | n :: rest => n.mentions ++ mentionsList rest
end

def handles (n : Node) : List SymbolId := n.mentions.map Prod.snd

/-- The variable that a node names itself, not by way of its parts. -/
def own : Node → Option (Construct × SymbolId)
  | reference _ _ symbol => some (.reference, symbol)
  | assignment _ target _ => some (.assignment, target)
  | input _ target => some (.input, target)
  | forLoop _ counter _ _ _ => some (.forLoop, counter)
  | listElement _ symbol _ => some (.listElement, symbol)
  | constant .. | binary .. | unary .. | parenthesized .. | print .. | whileLoop .. | ifElse ..
  | root .. => none

/-- The nodes that a node is made of, without their own parts. -/
def parts : Node → List Node
  | constant .. | reference .. | input .. | listElement _ _ none => []
  | binary _ _ _ left right => [left, right]
  | unary _ _ _ part | parenthesized _ _ part | assignment _ _ part | print _ part
  | listElement _ _ (some part) => [part]
  | forLoop _ _ first last body => first :: last :: body
  | whileLoop _ condition body => condition :: body
  | ifElse _ condition thenBody elseBody => condition :: (thenBody ++ elseBody)
  | root _ declarations statements => declarations ++ statements

mutual
/-- The node at other positions, and with other types in its references and parentheses. -/
def relabel (place : Position → Position) (view : Ty → Ty) : Node → Node
  | constant pos value => constant (place pos) value
  | reference pos seen symbol => reference (place pos) (view seen) symbol
  | binary pos type op left right =>
    binary (place pos) type op (left.relabel place view) (right.relabel place view)
  | unary pos type op right => unary (place pos) type op (right.relabel place view)
  | parenthesized pos seen inner =>
    parenthesized (place pos) (view seen) (inner.relabel place view)
  | assignment pos target expression =>
    assignment (place pos) target (expression.relabel place view)
  | print pos expression => print (place pos) (expression.relabel place view)
  | input pos target => input (place pos) target
  | forLoop pos counter first last body =>
    forLoop (place pos) counter (first.relabel place view) (last.relabel place view)
      (relabelList place view body)
  | whileLoop pos condition body =>
    whileLoop (place pos) (condition.relabel place view) (relabelList place view body)
  | ifElse pos condition thenBody elseBody =>
    ifElse (place pos) (condition.relabel place view) (relabelList place view thenBody)
      (relabelList place view elseBody)
  | root pos declarations statements =>
    root (place pos) (relabelList place view declarations) (relabelList place view statements)
  | listElement pos symbol none => listElement (place pos) symbol none
  | listElement pos symbol (some next) =>
    listElement (place pos) symbol (some (next.relabel place view))

def relabelList (place : Position → Position) (view : Ty → Ty) : List Node → List Node
  | [] => []
  | n :: rest => n.relabel place view :: relabelList place view rest
end

/-- The node without its positions. -/
def unplaced (n : Node) : Node := n.relabel (fun _ => .null) id

/-- The node without its positions and without the types that its references and parentheses
were built with. -/
def bare (n : Node) : Node := n.relabel (fun _ => .null) fun _ => .undetermined

/-! ## Lists of nodes -/

theorem mentionsList_eq (ns : List Node) : mentionsList ns = ns.flatMap mentions := by
  induction ns with
  | nil => rfl
  | cons n rest ih => rw [mentionsList, ih, List.flatMap_cons]

/-- A node names its own variable, if it has one, and what its parts name. -/
theorem mentions_eq (n : Node) : n.mentions = n.own.toList ++ n.parts.flatMap mentions := by
  cases n with
  | listElement pos symbol next => cases next <;> simp [mentions, own, parts]
  | _ => simp [mentions, own, parts, mentionsList_eq]

theorem relabelList_eq (place : Position → Position) (view : Ty → Ty) (ns : List Node) :
    relabelList place view ns = ns.map (relabel place view) := by
  induction ns with
  | nil => rfl
  | cons n rest ih => rw [relabelList, ih, List.map_cons]

theorem outlineList_eq (t : SymbolTable) (depth : Nat) (ns : List Node) :
    outlineList t depth ns = ns.flatMap (outline t depth) := by
  induction ns with
  | nil => rfl
  | cons n rest ih => rw [outlineList, ih, List.flatMap_cons]

/-- What holds of a node if it holds of its parts holds of every node.  The parts of a node are
those it holds directly and those in its lists, and an element of an identifier list is the last
one or is followed by a node. -/
@[elab_as_elim]
theorem induct {P : Node → Prop}
    (constant : ∀ pos value, P (constant pos value))
    (reference : ∀ pos seen symbol, P (reference pos seen symbol))
    (binary : ∀ pos type op left right, P left → P right → P (binary pos type op left right))
    (unary : ∀ pos type op right, P right → P (unary pos type op right))
    (parenthesized : ∀ pos seen inner, P inner → P (parenthesized pos seen inner))
    (assignment : ∀ pos target expression, P expression → P (assignment pos target expression))
    (print : ∀ pos expression, P expression → P (print pos expression))
    (input : ∀ pos target, P (input pos target))
    (forLoop : ∀ pos counter first last body, P first → P last → (∀ n ∈ body, P n) →
      P (forLoop pos counter first last body))
    (whileLoop : ∀ pos condition body, P condition → (∀ n ∈ body, P n) →
      P (whileLoop pos condition body))
    (ifElse : ∀ pos condition thenBody elseBody, P condition → (∀ n ∈ thenBody, P n) →
      (∀ n ∈ elseBody, P n) → P (ifElse pos condition thenBody elseBody))
    (root : ∀ pos declarations statements, (∀ n ∈ declarations, P n) →
      (∀ n ∈ statements, P n) → P (root pos declarations statements))
    (lastElement : ∀ pos symbol, P (listElement pos symbol none))
    (listElement : ∀ pos symbol next, P next → P (listElement pos symbol (some next)))
    (n : Node) : P n := by
  refine @Node.rec P (fun ns => ∀ n ∈ ns, P n) (fun next => ∀ n ∈ next, P n) constant reference
    binary unary parenthesized assignment print input forLoop whileLoop ifElse root
    (fun pos symbol next hnext => ?_) ?_ ?_ ?_ ?_ n
  · cases next with
    | none => exact lastElement pos symbol
    | some next => exact listElement pos symbol next (hnext next rfl)
  · exact fun n hn => absurd hn List.not_mem_nil
  · intro first rest hfirst hrest n hn
    rcases List.mem_cons.mp hn with rfl | hn
    · exact hfirst
    · exact hrest n hn
  · exact fun n hn => by cases hn
  · intro next hnext n hn
    cases hn
    exact hnext

/-- What holds of a node if it holds of all its parts holds of every node. -/
theorem induct_parts {P : Node → Prop} (h : ∀ n, (∀ part ∈ n.parts, P part) → P n) (n : Node) :
    P n := by
  induction n using Node.induct with
  | constant | reference | input | lastElement => exact h _ fun _ hpart => by cases hpart
  | unary pos type op right ih | parenthesized pos seen inner ih | assignment pos target inner ih
  | print pos inner ih | listElement pos symbol inner ih =>
    exact h _ fun part hpart => List.mem_singleton.mp hpart ▸ ih
  | binary pos type op left right ihleft ihright =>
    refine h _ fun part hpart => ?_
    rcases List.mem_pair.mp hpart with rfl | rfl
    · exact ihleft
    · exact ihright
  | forLoop pos counter first last body ihfirst ihlast ihbody =>
    refine h _ fun part hpart => ?_
    rcases List.mem_cons.mp hpart with rfl | hpart
    · exact ihfirst
    rcases List.mem_cons.mp hpart with rfl | hpart
    · exact ihlast
    · exact ihbody part hpart
  | whileLoop pos condition body ihcondition ihbody =>
    refine h _ fun part hpart => ?_
    rcases List.mem_cons.mp hpart with rfl | hpart
    · exact ihcondition
    · exact ihbody part hpart
  | ifElse pos condition thenBody elseBody ihcondition ihthen ihelse =>
    refine h _ fun part hpart => ?_
    rcases List.mem_cons.mp hpart with rfl | hpart
    · exact ihcondition
    · exact (List.mem_append.mp hpart).elim (ihthen part) (ihelse part)
  | root pos declarations statements ihdeclarations ihstatements =>
    exact h _ fun part hpart =>
      (List.mem_append.mp hpart).elim (ihdeclarations part) (ihstatements part)

/-! ## Relabelled nodes -/

section Relabel

variable (place place' : Position → Position) (view view' : Ty → Ty)

theorem relabel_relabel (n : Node) :
    (n.relabel place view).relabel place' view' = n.relabel (place' ∘ place) (view' ∘ view) := by
  have hlist {ns : List Node} (h : ∀ n ∈ ns,
      (n.relabel place view).relabel place' view' = n.relabel (place' ∘ place) (view' ∘ view)) :
      relabelList place' view' (relabelList place view ns) =
        relabelList (place' ∘ place) (view' ∘ view) ns := by
    simp only [relabelList_eq, List.map_map]
    exact List.map_congr_left h
  induction n using Node.induct with
  | constant | reference | input | lastElement => rfl
  | unary pos type op inner ih | parenthesized pos seen inner ih | assignment pos target inner ih
  | print pos inner ih | listElement pos symbol inner ih =>
    simp only [relabel, ih, Function.comp_apply]
  | binary pos type op left right ihleft ihright =>
    simp only [relabel, ihleft, ihright, Function.comp_apply]
  | forLoop pos counter first last body ihfirst ihlast ihbody =>
    simp only [relabel, ihfirst, ihlast, hlist ihbody, Function.comp_apply]
  | whileLoop pos condition body ihcondition ihbody =>
    simp only [relabel, ihcondition, hlist ihbody, Function.comp_apply]
  | ifElse pos condition thenBody elseBody ihcondition ihthen ihelse =>
    simp only [relabel, ihcondition, hlist ihthen, hlist ihelse, Function.comp_apply]
  | root pos declarations statements ihdeclarations ihstatements =>
    simp only [relabel, hlist ihdeclarations, hlist ihstatements, Function.comp_apply]

theorem unplaced_unplaced (n : Node) : n.unplaced.unplaced = n.unplaced :=
  relabel_relabel _ _ _ _ n

theorem typeIn_relabel (t : SymbolTable) (n : Node) :
    (n.relabel place view).typeIn t = n.typeIn t := by
  induction n using Node.induct with
  | parenthesized pos seen inner ih => exact ih
  | _ => rfl

theorem listSymbols_relabel (n : Node) : (n.relabel place view).listSymbols = n.listSymbols := by
  induction n using Node.induct with
  | listElement pos symbol next ih => exact congrArg (List.cons symbol) ih
  | _ => rfl

theorem link?_relabel (n tail : Node) :
    (n.relabel place view).link? (tail.relabel place view) =
      (n.link? tail).map (relabel place view) := by
  induction n using Node.induct with
  | listElement pos symbol next ih =>
    rw [relabel, link?, link?, ih, Option.map_map, Option.map_map]
    rfl
  | _ => rfl

end Relabel

/-! ## Lines of a node -/

/-- The parts right below the headline. -/
def operands : Node → List Node
  | constant .. | reference .. | input .. | root .. | listElement .. => []
  | unary _ _ _ part | parenthesized _ _ part | assignment _ _ part | print _ part
  | whileLoop _ part _ | ifElse _ part _ _ => [part]
  | binary _ _ _ first second | forLoop _ _ first second _ => [first, second]

/-- The labels below the headline and the parts under each of them. -/
def sections : Node → List (String × List Node)
  | forLoop _ _ _ _ body | whileLoop _ _ body => [("Do", body)]
  | ifElse _ _ thenBody elseBody => [("Then", thenBody), ("Else", elseBody)]
  | root _ declarations statements =>
    [("Declarations", declarations), ("Statements", statements)]
  | constant .. | reference .. | binary .. | unary .. | parenthesized .. | assignment ..
  | print .. | input .. | listElement .. => []

/-- A label at a depth and the parts under it. -/
def sectionOutline (t : SymbolTable) (depth : Nat) (s : String × List Node) : List OutlineLine :=
  ⟨depth, s.1⟩ :: s.2.flatMap (outline t (depth + 1))

theorem outline_eq (t : SymbolTable) (depth : Nat) (n : Node) :
    n.outline t depth = ⟨depth, n.headline t⟩ ::
      (n.operands.flatMap (outline t (depth + 1)) ++
        n.sections.flatMap (sectionOutline t (depth + 1))) := by
  cases n <;> simp [outline, operands, sections, sectionOutline, outlineList_eq]

/-- An element of an identifier list shows what follows it on its own line, and every other node
shows its parts. -/
theorem operands_append_sections_subset (n : Node) :
    n.operands ++ n.sections.flatMap Prod.snd ⊆ n.parts := by
  cases n with
  | listElement => exact List.nil_subset _
  | _ => simp [operands, sections, parts]

theorem mem_parts_of_mem_operands {n part : Node} (h : part ∈ n.operands) : part ∈ n.parts :=
  n.operands_append_sections_subset (List.mem_append_left _ h)

theorem mem_parts_of_mem_sections {n part : Node} {s : String × List Node} (hs : s ∈ n.sections)
    (h : part ∈ s.2) : part ∈ n.parts :=
  n.operands_append_sections_subset
    (List.mem_append_right _ (List.mem_flatMap.mpr ⟨s, hs, h⟩))

end Node

/-! ## What a node has from a table -/

/-- Two tables give the same names and types to the handles. -/
def SymbolTable.AgreeOn (t t' : SymbolTable) (ids : List SymbolId) : Prop :=
  ∀ id ∈ ids, t.nameOf id = t'.nameOf id ∧ t.typeOf id = t'.typeOf id

namespace Node

variable {t t' : SymbolTable}

theorem listSymbols_subset_handles (n : Node) : n.listSymbols ⊆ n.handles := by
  induction n using Node.induct with
  | lastElement pos symbol => exact List.Subset.refl _
  | listElement pos symbol next ih => exact List.cons_subset_cons symbol ih
  | _ => exact List.nil_subset _

theorem handles_subset_of_mem_parts {n part : Node} (h : part ∈ n.parts) :
    part.handles ⊆ n.handles := by
  have hmentions : part.mentions ⊆ n.mentions := by
    rw [n.mentions_eq]
    exact fun m hm => List.mem_append_right _ (List.mem_flatMap.mpr ⟨part, h, hm⟩)
  exact List.map_subset Prod.snd hmentions

theorem agreeOn_part {n part : Node} (h : t.AgreeOn t' n.handles) (hpart : part ∈ n.parts) :
    t.AgreeOn t' part.handles :=
  fun id hid => h id (handles_subset_of_mem_parts hpart hid)

theorem typeIn_congr {n : Node} (h : t.AgreeOn t' n.handles) : n.typeIn t = n.typeIn t' := by
  induction n using Node.induct with
  | reference pos seen symbol => exact (h symbol List.mem_cons_self).2
  | parenthesized pos seen inner ih => exact ih h
  | _ => rfl

theorem headline_congr {n : Node} (h : t.AgreeOn t' n.handles) :
    n.headline t = n.headline t' := by
  cases n with
  | reference pos seen symbol =>
    obtain ⟨hname, htype⟩ := h symbol List.mem_cons_self
    rw [headline, headline, hname, htype]
  | assignment pos target expression =>
    rw [headline, headline, (h target List.mem_cons_self).1]
  | input pos target => rw [headline, headline, (h target List.mem_cons_self).1]
  | forLoop pos counter first last body =>
    rw [headline, headline, (h counter List.mem_cons_self).1]
  | listElement pos symbol next =>
    have hnames : (listElement pos symbol next).listSymbols.map t.nameOf =
        (listElement pos symbol next).listSymbols.map t'.nameOf :=
      List.map_congr_left fun id hid => (h id (listSymbols_subset_handles _ hid)).1
    rw [headline, headline, hnames]
  | _ => rfl

theorem outline_congr {n : Node} (h : t.AgreeOn t' n.handles) (depth : Nat) :
    n.outline t depth = n.outline t' depth := by
  induction n using induct_parts generalizing depth with
  | h n ih =>
    have hpart : ∀ part ∈ n.parts, ∀ depth, part.outline t depth = part.outline t' depth :=
      fun part hmem => ih part hmem (agreeOn_part h hmem)
    have hoperands : ∀ part ∈ n.operands,
        part.outline t (depth + 1) = part.outline t' (depth + 1) :=
      fun part hmem => hpart part (mem_parts_of_mem_operands hmem) (depth + 1)
    have hsections : ∀ s ∈ n.sections,
        sectionOutline t (depth + 1) s = sectionOutline t' (depth + 1) s := by
      intro s hs
      rw [sectionOutline, sectionOutline, List.flatMap_congr fun part hmem =>
        hpart part (mem_parts_of_mem_sections hs hmem) (depth + 1 + 1)]
    rw [outline_eq, outline_eq, headline_congr h, List.flatMap_congr hoperands,
      List.flatMap_congr hsections]

theorem pretty_congr {n : Node} (h : t.AgreeOn t' n.handles) : n.pretty t = n.pretty t' := by
  rw [pretty, pretty, outline_congr h]

end Node
end ImpFront
