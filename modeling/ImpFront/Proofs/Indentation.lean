/-
How the text of a tree is laid out.

One level deeper a tree has the same lines, each two spaces further to the right
(`outline_succ`).  Since no line has a line feed in it, the text is then indented as a whole
(`textAt_succ`), and the text of a node is made of its headline, its labels and the indented
texts of its parts (`pretty_eq`).

A node has a line of its own and one for each of its labels, so the number of lines is counted
over the nodes of the tree (`length_outline`).

The theorem this file exists for is `Node.layout`.
-/
import ImpFront.Proofs.OutlineText

namespace ImpFront

/-! ## Indented text -/

namespace Text

/-- Two spaces in front of each line of a text.  `start` says that a line starts here. -/
def indentFrom (start : Bool) : List Char → List Char
  | [] => []
  | c :: rest => (if start then [' ', ' ', c] else [c]) ++ indentFrom (c = '\n') rest

def indent (text : String) : String := String.ofList (indentFrom true text.toList)

/-- The rest of a line is passed over, and the next line starts behind its line feed. -/
theorem indentFrom_false_line {line : List Char} (h : '\n' ∉ line) (rest : List Char) :
    indentFrom false (line ++ '\n' :: rest) = line ++ '\n' :: indentFrom true rest := by
  induction line with
  | nil => rfl
  | cons c line ih =>
    have hc : c ≠ '\n' := fun heq => h (heq ▸ List.mem_cons_self)
    have hline : '\n' ∉ line := fun hmem => h (List.mem_cons_of_mem c hmem)
    rw [List.cons_append, indentFrom, decide_eq_false hc, ih hline]
    rfl

theorem indentFrom_true_line {line : List Char} (h : '\n' ∉ line) (rest : List Char) :
    indentFrom true (line ++ '\n' :: rest) =
      ' ' :: ' ' :: (line ++ '\n' :: indentFrom true rest) := by
  cases line with
  | nil => rfl
  | cons c line =>
    have hrest := indentFrom_false_line h rest
    rw [List.cons_append, indentFrom] at hrest ⊢
    exact congrArg (fun text => ' ' :: ' ' :: text) hrest

/-- Indenting lines one after the other is indenting each of them. -/
theorem indentFrom_lines {lines : List (List Char)} (h : ∀ line ∈ lines, '\n' ∉ line) :
    indentFrom true (lines.flatMap (· ++ ['\n'])) =
      lines.flatMap fun line => ' ' :: ' ' :: line ++ ['\n'] := by
  induction lines with
  | nil => rfl
  | cons line lines ih =>
    have hline := h line List.mem_cons_self
    have hlines := ih fun other hother => h other (List.mem_cons_of_mem line hother)
    rw [List.flatMap_cons, List.flatMap_cons, List.append_assoc, List.singleton_append,
      indentFrom_true_line hline, hlines]
    simp

end Text

namespace OutlineLine

/-- The line one level deeper. -/
def deeper (line : OutlineLine) : OutlineLine := ⟨line.depth + 1, line.text⟩

/-- The characters of a line in front of its line feed. -/
def body (line : OutlineLine) : List Char := indentation line.depth ++ line.text.toList

theorem toList_join_render (lines : List OutlineLine) :
    (String.join (lines.map render)).toList = (lines.map body).flatMap (· ++ ['\n']) := by
  rw [String.toList_join, List.flatMap_map, List.flatMap_map]
  exact List.flatMap_congr fun line _ => line.toList_render

theorem Plain.feed_not_mem_body {line : OutlineLine} (h : line.Plain) : '\n' ∉ line.body := by
  intro hmem
  rcases List.mem_append.mp hmem with hmem | hmem
  · exact feed_not_mem_indentation line.depth hmem
  · exact h.feed hmem

theorem indent_join_render {lines : List OutlineLine} (h : ∀ line ∈ lines, line.Plain) :
    Text.indent (String.join (lines.map render)) = String.join ((lines.map deeper).map render) := by
  apply String.toList_inj.mp
  have hbodies : ∀ line ∈ lines.map body, '\n' ∉ line := by
    intro line hline
    obtain ⟨outlineLine, hmem, rfl⟩ := List.mem_map.mp hline
    exact (h outlineLine hmem).feed_not_mem_body
  rw [Text.indent, String.toList_ofList, toList_join_render, toList_join_render,
    Text.indentFrom_lines hbodies, List.map_map, List.flatMap_map, List.flatMap_map]
  exact List.flatMap_congr fun line _ => rfl

end OutlineLine

namespace Node

variable {t : SymbolTable}

/-! ## Depth -/

/-- The text of a node at a depth. -/
def textAt (t : SymbolTable) (depth : Nat) (n : Node) : String :=
  String.join ((n.outline t depth).map OutlineLine.render)

theorem outline_succ (t : SymbolTable) (depth : Nat) (n : Node) :
    n.outline t (depth + 1) = (n.outline t depth).map OutlineLine.deeper := by
  induction n using induct_parts generalizing depth with
  | h n ih =>
    have hoperands : ∀ part ∈ n.operands, part.outline t (depth + 1 + 1) =
        (part.outline t (depth + 1)).map OutlineLine.deeper :=
      fun part hpart => ih part (mem_parts_of_mem_operands hpart) (depth + 1)
    have hsections : ∀ s ∈ n.sections, sectionOutline t (depth + 1 + 1) s =
        (sectionOutline t (depth + 1) s).map OutlineLine.deeper := by
      intro s hs
      rw [sectionOutline, sectionOutline, List.map_cons, List.map_flatMap]
      exact congrArg (List.cons _) (List.flatMap_congr fun part hpart =>
        ih part (mem_parts_of_mem_sections hs hpart) (depth + 1 + 1))
    rw [outline_eq, outline_eq, List.map_cons, List.map_append, List.map_flatMap, List.map_flatMap,
      List.flatMap_congr hoperands, List.flatMap_congr hsections]
    rfl

theorem textAt_succ (ht : ∀ name ∈ t.names, '\n' ∉ name.toList) (depth : Nat) (n : Node) :
    n.textAt t (depth + 1) = Text.indent (n.textAt t depth) := by
  rw [textAt, textAt, outline_succ, OutlineLine.indent_join_render fun _ => plain_outline ht]

/-- The text of pieces of an outline is the texts of the pieces, one after the other. -/
theorem join_render_flatMap {α : Type} (piece : α → List OutlineLine) (xs : List α) :
    String.join ((xs.flatMap piece).map OutlineLine.render) =
      String.join (xs.map fun x => String.join ((piece x).map OutlineLine.render)) := by
  induction xs with
  | nil => rfl
  | cons x xs ih =>
    rw [List.flatMap_cons, List.map_append, String.join_append, ih, List.map_cons, String.join_cons]

/-- A node shows its headline, then its parts one level below, then each label one level below and
the parts under it two levels below. -/
theorem pretty_eq (ht : ∀ name ∈ t.names, '\n' ∉ name.toList) (n : Node) :
    n.pretty t = n.headline t ++ "\n" ++
      String.join (n.operands.map fun part => Text.indent (part.pretty t)) ++
      String.join (n.sections.map fun s => "  " ++ s.1 ++ "\n" ++
        String.join (s.2.map fun part => Text.indent (Text.indent (part.pretty t)))) := by
  have hone : textAt t 1 = fun part => Text.indent (part.pretty t) :=
    funext fun part => textAt_succ ht 0 part
  have htwo : textAt t 2 = fun part => Text.indent (Text.indent (part.pretty t)) := by
    funext part
    rw [textAt_succ ht 1, hone]
  have hheadline : (OutlineLine.mk 0 (n.headline t)).render = n.headline t ++ "\n" := by
    simp [OutlineLine.render]
  have hoperands : String.join ((n.operands.flatMap (outline t 1)).map OutlineLine.render) =
      String.join (n.operands.map (textAt t 1)) :=
    join_render_flatMap _ _
  have hsection : ∀ s : String × List Node,
      String.join ((sectionOutline t 1 s).map OutlineLine.render) =
        "  " ++ s.1 ++ "\n" ++ String.join (s.2.map (textAt t 2)) := by
    intro s
    have hlabel : (OutlineLine.mk 1 s.1).render = "  " ++ s.1 ++ "\n" := by
      simp [OutlineLine.render]
    rw [sectionOutline, List.map_cons, String.join_cons, join_render_flatMap, hlabel]
    rfl
  rw [pretty, outline_eq, List.map_cons, List.map_append, String.join_cons, String.join_append,
    hoperands, join_render_flatMap, hheadline, ← String.append_assoc, hone]
  simp only [hsection, htwo]

/-! ## The number of lines -/

mutual
/-- The nodes of a tree, from its top.  An identifier list is one node, and what its first element
is followed by is no node of the tree. -/
def nodes : Node → List Node
  | n@(constant ..) | n@(reference ..) | n@(input ..) | n@(listElement ..) => [n]
  | n@(binary _ _ _ left right) => n :: (left.nodes ++ right.nodes)
  | n@(unary _ _ _ part) | n@(parenthesized _ _ part) | n@(assignment _ _ part)
  | n@(print _ part) => n :: part.nodes
  | n@(forLoop _ _ first last body) => n :: (first.nodes ++ last.nodes ++ nodesList body)
  | n@(whileLoop _ condition body) => n :: (condition.nodes ++ nodesList body)
  | n@(ifElse _ condition thenBody elseBody) =>
    n :: (condition.nodes ++ nodesList thenBody ++ nodesList elseBody)
  | n@(root _ declarations statements) => n :: (nodesList declarations ++ nodesList statements)

def nodesList : List Node → List Node
  | [] => []
  | n :: rest => n.nodes ++ nodesList rest
end

/-- The number of nodes of a kind. -/
def count (k : Keyword) (n : Node) : Nat := n.nodes.countP fun m => m.keyword = k

theorem nodesList_eq (ns : List Node) : nodesList ns = ns.flatMap nodes := by
  induction ns with
  | nil => rfl
  | cons n rest ih => rw [nodesList, ih, List.flatMap_cons]

theorem nodes_eq (n : Node) : n.nodes = n ::
    (n.operands.flatMap nodes ++ n.sections.flatMap fun s => s.2.flatMap nodes) := by
  cases n <;> simp [nodes, operands, sections, nodesList_eq]

/-- The lines that a node has besides those of its parts. -/
def ownLines (n : Node) : Nat := 1 + n.sections.length

theorem length_flatMap_outline {ns : List Node} {depth : Nat}
    (h : ∀ n ∈ ns, (n.outline t depth).length = (n.nodes.map ownLines).sum) :
    (ns.flatMap (outline t depth)).length = ((ns.flatMap nodes).map ownLines).sum := by
  rw [List.length_flatMap, List.map_congr_left h]
  induction ns with
  | nil => rfl
  | cons n rest ih =>
    rw [List.map_cons, List.sum_cons, ih fun m hm => h m (List.mem_cons_of_mem n hm),
      List.flatMap_cons, List.map_append, List.sum_append]

theorem length_flatMap_sectionOutline {ss : List (String × List Node)} {depth : Nat}
    (h : ∀ s ∈ ss, ∀ n ∈ s.2, (n.outline t (depth + 1)).length = (n.nodes.map ownLines).sum) :
    (ss.flatMap (sectionOutline t depth)).length =
      ss.length + ((ss.flatMap fun s => s.2.flatMap nodes).map ownLines).sum := by
  induction ss with
  | nil => rfl
  | cons s ss ih =>
    have hrest := ih fun u hu => h u (List.mem_cons_of_mem s hu)
    have hbody := length_flatMap_outline (h s List.mem_cons_self)
    rw [List.flatMap_cons, List.length_append, hrest, sectionOutline, List.length_cons, hbody,
      List.flatMap_cons, List.map_append, List.sum_append, List.length_cons]
    omega

theorem length_outline (t : SymbolTable) (depth : Nat) (n : Node) :
    (n.outline t depth).length = (n.nodes.map ownLines).sum := by
  induction n using induct_parts generalizing depth with
  | h n ih =>
    have hoperands : (n.operands.flatMap (outline t (depth + 1))).length =
        ((n.operands.flatMap nodes).map ownLines).sum :=
      length_flatMap_outline fun part hpart => ih part (mem_parts_of_mem_operands hpart) _
    have hsections : (n.sections.flatMap (sectionOutline t (depth + 1))).length =
        n.sections.length + ((n.sections.flatMap fun s => s.2.flatMap nodes).map ownLines).sum :=
      length_flatMap_sectionOutline fun s hs part hpart =>
        ih part (mem_parts_of_mem_sections hs hpart) _
    rw [outline_eq, nodes_eq, List.length_cons, List.length_append, hoperands, hsections,
      List.map_cons, List.sum_cons, List.map_append, List.sum_append, ownLines]
    omega

/-- Which labels a node has is a matter of its kind. -/
theorem sum_ownLines (ns : List Node) :
    let count (k : Keyword) := ns.countP fun n => n.keyword = k
    (ns.map ownLines).sum = ns.length + 2 * count .root + count .forLoop + count .whileLoop +
      2 * count .ifElse := by
  intro count
  induction ns with
  | nil => rfl
  | cons n rest ih =>
    have hlabels : n.sections.length = n.keyword.labels.length := by
      rw [← map_fst_sections, List.length_map]
    simp only [count, List.map_cons, List.sum_cons, List.length_cons, List.countP_cons, ownLines,
      hlabels] at ih ⊢
    cases n.keyword <;> simp [Keyword.labels] <;> omega

/-- Only an identifier list has a part that it does not show. -/
theorem operands_append_sections {n : Node} (h : n.keyword ≠ .list) :
    n.operands ++ n.sections.flatMap Prod.snd = n.parts := by
  cases n with
  | listElement => exact absurd rfl h
  | _ => simp [operands, sections, parts]

/-- One level deeper, the text of a tree is indented by two spaces.  At each depth it is made of
lines, one for each node and one for each label.  A text holds the texts of the parts in their
order, those right below the headline indented once and those under a label indented twice, and
all parts of a node are among them, unless it is an identifier list. -/
theorem layout (ht : ∀ name ∈ t.names, '\n' ∉ name.toList) (n : Node) :
    (∀ depth, n.textAt t (depth + 1) = Text.indent (n.textAt t depth)) ∧
    (∀ depth, ∃ lines : List String, lines ≠ [] ∧ (∀ line ∈ lines, '\n' ∉ line.toList) ∧
      n.textAt t depth = String.join (lines.map (· ++ "\n")) ∧
      lines.length = n.nodes.length + 2 * n.count .root + n.count .forLoop +
        n.count .whileLoop + 2 * n.count .ifElse) ∧
    n.pretty t = n.textAt t 0 ∧
    n.pretty t = n.headline t ++ "\n" ++
      String.join (n.operands.map fun part => Text.indent (part.pretty t)) ++
      String.join (n.sections.map fun s => "  " ++ s.1 ++ "\n" ++
        String.join (s.2.map fun part => Text.indent (Text.indent (part.pretty t)))) ∧
    (n.keyword ≠ .list → n.operands ++ n.sections.flatMap Prod.snd = n.parts) := by
  refine ⟨fun depth => textAt_succ ht depth n, fun depth => ?_, rfl, pretty_eq ht n,
    operands_append_sections⟩
  refine ⟨(n.outline t depth).map fun line => String.ofList line.body, ?_, ?_, ?_, ?_⟩
  · rw [outline_eq]
    exact List.cons_ne_nil _ _
  · intro line hline
    obtain ⟨outlineLine, hmem, rfl⟩ := List.mem_map.mp hline
    rw [String.toList_ofList]
    exact (plain_outline ht hmem).feed_not_mem_body
  · apply String.toList_inj.mp
    rw [textAt, OutlineLine.toList_join_render, String.toList_join, List.flatMap_map,
      List.flatMap_map, List.flatMap_map]
    refine List.flatMap_congr fun line _ => ?_
    rw [String.toList_append, String.toList_ofList]
    rfl
  · rw [List.length_map, length_outline, sum_ownLines]
    rfl

/-- A program with a loop whose body prints a line feed.  The constant that holds it is one line, as
every other node. -/
theorem layout_of_printed_feed :
    let t : SymbolTable := { entries := [{ name := "n" }] }
    let list : Node := .listElement .null ⟨0⟩ none
    let text : Node := .print .null (.constant .null (.string "\n"))
    let loop : Node := .whileLoop .null (.reference .null .boolean ⟨0⟩) [.input .null ⟨0⟩, text]
    let n : Node := .root .null [list] [loop]
    (∀ name ∈ t.names, '\n' ∉ name.toList) ∧
      n.textAt t 1 = Text.indent (n.pretty t) ∧
      n.pretty t = "Root\n" ++ "  Declarations\n" ++ Text.indent (Text.indent (list.pretty t)) ++
        "  Statements\n" ++ Text.indent (Text.indent (loop.pretty t)) ∧
      ∃ lines : List String,
        n.pretty t = String.join (lines.map (· ++ "\n")) ∧ lines.length = 10 := by
  intro t list text loop n
  have ht : ∀ name ∈ t.names, '\n' ∉ name.toList := by decide
  obtain ⟨hdeeper, hlines, -, hparts, -⟩ := layout ht n
  obtain ⟨lines, -, -, hjoin, hlength⟩ := hlines 0
  refine ⟨ht, hdeeper 0, ?_, lines, hjoin, hlength.trans (by decide)⟩
  rw [hparts]
  simp [n, operands, sections, headline, ← String.append_assoc]

end Node
end ImpFront
