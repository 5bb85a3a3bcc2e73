/-
Putting a node at the end of an identifier list.

A list element is followed by any node, so the nodes that follow one another (`Node.chain`) need
not all be elements, and a chain that ends in another node takes no further one.  `Node.linked` is
a node after an attempt to put another one at its end, which leaves it alone where it is no list.
With this reading the two ways to put three nodes together agree for all nodes (`linked_assoc`),
whether or not the links go well.

`linked_appends` says what a link does to the nodes of a workbench, and what a list names after any
number of links.
-/
import ImpFront.Workbench
import ImpFront.Proofs.Nodes

namespace ImpFront
namespace Node

/-- The node, and all nodes that follow it. -/
def chain : Node → List Node
  | listElement pos symbol (some next) => listElement pos symbol (some next) :: next.chain
  | n => [n]

/-- What an element of an identifier list holds besides the node that follows it. -/
def element? : Node → Option (Position × SymbolId)
  | listElement pos symbol _ => some (pos, symbol)
  | _ => none

def symbol? (n : Node) : Option SymbolId := n.element?.map Prod.snd

/-- All nodes of the chain are elements of an identifier list. -/
def IsList (n : Node) : Prop := ∀ part ∈ n.chain, part.element?.isSome = true

/-- The node after an attempt to put `tail` at its end. -/
def linked (n tail : Node) : Node := (n.link? tail).getD n

/-! ## One link -/

theorem isList_lastElement (pos : Position) (symbol : SymbolId) :
    (listElement pos symbol none).IsList := by
  simp [IsList, chain, element?]

theorem isList_listElement_iff (pos : Position) (symbol : SymbolId) (next : Node) :
    (listElement pos symbol (some next)).IsList ↔ next.IsList := by
  simp [IsList, chain, element?]

theorem isSome_link?_iff (n tail : Node) : (n.link? tail).isSome = true ↔ n.IsList := by
  induction n using Node.induct with
  | lastElement pos symbol => exact iff_of_true rfl (isList_lastElement pos symbol)
  | listElement pos symbol next ih =>
    rw [link?, Option.isSome_map, ih, isList_listElement_iff]
  | _ => exact iff_of_false (by simp [link?]) (by simp [IsList, chain, element?])

theorem linked_of_link? {n tail list : Node} (h : n.link? tail = some list) :
    n.linked tail = list := by
  rw [linked, h, Option.getD_some]

theorem linked_of_not_isList {n : Node} (h : ¬ n.IsList) (tail : Node) : n.linked tail = n := by
  rw [← isSome_link?_iff n tail, Bool.not_eq_true, Option.isSome_eq_false_iff,
    Option.isNone_iff_eq_none] at h
  rw [linked, h, Option.getD_none]

theorem link?_of_isList {n : Node} (h : n.IsList) (tail : Node) :
    n.link? tail = some (n.linked tail) := by
  obtain ⟨list, hlist⟩ := Option.isSome_iff_exists.mp ((isSome_link?_iff n tail).mpr h)
  rw [hlist, linked_of_link? hlist]

theorem linked_listElement (pos : Position) (symbol : SymbolId) (next tail : Node) :
    (listElement pos symbol (some next)).linked tail =
      listElement pos symbol (some (next.linked tail)) := by
  rw [linked, link?, linked]
  cases next.link? tail <;> rfl

/-- The elements that are there keep what they hold, and the new nodes follow as they are. -/
theorem exists_chain_linked {n : Node} (h : n.IsList) (tail : Node) :
    ∃ kept, (n.linked tail).chain = kept ++ tail.chain ∧
      kept.map element? = n.chain.map element? := by
  induction n using Node.induct with
  | lastElement pos symbol => exact ⟨[listElement pos symbol (some tail)], rfl, rfl⟩
  | listElement pos symbol next ih =>
    obtain ⟨kept, hchain, hkept⟩ := ih ((isList_listElement_iff pos symbol next).mp h)
    refine ⟨listElement pos symbol (some (next.linked tail)) :: kept, ?_, ?_⟩
    · rw [linked_listElement, chain, hchain, List.cons_append]
    · rw [chain, List.map_cons, List.map_cons, hkept]
      rfl
  | _ => simp [IsList, chain, element?] at h

theorem isList_linked {n tail : Node} (hn : n.IsList) (htail : tail.IsList) :
    (n.linked tail).IsList := by
  induction n using Node.induct with
  | lastElement pos symbol => exact (isList_listElement_iff pos symbol tail).mpr htail
  | listElement pos symbol next ih =>
    rw [linked_listElement, isList_listElement_iff]
    exact ih ((isList_listElement_iff pos symbol next).mp hn)
  | _ => simp [IsList, chain, element?] at hn

/-- Where `b` is no list, neither way puts `c` anywhere, and where `a` is no list it stays. -/
theorem linked_assoc (a b c : Node) : a.linked (b.linked c) = (a.linked b).linked c := by
  induction a using Node.induct with
  | lastElement pos symbol => exact (linked_listElement pos symbol b c).symm
  | listElement pos symbol next ih =>
    rw [linked_listElement, linked_listElement, linked_listElement, ih]
  | _ => rfl

/-! ## Links one after the other -/

/-- The symbols of a list are those of the elements of its chain, which only the last node of it
can fail to be. -/
theorem listSymbols_eq (n : Node) : n.listSymbols = n.chain.filterMap symbol? := by
  induction n using Node.induct with
  | listElement pos symbol next ih =>
    rw [listSymbols, ih]
    rfl
  | _ => rfl

theorem listSymbols_foldlM_link? {head list : Node} {tails : List Node}
    (h : tails.foldlM link? head = some list) :
    list.listSymbols = (head :: tails).flatMap listSymbols := by
  induction tails generalizing head with
  | nil =>
    cases h
    exact (List.append_nil _).symm
  | cons tail rest ih =>
    obtain ⟨longer, hlonger, hrest⟩ := Option.bind_eq_some_iff.mp h
    rw [ih hrest, List.flatMap_cons, listSymbols_of_link? hlonger, List.append_assoc]
    rfl

theorem exists_foldlM_link? {head : Node} {tails : List Node} (hhead : head.IsList)
    (htails : ∀ tail ∈ tails, tail.IsList) :
    ∃ list, tails.foldlM link? head = some list ∧ list.IsList := by
  induction tails generalizing head with
  | nil => exact ⟨head, rfl, hhead⟩
  | cons tail rest ih =>
    have hlonger := isList_linked hhead (htails tail List.mem_cons_self)
    obtain ⟨list, hlist, hproper⟩ :=
      ih hlonger fun other hother => htails other (List.mem_cons_of_mem tail hother)
    refine ⟨list, ?_, hproper⟩
    rw [List.foldlM_cons, link?_of_isList hhead]
    exact hlist

end Node

namespace Workbench

theorem exec_link {w : Workbench} {index next : Nat} {n tail : Node}
    (hn : w.nodes[index]? = some n) (htail : w.nodes[next]? = some tail) :
    w.exec (.link index next) =
      (some (.flag (n.link? tail).isSome),
        { w with nodes := w.nodes.set index (n.linked tail) }) := by
  rw [exec, hn, htail]
  cases hlink : n.link? tail with
  | some list => simp [link, hlink, Node.linked_of_link? hlink]
  | none =>
    have hsame : n.linked tail = n := by rw [Node.linked, hlink, Option.getD_none]
    have hnodes : w.nodes.set index n = w.nodes := by
      obtain ⟨hlt, rfl⟩ := List.getElem?_eq_some_iff.mp hn
      exact List.set_getElem_self hlt
    simp [link, hlink, hsame, hnodes]

end Workbench

/-- A link goes well exactly if all nodes that follow one another from the first node are elements
of a list.  Then the elements stay what they are, the second node follows them unchanged, and the
symbols of the second follow those of the first.  Otherwise nothing changes.  It does not matter
in which order three nodes are put together.  So after links of lists to a list, which all go
well, the list names the symbols of all their elements in the order of the links, and declares
these. -/
theorem Node.linked_appends :
    (∀ (w : Workbench) (index next : Nat) (n tail : Node),
      w.nodes[index]? = some n → w.nodes[next]? = some tail →
        ((w.exec (.link index next)).1 = some (.flag true) ↔ n.IsList) ∧
        ((w.exec (.link index next)).1 = some (.flag false) ↔ ¬ n.IsList) ∧
        (w.exec (.link index next)).2 = { w with nodes := w.nodes.set index (n.linked tail) }) ∧
    (∀ n tail : Node, n.IsList →
      (∃ kept, (n.linked tail).chain = kept ++ tail.chain ∧
        kept.map element? = n.chain.map element?) ∧
      (n.linked tail).listSymbols = n.listSymbols ++ tail.listSymbols) ∧
    (∀ n tail : Node, ¬ n.IsList → n.linked tail = n) ∧
    (∀ a b c : Node, a.linked (b.linked c) = (a.linked b).linked c) ∧
    ∀ (head : Node) (tails : List Node),
      (head.IsList → (∀ tail ∈ tails, tail.IsList) →
        ∃ list, tails.foldlM link? head = some list ∧ list.IsList) ∧
      ∀ list, tails.foldlM link? head = some list →
        let named := ((head :: tails).flatMap chain).filterMap symbol?
        list.listSymbols = named ∧ ∀ (t : SymbolTable) (type : Ty) (pos : Position),
          t.declareList list type pos = t.declareAll named type pos := by
  refine ⟨fun w index next n tail hn htail => ?_, fun n tail hlist => ?_,
    fun n tail hn => linked_of_not_isList hn tail, linked_assoc,
    fun head tails => ⟨exists_foldlM_link?, fun list hlist => ?_⟩⟩
  · rw [Workbench.exec_link hn htail, ← isSome_link?_iff n tail]
    simp
  · exact ⟨exists_chain_linked hlist tail, listSymbols_of_link? (link?_of_isList hlist tail)⟩
  · intro named
    have hsymbols : list.listSymbols = named := by
      have hnamed : named = (head :: tails).flatMap fun n => n.chain.filterMap symbol? :=
        List.filterMap_flatMap
      rw [listSymbols_foldlM_link? hlist, hnamed]
      exact List.flatMap_congr fun n _ => n.listSymbols_eq
    refine ⟨hsymbols, fun t type pos => ?_⟩
    rw [SymbolTable.declareList, hsymbols]

/-- The nodes `a`, `b` and `3`.  The number can be linked to a list, and nothing to the number. -/
theorem Node.linked_appends_of_number_in_list :
    let pos := Position.null
    let a := listElement pos ⟨0⟩ none
    let b := listElement pos ⟨1⟩ none
    let three := constant pos (.integer 3)
    let w : Workbench := { session := .new {}, nodes := [a, b, three] }
    (w.exec (.link 0 2)).1 = some (.flag true) ∧
      (w.exec (.link 2 0)).1 = some (.flag false) ∧
      (a.linked three).linked b = a.linked three ∧
      (a.linked b).listSymbols = [⟨0⟩, ⟨1⟩] ∧
      ∃ list, [b, a].foldlM link? a = some list ∧ list.listSymbols = [⟨0⟩, ⟨1⟩, ⟨0⟩] := by
  intro pos a b three w
  have ha : a.IsList := isList_lastElement pos ⟨0⟩
  have hb : b.IsList := isList_lastElement pos ⟨1⟩
  have hthree : ¬ three.IsList := by simp [IsList, three, chain, element?]
  obtain ⟨hexec, hlist, hrefused, hassoc, hmany⟩ := linked_appends
  obtain ⟨list, hfold, -⟩ := (hmany a [b, a]).1 ha (by simp [ha, hb])
  refine ⟨(hexec w 0 2 a three rfl rfl).1.mpr ha, (hexec w 2 0 three a rfl rfl).2.1.mpr hthree, ?_,
    (hlist a b ha).2, list, hfold, ((hmany a [b, a]).2 list hfold).1⟩
  rw [← hassoc, hrefused three b hthree]

end ImpFront
