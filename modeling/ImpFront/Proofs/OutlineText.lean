/-
The text of a tree tells the tree.

The text falls into its lines because no line has a line feed in it, and a line falls into its
indentation and what it says because what it says does not start with a space
(`OutlineLine.lines_injective`).  The lines tell the tree (`Node.readable`).

The theorem this file exists for is `Node.pretty_eq_iff`: two trees have the same text if and only
if they are the same up to positions and the types that references and parentheses were built
with.  A name may be anything that has no comma and no line feed, also the text of another line.
-/
import ImpFront.Node.Equality
import ImpFront.Proofs.Layout

namespace ImpFront

/-! ## Lines of a text -/

namespace OutlineLine

/-- A line that says something on one line, after its indentation. -/
structure Plain (line : OutlineLine) : Prop where
  start : ∃ c ∈ line.text.toList.head?, c ≠ ' '
  feed : '\n' ∉ line.text.toList

def indentation : Nat → List Char
  | 0 => []
  | depth + 1 => ' ' :: ' ' :: indentation depth

theorem toList_render (line : OutlineLine) :
    line.render.toList = indentation line.depth ++ line.text.toList ++ ['\n'] := by
  have hspaces : ∀ depth, (String.join (List.replicate depth "  ")).toList = indentation depth := by
    intro depth
    rw [String.toList_join]
    induction depth with
    | zero => rfl
    | succ depth ih =>
      rw [List.replicate_succ, List.flatMap_cons, ih]
      rfl
  rw [render, String.toList_append, String.toList_append, hspaces]
  rfl

theorem feed_not_mem_indentation (depth : Nat) : '\n' ∉ indentation depth := by
  induction depth with
  | zero => exact List.not_mem_nil
  | succ depth ih => simpa [indentation] using ih

/-- The spaces before something else than a space tell the depth. -/
theorem indentation_injective {depth depth' : Nat} {text text' : List Char}
    (htext : ∃ c ∈ text.head?, c ≠ ' ') (htext' : ∃ c ∈ text'.head?, c ≠ ' ')
    (h : indentation depth ++ text = indentation depth' ++ text') :
    depth = depth' ∧ text = text' := by
  have hfalse : ∀ {text : List Char} (depth : Nat) (others : List Char),
      (∃ c ∈ text.head?, c ≠ ' ') → text ≠ indentation (depth + 1) ++ others := by
    intro text depth others hstart heq
    obtain ⟨c, hc, hspace⟩ := hstart
    rw [heq] at hc
    exact hspace (Option.mem_some_iff.mp hc).symm
  induction depth generalizing depth' with
  | zero =>
    cases depth' with
    | zero => exact ⟨rfl, h⟩
    | succ depth' => exact absurd h (hfalse depth' text' htext)
  | succ depth ih =>
    cases depth' with
    | zero => exact absurd h.symm (hfalse depth text htext')
    | succ depth' =>
      obtain ⟨hdepth, hrest⟩ := ih (List.cons.inj (List.cons.inj h).2).2
      exact ⟨congrArg Nat.succ hdepth, hrest⟩

theorem Plain.eq_of_indented {first second : OutlineLine} (hfirst : first.Plain)
    (hsecond : second.Plain) (h : indentation first.depth ++ first.text.toList =
      indentation second.depth ++ second.text.toList) : first = second := by
  obtain ⟨hdepth, htext⟩ := indentation_injective hfirst.start hsecond.start h
  cases first
  cases second
  exact congrArg₂ OutlineLine.mk hdepth (String.toList_inj.mp htext)

/-- A text falls into plain lines in one way. -/
theorem lines_injective {first second : List OutlineLine} (hfirst : ∀ line ∈ first, line.Plain)
    (hsecond : ∀ line ∈ second, line.Plain)
    (h : String.join (first.map render) = String.join (second.map render)) : first = second := by
  have hchars := congrArg String.toList h
  rw [String.toList_join, String.toList_join, List.flatMap_map, List.flatMap_map] at hchars
  clear h
  have hfeed : ∀ {line : OutlineLine}, line.Plain →
      '\n' ∉ indentation line.depth ++ line.text.toList := by
    intro line hline hmem
    rcases List.mem_append.mp hmem with hmem | hmem
    · exact feed_not_mem_indentation line.depth hmem
    · exact hline.feed hmem
  have hne : ∀ (line : OutlineLine) (rest : List Char), line.render.toList ++ rest ≠ [] := by
    intro line rest
    simp [toList_render]
  induction first generalizing second with
  | nil =>
    cases second with
    | nil => rfl
    | cons line' others' => exact absurd hchars.symm (hne line' _)
  | cons line others ih =>
    cases second with
    | nil => exact absurd hchars (hne line _)
    | cons line' others' =>
      have hline := hfirst line List.mem_cons_self
      have hline' := hsecond line' List.mem_cons_self
      rw [List.flatMap_cons, List.flatMap_cons, toList_render, toList_render, List.append_assoc,
        List.append_assoc _ ['\n'] _] at hchars
      obtain ⟨hchars, hrests⟩ := append_inj_of_mark (hfeed hline) (hfeed hline')
        (fun _ hc => (Option.mem_some_iff.mp hc).symm)
        (fun _ hc => (Option.mem_some_iff.mp hc).symm) hchars
      rw [hline.eq_of_indented hline' hchars, ih (fun l hl => hfirst l (List.mem_cons_of_mem _ hl))
        (fun l hl => hsecond l (List.mem_cons_of_mem _ hl)) (List.cons.inj hrests).2]

end OutlineLine

/-! ## The lines of a node are plain -/

namespace Keyword

theorem plain_word (k : Keyword) (depth : Nat) : (OutlineLine.mk depth k.word).Plain := by
  have hword : (∃ c ∈ k.word.toList.head?, c ≠ ' ') ∧ '\n' ∉ k.word.toList := by
    cases k <;> simp [word]
  exact ⟨hword.1, hword.2⟩

theorem plain_label {k : Keyword} {label : String} (h : label ∈ k.labels) (depth : Nat) :
    (OutlineLine.mk depth label).Plain := by
  have hlabels : ∀ label ∈ k.labels,
      (∃ c ∈ label.toList.head?, c ≠ ' ') ∧ '\n' ∉ label.toList := by
    cases k <;> simp [labels]
  exact ⟨(hlabels label h).1, (hlabels label h).2⟩

end Keyword

theorem feed_not_mem_intercalate {names : List String}
    (h : ∀ name ∈ names, '\n' ∉ name.toList) : '\n' ∉ (", ".intercalate names).toList := by
  induction names with
  | nil => simp
  | cons name others ih =>
    have hothers := ih fun n hn => h n (List.mem_cons_of_mem _ hn)
    rw [toList_intercalate_cons, List.mem_append, not_or]
    refine ⟨h name List.mem_cons_self, ?_⟩
    cases others with
    | nil => exact List.not_mem_nil
    | cons other rest => simpa [afterName] using hothers

theorem SymbolTable.feed_not_mem_nameOf {t : SymbolTable}
    (ht : ∀ name ∈ t.names, '\n' ∉ name.toList) (id : SymbolId) : '\n' ∉ (t.nameOf id).toList := by
  cases h : t.get? id with
  | some y => exact ht _ (nameOf_mem_names (by rw [h]; rfl))
  | none =>
    -- a handle that leads nowhere is shown by words of its own
    rw [nameOf, h]
    simp [unknownName]

namespace Node

variable {t : SymbolTable}

theorem feed_not_mem_remark (ht : ∀ name ∈ t.names, '\n' ∉ name.toList) (n : Node) :
    '\n' ∉ (n.remark t).toList := by
  have hvalue : ∀ v : Value, '\n' ∉ v.display.toList :=
    fun v h => absurd (Value.isControl_of_mem_display h) (by decide)
  have htype : ∀ type : Ty, '\n' ∉ type.name.toList := Ty.not_mem_name rfl
  have hop : ∀ op : Operator, '\n' ∉ op.symbol.toList := by
    intro op
    cases op <;> simp [Operator.symbol]
  have hname := SymbolTable.feed_not_mem_nameOf ht
  cases n with
  | constant pos value => simp [remark, String.toList_append, hvalue, htype]
  | binary pos type op | unary pos type op => simp [remark, String.toList_append, hop, htype]
  | reference pos seen symbol => simp [remark, String.toList_append, hname symbol, htype]
  | assignment pos symbol | input pos symbol | forLoop pos symbol =>
    simp [remark, String.toList_append, hname symbol]
  | listElement pos symbol next =>
    have hnames : '\n' ∉ (", ".intercalate
        ((listElement pos symbol next).listSymbols.map t.nameOf)).toList := by
      refine feed_not_mem_intercalate fun name h => ?_
      obtain ⟨id, -, rfl⟩ := List.mem_map.mp h
      exact hname id
    rw [remark, String.toList_append, List.mem_append, not_or]
    exact ⟨by simp, hnames⟩
  | _ => simp [remark]

theorem plain_headline (ht : ∀ name ∈ t.names, '\n' ∉ name.toList) (n : Node) (depth : Nat) :
    (OutlineLine.mk depth (n.headline t)).Plain := by
  have hword := n.keyword.plain_word depth
  obtain ⟨c, hc, hspace⟩ := hword.start
  constructor
  · refine ⟨c, ?_, hspace⟩
    rw [toList_headline, List.head?_append, Option.mem_def.mp hc]
    rfl
  · rw [toList_headline, List.mem_append, not_or]
    exact ⟨hword.feed, feed_not_mem_remark ht n⟩

/-- For a line to be plain nothing is asked of the node, since a name is all that a line shows as it
is. -/
theorem plain_outline (ht : ∀ name ∈ t.names, '\n' ∉ name.toList) {n : Node} {depth : Nat}
    {line : OutlineLine} (h : line ∈ n.outline t depth) : line.Plain := by
  induction n using induct_parts generalizing depth with
  | h n ih =>
    rw [outline_eq] at h
    rcases List.mem_cons.mp h with rfl | h
    · exact plain_headline ht n depth
    rcases List.mem_append.mp h with h | h
    · obtain ⟨part, hpart, hline⟩ := List.mem_flatMap.mp h
      exact ih part (mem_parts_of_mem_operands hpart) hline
    · obtain ⟨s, hs, hline⟩ := List.mem_flatMap.mp h
      rcases List.mem_cons.mp hline with rfl | hline
      · exact Keyword.plain_label (n.map_fst_sections ▸ List.mem_map_of_mem hs) (depth + 1)
      · obtain ⟨part, hpart, hline⟩ := List.mem_flatMap.mp hline
        exact ih part (mem_parts_of_mem_sections hs hpart) hline

/-! ## What the text does not tell -/

theorem headline_relabel (t : SymbolTable) (place : Position → Position) (view : Ty → Ty)
    (n : Node) : (n.relabel place view).headline t = n.headline t := by
  cases n with
  | listElement pos symbol next =>
    cases next with
    | none => rfl
    | some next =>
      have hsymbols := listSymbols_relabel place view (listElement pos symbol (some next))
      rw [relabel] at hsymbols
      rw [relabel, headline, headline, hsymbols]
  | _ => rfl

theorem operands_relabel (place : Position → Position) (view : Ty → Ty) (n : Node) :
    (n.relabel place view).operands = n.operands.map (relabel place view) := by
  cases n with
  | listElement pos symbol next => cases next <;> rfl
  | _ => rfl

theorem sections_relabel (place : Position → Position) (view : Ty → Ty) (n : Node) :
    (n.relabel place view).sections =
      n.sections.map fun s => (s.1, s.2.map (relabel place view)) := by
  cases n with
  | listElement pos symbol next => cases next <;> rfl
  | _ => simp [relabel, sections, relabelList_eq]

theorem outline_relabel (t : SymbolTable) (place : Position → Position) (view : Ty → Ty)
    (n : Node) (depth : Nat) : (n.relabel place view).outline t depth = n.outline t depth := by
  induction n using induct_parts generalizing depth with
  | h n ih =>
    have hoperands : ∀ part ∈ n.operands,
        (part.relabel place view).outline t (depth + 1) = part.outline t (depth + 1) :=
      fun part hpart => ih part (mem_parts_of_mem_operands hpart) (depth + 1)
    have hsections : ∀ s ∈ n.sections,
        sectionOutline t (depth + 1) (s.1, s.2.map (relabel place view)) =
          sectionOutline t (depth + 1) s := by
      intro s hs
      rw [sectionOutline, sectionOutline, List.flatMap_map]
      exact congrArg (List.cons _) (List.flatMap_congr fun part hpart =>
        ih part (mem_parts_of_mem_sections hs hpart) (depth + 2))
    rw [outline_eq, outline_eq, headline_relabel, operands_relabel, sections_relabel,
      List.flatMap_map, List.flatMap_map, List.flatMap_congr hoperands,
      List.flatMap_congr hsections]

theorem pretty_bare (t : SymbolTable) (n : Node) : n.bare.pretty t = n.pretty t := by
  rw [pretty, pretty, bare, outline_relabel]

/-- Two trees have the same text if and only if they are the same up to their positions and the
types that references and parentheses were built with. -/
theorem pretty_eq_iff (ht : t.PlainNames) {a b : Node} (ha : a.Shown t) (hb : b.Shown t) :
    a.pretty t = b.pretty t ↔ a.bare = b.bare := by
  constructor
  · intro h
    have hlines : a.outline t 0 = b.outline t 0 :=
      OutlineLine.lines_injective (fun _ => plain_outline ht.feed)
        (fun _ => plain_outline ht.feed) h
    have hnothing : Follows 0 [] := fun _ hline => nomatch hline
    have hends : a.outline t 0 ++ [] = b.outline t 0 ++ [] := by rw [hlines]
    exact (readable ht ha hb hnothing hnothing hends).1
  · intro h
    rw [← pretty_bare t a, ← pretty_bare t b, h]

/-- Trees over a variable that is named like a line of an outline.  The text does not tell where a
tree was built, but tells under which label a node stands. -/
theorem pretty_eq_iff_of_named_like_label :
    let t : SymbolTable := { entries := [{ name := "Else" }, { name := "x : string" }] }
    let list : Node := .listElement .null ⟨0⟩ (some (.listElement .null ⟨1⟩ none))
    let text : Node := .print .null (.constant .null (.string "\n    Else"))
    let tree (pos : Position) (seen : Ty) (thenBody elseBody : List Node) : Node :=
      .ifElse pos (.reference pos seen ⟨0⟩) thenBody elseBody
    let a := tree .null .undetermined [text] [list]
    let b := tree ⟨3, 4, "loop.txt"⟩ .boolean [text] [list]
    let c := tree .null .undetermined [text, list] []
    t.PlainNames ∧ a.Shown t ∧ b.Shown t ∧ c.Shown t ∧
      a.pretty t = b.pretty t ∧ a.pretty t ≠ c.pretty t := by
  intro t list text tree a b c
  have ht : t.PlainNames := ⟨by decide, by decide, by decide⟩
  have hleaf : ∀ n : Node, n.follower? = none → n.parts = [] → n.ProperLists :=
    fun n hnext hparts => .intro (by simp [hnext]) (by simp [hparts])
  have htext : text.ProperLists :=
    .intro (fun _ h => nomatch h) (List.forall_mem_singleton.mpr (hleaf _ rfl rfl))
  have hlist : list.ProperLists := by
    refine .intro (fun next h => ?_) (List.forall_mem_singleton.mpr (hleaf _ rfl rfl))
    cases h
    rfl
  have hlists : ∀ pos seen thenBody elseBody, thenBody ++ elseBody = [text, list] →
      (tree pos seen thenBody elseBody).ProperLists := by
    intro pos seen thenBody elseBody hbodies
    refine .intro (fun _ h => nomatch h) (List.forall_mem_cons.mpr ⟨hleaf _ rfl rfl, ?_⟩)
    rw [hbodies]
    exact List.forall_mem_cons.mpr ⟨htext, List.forall_mem_singleton.mpr hlist⟩
  have ha : a.Shown t := ⟨by decide, hlists _ _ _ _ rfl⟩
  have hb : b.Shown t := ⟨by decide, hlists _ _ _ _ rfl⟩
  have hc : c.Shown t := ⟨by decide, hlists _ _ _ _ rfl⟩
  exact ⟨ht, ha, hb, hc, (pretty_eq_iff ht ha hb).mpr rfl,
    fun h => absurd ((pretty_eq_iff ht ha hc).mp h) (by decide)⟩

end Node
end ImpFront
