/-
The lines of a tree tell the tree.

Everything in a node stands deeper than its headline.  How many parts stand right below the
headline, and which labels come after them, depends on the keyword alone, while the nodes under a
label go on as long as the lines are deeper than the label.  So a node is told by its lines,
whatever comes after them (`readable`) and whatever nodes stand in its places.

What is told is `Node.bare`, the node without its positions and without the types that references
and parentheses were built with.  An identifier list is one line of names, so it is asked of a
node that its lists hold nothing but names (`ProperLists`).
-/
import ImpFront.Proofs.Headline

namespace ImpFront

/-! ## What a keyword tells of the parts -/

namespace Keyword

/-- The number of parts right below a headline. -/
def arity : Keyword → Nat
  | constant | reference | input | root | list => 0
  | unary | parenthesized | assignment | print | whileLoop | ifElse => 1
  | binary | forLoop => 2

/-- The labels below a headline, in their order. -/
def labels : Keyword → List String
  | forLoop | whileLoop => ["Do"]
  | ifElse => ["Then", "Else"]
  | root => ["Declarations", "Statements"]
  | constant | reference | binary | unary | parenthesized | assignment | print | input
  | list => []

end Keyword

namespace Node

theorem length_operands (n : Node) : n.operands.length = n.keyword.arity := by
  cases n <;> rfl

theorem map_fst_sections (n : Node) : n.sections.map Prod.fst = n.keyword.labels := by
  cases n <;> rfl

/-! ## What a node needs so that its lines tell it -/

/-- The node that an element of an identifier list is followed by. -/
def follower? : Node → Option Node
  | listElement _ _ next => next
  | constant .. | reference .. | binary .. | unary .. | parenthesized .. | assignment .. | print ..
  | input .. | forLoop .. | whileLoop .. | ifElse .. | root .. => none

/-- What follows an element of an identifier list is an element of an identifier list, everywhere
in the node. -/
inductive ProperLists : Node → Prop where
  | intro {n : Node} (elements : ∀ next ∈ n.follower?, next.keyword = .list)
      (parts : ∀ part ∈ n.parts, part.ProperLists) : n.ProperLists

theorem properLists_iff {n : Node} : n.ProperLists ↔
    (∀ next ∈ n.follower?, next.keyword = .list) ∧ ∀ part ∈ n.parts, part.ProperLists := by
  constructor
  · rintro ⟨helements, hparts⟩
    exact ⟨helements, hparts⟩
  · exact fun h => .intro h.1 h.2

/-- The table has the variables of the node, and the lists in the node are lists of names. -/
structure Shown (t : SymbolTable) (n : Node) : Prop where
  held : ∀ id ∈ n.handles, (t.get? id).isSome
  lists : n.ProperLists

end Node

/-- Names that tell their symbols and that can be shown on one line, with commas between them. -/
structure SymbolTable.PlainNames (t : SymbolTable) : Prop where
  nodup : t.names.Nodup
  comma : ∀ name ∈ t.names, ',' ∉ name.toList
  feed : ∀ name ∈ t.names, '\n' ∉ name.toList

namespace SymbolTable

theorem nameOf_mem_names {t : SymbolTable} {id : SymbolId} (h : (t.get? id).isSome) :
    t.nameOf id ∈ t.names :=
  List.mem_of_getElem? (getElem?_names ((t.get?_isSome_iff id).mp h))

theorem PlainNames.eq_of_nameOf_eq {t : SymbolTable} (ht : t.PlainNames) {first second : SymbolId}
    (hfirst : (t.get? first).isSome) (hsecond : (t.get? second).isSome)
    (h : t.nameOf first = t.nameOf second) : first = second :=
  SymbolTable.eq_of_nameOf_eq ht.nodup ((t.get?_isSome_iff first).mp hfirst)
    ((t.get?_isSome_iff second).mp hsecond) h

/-- Variables are told by their names, one after the other. -/
theorem PlainNames.eq_of_map_nameOf_eq {t : SymbolTable} (ht : t.PlainNames)
    {first second : List SymbolId} (hfirst : ∀ id ∈ first, (t.get? id).isSome)
    (hsecond : ∀ id ∈ second, (t.get? id).isSome)
    (h : first.map t.nameOf = second.map t.nameOf) : first = second := by
  induction first generalizing second with
  | nil => exact (List.map_eq_nil_iff.mp h.symm).symm
  | cons id rest ih =>
    cases second with
    | nil => exact absurd h (List.cons_ne_nil _ _)
    | cons id' rest' =>
      obtain ⟨hname, hnames⟩ := List.cons.inj h
      have hid : id = id' :=
        ht.eq_of_nameOf_eq (hfirst id List.mem_cons_self) (hsecond id' List.mem_cons_self) hname
      rw [hid, ih (fun i hi => hfirst i (List.mem_cons_of_mem _ hi))
        (fun i hi => hsecond i (List.mem_cons_of_mem _ hi)) hnames]

end SymbolTable

namespace Node

variable {t : SymbolTable}

theorem Shown.part {n part : Node} (h : n.Shown t) (hpart : part ∈ n.parts) : part.Shown t where
  held id hid := h.held id (handles_subset_of_mem_parts hpart hid)
  lists := (properLists_iff.mp h.lists).2 part hpart

theorem listSymbols_ne_nil {n : Node} (h : n.keyword = .list) : n.listSymbols ≠ [] := by
  cases n with
  | listElement pos symbol next => cases next <;> exact List.cons_ne_nil _ _
  | _ => cases h

/-- A list is told by the line of its names. -/
theorem listSymbols_eq_of_names_eq (ht : t.PlainNames) {a b : Node} (ha : a.Shown t)
    (hb : b.Shown t) (hka : a.keyword = .list) (hkb : b.keyword = .list)
    (h : ", ".intercalate (a.listSymbols.map t.nameOf) =
      ", ".intercalate (b.listSymbols.map t.nameOf)) : a.listSymbols = b.listSymbols := by
  have hheld : ∀ {n : Node}, n.Shown t → ∀ id ∈ n.listSymbols, (t.get? id).isSome :=
    fun hn id hid => hn.held id (listSymbols_subset_handles _ hid)
  have hcomma : ∀ {n : Node}, n.Shown t → ∀ name ∈ n.listSymbols.map t.nameOf,
      ',' ∉ name.toList := by
    intro n hn name hname
    obtain ⟨id, hid, rfl⟩ := List.mem_map.mp hname
    exact ht.comma _ (SymbolTable.nameOf_mem_names (hheld hn id hid))
  have hne : ∀ {n : Node}, n.keyword = .list → n.listSymbols.map t.nameOf ≠ [] :=
    fun hlist hnil => listSymbols_ne_nil hlist (List.map_eq_nil_iff.mp hnil)
  exact ht.eq_of_map_nameOf_eq (hheld ha) (hheld hb)
    (intercalate_injective (hcomma ha) (hcomma hb) (hne hka) (hne hkb) h)

/-- A list of elements is told by its symbols. -/
theorem bare_eq_of_listSymbols_eq {a b : Node} (ha : a.ProperLists) (hb : b.ProperLists)
    (hka : a.keyword = .list) (hkb : b.keyword = .list) (h : a.listSymbols = b.listSymbols) :
    a.bare = b.bare := by
  induction a using Node.induct generalizing b with
  | lastElement pos symbol =>
    cases b with
    | listElement pos' symbol' next' =>
      cases next' with
      | none =>
        cases h
        rfl
      | some next' =>
        have hnext' : next'.keyword = .list := (properLists_iff.mp hb).1 next' rfl
        exact absurd (List.cons.inj h).2.symm (listSymbols_ne_nil hnext')
    | _ => cases hkb
  | listElement pos symbol next ih =>
    obtain ⟨hnext, hparts⟩ := properLists_iff.mp ha
    have hkeyword : next.keyword = .list := hnext next rfl
    cases b with
    | listElement pos' symbol' next' =>
      cases next' with
      | none => exact absurd (List.cons.inj h).2 (listSymbols_ne_nil hkeyword)
      | some next' =>
        obtain ⟨hnext', hparts'⟩ := properLists_iff.mp hb
        obtain ⟨hsymbol, hrest⟩ := List.cons.inj h
        have hbare : next.bare = next'.bare :=
          ih (hparts next List.mem_cons_self) (hparts' next' List.mem_cons_self) hkeyword
            (hnext' next' rfl) hrest
        show Node.listElement .null symbol (some next.bare) =
          Node.listElement .null symbol' (some next'.bare)
        rw [hsymbol, hbare]
    | _ => cases hkb
  | _ => cases hka

/-! ## What a headline leaves to the parts -/

theorem bare_forLoop (pos : Position) (counter : SymbolId) (first last : Node) (body : List Node) :
    (forLoop pos counter first last body).bare =
      forLoop .null counter first.bare last.bare (body.map bare) := by
  rw [bare, relabel, relabelList_eq]
  rfl

theorem bare_whileLoop (pos : Position) (condition : Node) (body : List Node) :
    (whileLoop pos condition body).bare = whileLoop .null condition.bare (body.map bare) := by
  rw [bare, relabel, relabelList_eq]
  rfl

theorem bare_ifElse (pos : Position) (condition : Node) (thenBody elseBody : List Node) :
    (ifElse pos condition thenBody elseBody).bare =
      ifElse .null condition.bare (thenBody.map bare) (elseBody.map bare) := by
  rw [bare, relabel, relabelList_eq, relabelList_eq]
  rfl

theorem bare_root (pos : Position) (declarations statements : List Node) :
    (root pos declarations statements).bare =
      root .null (declarations.map bare) (statements.map bare) := by
  rw [bare, relabel, relabelList_eq, relabelList_eq]
  rfl

/-- The name of a variable after a keyword tells the variable. -/
theorem symbol_eq_of_remark_eq (ht : t.PlainNames) {a b : Node} (ha : a.Shown t) (hb : b.Shown t)
    {first second : SymbolId} (hfirst : first ∈ a.handles) (hsecond : second ∈ b.handles)
    (h : " " ++ t.nameOf first = " " ++ t.nameOf second) : first = second :=
  ht.eq_of_nameOf_eq (ha.held first hfirst) (hb.held second hsecond)
    ((String.append_right_inj " ").mp h)

/-- The operator and the type of an operation. -/
theorem operation_eq_of_remark_eq {op op' : Operator} {type type' : Ty}
    (h : " " ++ op.symbol ++ " : " ++ type.name = " " ++ op'.symbol ++ " : " ++ type'.name) :
    op = op' ∧ type = type' := by
  obtain ⟨hop, htype⟩ := append_type_injective h
  exact ⟨Operator.symbol_injective ((String.append_right_inj " ").mp hop), htype⟩

/-- The headline and the parts tell the node. -/
theorem bare_eq_of_headline_eq (ht : t.PlainNames) {a b : Node} (ha : a.Shown t) (hb : b.Shown t)
    (hheadline : a.headline t = b.headline t)
    (hoperands : a.operands.map bare = b.operands.map bare)
    (hsections : a.sections.map (fun s => s.2.map bare) = b.sections.map fun s => s.2.map bare) :
    a.bare = b.bare := by
  obtain ⟨hkeyword, hremark⟩ := headline_inj hheadline
  cases a with
  | constant pos value =>
    cases b with
    | constant pos' value' =>
      obtain ⟨hdisplay, -⟩ := append_type_injective hremark
      have hvalue : value = value' :=
        Value.display_injective ((String.append_right_inj " ").mp hdisplay)
      rw [hvalue]
      rfl
    | _ => cases hkeyword
  | reference pos seen symbol =>
    cases b with
    | reference pos' seen' symbol' =>
      obtain ⟨hname, -⟩ := append_type_injective hremark
      have hsymbol : symbol = symbol' :=
        symbol_eq_of_remark_eq ht ha hb List.mem_cons_self List.mem_cons_self hname
      rw [hsymbol]
      rfl
    | _ => cases hkeyword
  | binary pos type op left right =>
    cases b with
    | binary pos' type' op' left' right' =>
      obtain ⟨hop, htype⟩ := operation_eq_of_remark_eq hremark
      have hparts : [left.bare, right.bare] = [left'.bare, right'.bare] := hoperands
      obtain ⟨hleft, hright⟩ : left.bare = left'.bare ∧ right.bare = right'.bare := by
        simpa using hparts
      show Node.binary .null type op left.bare right.bare =
        Node.binary .null type' op' left'.bare right'.bare
      rw [hop, htype, hleft, hright]
    | _ => cases hkeyword
  | unary pos type op right =>
    cases b with
    | unary pos' type' op' right' =>
      obtain ⟨hop, htype⟩ := operation_eq_of_remark_eq hremark
      have hright : right.bare = right'.bare := List.singleton_inj.mp hoperands
      show Node.unary .null type op right.bare = Node.unary .null type' op' right'.bare
      rw [hop, htype, hright]
    | _ => cases hkeyword
  | parenthesized pos seen inner =>
    cases b with
    | parenthesized pos' seen' inner' =>
      have hinner : inner.bare = inner'.bare := List.singleton_inj.mp hoperands
      show Node.parenthesized .null .undetermined inner.bare =
        Node.parenthesized .null .undetermined inner'.bare
      rw [hinner]
    | _ => cases hkeyword
  | assignment pos target expression =>
    cases b with
    | assignment pos' target' expression' =>
      have htarget : target = target' :=
        symbol_eq_of_remark_eq ht ha hb List.mem_cons_self List.mem_cons_self hremark
      have hexpression : expression.bare = expression'.bare := List.singleton_inj.mp hoperands
      show Node.assignment .null target expression.bare =
        Node.assignment .null target' expression'.bare
      rw [htarget, hexpression]
    | _ => cases hkeyword
  | print pos expression =>
    cases b with
    | print pos' expression' =>
      have hexpression : expression.bare = expression'.bare := List.singleton_inj.mp hoperands
      show Node.print .null expression.bare = Node.print .null expression'.bare
      rw [hexpression]
    | _ => cases hkeyword
  | input pos target =>
    cases b with
    | input pos' target' =>
      have htarget : target = target' :=
        symbol_eq_of_remark_eq ht ha hb List.mem_cons_self List.mem_cons_self hremark
      rw [htarget]
      rfl
    | _ => cases hkeyword
  | forLoop pos counter first last body =>
    cases b with
    | forLoop pos' counter' first' last' body' =>
      have hcounter : counter = counter' :=
        symbol_eq_of_remark_eq ht ha hb List.mem_cons_self List.mem_cons_self hremark
      have hparts : [first.bare, last.bare] = [first'.bare, last'.bare] := hoperands
      obtain ⟨hfirst, hlast⟩ : first.bare = first'.bare ∧ last.bare = last'.bare := by
        simpa using hparts
      have hbody : body.map bare = body'.map bare := List.singleton_inj.mp hsections
      rw [bare_forLoop, bare_forLoop, hcounter, hfirst, hlast, hbody]
    | _ => cases hkeyword
  | whileLoop pos condition body =>
    cases b with
    | whileLoop pos' condition' body' =>
      have hcondition : condition.bare = condition'.bare := List.singleton_inj.mp hoperands
      have hbody : body.map bare = body'.map bare := List.singleton_inj.mp hsections
      rw [bare_whileLoop, bare_whileLoop, hcondition, hbody]
    | _ => cases hkeyword
  | ifElse pos condition thenBody elseBody =>
    cases b with
    | ifElse pos' condition' thenBody' elseBody' =>
      have hcondition : condition.bare = condition'.bare := List.singleton_inj.mp hoperands
      have hbodies : [thenBody.map bare, elseBody.map bare] =
        [thenBody'.map bare, elseBody'.map bare] := hsections
      obtain ⟨hthen, helse⟩ :
          thenBody.map bare = thenBody'.map bare ∧ elseBody.map bare = elseBody'.map bare :=
        (List.cons.inj hbodies).imp_right List.singleton_inj.mp
      rw [bare_ifElse, bare_ifElse, hcondition, hthen, helse]
    | _ => cases hkeyword
  | root pos declarations statements =>
    cases b with
    | root pos' declarations' statements' =>
      have hbodies : [declarations.map bare, statements.map bare] =
        [declarations'.map bare, statements'.map bare] := hsections
      obtain ⟨hdeclarations, hstatements⟩ :
          declarations.map bare = declarations'.map bare ∧
            statements.map bare = statements'.map bare :=
        (List.cons.inj hbodies).imp_right List.singleton_inj.mp
      rw [bare_root, bare_root, hdeclarations, hstatements]
    | _ => cases hkeyword
  | listElement pos symbol next =>
    cases b with
    | listElement pos' symbol' next' =>
      have hsymbols := listSymbols_eq_of_names_eq ht ha hb rfl rfl
        ((String.append_right_inj " ").mp hremark)
      exact bare_eq_of_listSymbols_eq ha.lists hb.lists rfl rfl hsymbols
    | _ => cases hkeyword

/-! ## Reading a node off its lines -/

/-- What may come after the lines of a node at a depth: nothing, or first a line that is not
deeper. -/
def Follows (depth : Nat) (rest : List OutlineLine) : Prop :=
  ∀ line ∈ rest.head?, line.depth ≤ depth

theorem Follows.mono {depth depth' : Nat} {rest : List OutlineLine} (h : Follows depth rest)
    (hle : depth ≤ depth') : Follows depth' rest :=
  fun line hline => Nat.le_trans (h line hline) hle

/-- Pieces that each start with a line at the depth may come after a node at the depth. -/
theorem Follows.flatMap {α : Type} {depth : Nat} {piece : α → List OutlineLine}
    (hpiece : ∀ x, ∃ text lines, piece x = ⟨depth, text⟩ :: lines) (xs : List α)
    {rest : List OutlineLine} (h : Follows depth rest) :
    Follows depth (xs.flatMap piece ++ rest) := by
  cases xs with
  | nil => exact h
  | cons x others =>
    obtain ⟨text, lines, hx⟩ := hpiece x
    intro line hline
    rw [List.flatMap_cons, hx] at hline
    cases hline
    exact Nat.le_refl depth

/-- The node is told by its lines, whatever comes after them. -/
def Readable (t : SymbolTable) (a : Node) : Prop :=
  ∀ ⦃b : Node⦄ ⦃depth : Nat⦄ ⦃rest rest' : List OutlineLine⦄, b.Shown t → Follows depth rest →
    Follows depth rest' → a.outline t depth ++ rest = b.outline t depth ++ rest' →
    a.bare = b.bare ∧ rest = rest'

theorem exists_outline_eq_cons (t : SymbolTable) (depth : Nat) (n : Node) :
    ∃ text lines, n.outline t depth = ⟨depth, text⟩ :: lines :=
  ⟨_, _, n.outline_eq t depth⟩

theorem exists_sectionOutline_eq_cons (t : SymbolTable) (depth : Nat) (s : String × List Node) :
    ∃ text lines, sectionOutline t depth s = ⟨depth, text⟩ :: lines :=
  ⟨_, _, rfl⟩

/-- Nodes one after the other at a depth.  Where they end is told by their number, or by a line
that is less deep. -/
theorem readable_forest {as bs : List Node} {depth : Nat} {rest rest' : List OutlineLine}
    (has : ∀ a ∈ as, a.Readable t) (hbs : ∀ b ∈ bs, b.Shown t)
    (hend : as.length = bs.length ∨ Follows depth rest ∧ Follows depth rest')
    (hrest : Follows (depth + 1) rest) (hrest' : Follows (depth + 1) rest')
    (h : as.flatMap (outline t (depth + 1)) ++ rest =
      bs.flatMap (outline t (depth + 1)) ++ rest') :
    as.map bare = bs.map bare ∧ rest = rest' := by
  -- a line that may come after the last node is too high to start another one
  have hfalse : ∀ {n : Node} {others : List Node} {before after : List OutlineLine},
      Follows depth before →
      before ≠ (n :: others).flatMap (outline t (depth + 1)) ++ after := by
    intro n others before after hbefore heq
    rw [List.flatMap_cons, outline_eq] at heq
    subst heq
    exact absurd (hbefore _ rfl) (Nat.not_succ_le_self depth)
  induction as generalizing bs with
  | nil =>
    cases bs with
    | nil => exact ⟨rfl, h⟩
    | cons b bs =>
      rcases hend with hlength | hfollows
      · cases hlength
      · exact absurd h (hfalse hfollows.1)
  | cons a as ih =>
    cases bs with
    | nil =>
      rcases hend with hlength | hfollows
      · cases hlength
      · exact absurd h.symm (hfalse hfollows.2)
    | cons b bs =>
      rw [List.flatMap_cons, List.flatMap_cons, List.append_assoc, List.append_assoc] at h
      obtain ⟨hfirst, hothers⟩ := has a List.mem_cons_self (hbs b List.mem_cons_self)
        (hrest.flatMap (exists_outline_eq_cons t _) as)
        (hrest'.flatMap (exists_outline_eq_cons t _) bs) h
      obtain ⟨hmap, hrests⟩ := ih (fun n hn => has n (List.mem_cons_of_mem _ hn))
        (fun n hn => hbs n (List.mem_cons_of_mem _ hn))
        (hend.imp_left Nat.succ.inj) hothers
      exact ⟨by rw [List.map_cons, List.map_cons, hfirst, hmap], hrests⟩

/-- Sections one after the other, under the same labels. -/
theorem readable_sections {ss us : List (String × List Node)} {depth : Nat}
    {rest rest' : List OutlineLine} (hss : ∀ s ∈ ss, ∀ a ∈ s.2, a.Readable t)
    (hus : ∀ u ∈ us, ∀ b ∈ u.2, b.Shown t) (hlabels : ss.map Prod.fst = us.map Prod.fst)
    (hrest : Follows depth rest) (hrest' : Follows depth rest')
    (h : ss.flatMap (sectionOutline t depth) ++ rest =
      us.flatMap (sectionOutline t depth) ++ rest') :
    (ss.map fun s => s.2.map bare) = (us.map fun u => u.2.map bare) ∧ rest = rest' := by
  induction ss generalizing us with
  | nil =>
    have hnone : us = [] := List.map_eq_nil_iff.mp hlabels.symm
    subst hnone
    exact ⟨rfl, h⟩
  | cons s ss ih =>
    cases us with
    | nil => cases hlabels
    | cons u us =>
      rw [List.flatMap_cons, List.flatMap_cons, List.append_assoc, List.append_assoc] at h
      have hafter := hrest.flatMap (exists_sectionOutline_eq_cons t depth) ss
      have hafter' := hrest'.flatMap (exists_sectionOutline_eq_cons t depth) us
      obtain ⟨hbody, hothers⟩ := readable_forest (hss s List.mem_cons_self)
        (hus u List.mem_cons_self) (.inr ⟨hafter, hafter'⟩) (hafter.mono (Nat.le_succ depth))
        (hafter'.mono (Nat.le_succ depth)) (List.cons.inj h).2
      obtain ⟨hmap, hrests⟩ := ih (fun s hs => hss s (List.mem_cons_of_mem _ hs))
        (fun u hu => hus u (List.mem_cons_of_mem _ hu)) (List.cons.inj hlabels).2 hothers
      exact ⟨by rw [List.map_cons, List.map_cons, hbody, hmap], hrests⟩

/-- A headline tells how many parts are right below it and which labels come then, and with them
every part is told. -/
theorem readable (ht : t.PlainNames) {a : Node} (ha : a.Shown t) : a.Readable t := by
  induction a using induct_parts with
  | h a ih =>
    intro b depth rest rest' hb hrest hrest' h
    rw [outline_eq, outline_eq, List.cons_append, List.cons_append, List.append_assoc,
      List.append_assoc] at h
    obtain ⟨hline, hbelow⟩ := List.cons.inj h
    have hheadline : a.headline t = b.headline t := congrArg OutlineLine.text hline
    have hkeyword : a.keyword = b.keyword := (headline_inj hheadline).1
    have hlength : a.operands.length = b.operands.length := by
      rw [length_operands, length_operands, hkeyword]
    have hlabels : a.sections.map Prod.fst = b.sections.map Prod.fst := by
      rw [map_fst_sections, map_fst_sections, hkeyword]
    have hstart := exists_sectionOutline_eq_cons t (depth + 1)
    have hdeeper := hrest.mono (Nat.le_succ depth)
    have hdeeper' := hrest'.mono (Nat.le_succ depth)
    obtain ⟨hoperands, hlabelled⟩ := readable_forest
      (fun n hn => ih n (mem_parts_of_mem_operands hn) (ha.part (mem_parts_of_mem_operands hn)))
      (fun n hn => hb.part (mem_parts_of_mem_operands hn)) (.inl hlength)
      (hdeeper.flatMap hstart a.sections) (hdeeper'.flatMap hstart b.sections) hbelow
    obtain ⟨hsections, hrests⟩ := readable_sections
      (fun s hs n hn =>
        ih n (mem_parts_of_mem_sections hs hn) (ha.part (mem_parts_of_mem_sections hs hn)))
      (fun s hs n hn => hb.part (mem_parts_of_mem_sections hs hn)) hlabels hdeeper hdeeper'
      hlabelled
    exact ⟨bare_eq_of_headline_eq ht ha hb hheadline hoperands hsections, hrests⟩

end Node
end ImpFront
