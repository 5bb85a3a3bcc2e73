/-
What the first line of a node tells.

A headline is a keyword and a remark, and a remark starts with a space or is empty.  No keyword
has a space, so a headline falls into the two in one way (`headline_inj`).  The remark tells what
the node holds besides its parts: a value, variables by name, an operator and a type.

Names are shown as they are, with spaces, colons or whatever else they hold.  All that is asked
of them is that they are on one line and, since a list is shown with commas between its names,
that they have no comma.
-/
import ImpFront.Proofs.Displays
import ImpFront.Proofs.Interning
import ImpFront.Proofs.Nodes

namespace ImpFront

/-! ## Splitting a text at a mark -/

/-- A text that stops before a mark, and what follows from the mark on. -/
theorem append_inj_of_mark {α : Type} {mark : α} {first second rest rest' : List α}
    (hfirst : mark ∉ first) (hsecond : mark ∉ second) (hrest : ∀ c ∈ rest.head?, c = mark)
    (hrest' : ∀ c ∈ rest'.head?, c = mark) (h : first ++ rest = second ++ rest') :
    first = second ∧ rest = rest' := by
  induction first generalizing second with
  | nil =>
    cases second with
    | nil => exact ⟨rfl, h⟩
    | cons c others =>
      have hc : c = mark := hrest c (by simp [show rest = c :: (others ++ rest') from h])
      exact absurd (hc ▸ List.mem_cons_self) hsecond
  | cons c others ih =>
    cases second with
    | nil =>
      have hc : c = mark := hrest' c (by simp [← show c :: (others ++ rest) = rest' from h])
      exact absurd (hc ▸ List.mem_cons_self) hfirst
    | cons d others' =>
      obtain ⟨rfl, htail⟩ := List.cons.inj h
      obtain ⟨rfl, hrests⟩ := ih (fun hmem => hfirst (List.mem_cons_of_mem c hmem))
        (fun hmem => hsecond (List.mem_cons_of_mem c hmem)) htail
      exact ⟨rfl, hrests⟩

/-- What comes after the first name of a list of names with commas between them. -/
def afterName : List String → List Char
  | [] => []
  | others => ',' :: ' ' :: (", ".intercalate others).toList

theorem toList_intercalate_cons (name : String) (others : List String) :
    (", ".intercalate (name :: others)).toList = name.toList ++ afterName others := by
  cases others with
  | nil => simp [afterName, String.intercalate_singleton]
  | cons other rest =>
    rw [String.intercalate_cons_cons]
    simp [afterName, String.toList_append]

theorem head?_afterName (others : List String) : ∀ c ∈ (afterName others).head?, c = ',' := by
  cases others <;> simp [afterName]

/-- A name without a comma ends at the first comma. -/
theorem intercalate_injective {first second : List String}
    (hfirst : ∀ name ∈ first, ',' ∉ name.toList) (hsecond : ∀ name ∈ second, ',' ∉ name.toList)
    (hne : first ≠ []) (hne' : second ≠ [])
    (h : ", ".intercalate first = ", ".intercalate second) : first = second := by
  induction first generalizing second with
  | nil => exact absurd rfl hne
  | cons name others ih =>
    cases second with
    | nil => exact absurd rfl hne'
    | cons name' others' =>
      have hlists := congrArg String.toList h
      rw [toList_intercalate_cons, toList_intercalate_cons] at hlists
      obtain ⟨hname, hafter⟩ := append_inj_of_mark (hfirst name List.mem_cons_self)
        (hsecond name' List.mem_cons_self) (head?_afterName others) (head?_afterName others') hlists
      rw [String.toList_inj.mp hname]
      cases others with
      | nil =>
        cases others' with
        | nil => rfl
        | cons other' rest' => cases hafter
      | cons other rest =>
        cases others' with
        | nil => cases hafter
        | cons other' rest' =>
          have htexts := String.toList_inj.mp (List.cons.inj (List.cons.inj hafter).2).2
          rw [ih (fun n hn => hfirst n (List.mem_cons_of_mem _ hn))
            (fun n hn => hsecond n (List.mem_cons_of_mem _ hn)) (List.cons_ne_nil _ _)
            (List.cons_ne_nil _ _) htexts]

namespace Ty

theorem name_injective {type type' : Ty} (h : type.name = type'.name) : type = type' := by
  revert h
  cases type <;> cases type' <;> decide

/-- The name of a type is a word. -/
theorem not_mem_name {c : Char} (hc : c.isAlpha = false) (type : Ty) : c ∉ type.name.toList := by
  have hword : type.name.toList.all Char.isAlpha = true := by
    cases type <;> decide
  intro hmem
  have hletter := List.all_eq_true.mp hword c hmem
  rw [hc] at hletter
  cases hletter

end Ty

/-- A text with a type behind it.  The last character of the name of a type tells the type. -/
theorem append_type_injective {first second : String} {type type' : Ty}
    (h : first ++ " : " ++ type.name = second ++ " : " ++ type'.name) :
    first = second ∧ type = type' := by
  have hlast : ∀ (text : String) (type : Ty),
      (text ++ " : " ++ type.name).toList.getLast? = type.name.toList.getLast? := by
    intro text type
    have hne : type.name.toList ≠ [] := by cases type <;> decide
    rw [String.toList_append, List.getLast?_append_of_ne_nil _ hne]
  have htypes : type.name.toList.getLast? = type'.name.toList.getLast? := by
    rw [← hlast first type, ← hlast second type', h]
  have htype : type = type' := by
    revert htypes
    cases type <;> cases type' <;> decide
  subst htype
  exact ⟨(String.append_left_inj " : ").mp ((String.append_left_inj type.name).mp h), rfl⟩

/-! ## Keywords and remarks -/

/-- The kinds of nodes, as the first word of a headline gives them. -/
inductive Keyword where
  | constant
  | reference
  | binary
  | unary
  | parenthesized
  | assignment
  | print
  | input
  | forLoop
  | whileLoop
  | ifElse
  | root
  | list
  deriving DecidableEq, Repr

namespace Keyword

def word : Keyword → String
  | constant => "Constant"
  | reference => "Reference"
  | binary => "BinaryOp"
  | unary => "UnaryOp"
  | parenthesized => "Parenthesized"
  | assignment => "Assignment"
  | print => "Print"
  | input => "Input"
  | forLoop => "For"
  | whileLoop => "While"
  | ifElse => "If"
  | root => "Root"
  | list => "List"

theorem word_injective {first second : Keyword} (h : first.word = second.word) :
    first = second := by
  revert h
  cases first <;> cases second <;> decide

theorem space_not_mem_word (k : Keyword) : ' ' ∉ k.word.toList := by
  cases k <;> simp [word]

end Keyword

namespace Node

def keyword : Node → Keyword
  | constant .. => .constant
  | reference .. => .reference
  | binary .. => .binary
  | unary .. => .unary
  | parenthesized .. => .parenthesized
  | assignment .. => .assignment
  | print .. => .print
  | input .. => .input
  | forLoop .. => .forLoop
  | whileLoop .. => .whileLoop
  | ifElse .. => .ifElse
  | root .. => .root
  | listElement .. => .list

/-- What the headline says after the keyword. -/
def remark (t : SymbolTable) : Node → String
  | constant _ value => " " ++ value.display ++ " : " ++ value.type.name
  | reference _ _ symbol => " " ++ t.nameOf symbol ++ " : " ++ (t.typeOf symbol).name
  | binary _ type op _ _ | unary _ type op _ => " " ++ op.symbol ++ " : " ++ type.name
  | assignment _ symbol _ | input _ symbol | forLoop _ symbol _ _ _ => " " ++ t.nameOf symbol
  | listElement pos symbol next =>
    " " ++ ", ".intercalate ((listElement pos symbol next).listSymbols.map t.nameOf)
  | parenthesized .. | print .. | whileLoop .. | ifElse .. | root .. => ""

theorem toList_headline (t : SymbolTable) (n : Node) :
    (n.headline t).toList = n.keyword.word.toList ++ (n.remark t).toList := by
  cases n <;> simp [headline, keyword, remark, Keyword.word, String.toList_append]

theorem head?_remark (t : SymbolTable) (n : Node) : ∀ c ∈ (n.remark t).toList.head?, c = ' ' := by
  cases n <;> simp [remark, String.toList_append]

/-- A headline tells its keyword and its remark. -/
theorem headline_inj {t : SymbolTable} {a b : Node} (h : a.headline t = b.headline t) :
    a.keyword = b.keyword ∧ a.remark t = b.remark t := by
  have hlists := congrArg String.toList h
  rw [toList_headline, toList_headline] at hlists
  obtain ⟨hword, hremark⟩ := append_inj_of_mark a.keyword.space_not_mem_word
    b.keyword.space_not_mem_word (head?_remark t a) (head?_remark t b) hlists
  exact ⟨Keyword.word_injective (String.toList_inj.mp hword), String.toList_inj.mp hremark⟩

end Node
end ImpFront
