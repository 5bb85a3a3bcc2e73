/-
The outline of a syntax tree: one line per node, and one for each heading inside a node,
indented by its depth.

An outline is first a list of lines with their depths and then a text, so that where a line
stands does not depend on what it says.
-/
import ImpFront.Node.Basic

namespace ImpFront

/-- A line of an outline: how deep it stands and what it says. -/
structure OutlineLine where
  depth : Nat
  text : String
  deriving DecidableEq, Repr

namespace OutlineLine

def render (line : OutlineLine) : String :=
  String.join (List.replicate line.depth "  ") ++ line.text ++ "\n"

end OutlineLine

namespace Node

/-- The first line of a node.  Types of variables are the current ones of the table. -/
def headline (table : SymbolTable) : Node → String
  | constant _ value => "Constant " ++ value.display ++ " : " ++ value.type.name
  | reference _ _ symbol =>
    "Reference " ++ table.nameOf symbol ++ " : " ++ (table.typeOf symbol).name
  | binary _ type op _ _ => "BinaryOp " ++ op.symbol ++ " : " ++ type.name
  | unary _ type op _ => "UnaryOp " ++ op.symbol ++ " : " ++ type.name
  | parenthesized .. => "Parenthesized"
  | assignment _ target _ => "Assignment " ++ table.nameOf target
  | print .. => "Print"
  | input _ target => "Input " ++ table.nameOf target
  | forLoop _ counter _ _ _ => "For " ++ table.nameOf counter
  | whileLoop .. => "While"
  | ifElse .. => "If"
  | root .. => "Root"
  | listElement pos symbol next =>
    "List " ++ ", ".intercalate ((listElement pos symbol next).listSymbols.map table.nameOf)

mutual
/-- The lines of a node at a depth.  Its parts stand one level below it, and the parts under a
heading one level below the heading.  An identifier list is one line. -/
def outline (table : SymbolTable) (depth : Nat) : Node → List OutlineLine
  | n@(constant ..) | n@(reference ..) | n@(input ..) | n@(listElement ..) =>
    [⟨depth, n.headline table⟩]
  | n@(binary _ _ _ left right) =>
    ⟨depth, n.headline table⟩ ::
      (outline table (depth + 1) left ++ outline table (depth + 1) right)
  | n@(unary _ _ _ part) | n@(parenthesized _ _ part) | n@(assignment _ _ part)
  | n@(print _ part) => ⟨depth, n.headline table⟩ :: outline table (depth + 1) part
  | n@(forLoop _ _ first last body) =>
    ⟨depth, n.headline table⟩ ::
      (outline table (depth + 1) first ++ outline table (depth + 1) last ++
        ⟨depth + 1, "Do"⟩ :: outlineList table (depth + 2) body)
  | n@(whileLoop _ condition body) =>
    ⟨depth, n.headline table⟩ ::
      (outline table (depth + 1) condition ++
        ⟨depth + 1, "Do"⟩ :: outlineList table (depth + 2) body)
  | n@(ifElse _ condition thenBody elseBody) =>
    ⟨depth, n.headline table⟩ ::
      (outline table (depth + 1) condition ++
        ⟨depth + 1, "Then"⟩ :: outlineList table (depth + 2) thenBody ++
        ⟨depth + 1, "Else"⟩ :: outlineList table (depth + 2) elseBody)
  | n@(root _ declarations statements) =>
    ⟨depth, n.headline table⟩ ::
      (⟨depth + 1, "Declarations"⟩ :: outlineList table (depth + 2) declarations ++
        ⟨depth + 1, "Statements"⟩ :: outlineList table (depth + 2) statements)

def outlineList (table : SymbolTable) (depth : Nat) : List Node → List OutlineLine
  | [] => []
  | n :: rest => outline table depth n ++ outlineList table depth rest
end

def pretty (n : Node) (table : SymbolTable) : String :=
  String.join ((n.outline table 0).map OutlineLine.render)

end Node
end ImpFront
