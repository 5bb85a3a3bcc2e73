/-
The operations of a session as data, so that a compilation can be written down as a list.

What an operation is about is a parameter: a session performs operations on nodes, while a
recorded operation calls nodes by number.
-/
import ImpFront.Session

namespace ImpFront

inductive Operation (ν : Type) where
  | setPosition (line column : UInt32)
  | intern (name : String)
  | declare (name : String)
  | bindType (symbol : SymbolId) (type : Ty)
  | listElement (name : String)
  | declareList (head : ν) (type : Ty)
  | constant (value : Value)
  | reference (name : String)
  | binary (left : ν) (op : Operator) (right : ν)
  | unary (op : Operator) (right : ν)
  | parenthesized (inner : ν)
  | assign (name : String) (expression : ν)
  | print (expression : ν)
  | input (name : String)
  | forLoop (name : String) (first last : ν) (body : List ν)
  | whileLoop (condition : ν) (body : List ν)
  | ifElse (condition : ν) (thenBody elseBody : List ν)
  | root (declarations statements : List ν)
  deriving DecidableEq, Repr

inductive Result (ν : Type) where
  | done
  | handle (id : SymbolId)
  /-- The handle of a variable that is freshly declared. -/
  | declared (id : Option SymbolId)
  | flag (holds : Bool)
  | node (n : ν)
  deriving DecidableEq, Repr

namespace Operation

/-- The operation with each of its parts looked up, if all of them are found. -/
def resolve? {ν μ : Type} (find : ν → Option μ) : Operation ν → Option (Operation μ)
  | setPosition line column => some (setPosition line column)
  | intern name => some (intern name)
  | declare name => some (declare name)
  | bindType symbol type => some (bindType symbol type)
  | listElement name => some (listElement name)
  | declareList head type => return declareList (← find head) type
  | constant value => some (constant value)
  | reference name => some (reference name)
  | binary left op right => return binary (← find left) op (← find right)
  | unary op right => return unary op (← find right)
  | parenthesized inner => return parenthesized (← find inner)
  | assign name expression => return assign name (← find expression)
  | print expression => return print (← find expression)
  | input name => some (input name)
  | forLoop name first last body =>
    return forLoop name (← find first) (← find last) (← body.mapM find)
  | whileLoop condition body => return whileLoop (← find condition) (← body.mapM find)
  | ifElse condition thenBody elseBody =>
    return ifElse (← find condition) (← thenBody.mapM find) (← elseBody.mapM find)
  | root declarations statements =>
    return root (← declarations.mapM find) (← statements.mapM find)

end Operation

namespace Session

/-- Give back a built node beside the session that built it. -/
def built : Node × Session → Result Node × Session :=
  Prod.map Result.node id

def perform (s : Session) : Operation Node → Result Node × Session
  | .setPosition line column => (.done, s.setPosition line column)
  | .intern name => (s.intern name).map .handle id
  | .declare name => (s.declare name).map .declared id
  | .bindType symbol type => (s.bindType symbol type).map .flag id
  | .listElement name => built (s.listElement name)
  | .declareList head type => (s.declareList head type).map (fun _ => .done) id
  | .constant value => built (s.constant value, s)
  | .reference name => built (s.reference name)
  | .binary left op right => built (s.binary left op right)
  | .unary op right => built (s.unary op right)
  | .parenthesized inner => built (s.parenthesized inner, s)
  | .assign name expression => built (s.assign name expression)
  | .print expression => built (s.print expression, s)
  | .input name => built (s.input name)
  | .forLoop name first last body => built (s.forLoop name first last body)
  | .whileLoop condition body => built (s.whileLoop condition body, s)
  | .ifElse condition thenBody elseBody => built (s.ifElse condition thenBody elseBody, s)
  | .root declarations statements => built (s.root declarations statements, s)

end Session
end ImpFront
