/-
Sessions: the compilation of one source text.

A session keeps the symbol table, the current position and the diagnostics so far, and offers
one operation for each construct of the language.  An operation takes effect at the current
position.  It never fails: what is wrong becomes a diagnostic, which is kept and passed to the
sink.
-/
import ImpFront.Assignment
import ImpFront.Declaration
import ImpFront.Node.Build
import ImpFront.Sink
import ImpFront.Target

namespace ImpFront

structure Options where
  /-- Highlight names and types in reported messages. -/
  highlight : Bool := true
  sourceName : String := "shell"
  deriving DecidableEq, Repr

structure Session where
  options : Options
  sink : Sink
  resolver : Resolver
  position : Position
  symbols : SymbolTable := .empty
  /-- All diagnostics, in the order in which they came up. -/
  diagnostics : List Diagnostic := []
  /-- Everything that left the session, in order. -/
  journal : List Output := []
  /-- All questions put to the resolver, in order. -/
  queries : List Query := []

namespace Session

/-- A session at the start of a source text.  Reports go to the log and nothing is evaluated,
until another sink and another resolver are chosen. -/
def new (options : Options) : Session :=
  { options := options
    sink := .log
    resolver := .zero
    position := { line := 1, column := 0, file := options.sourceName } }

def withSink (s : Session) (sink : Sink) : Session := { s with sink := sink }

def withResolver (s : Session) (resolver : Resolver) : Session := { s with resolver := resolver }

def setPosition (s : Session) (line column : UInt32) : Session :=
  { s with position := { s.position with line := line, column := column } }

def hasErrors (s : Session) : Bool := !s.diagnostics.isEmpty

/-- What a session sends out for an operation: first the events of the operation, then what
the sink makes of each diagnostic. -/
def outputs (s : Session) (events : List Event) (diagnostics : List Diagnostic) :
    List Output :=
  let reports := List.map fun d : Diagnostic => d.report s.options.highlight
  events.map Output.event ++ s.sink.emitAll (reports s.diagnostics) (reports diagnostics)

/-- Keep the findings of an operation and give back its value. -/
def take {α : Type} (s : Session) (c : Checked α) : α × Session :=
  (c.value,
    { s with
      diagnostics := s.diagnostics ++ c.diagnostics
      journal := s.journal ++ s.outputs c.events c.diagnostics })

def absorb {α : Type} (s : Session) (u : Update α) : α × Session :=
  { s with symbols := u.table }.take u.toChecked

/-! ## Declarations -/

/-- The handle of a name.  The first use of a name makes an undeclared symbol for it. -/
def intern (s : Session) (name : String) : SymbolId × Session :=
  s.absorb (s.symbols.intern name)

/-- Declare a variable.  There is no handle if it was declared before. -/
def declare (s : Session) (name : String) : Option SymbolId × Session :=
  s.absorb <| (s.symbols.intern name).andThen fun id t =>
    let declared := t.declare id s.position
    declared.map fun _ => if declared.isClean then some id else none

def bindType (s : Session) (id : SymbolId) (type : Ty) : Bool × Session :=
  s.absorb (s.symbols.bindType id type)

def listElement (s : Session) (name : String) : Node × Session :=
  s.absorb <| (s.symbols.intern name).map fun id => .mkListElement id s.position

def declareList (s : Session) (head : Node) (type : Ty) : Unit × Session :=
  s.absorb (s.symbols.declareList head type s.position)

/-! ## Expressions -/

def constant (s : Session) (value : Value) : Node :=
  .constant s.position value

def reference (s : Session) (name : String) : Node × Session :=
  s.absorb <| (s.symbols.intern name).andThen fun id t =>
    .pure t (.mkReference t id s.position)

def binary (s : Session) (left : Node) (op : Operator) (right : Node) : Node × Session :=
  s.take (Node.mkBinary s.symbols left op right s.position)

def unary (s : Session) (op : Operator) (right : Node) : Node × Session :=
  s.take (Node.mkUnary s.symbols op right s.position)

def parenthesized (s : Session) (inner : Node) : Node :=
  .mkParenthesized s.symbols inner s.position

/-! ## Statements -/

/-- An assignment to a name that can be assigned to. -/
def assignTo (s : Session) (name : String) (expression : Node) : Node × Session :=
  let assigned := (s.symbols.intern name).andThen fun id t =>
    (t.assign id expression (s.resolver s.queries) s.position).map fun query => (id, query)
  let ((id, query), s) := s.absorb assigned
  (.assignment s.position id expression, { s with queries := s.queries ++ query.toList })

/-- An assignment.  Reserved words and numbers are refused before anything else, and a node is
built in every case. -/
def assign (s : Session) (name : String) (expression : Node) : Node × Session :=
  match Target.check name s.position with
  | some diagnostic =>
    s.take
      { value := .assignment s.position .invalid expression, diagnostics := [diagnostic] }
  | none => s.assignTo name expression

def print (s : Session) (expression : Node) : Node :=
  .print s.position expression

def input (s : Session) (name : String) : Node × Session :=
  s.absorb <| (s.symbols.intern name).map fun id => .input s.position id

def forLoop (s : Session) (name : String) (first last : Node) (body : List Node) :
    Node × Session :=
  s.absorb <| (s.symbols.intern name).map fun id => .forLoop s.position id first last body

def whileLoop (s : Session) (condition : Node) (body : List Node) : Node :=
  .whileLoop s.position condition body

def ifElse (s : Session) (condition : Node) (thenBody elseBody : List Node) : Node :=
  .ifElse s.position condition thenBody elseBody

def root (s : Session) (declarations statements : List Node) : Node :=
  .root s.position declarations statements

end Session
end ImpFront
