/-
Compilations written down as lists of commands.

A workbench is a session and the nodes it has built so far, each under the number of its
place.  A command calls nodes by number, so whatever a list of commands does, it does with
nodes of its own session.
-/
import ImpFront.Operation

namespace ImpFront

inductive Command where
  | perform (op : Operation Nat)
  /-- Put a copy of the node `next` at the end of the identifier list `node`. -/
  | link (node next : Nat)
  deriving DecidableEq, Repr

structure Workbench where
  session : Session
  nodes : List Node := []

namespace Workbench

/-- The result of an operation, with a built node put at the end of the nodes and called by its
number. -/
def keep (w : Workbench) : Result Node × Session → Result Nat × Workbench
  | (.done, s) => (.done, { w with session := s })
  | (.handle id, s) => (.handle id, { w with session := s })
  | (.declared id, s) => (.declared id, { w with session := s })
  | (.flag holds, s) => (.flag holds, { w with session := s })
  | (.node n, s) => (.node w.nodes.length, { session := s, nodes := w.nodes ++ [n] })

/-- Link one node to another.  Only a list element can be linked to. -/
def link (w : Workbench) (index : Nat) (node next : Node) : Result Nat × Workbench :=
  match node.link? next with
  | some linked => (.flag true, { w with nodes := w.nodes.set index linked })
  | none => (.flag false, w)

/-- Carry out a command.  A command that calls a number without a node has no result and
changes nothing. -/
def exec (w : Workbench) : Command → Option (Result Nat) × Workbench
  | .perform op =>
    match op.resolve? fun i => w.nodes[i]? with
    | some op => (w.keep (w.session.perform op)).map some id
    | none => (none, w)
  | .link index next =>
    match w.nodes[index]?, w.nodes[next]? with
    | some node, some tail => (w.link index node tail).map some id
    | _, _ => (none, w)

def run (w : Workbench) (commands : List Command) : Workbench :=
  commands.foldl (fun w command => (w.exec command).2) w

theorem run_nil (w : Workbench) : w.run [] = w := rfl

theorem run_cons (w : Workbench) (command : Command) (rest : List Command) :
    w.run (command :: rest) = (w.exec command).2.run rest := rfl

theorem run_append (w : Workbench) (first second : List Command) :
    w.run (first ++ second) = (w.run first).run second :=
  List.foldl_append

end Workbench
end ImpFront
