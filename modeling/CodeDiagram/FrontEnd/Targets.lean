/-
# Targets in turns

`Python.bindTargets` takes the ends of nested containers one by one.  Here the same is done in
turns, with a pile of nodes that wait (`Python.takeApart`): a turn takes the topmost node off the
pile, and of a container it puts what is inside onto the pile, the last node first, so that the
first one comes next.  Both find the same: see `Proofs/FrontEnd/Targets.lean`.
-/
import CodeDiagram.FrontEnd.Python

namespace CodeDiagram.Python

open Syntax

/-- Adds the name that a node has, if it has a text. -/
def addName (d : Document) (binding : Binding) (found : BindTargets) (n : Node) : BindTargets :=
  match d.textOf n with
  | .ok name => { found with names := found.names ++ [⟨name, d.line n, binding⟩] }
  | .error _ => found

/-- Adds a node that is only read. -/
def addRead (found : BindTargets) (n : Node) : BindTargets :=
  { found with reads := found.reads ++ [n] }

/-- Takes the nodes of a pile apart, from the top on, and adds what they bind and read. -/
def takeApart (d : Document) (binding : Binding) (found : BindTargets) : List Node → BindTargets
  | [] => found
  | n :: waiting =>
    if n.kind == "identifier" then takeApart d binding (addName d binding found n) waiting
    else if n.kind == "attribute" && isSelfAttribute d n then
      takeApart d binding (addName d .field found n) waiting
    else if isContainer n.kind then
      takeApart d binding found (pile n.namedChildren.reverse waiting)
    else takeApart d binding (addRead found n) waiting
termination_by waiting => Node.sizes waiting
decreasing_by
  all_goals
    have hpos := n.sizes_namedChildren_lt
    simp only [pile_reverse, Node.sizes_append, Node.sizes]
    omega

end CodeDiagram.Python
