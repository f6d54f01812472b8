/-
# Recognising a script

Reading from left to right in every way that the preferences leave open. Readings
that stand in the same frame at the same place are one node of a graph, so that
they go on together; the nodes below a node are where its frame was reached from.
A rule that has been read to the end takes the nodes of its parts away and moves
on the frame below them.

* `Graph` : the readings so far;
* `Table.recognises` : whether a text is of a category.
-/
import ComponentDivision.Script.Scan

namespace ComponentDivision.Script

/-- A frame and the nodes it was reached from. -/
structure Node where
  frame : Frame
  below : List Nat
  deriving Inhabited

/-- A node from which a text is still to be read. -/
structure Pending where
  node : Nat
  rest : Text
  /-- The length of the text. -/
  left : Nat

/-- The readings so far: all nodes, and those that are still to go on, with the
longest rest first. -/
structure Graph where
  nodes : Array Node
  pending : List Pending

namespace Graph

/-- The frame of a node. -/
def frame (g : Graph) (i : Nat) : Frame :=
  (g.nodes.getD i default).frame

/-- The nodes a number of steps below some nodes. -/
def below (g : Graph) : Nat → List Nat → List Nat
  | 0, is => is
  | n + 1, is => below g n (is.flatMap fun i => (g.nodes.getD i default).below).eraseDups

/-- Adds a node. -/
def push (g : Graph) (n : Node) : Graph :=
  { g with nodes := g.nodes.push n }

/-- Inserts a pending node before the first one with a shorter rest. -/
def schedule (p : Pending) : List Pending → List Pending
  | [] => [p]
  | q :: qs => if q.left < p.left then p :: q :: qs else q :: schedule p qs

/-- A frame that has been reached from the node `lower` with `rest` still to be read.
It joins a pending node with the same frame and the same rest. -/
def enter (g : Graph) (frame : Frame) (lower : Nat) (rest : Text) : Graph :=
  let left := rest.length
  match g.pending.find? fun p => p.left == left && g.frame p.node == frame with
  | some p =>
    { g with
      nodes := g.nodes.modify p.node fun n => { n with below := (lower :: n.below).eraseDups } }
  | none =>
    { nodes := g.nodes.push ⟨frame, [lower]⟩
      pending := schedule ⟨g.nodes.size, rest, left⟩ g.pending }

end Graph

namespace Table

/-- What is being looked for, and the lexeme that is at hand. -/
structure Step where
  goal : Category
  classes : Nat
  /-- The text before the lexeme. -/
  before : Text
  /-- The text after the lexeme. -/
  after : Text

/-- Goes on from the nodes of an agenda with one lexeme: rules end, and the lexeme is
read where it continues a rule. `seen` holds the categories that have been found, with
the node below them. There is no graph if the goal was found above the first node
with nothing left to read. -/
def settle (t : Table) (step : Step) :
    Nat → List (Category × Nat) → List Nat → Graph → Option Graph
  | 0, _, _, g => some g
  | _, _, [], g => some g
  | fuel + 1, seen, i :: agenda, g =>
    let choice := t.choose (g.frame i) step.classes
    let found := (choice.ended.flatMap fun r =>
      (g.below r.parts.length [i]).map fun b => (r.head, b)).eraseDups
    if step.before.isEmpty && found.contains (step.goal, 0) then none
    else
      let fresh := found.filter fun e => !seen.contains e
      let g :=
        if choice.goesOn then g.enter (t.shift (g.frame i) step.classes) i step.after else g
      let made := List.range' g.nodes.size fresh.length
      let g := fresh.foldl
        (fun g (c, b) => g.push ⟨t.advance (g.frame b) c.ctorIdx, [b]⟩) g
      settle t step fuel (fresh ++ seen) (made ++ agenda) g

/-- Goes on until no reading is left. -/
def run (t : Table) (goal : Category) : Nat → Graph → Bool
  | 0, _ => false
  | fuel + 1, g =>
    match g.pending with
    | [] => false
    | p :: ps =>
      let g := { g with pending := ps }
      match t.read (t.expected (g.frame p.node)) p.rest with
      | none => run t goal fuel g
      | some (.comment rest) =>
        run t goal fuel { g with pending := Graph.schedule ⟨p.node, rest, rest.length⟩ ps }
      | some (.lexeme classes rest) =>
        let bound := Category.count * g.nodes.size + 1
        match t.settle ⟨goal, classes, p.rest, rest⟩ bound [] [p.node] g with
        | none => true
        | some g => run t goal fuel g

/-- Whether a text that is a script consists of one thing of the category `goal`. -/
def recognises (t : Table) (goal : Category) (text : Text) : Bool :=
  t.run goal (256 * (text.length + 1))
    ⟨#[⟨t.start .script, []⟩], [⟨0, text, text.length⟩]⟩

end Table

end ComponentDivision.Script
