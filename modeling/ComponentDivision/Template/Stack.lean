/-
# Open nodes

While a template is read some nodes are open: the root, which holds everything,
and above it the elements and blocks whose ends have not been read. A node joins
its parent when it ends, as a child or as the branch that its kind says.

* `Stack` : the open nodes;
* `Stack.receive`, `Stack.push`, `Stack.pop` : a finished node, a new open node,
  the end of the innermost open node;
* `Stack.closeOmitted`, `Stack.closeElement`, `Stack.closeBlock` : what a place
  without closing tags, a closing tag and a block closer end.
-/
import ComponentDivision.Fault
import ComponentDivision.Template.Element

namespace ComponentDivision

/-! ## Parents -/

/-- A parent with one more finished part. -/
def Node.attach (parent child : Node) : Node :=
  match child.kind with
  | .branch .elseBlock => { parent with elseBlock := some child }
  | .branch .pendingBlock => { parent with pendingBlock := some child }
  | .branch .thenBlock => { parent with thenBlock := some child }
  | .branch .catchBlock => { parent with catchBlock := some child }
  | _ => { parent with children := parent.children ++ [child] }

/-- The node with its end. -/
def Node.endAt (n : Node) (stop : Int) : Node :=
  { n with label := { n.label with stop := stop } }

/-! ## The stack -/

/-- The open nodes: the root and what is open inside it, innermost first. -/
structure Stack where
  root : Node
  inner : List Node := []
  deriving Repr

namespace Stack

/-- The innermost open node. -/
def current (st : Stack) : Node :=
  st.inner.headD st.root

/-- The stack with its innermost node changed. -/
def modifyCurrent (f : Node → Node) (st : Stack) : Stack :=
  match st.inner with
  | [] => { st with root := f st.root }
  | n :: ns => { st with inner := f n :: ns }

/-- Gives a finished node to the innermost open node. -/
def receive (n : Node) (st : Stack) : Stack :=
  st.modifyCurrent (·.attach n)

/-- Opens a node. -/
def push (n : Node) (st : Stack) : Stack :=
  { st with inner := n :: st.inner }

/-- Ends the innermost open node at `stop`; the root stays open. -/
def pop (stop : Int) (st : Stack) : Stack :=
  match st.inner with
  | [] => st
  | n :: ns => receive (n.endAt stop) { st with inner := ns }

theorem length_inner_modifyCurrent (f : Node → Node) (st : Stack) :
    (st.modifyCurrent f).inner.length = st.inner.length := by
  unfold modifyCurrent
  split <;> simp_all

theorem length_inner_receive (n : Node) (st : Stack) :
    (st.receive n).inner.length = st.inner.length :=
  length_inner_modifyCurrent _ st

theorem length_inner_pop (stop : Int) (st : Stack) :
    (st.pop stop).inner.length = st.inner.length - 1 := by
  unfold pop
  split
  · simp_all
  · rename_i n ns h
    rw [length_inner_receive, h]
    simp

/-- Whether some open node is the head of the page. -/
def inHead (st : Stack) : Bool :=
  st.inner.any fun n => n.kind == .element .head

/-! ## Ends -/

/-- Ends, at `stop`, the innermost elements whose closing tags may be left out
where nothing follows. -/
def closeOmitted (stop : Int) (st : Stack) : Stack :=
  match _h : st.inner with
  | [] => st
  | n :: _ =>
    if n.kind = .element .element && closingTagOmitted n.name none then
      closeOmitted stop (st.pop stop)
    else st
termination_by st.inner.length
decreasing_by
  rw [length_inner_pop, _h]
  simp

/-- Ends the innermost element at `start` if the start tag of the element `name`
ends it. -/
def closeBefore (name : Text) (start : Int) (st : Stack) : Stack :=
  if st.current.kind = .element .element && closingTagOmitted st.current.name (some name) then
    st.pop start
  else st

/-- Ends the element `name` at `stop`, and at `start` the plain elements inside it
that are still open; the closing tag runs from `start` to `stop`. -/
def closeNamed (name : Text) (start stop : Nat) (st : Stack) : Except Misread Stack :=
  match _h : st.inner with
  | [] => .error ⟨.notOpen name, start⟩
  | n :: _ =>
    if n.kind.isElement && n.name = some name then .ok (st.pop stop)
    else if n.kind = .element .element then closeNamed name start stop (st.pop start)
    else .error ⟨.notOpen name, start⟩
termination_by st.inner.length
decreasing_by
  rw [length_inner_pop, _h]
  simp

/-- What the closing tag of the element `name` ends. -/
def closeElement (name : Text) (start stop : Nat) (st : Stack) : Except Misread Stack :=
  if isVoid name then .error ⟨.voidClosingTag name, start⟩ else st.closeNamed name start stop

/-- Ends, at `stop`, the branches inside the block `kind`, and the if blocks that
continue a chain of one. -/
def closeBranches (kind : Kind) (stop : Int) (st : Stack) : Stack :=
  match _h : st.inner with
  | [] => st
  | n :: _ =>
    if n.kind.isBranch
        || kind = .guarded .ifBlock && n.kind = .guarded .ifBlock && n.label.elseif then
      closeBranches kind stop (st.pop stop)
    else st
termination_by st.inner.length
decreasing_by
  rw [length_inner_pop, _h]
  simp

/-- What the closer of the block `kind` ends; the closer, written with `keyword`,
runs from `start` to `stop`. -/
def closeBlock (kind : Kind) (keyword : Text) (start stop : Nat) (st : Stack) :
    Except Misread Stack :=
  let st := (st.closeOmitted start).closeBranches kind start
  if st.current.kind = kind then .ok (st.pop stop)
  else .error ⟨.closesOuterBlock st.current.label.describe keyword, start⟩

/-- The finished root, once the text has ended at `stop`. -/
def finish (stop : Nat) (st : Stack) : Except Misread Node :=
  let st := st.closeOmitted stop
  match st.inner with
  | [] => .ok st.root
  | n :: _ =>
    if n.kind.isElement then .error ⟨.elementLeftOpen (n.name.getD []), n.start.toNat⟩
    else .error ⟨.blockLeftOpen, n.start.toNat⟩

end Stack

end ComponentDivision
