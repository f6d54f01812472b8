/-
# Template nodes

The tree of a template: markup mixed with tags and control blocks in braces.
A node keeps where it begins and ends in the parsed text; a branch of an await
block that is not written in the text begins and ends at minus one.

* `Kind` : what a node stands for;
* `Node` : a node with its parts;
* `Node.walk` : a node and all nodes below it, depth first.
-/
import ComponentDivision.Text.Basic

namespace ComponentDivision

/-! ## Kinds -/

/-- The kinds of elements. -/
inductive ElementKind where
  | element
  | component
  | slot
  | slotTemplate
  | head
  | title
  | window
  | body
  | document
  | options
  deriving DecidableEq, Repr

/-- The directives whose value is one expression. -/
inductive DirectiveKind where
  | binding
  | eventHandler
  | classToggle
  | action
  | transition
  | animation
  | letBinding
  deriving DecidableEq, Repr

/-- The blocks that have a guard and may have an else branch. -/
inductive GuardedKind where
  | ifBlock
  | eachBlock
  | keyBlock
  deriving DecidableEq, Repr

/-- The branches of blocks. -/
inductive BranchKind where
  | elseBlock
  | pendingBlock
  | thenBlock
  | catchBlock
  deriving DecidableEq, Repr

/-- What a node stands for. -/
inductive Kind where
  | fragment
  | text
  | comment
  | element (e : ElementKind)
  | mustache
  | rawMustache
  | debugTag
  | constTag
  | plainAttribute
  | shorthand
  | spread
  | directive (d : DirectiveKind)
  | styleDirective
  | guarded (b : GuardedKind)
  | awaitBlock
  | branch (b : BranchKind)
  /-- A node that templates do not have, by its label. -/
  | other (label : Text)
  deriving DecidableEq, Repr

namespace Kind

/-- The label of each kind of element. -/
def elementLabel : ElementKind → String
  | .element => "Element"
  | .component => "InlineComponent"
  | .slot => "Slot"
  | .slotTemplate => "SlotTemplate"
  | .head => "Head"
  | .title => "Title"
  | .window => "Window"
  | .body => "Body"
  | .document => "Document"
  | .options => "Options"

/-- The label of each directive. -/
def directiveLabel : DirectiveKind → String
  | .binding => "Binding"
  | .eventHandler => "EventHandler"
  | .classToggle => "Class"
  | .action => "Action"
  | .transition => "Transition"
  | .animation => "Animation"
  | .letBinding => "Let"

/-- The label of a kind. -/
def label : Kind → Text
  | fragment => "Fragment".toList
  | text => "Text".toList
  | comment => "Comment".toList
  | element e => (elementLabel e).toList
  | mustache => "MustacheTag".toList
  | rawMustache => "RawMustacheTag".toList
  | debugTag => "DebugTag".toList
  | constTag => "ConstTag".toList
  | plainAttribute => "Attribute".toList
  | shorthand => "AttributeShorthand".toList
  | spread => "Spread".toList
  | directive d => (directiveLabel d).toList
  | styleDirective => "StyleDirective".toList
  | guarded .ifBlock => "IfBlock".toList
  | guarded .eachBlock => "EachBlock".toList
  | guarded .keyBlock => "KeyBlock".toList
  | awaitBlock => "AwaitBlock".toList
  | branch .elseBlock => "ElseBlock".toList
  | branch .pendingBlock => "PendingBlock".toList
  | branch .thenBlock => "ThenBlock".toList
  | branch .catchBlock => "CatchBlock".toList
  | other label => label

/-- The kinds that templates have. -/
def all : List Kind :=
  [fragment, text, comment, mustache, rawMustache, debugTag, constTag, plainAttribute, shorthand,
   spread, styleDirective, awaitBlock]
  ++ [ElementKind.element, .component, .slot, .slotTemplate, .head, .title, .window, .body,
      .document, .options].map element
  ++ [DirectiveKind.binding, .eventHandler, .classToggle, .action, .transition, .animation,
      .letBinding].map directive
  ++ [GuardedKind.ifBlock, .eachBlock, .keyBlock].map guarded
  ++ [BranchKind.elseBlock, .pendingBlock, .thenBlock, .catchBlock].map branch

/-- The kind with a label. -/
def ofLabel (label : Text) : Kind :=
  (all.find? (·.label == label)).getD (other label)

/-- Whether a kind is one of the kinds of elements. -/
def isElement : Kind → Bool
  | element _ => true
  | _ => false

/-- Whether a kind is a branch of a block. -/
def isBranch : Kind → Bool
  | branch _ => true
  | _ => false

end Kind

/-! ## Nodes -/

/-- Where an expression stands in the parsed text. -/
structure Expression where
  start : Int
  stop : Int
  line : Int
  column : Int
  deriving DecidableEq, Repr

/-- What a node says of itself, its parts apart. -/
structure Label where
  kind : Kind
  start : Int
  stop : Int := -1
  name : Option Text := none
  data : Option Text := none
  expression : Option Expression := none
  modifiers : List Text := []
  /-- Whether an if block continues the chain of another one. -/
  elseif : Bool := false
  context : Option Text := none
  index : Option Text := none
  key : Option Expression := none
  thenPattern : Option Text := none
  catchPattern : Option Text := none
  /-- Whether the node is a branch that is not written in the text. -/
  unwritten : Bool := false
  deriving DecidableEq, Repr

/-- A node of a template. -/
structure Node where
  label : Label
  attributes : List Node := []
  /-- The chunks of an attribute's value, if it has one. -/
  value : Option (List Node) := none
  children : List Node := []
  elseBlock : Option Node := none
  pendingBlock : Option Node := none
  thenBlock : Option Node := none
  catchBlock : Option Node := none
  deriving Repr

namespace Node

/-- The kind of a node. -/
def kind (n : Node) : Kind := n.label.kind

/-- The offset of the first character of a node. -/
def start (n : Node) : Int := n.label.start

/-- The offset after the last character of a node. -/
def stop (n : Node) : Int := n.label.stop

/-- The name of a node. -/
def name (n : Node) : Option Text := n.label.name

/-- A node that consists of its label. -/
def leaf (label : Label) : Node := { label }

instance : Inhabited Node := ⟨leaf { kind := .fragment, start := 0 }⟩

end Node

/-! ## Walking -/

mutual

/-- A node and all nodes below it, depth first: its attributes, the chunks of its
value, its children and its branches. -/
def Node.walk : Node → List Node
  | ⟨label, attributes, value, children, elseBlock, pending, thenBlock, catchBlock⟩ =>
    ⟨label, attributes, value, children, elseBlock, pending, thenBlock, catchBlock⟩
      :: (walkAll attributes ++ walkValue value ++ walkAll children ++ walkBranch elseBlock
        ++ walkBranch pending ++ walkBranch thenBlock ++ walkBranch catchBlock)

/-- All nodes of a list of trees. -/
def walkAll : List Node → List Node
  | [] => []
  | n :: ns => n.walk ++ walkAll ns

/-- All nodes of a value. -/
def walkValue : Option (List Node) → List Node
  | none => []
  | some ns => walkAll ns

/-- All nodes of a branch. -/
def walkBranch : Option Node → List Node
  | none => []
  | some n => n.walk

end

end ComponentDivision
