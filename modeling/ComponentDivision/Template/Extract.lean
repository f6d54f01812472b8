/-
# The expressions of a template

The expressions that a template computes with, in document order. A declaration,
a debug tag, a spread and the value of a style directive contribute none.

* `Node.expressions` : the expressions of a node and what is below it;
* `Node.calls` : how deep the calls nest that collect them.
-/
import ComponentDivision.Template.Node

namespace ComponentDivision

mutual

/-- The expressions of a node, by its kind. -/
def Node.expressions : Node → List Expression
  | ⟨label, attributes, value, children, elseBlock, pending, thenBlock, catchBlock⟩ =>
    match label.kind with
    | .mustache | .rawMustache | .directive _ => label.expression.toList
    | .element _ => allExpressions attributes ++ allExpressions children
    | .plainAttribute => valueExpressions value
    | .guarded _ =>
      label.expression.toList ++ allExpressions children ++ branchExpressions elseBlock
    | .awaitBlock =>
      label.expression.toList ++ branchExpressions pending ++ branchExpressions thenBlock
        ++ branchExpressions catchBlock
    | _ => []

/-- The expressions of a list of nodes. -/
def allExpressions : List Node → List Expression
  | [] => []
  | n :: ns => n.expressions ++ allExpressions ns

/-- The expressions of the chunks of a value. -/
def valueExpressions : Option (List Node) → List Expression
  | none => []
  | some chunks => allExpressions chunks

/-- The expressions of the children of a branch. -/
def branchExpressions : Option Node → List Expression
  | none => []
  | some ⟨_, _, _, children, _, _, _, _⟩ => allExpressions children

end

/-! ## Nested calls -/

mutual

/-- How deep the calls nest that collect the expressions of a node. -/
def Node.calls : Node → Nat
  | ⟨label, attributes, value, children, elseBlock, pending, thenBlock, catchBlock⟩ =>
    match label.kind with
    | .element _ => 1 + max (allCalls attributes) (allCalls children)
    | .plainAttribute => 1 + valueCalls value
    | .guarded _ => 1 + max (allCalls children) (branchCalls elseBlock)
    | .awaitBlock =>
      1 + max (branchCalls pending) (max (branchCalls thenBlock) (branchCalls catchBlock))
    | _ => 1

/-- The same for a list of nodes, which takes a call of its own. -/
def allCalls : List Node → Nat
  | [] => 1
  | n :: ns => max (1 + n.calls) (allCalls ns)

/-- The same for the chunks of a value. -/
def valueCalls : Option (List Node) → Nat
  | none => 0
  | some chunks => allCalls chunks

/-- The same for the children of a branch. -/
def branchCalls : Option Node → Nat
  | none => 0
  | some ⟨_, _, _, children, _, _, _, _⟩ => allCalls children

end

end ComponentDivision
