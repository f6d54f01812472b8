/-
# Syntax trees

A parser for the script language that recovers from errors gives a tree with
marks on it: nodes that stand for a text that fits nowhere, and nodes that are
missing in the text. Such a parser is a grammar too, and it says where a text
goes wrong.

* `SyntaxTree.firstErrorByte` : the byte at which the first mark stands;
* `SyntaxTree.singleStatement?` : what a tree consists of, if it is one thing;
* `Grammar.ofTrees` : the grammar of a parser.
-/
import ComponentDivision.Script.Check
import ComponentDivision.Text.Encoding

namespace ComponentDivision

/-- A node of a syntax tree. -/
structure SyntaxTree where
  type : Text
  /-- The byte at which the node begins. -/
  startByte : Int
  isError : Bool
  isMissing : Bool
  /-- Whether some node of the tree carries a mark. -/
  hasError : Bool
  /-- Whether the node stands for a rule of the grammar, not for a mark of
  punctuation. -/
  named : Bool
  children : List SyntaxTree
  deriving Inhabited, Repr

namespace SyntaxTree

/-- Whether a node itself carries a mark. -/
def isMarked (t : SyntaxTree) : Bool :=
  t.isError || t.isMissing

/-- Whether a search goes into a node: it is missing itself, or it says that a mark is in it. -/
def isSuspect (t : SyntaxTree) : Bool :=
  t.hasError || t.isMissing

/-- A stack on which the suspect children of a node are put one by one, the last one first. -/
def push (t : SyntaxTree) (stack : List SyntaxTree) : List SyntaxTree :=
  List.reverseAux (t.children.reverse.filter isSuspect) stack

/-- The first child is on top. -/
theorem push_eq (t : SyntaxTree) (stack : List SyntaxTree) :
    t.push stack = t.children.filter isSuspect ++ stack := by
  rw [push, List.reverseAux_eq, List.filter_reverse, List.reverse_reverse]

theorem sizeOf_filter_append_le (p : SyntaxTree → Bool) (ts stack : List SyntaxTree) :
    sizeOf (ts.filter p ++ stack) ≤ sizeOf ts + sizeOf stack := by
  induction ts with
  | nil => simp
  | cons t ts ih =>
    rw [List.filter_cons]
    split
    · simp only [List.cons_append, List.cons.sizeOf_spec]
      omega
    · simp only [List.cons.sizeOf_spec]
      omega

theorem sizeOf_push_lt (t : SyntaxTree) (stack : List SyntaxTree) :
    sizeOf (t.push stack) < sizeOf (t :: stack) := by
  have hle := sizeOf_filter_append_le isSuspect t.children stack
  rw [push_eq]
  cases t
  simp only [List.cons.sizeOf_spec, mk.sizeOf_spec] at hle ⊢
  omega

/-- The byte at which the first marked node of a stack begins, depth first: the children of a node
without a mark take its place. -/
def firstMark : List SyntaxTree → Option Int
  | [] => none
  | t :: stack => if t.isMarked then some t.startByte else firstMark (t.push stack)
termination_by stack => sizeOf stack
decreasing_by exact sizeOf_push_lt t stack

/-- The byte at which a tree goes wrong, if it does. -/
def firstErrorByte (root : SyntaxTree) : Option Int :=
  if root.hasError then some ((firstMark [root]).getD root.startByte) else none

/-- The children that are neither punctuation nor comments. -/
def parts (t : SyntaxTree) : List SyntaxTree :=
  t.children.filter fun c => c.named && c.type != "comment".toList

/-- The type of the only part of the only statement of a program, if that is an
expression. -/
def singleStatement? (root : SyntaxTree) : Option Text :=
  match root.parts with
  | [statement] =>
    if statement.type == "expression_statement".toList then
      match statement.parts with
      | [part] => some part.type
      | _ => none
    else none
  | _ => none

end SyntaxTree

namespace Script

/-- The type that syntax trees give to what a wrapped text has to be. -/
def Wrap.treeType (w : Wrap) : Text :=
  if w.goal = .arrow then "arrow_function".toList else "parenthesized_expression".toList

/-- The byte at which a wrapped text goes wrong by its tree. A tree without marks
that is not what it has to be goes wrong at its first character. -/
def Wrap.errorByte? (w : Wrap) (tree : SyntaxTree) : Option Int :=
  match tree.firstErrorByte with
  | some b => some b
  | none =>
    if tree.singleStatement? = some w.treeType then none else some w.before.length

/-- The character of `t` that a byte of the wrapped text belongs to. The bytes before it are
read as far as they are whole characters. -/
def Wrap.charAt (w : Wrap) (t : Text) (byte : Int) : Nat :=
  let data := encode (w.apply t)
  let before := decodeLeniently (data.take (Text.bound data.length byte))
  min (before.length - w.before.length) t.length

/-- What a tree of the wrapped text says about `t`. -/
def Wrap.verdict (w : Wrap) (t : Text) (tree : SyntaxTree) : Verdict :=
  match w.errorByte? tree with
  | none => .accepted
  | some b => .rejected (some (w.charAt t b))

end Script

/-- The grammar of a parser that gives syntax trees. -/
def Grammar.ofTrees (parse : Text → SyntaxTree) : Grammar where
  expression t := Script.Wrap.expression.verdict t (parse (Script.Wrap.expression.apply t))
  pattern t := Script.Wrap.pattern.verdict t (parse (Script.Wrap.pattern.apply t))

end ComponentDivision
