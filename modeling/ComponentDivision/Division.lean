/-
# Dividing a document

A component file is divided into scripts, style and markup, and the expressions
in the markup are listed in document order.

* `Fragment.expressions` : the expressions in a piece of markup;
* `divideLocated` : the report of a document whose blocks are known;
* `Tools` : what a division relies on;
* `divide` : the report of a document.
-/
import ComponentDivision.Markup.Locate
import ComponentDivision.Report
import ComponentDivision.Settings
import ComponentDivision.Template.Extract
import ComponentDivision.Template.Parser

namespace ComponentDivision

/-- Why a document is not divided. -/
inductive Refusal where
  /-- A block cannot be told apart from a copy of its text. -/
  | ambiguous (a : Ambiguity)
  /-- A piece of markup is not a template. -/
  | malformed (fragment : Fragment) (fault : Fault) (fileName : Option Text)
  deriving DecidableEq, Repr

/-- The report about malformed markup, unless the place is not known. -/
def markupDiagnostic? (fragment : Fragment) (fault : Fault) (fileName : Option Text) :
    Option MarkupDiagnostic :=
  (fault.diagnostic? fragment.text).map fun d =>
    .of d fragment.startLine fragment.startChar fileName

/-- The wording of a refusal. Where the grammar does not say where a text goes
wrong only the kind of fault is known. -/
def Refusal.message : Refusal → Text
  | .ambiguous a => a.message
  | .malformed fragment fault fileName =>
    match markupDiagnostic? fragment fault fileName with
    | some d => d.message
    | none => Cause.unexpectedToken.message

/-! ## Expressions -/

namespace Fragment

/-- An expression of a fragment, moved to the document. -/
def expression (f : Fragment) (e : Expression) : Fragment where
  text := f.text.slice e.start e.stop
  startLine := f.startLine + e.line - 1
  startChar := f.startChar + e.start
  endChar := f.startChar + e.stop

/-- The expressions of a tree that was read from a fragment. -/
def treeExpressions (f : Fragment) (root : Node) : List Fragment :=
  (allExpressions root.children).map f.expression

/-- The expressions in a piece of markup. -/
def expressions (grammar : Grammar) (fileName : Option Text) (f : Fragment) :
    Except Refusal (List Fragment) :=
  match parseTemplate grammar f.text with
  | .error fault => .error (.malformed f fault fileName)
  | .ok root => .ok (f.treeExpressions root)

end Fragment

/-- The expressions in several pieces of markup. -/
def markupExpressions (grammar : Grammar) (fileName : Option Text) :
    List Fragment → Except Refusal (List Fragment)
  | [] => .ok []
  | f :: fs => do
    let found ← f.expressions grammar fileName
    let more ← markupExpressions grammar fileName fs
    return found ++ more

/-! ## Division -/

/-- The report of a document with these blocks; `extract` says whether the
expressions are listed. -/
def divideLocated (grammar : Grammar) (extract : Bool) (document : Text) (located : Located)
    (fileName : Option Text) : Except Refusal Report := do
  let layout ← (Layout.resolve document located fileName).mapError .ambiguous
  let report := Report.assemble document layout fileName
  if extract then
    let expressions ← markupExpressions grammar fileName report.markup
    return { report with expressions }
  else return report

/-- What a division relies on. -/
structure Tools (ε : Type) where
  /-- The grammar of the scripts in the markup. -/
  grammar : Grammar
  /-- The reader with which the blocks are found. -/
  reader : Markup.TreeReader ε
  /-- How deep the calls that collect expressions may nest, if there is a bound. -/
  room : Option Nat := none

/-- Whether the calls that collect the expressions in pieces of markup nest deeper than there is
room for. The pieces are read one after the other, up to one that is not a template. -/
def overflows (grammar : Grammar) (room : Nat) : List Fragment → Bool
  | [] => false
  | f :: fs =>
    match parseTemplate grammar f.text with
    | .error _ => false
    | .ok root => room < allCalls root.children || overflows grammar room fs

/-- Why a document has no report. -/
inductive Failure (ε : Type) where
  /-- The reader does not read it. -/
  | unlocated (e : ε)
  /-- There is no room for the calls that collect its expressions. -/
  | exhausted
  /-- It is not divided. -/
  | refused (r : Refusal)
  deriving DecidableEq, Repr

/-- The report of a document. -/
def divide {ε : Type} (tools : Tools ε) (settings : Settings) (document : Text)
    (fileName : Option Text) : Except (Failure ε) Report := do
  let located ← (Markup.locate tools.reader settings.features document).mapError .unlocated
  let bare ← (divideLocated tools.grammar false document located fileName).mapError .refused
  if settings.extract && tools.room.any (overflows tools.grammar · bare.markup) then
    .error .exhausted
  else
    (divideLocated tools.grammar settings.extract document located fileName).mapError .refused

end ComponentDivision
