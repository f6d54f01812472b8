/-
# Reports

The fragments of a document with their positions: its scripts, its style block,
its markup, and the expressions in the markup.

* `Fragment.of` : the fragment between two offsets;
* `Report.assemble` : the fragments of a layout;
* `Report.human` : a report for people.
-/
import ComponentDivision.Region
import ComponentDivision.Text.Blank

namespace ComponentDivision

/-! ## Fragments -/

/-- A piece of a document and where it stands. -/
structure Fragment where
  text : Text
  /-- The line of its first character, from one. -/
  startLine : Int
  startChar : Int
  endChar : Int
  deriving DecidableEq, Repr

/-- The piece of a document between two offsets. -/
def Fragment.of (document : Text) (start stop : Int) : Fragment :=
  ⟨document.slice start stop, document.lineNumber start, start, stop⟩

/-- The scripts of a report: one is told apart from a list of one. -/
inductive Scripts where
  | absent
  | single (f : Fragment)
  | several (fs : List Fragment)
  deriving DecidableEq, Repr

namespace Scripts

/-- One script alone, several as a list. -/
def ofList : List Fragment → Scripts
  | [] => absent
  | [f] => single f
  | fs => several fs

/-- The scripts in order. -/
def toList : Scripts → List Fragment
  | absent => []
  | single f => [f]
  | several fs => fs

end Scripts

/-! ## Reports -/

/-- The fragments of a document. -/
structure Report where
  fileName : Option Text := none
  scripts : Scripts := .absent
  style : Option Fragment := none
  markup : List Fragment := []
  expressions : List Fragment := []
  deriving DecidableEq, Repr

namespace Report

/-- The fragments of a layout. Of several style blocks the last one counts, and
blank markup is left out. -/
def assemble (document : Text) (layout : Layout) (fileName : Option Text) : Report :=
  let fragment := fun s : Span => Fragment.of document s.start s.stop
  let scripts := layout.tagged.filter (·.block == .script)
  let styles := layout.tagged.filter (·.block == .style)
  let shown := layout.markup.filter fun s => !(document.slice s.start s.stop).blank
  { fileName
    scripts := .ofList (scripts.map fun r => fragment r.toSpan)
    style := styles.getLast?.map fun r => fragment r.toSpan
    markup := shown.map fragment }

/-! ## For people -/

/-- The place and size of a fragment. -/
def describe (f : Fragment) : Text :=
  "line ".toList ++ Text.decimal f.startLine ++ " chars ".toList ++ Text.decimal f.startChar
    ++ '-' :: Text.decimal f.endChar ++ " (".toList ++ Text.decimal (Text.newlines f.text + 1)
    ++ " line(s))".toList

/-- A line for each fragment, numbered from one. -/
def numbered (title : String) (fs : List Fragment) : List Text :=
  fs.zipIdx.map fun (f, i) =>
    '[' :: title.toList ++ ' ' :: Text.decimal (i + 1) ++ "] ".toList ++ describe f

/-- The line of an expression. -/
def expressionLine (f : Fragment) : Text :=
  "  line ".toList ++ Text.decimal f.startLine ++ " [".toList ++ Text.decimal f.startChar
    ++ ':' :: Text.decimal f.endChar ++ "] ".toList ++ f.text

/-- The lines of the report for people. -/
def lines (r : Report) : List Text :=
  ["File: ".toList ++ r.fileName.getD "None".toList]
  ++ numbered "script" r.scripts.toList
  ++ r.style.toList.map (fun f => "[style] ".toList ++ describe f)
  ++ numbered "markup" r.markup
  ++ (if r.expressions.isEmpty then []
      else
        ("Expressions: ".toList ++ Text.decimal r.expressions.length)
          :: r.expressions.map expressionLine)

/-- The report for people. -/
def human (r : Report) : Text :=
  ['\n'].intercalate r.lines

end Report

end ComponentDivision
