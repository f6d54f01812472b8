/-
# Reports as values

A report as a table with a field for each part that is there.
-/
import ComponentDivision.Report
import ComponentDivision.Value.Basic

namespace ComponentDivision

/-- A fragment as a table. -/
def Fragment.toValue (f : Fragment) : Value :=
  .table [("fragment".toList, .text f.text), ("startLine".toList, .integer f.startLine),
    ("startChar".toList, .integer f.startChar), ("endChar".toList, .integer f.endChar)]

/-- Fragments as a list, unless there are none. -/
def Fragment.toValues? (fs : List Fragment) : Option Value :=
  if fs.isEmpty then none else some (.list (fs.map toValue))

/-- Scripts as a table or a list of tables. -/
def Scripts.toValue? : Scripts → Option Value
  | .absent => none
  | .single f => some f.toValue
  | .several fs => Fragment.toValues? fs

/-- A report as a table. -/
def Report.toValue (r : Report) : Value :=
  let field := fun (name : String) (v : Option Value) =>
    v.toList.map fun v => (name.toList, v)
  .table (field "fileName" (r.fileName.map .text)
    ++ field "script" r.scripts.toValue?
    ++ field "style" (r.style.map Fragment.toValue)
    ++ field "htmlFragments" (Fragment.toValues? r.markup)
    ++ field "scriptInHTMLFragments" (Fragment.toValues? r.expressions))

end ComponentDivision
