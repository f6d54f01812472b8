/-
# Diagnostics

What is reported about a place in a text that cannot be read: a summary, the
line and column of the place, and a frame that shows the line with a caret
under the place.

* `Diagnostic.of` : the diagnostic of a place in a source text;
* `MarkupDiagnostic.of` : the same, placed in the document that the source text
  is a fragment of.
-/
import ComponentDivision.Text.Position

namespace ComponentDivision

/-- A complaint about one place of a source text. -/
structure Diagnostic where
  /-- What is wrong. -/
  summary : Text
  /-- The offset of the place. -/
  position : Int
  /-- The line of the place, from one. -/
  line : Nat
  /-- The column of the place, from zero. -/
  column : Int
  /-- The source line and the line of the caret. -/
  frame : Text
  deriving DecidableEq, Repr

namespace Diagnostic

/-- The complaint `summary` about the offset `position` of `source`. -/
def of (summary source : Text) (position : Int) : Diagnostic :=
  let line := source.lineNumber position
  let start := source.lineStart position
  let column := position - start
  let margin := Text.decimal line ++ ": ".toList
  let excerpt := (source.take (source.lineEnd position)).drop start
  let caret := List.replicate (margin.length + column).toNat ' ' ++ ['^']
  ⟨summary, position, line, column, margin ++ excerpt ++ '\n' :: caret⟩

/-- The first line of the report: the summary, the line and the column. -/
def headline (d : Diagnostic) : Text :=
  d.summary ++ " (".toList ++ Text.decimal d.line ++ ':' :: Text.decimal d.column ++ [')']

/-- The whole report. -/
def text (d : Diagnostic) : Text :=
  d.headline ++ '\n' :: d.frame

end Diagnostic

/-- A complaint about a markup fragment, placed in the whole document. -/
structure MarkupDiagnostic where
  /-- The first line of the complaint about the fragment. -/
  diagnostic : Text
  /-- The line in the document. -/
  line : Int
  /-- The offset in the document. -/
  char : Int
  fileName : Option Text
  /-- The whole report. -/
  message : Text
  deriving DecidableEq, Repr

/-- Moves a complaint about a fragment that begins on line `startLine` at
offset `startChar` to the document; the report names the file if it has a name. -/
def MarkupDiagnostic.of (d : Diagnostic) (startLine startChar : Int) (fileName : Option Text) :
    MarkupDiagnostic where
  diagnostic := d.text.firstLine
  line := startLine + d.line - 1
  char := startChar + d.position
  fileName := fileName
  message :=
    match fileName with
    | some (c :: cs) => (c :: cs) ++ ": ".toList ++ d.text
    | _ => d.text

end ComponentDivision
