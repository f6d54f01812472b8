/-
# The built-in reader

Reads the script and style blocks of a document without any other help. It stands for
the reader `html.parser`, and there is no other one.

* `lenient` : the reader.
-/
import ComponentDivision.Markup.Element
import ComponentDivision.Markup.Locate

namespace ComponentDivision.Markup

/-- An element with its place in a document. -/
def Element.placed (document : Text) (e : Element) : Placed where
  name := e.name
  rendered := e.render
  line := some (document.lineNumber e.offset)
  column := some (e.offset - document.lineStart e.offset)

/-- An element with its place and the names of the elements around it. -/
def Element.tag (document : Text) (e : Element) : Tag :=
  { e.placed document with ancestors := e.ancestors }

/-- Why a document is not read. -/
inductive LocateError where
  /-- There is no reader for these features. -/
  | noReader (features : Text)
  /-- The markup cannot be read. -/
  | unreadable (r : Rejection)
  deriving DecidableEq, Repr

/-- The wording of an error. -/
def LocateError.message : LocateError → Text
  | .noReader features =>
    "Couldn't find a tree builder with the features you requested: ".toList ++ features
      ++ ". Do you need to install a parser library?".toList
  | .unreadable .unknownSection => "The markup has a section of an unknown kind.".toList
  | .unreadable (.longNumber e) => e.message

/-- The names of the built-in reader. -/
def readerNames : List Text :=
  ["html.parser", "html", "strict"].map String.toList

/-- The built-in reader, for want of any other one. -/
def lenient : TreeReader LocateError := fun features document =>
  if !readerNames.contains features then .error (.noReader features)
  else
    match elements document with
    | .error r => .error (.unreadable r)
    | .ok es => .ok (es.map (·.tag document))

end ComponentDivision.Markup
