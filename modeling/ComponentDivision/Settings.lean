/-
# Settings

What a caller can choose about the division of a document.
-/
import ComponentDivision.Text.Basic

namespace ComponentDivision

/-- The choices for a division. -/
structure Settings where
  /-- The features of the reader of lenient markup. -/
  features : Text := "html.parser".toList
  /-- Whether the expressions in the markup are listed. -/
  extract : Bool := true
  deriving DecidableEq, Repr

end ComponentDivision
