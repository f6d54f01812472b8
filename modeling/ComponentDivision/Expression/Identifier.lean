/-
# Identifiers

The words of an embedded expression: ASCII letters and digits, the underscore,
the dollar sign and every character beyond ASCII.
-/
import ComponentDivision.Text.Alphanumeric

namespace ComponentDivision

/-- A character that may stand in a word. -/
def isWordChar (c : Char) : Bool :=
  c.isAlphanum || c == '_' || c == '$' || 127 < c.toNat

/-- The length of the word that a text begins with. -/
def wordLength (t : Text) : Nat :=
  (t.takeWhile isWordChar).length

/-- A word that may name something: it does not begin with a digit. -/
def isIdentifier : Text → Bool
  | [] => false
  | c :: cs => !isDigit c && (c :: cs).all isWordChar

end ComponentDivision
