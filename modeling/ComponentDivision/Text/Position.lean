/-
# Lines and columns

A line ends at a line feed and at nothing else. Lines are counted from one and
columns from zero.

* `Text.lineNumber` : the line of an offset;
* `Text.lineStart`, `Text.lineEnd` : where that line begins and ends;
* `Text.decimal` : a number in decimal notation.
-/
import ComponentDivision.Text.Basic

namespace ComponentDivision

namespace Text

/-- The number of line feeds in a text. -/
def newlines (t : Text) : Nat :=
  t.count '\n'

/-- The line that holds the offset `i`. -/
def lineNumber (t : Text) (i : Int) : Nat :=
  newlines (t.take (bound t.length i)) + 1

/-- The length of what stands after the last line feed of a text. -/
def lastLineLength (t : Text) : Nat :=
  (t.reverse.takeWhile (· != '\n')).length

/-- The offset at which the line that holds the offset `i` begins. -/
def lineStart (t : Text) (i : Int) : Nat :=
  bound t.length i - lastLineLength (t.take (bound t.length i))

/-- The offset of the line feed that ends the line that holds the offset `i`,
or the length of the text. -/
def lineEnd (t : Text) (i : Int) : Nat :=
  bound t.length i + ((t.drop (bound t.length i)).takeWhile (· != '\n')).length

/-- What stands before the first line feed. -/
def firstLine (t : Text) : Text :=
  t.takeWhile (· != '\n')

/-- A number in decimal notation. -/
def decimal : Int → Text
  | .ofNat n => Nat.toDigits 10 n
  | .negSucc n => '-' :: Nat.toDigits 10 (n + 1)

end Text

end ComponentDivision
