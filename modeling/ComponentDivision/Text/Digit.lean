/-
# Digits

Numbers written with ASCII digits, in base sixteen or below.

* `numberOf` : the number that digits stand for.
-/
import ComponentDivision.Text.Basic

namespace ComponentDivision

/-- The value of a digit in base ten or sixteen. -/
def digitValue (c : Char) : Nat :=
  if c.isDigit then c.toNat - '0'.toNat else c.toLower.toNat - 'a'.toNat + 10

/-- A hexadecimal digit. -/
def isHexDigit (c : Char) : Bool :=
  c.isDigit || 'a' ≤ c.toLower && c.toLower ≤ 'f'

/-- The number that digits stand for. -/
def numberOf (base : Nat) (digits : Text) : Nat :=
  digits.foldl (fun n c => base * n + digitValue c) 0

end ComponentDivision
