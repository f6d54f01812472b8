/-
# Blank characters

The characters that count as white space: the ASCII controls and separators,
the next-line and no-break characters and the space separators of Unicode. The
zero-width characters are not among them.
-/
import ComponentDivision.Text.Basic

namespace ComponentDivision

/-- A white space character. -/
def isBlank (c : Char) : Bool :=
  let n := c.toNat
  9 ≤ n && n ≤ 13 || 28 ≤ n && n ≤ 32 || n == 0x85 || n == 0xA0 || n == 0x1680
    || 0x2000 ≤ n && n ≤ 0x200A || n == 0x2028 || n == 0x2029 || n == 0x202F
    || n == 0x205F || n == 0x3000

namespace Text

/-- A text without any character that shows. -/
def blank (t : Text) : Bool :=
  t.all isBlank

end Text

end ComponentDivision
