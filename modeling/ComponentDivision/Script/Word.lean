/-
# Words and comments of scripts

The characters of the script language, the words made of them, and what may
stand between two lexemes.

* `identifierName` : the word that a text begins with;
* `commentLength?` : the comment that a text begins with;
* `skipSpace` : the text after its leading white space.
-/
import ComponentDivision.Text.Basic

namespace ComponentDivision.Script

/-! ## Characters -/

/-- White space of scripts: also the zero-width space, the word joiner and the
byte order mark, but no control characters other than those of a line. -/
def isSpace (c : Char) : Bool :=
  let n := c.toNat
  9 ≤ n && n ≤ 13 || n == 0x20 || n == 0xA0 || n == 0x1680 || 0x2000 ≤ n && n ≤ 0x200B
    || n == 0x2028 || n == 0x2029 || n == 0x202F || n == 0x205F || n == 0x2060 || n == 0x3000
    || n == 0xFEFF

/-- White space at which a line may be broken. -/
def isLayout (c : Char) : Bool :=
  let n := c.toNat
  isSpace c && n != 0xA0 && n != 0x2007 && n != 0x200B && n != 0x202F && n != 0x2060 && n != 0xFEFF

/-- The characters that end a line of statements. -/
def isBreak (c : Char) : Bool :=
  c == '\n' || c.toNat == 0x2028 || c.toNat == 0x2029

/-- The characters that end a comment. -/
def isLineEnd (c : Char) : Bool :=
  c == '\r' || isBreak c

/-- The punctuation that never stands in an identifier. -/
def punctuation : Text :=
  ":;`\"'@#.,|^&<=>+-*/\\%?!~()[]\x7b\x7d".toList

/-- A character that may continue an identifier. -/
def isIdentifierPart (c : Char) : Bool :=
  31 < c.toNat && !isSpace c && !punctuation.contains c

/-- A hexadecimal digit. -/
def isHexDigit (c : Char) : Bool :=
  c.isDigit || 'a' ≤ c && c ≤ 'f' || 'A' ≤ c && c ≤ 'F'

/-! ## Identifiers -/

/-- The length of a character given by its code point, after the backslash. -/
def codePointLength : Text → Option Nat
  | 'u' :: '{' :: cs =>
    let n := (cs.takeWhile isHexDigit).length
    if 0 < n && (cs.drop n).head? == some '}' then some (n + 3) else none
  | 'u' :: cs => if ((cs.take 4).takeWhile isHexDigit).length = 4 then some 5 else none
  | _ => none

/-- The length of the run of identifier characters that a text begins with. -/
def identifierLength : Text → Nat
  | [] => 0
  | '\\' :: cs =>
    match codePointLength cs with
    | some n => n + 1 + identifierLength (cs.drop n)
    | none => 0
  | c :: cs => if isIdentifierPart c then 1 + identifierLength cs else 0
termination_by t => t.length
decreasing_by all_goals simp only [List.length_cons, List.length_drop]; omega

/-- The identifier name that a text begins with; it does not begin with a digit. -/
def identifierName (t : Text) : Text :=
  match t with
  | [] => []
  | c :: _ => if c.isDigit then [] else t.take (identifierLength t)

/-- The words that never name a variable. -/
def reservedWords : List Text :=
  ["break", "case", "catch", "class", "const", "continue", "debugger", "default", "delete",
   "do", "else", "export", "extends", "false", "finally", "for", "function", "if", "import",
   "in", "instanceof", "new", "null", "return", "super", "switch", "this", "throw", "true",
   "try", "typeof", "var", "void", "while", "with"].map String.toList

/-! ## Comments -/

/-- The text after its leading white space. -/
def skipSpace (t : Text) : Text :=
  t.dropWhile isSpace

/-- The length of the comment that a text begins with. -/
def commentLength? : Text → Option Nat
  | '/' :: '/' :: cs => some (2 + (cs.takeWhile fun c => !isLineEnd c).length)
  | '/' :: '*' :: cs => (Text.find? "*/".toList cs).map (· + 4)
  | _ => none

/-- The text after the markup comment that it begins with, which ends with the
line. -/
def skipMarkupComment? (t : Text) : Option Text :=
  let rest := t.dropWhile isLayout
  if "<!--".toList.isPrefixOf rest || "-->".toList.isPrefixOf rest then
    some ((rest.drop 3).dropWhile fun c => !isBreak c)
  else none

end ComponentDivision.Script
