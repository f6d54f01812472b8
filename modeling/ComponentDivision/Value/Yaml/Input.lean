/-
# Reading YAML: places

A YAML text is read character by character. Lines and columns matter, because
indentation does.

* `Yaml.Input` : what is left of a text, and where it begins;
* `Yaml.Input.advance` : the place some characters further.
-/
import ComponentDivision.Text.Basic

namespace ComponentDivision.Yaml

/-- Why a text is not read as YAML. -/
inductive Problem where
  /-- A character that no text of this notation may hold. -/
  | unprintable
  /-- A character that cannot begin anything. -/
  | misplacedCharacter
  /-- A key without a colon after it. -/
  | missingColon
  /-- An item or a key where none may begin. -/
  | misplacedEntry
  /-- A quoted text that is not closed, or has an unknown escape. -/
  | badQuoting
  /-- The header of a block text. -/
  | badHeader
  /-- A directive, a tag, an anchor or an alias, which this library does not read. -/
  | unsupported
  /-- Something else was expected. -/
  | unexpectedToken
  /-- More than one document. -/
  | severalDocuments
  /-- A list or a table as a key. -/
  | badKey
  /-- A scalar that stands for no value. -/
  | noValue
  deriving DecidableEq, Repr

/-- The wording of a problem. -/
def Problem.message : Problem → String
  | .unprintable => "special characters are not allowed"
  | .misplacedCharacter => "found a character that cannot start any token"
  | .missingColon => "could not find expected ':'"
  | .misplacedEntry => "entries are not allowed here"
  | .badQuoting => "could not read a quoted scalar"
  | .badHeader => "could not read the header of a block scalar"
  | .unsupported => "directives, tags, anchors and aliases are not read"
  | .unexpectedToken => "did not find what was expected"
  | .severalDocuments => "expected a single document in the stream"
  | .badKey => "found unhashable key"
  | .noValue => "could not determine a value"

/-! ## Characters -/

/-- A character that ends a line. -/
def isBreak (c : Char) : Bool :=
  c = '\n' || c = '\r' || c.toNat = 0x85 || c.toNat = 0x2028 || c.toNat = 0x2029

/-- Whether a word ends before what comes next: a space, a tab, a line end or the end
of the text. -/
def endsWord : Option Char → Bool
  | none => true
  | some c => c = ' ' || c = '\t' || isBreak c

/-- A character that a text of this notation may hold. -/
def isPrintable (c : Char) : Bool :=
  let n := c.toNat
  n == 9 || n == 10 || n == 13 || 0x20 ≤ n && n ≤ 0x7E || n == 0x85 || 0xA0 ≤ n && n ≤ 0xFFFD
    || 0x10000 ≤ n

/-! ## Places -/

/-- What is left of a text, and where it begins. -/
structure Input where
  rest : Text
  index : Nat := 0
  line : Nat := 0
  column : Nat := 0

namespace Input

/-- The next character. -/
def peek (i : Input) : Option Char :=
  i.rest.head?

/-- The character `n` further. -/
def peekAt (i : Input) (n : Nat) : Option Char :=
  i.rest[n]?

/-- The place one character further. -/
def next (i : Input) : Input :=
  match i.rest with
  | [] => i
  | c :: cs =>
    if isBreak c && !(c = '\r' && cs.head? == some '\n') then
      { rest := cs, index := i.index + 1, line := i.line + 1, column := 0 }
    else if c.toNat = 0xFEFF then { i with rest := cs, index := i.index + 1 }
    else { i with rest := cs, index := i.index + 1, column := i.column + 1 }

/-- The place `n` characters further. -/
def advance (i : Input) : Nat → Input
  | 0 => i
  | n + 1 => i.next.advance n

/-- The place after the characters at the front that have a property. -/
def skipWhile (p : Char → Bool) (i : Input) : Input :=
  i.advance (i.rest.takeWhile p).length

/-- The line end at the front as one character, and the place after it. -/
def lineBreak? (i : Input) : Option (Char × Input) :=
  match i.rest with
  | '\r' :: '\n' :: _ => some ('\n', i.advance 2)
  | c :: _ =>
    if isBreak c then
      some (if c.toNat = 0x2028 || c.toNat = 0x2029 then c else '\n', i.next)
    else none
  | [] => none

/-- Whether a line begins here with this mark between documents. -/
def atMark (i : Input) (mark : String) : Bool :=
  mark.toList.isPrefixOf i.rest && endsWord (i.peekAt 3)

/-- Whether a mark between documents stands here. -/
def atSeparator (i : Input) : Bool :=
  i.atMark "---" || i.atMark "..."

end Input

end ComponentDivision.Yaml
