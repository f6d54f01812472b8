/-
# Lexemes of scripts

The lexical classes of the script language: for each class, how long the lexeme
is that a text begins with. A parser asks for the classes it can use at a place,
so one text may be a lexeme of several classes.

* `Lexeme` : the classes;
* `Lexeme.length?` : the length of the lexeme of a class.
-/
import ComponentDivision.Script.Literal

namespace ComponentDivision.Script

/-- The lexical classes. -/
inductive Lexeme where
  /-- These characters; a word only as a whole identifier name. -/
  | mark (t : Text)
  /-- An identifier name that is not reserved. -/
  | identifier
  /-- Any identifier name, reserved or not. -/
  | name
  | privateName
  | number
  | string
  /-- Text of a template up to its end or a substitution. -/
  | templateText
  /-- A regular expression after its opening slash. -/
  | patternRest
  /-- The question mark of a conditional expression. -/
  | question
  /-- Nothing at all, where a statement may end without a semicolon. -/
  | statementEnd
  /-- The two words that begin a static accessor, when the line ends with them. -/
  | staticGet
  | markupText
  | markupReference
  | markupName
  | markupString
  deriving DecidableEq, Repr

namespace Lexeme

/-- The length of fixed characters. -/
def markLength? (m t : Text) : Option Nat :=
  if m.all isIdentifierPart then if identifierName t == m then some m.length else none
  else if m.isPrefixOf t then some m.length
  else none

/-- The length of the words of a static accessor with the end of their line. -/
def staticGetLength? (t : Text) : Option Nat :=
  let isGap := fun c : Char => c.toNat ≤ 32 && isSpace c
  let tail := t.drop 6
  let gap := (tail.takeWhile isGap).length
  let after := (tail.drop gap).drop 3
  let blanks := after.takeWhile isGap
  if "static".toList.isPrefixOf t && 0 < gap && "get".toList.isPrefixOf (tail.drop gap)
      && blanks.contains '\n' then
    some (9 + gap + (blanks.length - (blanks.reverse.takeWhile (· != '\n')).length))
  else none

/-- The length of the lexeme of a class that a text begins with. The classes that
depend on what stands before them have none here. -/
def length? (l : Lexeme) (t : Text) : Option Nat :=
  match l with
  | mark m => markLength? m t
  | identifier =>
    let word := identifierName t
    if word.isEmpty || reservedWords.contains word then none else some word.length
  | name => if (identifierName t).isEmpty then none else some (identifierName t).length
  | privateName =>
    match t with
    | '#' :: cs =>
      if (identifierName cs).isEmpty then none else some ((identifierName cs).length + 1)
    | _ => none
  | number => numberLength t
  | string => stringLength t
  | staticGet => staticGetLength? t
  | markupReference => referenceLength t
  | markupName => hyphenatedLength t
  | markupString => attributeStringLength t
  | templateText | patternRest | question | statementEnd | markupText => none

/-- Fixed characters are preferred to a class that has the same length. -/
def isMark : Lexeme → Bool
  | mark _ => true
  | _ => false

end Lexeme

end ComponentDivision.Script
