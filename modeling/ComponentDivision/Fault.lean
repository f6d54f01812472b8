/-
# Faults

Why a template cannot be read, and where. A cause is data; its wording is
`Cause.message` and nothing else.

* `Misread` : a cause and the offset it is reported at;
* `Fault` : a misread template, or a text that the script grammar rejects.
-/
import ComponentDivision.Diagnostic

namespace ComponentDivision

/-- What was looked for and is missing. -/
inductive Expected where
  /-- These very characters. -/
  | characters (t : Text)
  | whitespace
  | tagName
  | attributeName
  | attributeValue
  | identifier
  | expression
  | bindingName
  | eachKeyword
  | blockKeyword
  | branchKeyword
  | tagKeyword
  deriving DecidableEq, Repr

/-- The name of what is missing, as reports spell it. -/
def Expected.describe : Expected → Text
  | .characters t => t
  | .whitespace => "whitespace".toList
  | .tagName => "valid tag name".toList
  | .attributeName => "valid attribute name".toList
  | .attributeValue => "attribute value".toList
  | .identifier => "identifier".toList
  | .expression => "expression".toList
  | .bindingName => "name".toList
  | .eachKeyword => "as".toList
  | .blockKeyword => "if, each, await or key".toList
  | .branchKeyword => ":else, :then or :catch".toList
  | .tagKeyword => "html, debug or const".toList

/-- Why a template cannot be read. -/
inductive Cause where
  | unexpectedEnd
  | unexpectedToken
  | unterminatedComment
  | unterminatedString
  | unterminatedTemplate
  | unterminatedRegex
  | missing (what : Expected)
  | elementLeftOpen (name : Text)
  | blockLeftOpen
  | commentLeftOpen
  /-- A closing tag for an element that never has content. -/
  | voidClosingTag (name : Text)
  /-- A closing tag without an open element of its name. -/
  | notOpen (name : Text)
  | unknownSpecialElement (name : Text)
  | repeatedAttribute
  | directiveValue
  | elseIfOutsideIf
  | elseOutsideBlock
  | branchOutsideAwait (keyword : Text)
  /-- A block closer while `inner` is still open. -/
  | closesOuterBlock (inner keyword : Text)
  deriving DecidableEq, Repr

/-- The wording of a cause. -/
def Cause.message : Cause → Text
  | .unexpectedEnd => "Unexpected end of input".toList
  | .unexpectedToken => "Unexpected token".toList
  | .unterminatedComment => "Unterminated comment".toList
  | .unterminatedString => "Unterminated string constant".toList
  | .unterminatedTemplate => "Unterminated template literal".toList
  | .unterminatedRegex => "Unterminated regular expression".toList
  | .missing what => "Expected ".toList ++ what.describe
  | .elementLeftOpen name => '<' :: name ++ "> was left open".toList
  | .blockLeftOpen => "Block was left open".toList
  | .commentLeftOpen => "comment was left open, expected -->".toList
  | .voidClosingTag name =>
    "</".toList ++ name
      ++ "> is a void element and cannot have children, or a closing tag".toList
  | .notOpen name =>
    "</".toList ++ name ++ "> attempted to close an element that was not open".toList
  | .unknownSpecialElement name =>
    '<' :: name ++ "> is not a valid svelte:* element".toList
  | .repeatedAttribute => "Attributes need to be unique".toList
  | .directiveValue =>
    "Directive value must be a JavaScript expression enclosed in curly braces".toList
  | .elseIfOutsideIf =>
    "Cannot have an \x7b:else if ...\x7d block outside an \x7b#if ...\x7d block".toList
  | .elseOutsideBlock =>
    "Cannot have an \x7b:else\x7d block outside an \x7b#if ...\x7d or ".toList
      ++ "\x7b#each ...\x7d block".toList
  | .branchOutsideAwait keyword =>
    "Cannot have an \x7b:".toList ++ keyword
      ++ "\x7d block outside an \x7b#await ...\x7d block".toList
  | .closesOuterBlock inner keyword =>
    "Expected to close ".toList ++ inner ++ " before \x7b/".toList ++ keyword ++ ['}']

/-- A cause with the offset it is reported at. -/
structure Misread where
  cause : Cause
  position : Nat
  deriving DecidableEq, Repr

/-- The same cause, `n` characters further. -/
def Misread.shift (n : Nat) (m : Misread) : Misread :=
  { m with position := m.position + n }

/-- The report about a misread place of `source`. -/
def Misread.diagnostic (m : Misread) (source : Text) : Diagnostic :=
  Diagnostic.of m.cause.message source m.position

/-- Why a template is refused. -/
inductive Fault where
  /-- The template itself is malformed. -/
  | misread (m : Misread)
  /-- The script grammar rejects the text from `start` to `stop`; `offset` is
  the character of that text it points at, if it points at one. -/
  | rejected (start stop : Nat) (offset : Option Nat)
  deriving DecidableEq, Repr

/-- The report about a fault of `source`, unless the place is not known. -/
def Fault.diagnostic? (source : Text) : Fault → Option Diagnostic
  | .misread m => some (m.diagnostic source)
  | .rejected start _ (some k) =>
    some ((Misread.mk .unexpectedToken (start + k)).diagnostic source)
  | .rejected _ _ none => none

end ComponentDivision
