/-
# Elements of lenient markup

A start tag opens an element inside the innermost open one, and an end tag closes
everything up to the innermost open element of its name. No end tag is implied, and
one that fits nothing does nothing. Only the elements with raw content are kept.

* `Element` : a script or a style block with the names of the elements around it;
* `elements` : those elements, in document order;
* `Element.render` : an element written back in normal form.
-/
import ComponentDivision.Markup.Token

namespace ComponentDivision.Markup

/-- A script or a style block. -/
structure Element where
  name : Text
  attributes : List Attribute
  content : Text
  /-- The offset of its start tag. -/
  offset : Nat
  /-- The names of the elements around it, innermost first. -/
  ancestors : List Text
  deriving DecidableEq, Repr

/-! ## Open elements -/

/-- The elements without content, whose start tags close them. -/
def emptyElements : List Text :=
  ["area", "base", "br", "col", "embed", "hr", "img", "input", "keygen", "link", "menuitem",
   "meta", "param", "source", "track", "wbr", "basefont", "bgsound", "command", "frame", "image",
   "isindex", "nextid", "spacer"].map String.toList

/-- The open elements, and the end tags that were not needed. -/
structure OpenElements where
  /-- The names of the open elements, innermost first. -/
  names : List Text := []
  /-- The elements without content that were closed before an end tag came. -/
  closedEarly : List Text := []

namespace OpenElements

/-- Closes everything up to the innermost open element of this name. -/
def close (o : OpenElements) (name : Text) : OpenElements :=
  if o.names.contains name then
    { o with names := (o.names.dropWhile (· != name)).tail }
  else o

/-- What an end tag does: it may belong to an element that is closed already. -/
def endTag (o : OpenElements) (name : Text) : OpenElements :=
  if o.closedEarly.contains name then { o with closedEarly := o.closedEarly.erase name }
  else o.close name

/-- What a start tag does. -/
def startTag (o : OpenElements) (name : Text) (selfClosed : Bool) : OpenElements :=
  let opened := { o with names := name :: o.names }
  if selfClosed then opened.endTag name
  else if emptyElements.contains name then { o with closedEarly := name :: o.closedEarly }
  else opened

end OpenElements

/-! ## Elements -/

/-- The raw text at the front of a row of tokens. -/
def rawContent : List (Nat × Token) → Text
  | (_, .raw t) :: rest => t ++ rawContent rest
  | _ => []

/-- The elements with raw content among tokens. -/
def elementsFrom (o : OpenElements) : List (Nat × Token) → List Element
  | [] => []
  | (offset, .startTag name attributes selfClosed) :: rest =>
    let more := elementsFrom (o.startTag name selfClosed) rest
    if holdsRawText name then
      let content := if selfClosed then [] else rawContent rest
      { name, attributes, content, offset, ancestors := o.names } :: more
    else more
  | (_, .endTag name) :: rest => elementsFrom (o.endTag name) rest
  | (_, .raw _) :: rest => elementsFrom o rest

/-- The elements with raw content in a text. -/
def elements (t : Text) : Except Rejection (List Element) :=
  (tokens t).map (elementsFrom {})

/-! ## Writing back -/

/-- The attributes whose values are lists of words. -/
def wordLists : List Text :=
  ["class", "accesskey", "dropzone"].map String.toList

/-- The words of a text, with one space between one and the next. -/
def joinWords (t : Text) : Text :=
  let words := t.splitBy fun a b => isBlank a == isBlank b
  [' '].intercalate (words.filter fun w => !w.all isBlank)

/-- The text of a value, in which a reference cannot be mistaken. -/
def escape (t : Text) : Text :=
  t.flatMap fun
    | '&' => "&amp;".toList
    | '<' => "&lt;".toList
    | '>' => "&gt;".toList
    | c => [c]

/-- A value in quotes: double ones, unless only single ones do without an escape. -/
def quote (t : Text) : Text :=
  if t.contains '"' then
    if t.contains '\'' then
      '"' :: t.flatMap (fun c => if c = '"' then "&quot;".toList else [c]) ++ ['"']
    else '\'' :: t ++ ['\'']
  else '"' :: t ++ ['"']

namespace Attribute

/-- An attribute as it is written in a tag. -/
def render (a : Attribute) : Text :=
  let value := if wordLists.contains a.name then joinWords a.value else a.value
  ' ' :: a.name ++ '=' :: quote (escape value)

/-- Each name once, with its last value, in the order of the names. -/
def normal (attributes : List Attribute) : List Attribute :=
  let last := attributes.reverse.foldl
    (fun kept a => if kept.any (·.name == a.name) then kept else a :: kept) []
  last.mergeSort fun a b => !b.name.lex a.name

end Attribute

/-- Raw text of nothing but plain white space, as one line feed or one space. -/
def collapse (t : Text) : Text :=
  if t.all fun c => " \n\t\x0c\r".toList.contains c then
    if t.contains '\n' then ['\n'] else if t.isEmpty then [] else [' ']
  else t

namespace Element

/-- Whether white space counts in an element. -/
def keepsBlanks (e : Element) : Bool :=
  e.ancestors.any fun name => name == "pre".toList || name == "textarea".toList

/-- The element in normal form. -/
def render (e : Element) : Text :=
  '<' :: e.name ++ (Attribute.normal e.attributes).flatMap Attribute.render ++ '>'
    :: (if e.keepsBlanks then e.content else collapse e.content)
    ++ "</".toList ++ e.name ++ ['>']

end Element

end ComponentDivision.Markup
