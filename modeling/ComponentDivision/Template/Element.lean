/-
# Elements by name

What the name of an element decides: whether it can have content, whether its
content is raw text, and which start tags end it when its closing tag is left out.

* `isVoid`, `isRawText` : elements without content, and with raw content;
* `closingTagOmitted` : when a closing tag may be left out;
* `specialElement?`, `directive?`, `blockKeyword?` : names with a meaning of their own.
-/
import ComponentDivision.Text.LetterCase
import ComponentDivision.Template.Node

namespace ComponentDivision

/-! ## Content -/

/-- The elements that never have content. -/
def voidElements : List Text :=
  ["area", "base", "br", "col", "command", "embed", "hr", "img", "input", "keygen", "link",
   "meta", "param", "source", "track", "wbr"].map String.toList

/-- Whether an element of this name never has content, in any letter case. -/
def isVoid (name : Text) : Bool :=
  voidElements.contains (lowercase name)

/-- Whether an element of this name has raw text as its content. -/
def isRawText (name : Text) : Bool :=
  name == "script".toList || name == "style".toList

/-! ## Closing tags that may be left out -/

/-- The elements that end an open paragraph. -/
def paragraphClosers : List String :=
  ["address", "article", "aside", "blockquote", "div", "dl", "fieldset", "footer", "form", "h1",
   "h2", "h3", "h4", "h5", "h6", "header", "hgroup", "hr", "main", "menu", "nav", "ol", "p",
   "pre", "section", "table", "ul"]

/-- For each element whose closing tag may be left out, the elements whose start
tags end it. -/
def disallowedContents : List (String × List String) :=
  [("li", ["li"]),
   ("dt", ["dt", "dd"]),
   ("dd", ["dt", "dd"]),
   ("p", paragraphClosers),
   ("rt", ["rt", "rp"]),
   ("rp", ["rt", "rp"]),
   ("optgroup", ["optgroup"]),
   ("option", ["option", "optgroup"]),
   ("thead", ["tbody", "tfoot"]),
   ("tbody", ["tbody", "tfoot"]),
   ("tfoot", ["tbody"]),
   ("tr", ["tr", "tbody"]),
   ("td", ["td", "th", "tr"]),
   ("th", ["td", "th", "tr"])]

/-- The elements whose start tags end an element of this name, if its closing tag
may be left out at all. -/
def closers? (name : Text) : Option (List Text) :=
  (disallowedContents.find? (·.1.toList == name)).map fun e => e.2.map String.toList

/-- Whether the closing tag of the element `current` may be left out before the
element `following`, or where nothing follows. -/
def closingTagOmitted (current following : Option Text) : Bool :=
  match current.bind closers?, following with
  | none, _ => false
  | some _, none => true
  | some names, some name => names.contains name

/-! ## Names with a meaning -/

/-- The elements that stand for something other than themselves. -/
def specialElement? (name : Text) : Option ElementKind :=
  ([("svelte:head", ElementKind.head), ("svelte:options", .options), ("svelte:window", .window),
    ("svelte:body", .body), ("svelte:document", .document), ("svelte:fragment", .slotTemplate),
    ("svelte:self", .component), ("svelte:component", .component),
    ("svelte:element", .element)].find? (·.1.toList == name)).map (·.2)

/-- What an attribute with a colon in its name is, by what stands before the
colon. -/
def directive? (before : Text) : Option Kind :=
  ([("bind", Kind.directive .binding), ("on", .directive .eventHandler),
    ("class", .directive .classToggle), ("use", .directive .action),
    ("transition", .directive .transition), ("in", .directive .transition),
    ("out", .directive .transition), ("animate", .directive .animation),
    ("let", .directive .letBinding), ("style", .styleDirective)].find?
      (·.1.toList == before)).map (·.2)

/-- The blocks by their keywords. -/
def blockKeywords : List (String × Kind) :=
  [("if", .guarded .ifBlock), ("each", .guarded .eachBlock), ("key", .guarded .keyBlock),
   ("await", .awaitBlock)]

/-- The block that a keyword opens and closes. -/
def block? (keyword : Text) : Option Kind :=
  (blockKeywords.find? (·.1.toList == keyword)).map (·.2)

/-- A node as reports about unclosed blocks name it. -/
def Label.describe (l : Label) : Text :=
  match l.kind with
  | .element _ => '<' :: l.name.getD [] ++ ['>']
  | .fragment => "nothing".toList
  | kind =>
    let keyword := ((blockKeywords.find? (·.2 == kind)).map (·.1)).getD "block"
    "\x7b#".toList ++ keyword.toList ++ ['}']

end ComponentDivision
