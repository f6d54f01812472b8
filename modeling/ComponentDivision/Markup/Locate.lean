/-
# Locating blocks

The script and style blocks of a document are found with a reader of lenient
markup, which gives the elements of a document. A block is given by its text: the
element in normal form if the document has that text somewhere, and otherwise the
element's own extent in the document. Blocks for the head of the page belong to it
and not to the component.

* `Placed.text` : the text of an element whose place is known;
* `TreeReader` : a reader of lenient markup;
* `locate` : the texts of the blocks of a document.
-/
import ComponentDivision.Region
import ComponentDivision.Markup.Pattern

namespace ComponentDivision.Markup

/-! ## Places -/

/-- An element in normal form, with the line and the column of its start tag if
they are known. -/
structure Placed where
  name : Text
  rendered : Text
  line : Option Int := none
  column : Option Int := none
  deriving DecidableEq, Repr

/-- The length of a text through its first `n` line feeds. -/
def throughNewlines? : Nat → Text → Option Nat
  | 0, _ => some 0
  | n + 1, t =>
    match through? '\n' t with
    | none => none
    | some i => (throughNewlines? n (t.drop i)).map (i + ·)

namespace Placed

/-- The offset of the start tag. -/
def offset? (document : Text) (p : Placed) : Option Int :=
  match p.line, p.column with
  | some line, some column =>
    (throughNewlines? (line - 1).toNat document).map fun start => start + column
  | _, _ => none

/-- The end of the first end tag of this name from the offset on, or the end of the
document. -/
def endOffset (document : Text) (start : Int) (name : Text) : Nat :=
  match throughMark? [['<', '/'] ++ name, ['>']] (document.drop start.toNat) with
  | some length => start.toNat + length
  | none => document.length

/-- The offset from which the text of an element is taken, if its normal form is not
in the document. -/
def extent? (document : Text) (p : Placed) : Option Int :=
  if Text.occursIn p.rendered document then none else p.offset? document

/-- The text of an element. -/
def text (document : Text) (p : Placed) : Text :=
  match p.extent? document with
  | none => p.rendered
  | some start => document.slice start (endOffset document start p.name)

end Placed

/-! ## Readers -/

/-- An element of a document as a reader gives it. -/
structure Tag extends Placed where
  /-- The names of the elements around it. -/
  ancestors : List Text := []
  deriving DecidableEq, Repr

/-- A reader of lenient markup: the elements of a document in document order, or an error. The
first text says what kind of reader is asked for. -/
abbrev TreeReader (ε : Type) := Text → Text → Except ε (List Tag)

/-! ## Blocks -/

/-- The blocks of a component. -/
structure Blocks where
  scripts : List Placed := []
  style : Option Placed := none
  deriving DecidableEq, Repr

/-- The texts of blocks. -/
def Blocks.located (document : Text) (b : Blocks) : Located where
  scripts := b.scripts.map (·.text document)
  style := b.style.map (·.text document)

/-- The element whose blocks belong to the head of the page. -/
def headElement : Text :=
  "svelte:head".toList

/-- The elements that are blocks of the component. -/
def componentTags (block : Block) (tags : List Tag) : List Placed :=
  (tags.filter fun t => t.name == block.label && !t.ancestors.contains headElement).map
    Tag.toPlaced

variable {ε : Type}

/-- The blocks of a document. A blank document has none, whatever reader is asked
for. -/
def findBlocks (reader : TreeReader ε) (features document : Text) : Except ε Blocks :=
  if document.blank then .ok {}
  else
    (reader features document).map fun tags =>
      { scripts := componentTags .script tags, style := (componentTags .style tags).head? }

/-- The texts of the blocks of a document. -/
def locate (reader : TreeReader ε) (features document : Text) : Except ε Located :=
  (findBlocks reader features document).map (·.located document)

end ComponentDivision.Markup
