/-
# Regions of a document

Script and style blocks are given by their texts. Each text has to occur exactly
once in the document, and no two may overlap; what is left between them is
markup. Anything else is refused, since a block could not be told apart from a
copy of its text.

* `Located` : the texts of the blocks;
* `Layout` : the regions of a document;
* `Layout.resolve` : the layout of a document, or why there is none.
-/
import ComponentDivision.Text.Position

namespace ComponentDivision

/-! ## Blocks -/

/-- The blocks that are set apart from markup. -/
inductive Block where
  | script
  | style
  deriving DecidableEq, Repr

/-- The name of a block. -/
def Block.label : Block → Text
  | .script => "script".toList
  | .style => "style".toList

/-- The texts of the blocks of a document. -/
structure Located where
  scripts : List Text := []
  style : Option Text := none
  deriving DecidableEq, Repr

/-- Why a block cannot be located: how often its text occurs. -/
structure Ambiguity where
  block : Text
  occurrences : Int
  fileName : Option Text
  deriving DecidableEq, Repr

/-- The wording of an ambiguity; the report names the file if it has a name. -/
def Ambiguity.message (a : Ambiguity) : Text :=
  let place :=
    match a.fileName with
    | some (c :: cs) => " in ".toList ++ c :: cs
    | _ => []
  let detail :=
    if a.occurrences = 0 then "could not be found in the document".toList
    else "occurs ".toList ++ Text.decimal a.occurrences ++ " times in the document".toList
  "Cannot unambiguously locate the ".toList ++ a.block ++ " block".toList ++ place
    ++ ": its text ".toList ++ detail

/-! ## Layouts -/

/-- A range of characters. -/
structure Span where
  start : Int
  stop : Int
  deriving DecidableEq, Repr

/-- The range of a block, with its number among the blocks of its sort. -/
structure TaggedRegion extends Span where
  block : Block
  index : Nat
  deriving DecidableEq, Repr

/-- The regions of a document, each list in order. -/
structure Layout where
  tagged : List TaggedRegion
  markup : List Span
  deriving DecidableEq, Repr

/-- The only occurrence of a block's text. -/
def locateOnce (document text : Text) (block : Block) (index : Nat) (fileName : Option Text) :
    Except Ambiguity TaggedRegion :=
  let occurrences := if text.isEmpty then 0 else document.occurrences text
  match occurrences, Text.find? text document with
  | 1, some start => .ok { start, stop := start + text.length, block, index }
  | n, _ => .error ⟨block.label, n, fileName⟩

/-- The occurrences of scripts, numbered from `index`. -/
def locateScripts (document : Text) (fileName : Option Text) (index : Nat) :
    List Text → Except Ambiguity (List TaggedRegion)
  | [] => .ok []
  | text :: texts => do
    let region ← locateOnce document text .script index fileName
    let regions ← locateScripts document fileName (index + 1) texts
    return region :: regions

/-- The occurrence of the style block, if there is one. -/
def locateStyle (document : Text) (fileName : Option Text) :
    Option Text → Except Ambiguity (List TaggedRegion)
  | none => .ok []
  | some text => do
    let region ← locateOnce document text .style 0 fileName
    return [region]

/-- The first region that begins before the end of the one before it. -/
def firstOverlap : List TaggedRegion → Option TaggedRegion
  | a :: b :: rest => if b.start < a.stop then some b else firstOverlap (b :: rest)
  | _ => none

/-- The ranges between regions in order, from `cursor` to `length`. -/
def gaps (length cursor : Int) : List TaggedRegion → List Span
  | [] => if cursor < length then [⟨cursor, length⟩] else []
  | r :: rs =>
    let later := gaps length r.stop rs
    if cursor < r.start then ⟨cursor, r.start⟩ :: later else later

/-- The layout of a document with these blocks. -/
def Layout.resolve (document : Text) (located : Located) (fileName : Option Text) :
    Except Ambiguity Layout := do
  let scripts ← locateScripts document fileName 0 located.scripts
  let style ← locateStyle document fileName located.style
  let tagged := (scripts ++ style).mergeSort fun a b => a.start ≤ b.start
  match firstOverlap tagged with
  | some region => .error ⟨region.block.label, 1, fileName⟩
  | none => return ⟨tagged, gaps document.length 0 tagged⟩

end ComponentDivision
