/-
# Notes on progress

What can be said about the work on a document while it goes on, up to where it fails.

* `Note` : one of the things to say;
* `notes` : the notes on the division of a document.
-/
import ComponentDivision.Division

namespace ComponentDivision

/-- A note on the work on a document. -/
inductive Note where
  /-- An element whose text is its own extent in the document. -/
  | extent (name : Text) (offset : Int)
  | located (scripts : Nat) (style : Bool)
  | resolved (tagged markup : Nat)
  | divided (fileName : Option Text) (scripts markup expressions : Nat)
  deriving DecidableEq, Repr

namespace Note

/-- The part of the work that a note is about. -/
def area : Note → String
  | extent .. => "tag_locator"
  | located .. => "tag_locator"
  | resolved .. => "regions"
  | divided .. => "divider"

/-- The wording of a note. -/
def message : Note → Text
  | extent name offset =>
    "Using source extent for <".toList ++ name ++ "> at offset ".toList ++ Text.decimal offset
  | located scripts style =>
    "Located ".toList ++ Text.decimal scripts ++ " script block(s) and ".toList
      ++ (if style then "one".toList else "no".toList) ++ " style block".toList
  | resolved tagged markup =>
    "Resolved ".toList ++ Text.decimal tagged ++ " tagged and ".toList ++ Text.decimal markup
      ++ " markup region(s)".toList
  | divided fileName scripts markup expressions =>
    let name := fileName.getD []
    "Divided ".toList ++ (if name.isEmpty then "<document>".toList else name) ++ ": ".toList
      ++ Text.decimal scripts ++ " script, ".toList ++ Text.decimal markup
      ++ " markup fragment(s), ".toList ++ Text.decimal expressions ++ " expression(s)".toList

/-- A note as a line. -/
def line (n : Note) : Text :=
  "DEBUG svelte_fragments.".toList ++ n.area.toList ++ ": ".toList ++ n.message ++ ['\n']

end Note

/-- The notes on locating the blocks of a document. -/
def locateNotes (document : Text) (blocks : Markup.Blocks) : List Note :=
  if document.blank then []
  else
    (blocks.scripts ++ blocks.style.toList).filterMap (fun p =>
      (p.extent? document).map fun offset => .extent p.name offset)
    ++ [.located blocks.scripts.length blocks.style.isSome]

/-- The notes on the division of a document. -/
def notes {ε : Type} (tools : Tools ε) (settings : Settings) (document : Text)
    (fileName : Option Text) : List Note :=
  match Markup.findBlocks tools.reader settings.features document with
  | .error _ => []
  | .ok blocks =>
    let resolved :=
      match Layout.resolve document (blocks.located document) fileName with
      | .error _ => []
      | .ok layout => [Note.resolved layout.tagged.length layout.markup.length]
    let divided :=
      match divide tools settings document fileName with
      | .error _ => []
      | .ok report =>
        [Note.divided fileName report.scripts.toList.length report.markup.length
          report.expressions.length]
    locateNotes document blocks ++ resolved ++ divided

end ComponentDivision
