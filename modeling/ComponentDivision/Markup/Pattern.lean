/-
# Marks with blanks in them

The marks that end a comment, a section or raw text are written in pieces, with
any number of blanks between one piece and the next. Letters match in upper and
lower case.

* `markLength?` : the length of a mark at the front of a text;
* `firstMark?` : the first place where a mark stands;
* `through?`, `throughMark?` : the length of a text through a character or a mark.
-/
import ComponentDivision.Text.Blank
import ComponentDivision.Text.LetterCase

namespace ComponentDivision.Markup

/-- What follows `piece`, if the text begins with it up to letter case. -/
def afterPiece? : Text → Text → Option Text
  | [], t => some t
  | _ :: _, [] => none
  | p :: ps, c :: cs => if sameLetter p c then afterPiece? ps cs else none

/-- The length of the mark at the front that is made of these pieces. -/
def markLength? : List Text → Text → Option Nat
  | [], _ => some 0
  | piece :: pieces, t =>
    match afterPiece? piece t with
    | none => none
    | some rest =>
      let blanks := if pieces.isEmpty then 0 else (rest.takeWhile isBlank).length
      (markLength? pieces (rest.drop blanks)).map (piece.length + blanks + ·)

/-- The offset and the length of the first mark that is made of these pieces. -/
def firstMark? (pieces : List Text) : Text → Option (Nat × Nat)
  | [] => none
  | c :: cs =>
    match markLength? pieces (c :: cs) with
    | some n => some (0, n)
    | none => (firstMark? pieces cs).map fun (i, n) => (i + 1, n)

/-- The length of a text through its first mark. -/
def throughMark? (pieces : List Text) (t : Text) : Option Nat :=
  (firstMark? pieces t).map fun (i, n) => i + n

/-- The length of a text through the first `c`. -/
def through? (c : Char) (t : Text) : Option Nat :=
  (Text.find? [c] t).map (· + 1)

end ComponentDivision.Markup
