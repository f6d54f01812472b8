/-
# Start tags of lenient markup

A start tag is read so that nearly every text goes through: an attribute is any
run of characters after a blank, a slash or a quote, and its value may be quoted,
bare or missing. A quote that is never closed does not open a value.

* `Attribute` : a name with its value;
* `unescapeAll` : attributes with the references in their values replaced;
* `StartTag.read` : the tag after an opening bracket, if the text has one.
-/
import ComponentDivision.Text.Blank
import ComponentDivision.Text.LetterCase
import ComponentDivision.Markup.Entity

namespace ComponentDivision.Markup

/-! ## Names and gaps -/

/-- A character that ends the name of a tag. -/
def endsName (c : Char) : Bool :=
  "\t\n\r\x0c />\x00".toList.contains c

/-- The name of a tag, which begins with a letter, as it is written. -/
def tagName (t : Text) : Text :=
  t.takeWhile fun c => !endsName c

/-- Whether a gap begins at the front: a blank, or a slash that is not part of a closing
mark. -/
def startsGap : Text → Bool
  | [] => false
  | c :: cs => isBlank c || c = '/' && cs.head? != some '>'

/-- The length of the gap at the front. -/
def gapLength : Text → Nat
  | [] => 0
  | c :: cs => if startsGap (c :: cs) then 1 + gapLength cs else 0

/-- A quotation mark. -/
def isQuote (c : Char) : Bool :=
  c = '"' || c = '\''

/-! ## Values -/

/-- The value of an attribute. -/
structure ValueRead where
  value : Text
  /-- Whether its last character is a closing quote. -/
  quoted : Bool
  /-- The number of characters from the name to its end. -/
  length : Nat

/-- A value with no quote around it. -/
def bareValue (t : Text) : Text :=
  t.takeWhile fun c => c != '>' && !isBlank c

/-- The value at the front; none if a quote is opened there and never closed. -/
def valueAt? (t : Text) : Option ValueRead :=
  match t with
  | [] => some ⟨[], false, 0⟩
  | c :: cs =>
    if isQuote c then
      match Text.cut c cs with
      | (value, some _) => some ⟨value, true, value.length + 2⟩
      | (_, none) => none
    else some ⟨bareValue t, false, (bareValue t).length⟩

/-- The value after the name of an attribute. Before a quote that is never closed the
value ends at the blank there, or takes in the last of several equals signs. -/
def value? (t : Text) : Option ValueRead :=
  let lead := (t.takeWhile isBlank).length
  let signs := ((t.drop lead).takeWhile (· = '=')).length
  let afterSigns := t.drop (lead + signs)
  let blanks := (afterSigns.takeWhile isBlank).length
  if signs = 0 then none
  else
    match valueAt? (afterSigns.drop blanks) with
    | some v => some { v with length := lead + signs + blanks + v.length }
    | none =>
      if blanks != 0 then some ⟨[], false, lead + signs + blanks - 1⟩
      else if 2 ≤ signs then
        let value := '=' :: bareValue afterSigns
        some ⟨value, false, lead + signs - 1 + value.length⟩
      else none

/-! ## Attributes -/

/-- A name with its value, which is empty if it is not written. -/
structure Attribute where
  name : Text
  value : Text
  deriving DecidableEq, Repr

/-- The attributes with the references in their values replaced, one after the other. -/
def unescapeAll : List Attribute → Except LongNumber (List Attribute)
  | [] => .ok []
  | a :: as => do
    let value ← unescape a.value
    let more ← unescapeAll as
    return { a with value } :: more

/-- What was read of an attribute. The references in its value are left as they are. -/
structure AttributeRead where
  attr : Attribute
  /-- The number of characters of the attribute and the gap after it. -/
  length : Nat
  /-- Whether another attribute may begin after them. -/
  separated : Bool
  length_pos : 0 < length

/-- A character that goes on with the name of an attribute. -/
def isAttributeChar (c : Char) : Bool :=
  !isBlank c && c != '/' && c != '=' && c != '>'

/-- The attribute at the front. It may only begin after a gap or a quote. -/
def attribute? (separated : Bool) (t : Text) : Option AttributeRead :=
  match t with
  | [] => none
  | c :: cs =>
    if !separated || isBlank c || c = '/' || c = '>' then none
    else
      let name := c :: cs.takeWhile isAttributeChar
      let v := (value? (t.drop name.length)).getD ⟨[], name.getLast?.any isQuote, 0⟩
      let rest := t.drop (name.length + v.length)
      some {
        attr := ⟨lowercase name, v.value⟩
        length := name.length + v.length + gapLength rest
        separated := startsGap rest || v.quoted
        length_pos := by simp only [name, List.length_cons]; omega }

/-- The attributes at the front, and the number of their characters. -/
def attributes (separated : Bool) (t : Text) : List Attribute × Nat :=
  match _h : attribute? separated t with
  | none => ([], 0)
  | some r =>
    let (more, length) := attributes r.separated (t.drop r.length)
    (r.attr :: more, r.length + length)
termination_by t.length
decreasing_by
  cases t with
  | nil => cases _h
  | cons c cs =>
    have := r.length_pos
    simp only [List.length_drop, List.length_cons]
    omega

/-! ## Tags -/

/-- What stands at a bracket with a letter after it. -/
inductive StartTag where
  /-- A tag of so many characters. -/
  | tag (name : Text) (attributes : List Attribute) (selfClosed : Bool) (length : Nat)
  /-- So many characters that are no tag, though attributes are read in them. -/
  | text (attributes : List Attribute) (length : Nat)
  /-- A tag that is not complete. -/
  | incomplete

/-- The tag at an opening bracket. -/
def StartTag.read (t : Text) : StartTag :=
  let name := tagName t.tail
  let afterName := t.drop (name.length + 1)
  let separated := startsGap afterName || name.getLast?.any fun c => isQuote c || isBlank c
  let start := name.length + 1 + gapLength afterName
  let (attrs, extent) := attributes separated (t.drop start)
  let length := start + extent
  match t.drop length with
  | [] => .incomplete
  | '>' :: _ => .tag (lowercase name) attrs false (length + 1)
  | '/' :: _ => .tag (lowercase name) attrs true (length + 2)
  | c :: _ => if c.isAlpha || c = '=' then .incomplete else .text attrs length

end ComponentDivision.Markup
