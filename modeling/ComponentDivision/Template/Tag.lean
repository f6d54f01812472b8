/-
# Tags of elements

What begins with an angle bracket: comments, start tags with their attributes,
closing tags, and the raw text of scripts and styles.

* `Reader.tag` : reads a tag and says what it does to the open nodes.
-/
import ComponentDivision.Template.Attribute
import ComponentDivision.Template.Stack

namespace ComponentDivision

/-! ## Names -/

/-- A character that ends the name in a tag. -/
def endsTagName (c : Char) : Bool :=
  isBlank c || c == '/' || c == '>'

/-- Whether a text is the name of an element: it begins with an ASCII letter. -/
def isTagName : Text → Bool
  | [] => false
  | c :: cs =>
    c.isAlpha && cs.all fun d => isAlphanumeric d || d == '_' || d == '.' || d == ':' || d == '-'

/-- The kind of the element `name` whose tag begins at `start`, inside the open
nodes `st`. -/
def elementKind (name : Text) (start : Nat) (st : Stack) : Except Misread ElementKind :=
  match specialElement? name with
  | some kind => .ok kind
  | none =>
    if "svelte:".toList.isPrefixOf name then .error ⟨.unknownSpecialElement name, start⟩
    else if name == "slot".toList then .ok .slot
    else if name == "title".toList && st.inHead then .ok .title
    else if (name.head?.map Char.isUpper).getD false || name.contains '.' then .ok .component
    else .ok .element

/-! ## Raw text -/

/-- The length of the closing tag of `name` that a text begins with. -/
def closingTagLength? (name t : Text) : Option Nat :=
  let opening := '<' :: '/' :: name
  let blanks := ((t.drop opening.length).takeWhile isBlank).length
  if opening.isPrefixOf t && (t.drop (opening.length + blanks)).head? == some '>' then
    some (opening.length + blanks + 1)
  else none

/-- Where the first closing tag of `name` begins, and its length. -/
def findClosingTag? (name : Text) : Text → Option (Nat × Nat)
  | [] => none
  | c :: cs =>
    match closingTagLength? name (c :: cs) with
    | some n => some (0, n)
    | none => (findClosingTag? name cs).map fun (i, n) => (i + 1, n)

theorem closingTagLength?_le {name t : Text} {n : Nat} (h : closingTagLength? name t = some n) :
    n ≤ t.length := by
  simp only [closingTagLength?] at h
  split at h
  · rename_i hp
    cases h
    simp only [Bool.and_eq_true, beq_iff_eq] at hp
    have := List.mem_of_mem_head? hp.2
    have hpos := List.length_pos_of_mem this
    simp only [List.length_drop] at hpos
    omega
  · cases h

theorem findClosingTag?_le {name t : Text} {i n : Nat}
    (h : findClosingTag? name t = some (i, n)) : i + n ≤ t.length := by
  induction t generalizing i n with
  | nil => cases h
  | cons c cs ih =>
    unfold findClosingTag? at h
    split at h
    · rename_i m hm
      cases h
      simpa using closingTagLength?_le hm
    · obtain ⟨⟨j, m⟩, hj, heq⟩ := Option.map_eq_some_iff.1 h
      cases heq
      have := ih hj
      simp only [List.length_cons]
      omega

namespace Reader

/-- A comment, after its opening at `start`. -/
def comment (start : Nat) (st : Stack) : Reader Stack := fun c =>
  match Text.find? "-->".toList c.rest with
  | none => .error (.misread ⟨.commentLeftOpen, start⟩)
  | some n =>
    .ok (st.receive (.leaf
      { kind := .comment, start, stop := c.pos + n + 3, data := some (c.rest.take n) }),
      c.advance (n + 3))

/-- The raw text of an element whose start tag begins at `start`, with its closing
tag. -/
def rawText (name : Text) (start : Nat) (as : List Node) (st : Stack) : Reader Stack := fun c =>
  match findClosingTag? name c.rest with
  | none => .error (.misread ⟨.elementLeftOpen name, start⟩)
  | some (i, n) =>
    .ok (st.receive
      { label := { kind := .element .element, start, stop := c.pos + i + n, name := some name }
        attributes := as
        children := [.ofText c.pos (c.rest.take i)] },
      c.advance (i + n))

/-- The name in a tag. -/
def tagName : Reader Text := fun c =>
  let name := c.rest.takeWhile fun d => !endsTagName d
  if isTagName name then .ok (name, c.advance name.length)
  else .error (.misread ⟨.missing .tagName, c.pos⟩)

/-- The end of a start tag, and whether it closes the element at once. -/
def tagEnd : Reader Bool := do
  if ← eat "/>".toList then return true
  else
    expect ['>']
    return false

/-- A start tag that begins at `start`, after its name. -/
def startTag (ctx : Context) (start : Nat) (name : Text) (st : Stack) : Reader Stack := do
  let st := st.closeBefore name start
  let kind ← ofExcept (elementKind name start st)
  let as ← attributes ctx []
  let closed ← tagEnd
  let stop ← position
  let label : Label := { kind := .element kind, start, name := some name }
  if closed || kind == .element && isVoid name then
    return st.receive { label := { label with stop }, attributes := as }
  else if kind == .element && isRawText name then
    rawText name start as st
  else
    return st.push { label, attributes := as }

/-- A closing tag that begins at `start`, after its name. -/
def closingTag (start : Nat) (name : Text) (st : Stack) : Reader Stack := do
  skipBlank
  expect ['>']
  let stop ← position
  ofExcept (st.closeElement name start stop)

/-- A tag that begins at `start`, after its angle bracket. -/
def tag (ctx : Context) (start : Nat) (st : Stack) : Reader Stack := do
  if ← eat "!--".toList then comment start st
  else
    let closing ← eat ['/']
    let name ← tagName
    if closing then closingTag start name st else startTag ctx start name st

/-! ## Tags move forward -/

theorem forward_comment (start : Nat) (st : Stack) : Forward (comment start st) := by
  intro c a d h
  unfold comment at h
  split at h
  · cases h
  · rename_i n hn
    cases h
    exact Cursor.reaches_advance (Text.find?_add_length_le hn)

theorem forward_rawText (name : Text) (start : Nat) (as : List Node) (st : Stack) :
    Forward (rawText name start as st) := by
  intro c a d h
  unfold rawText at h
  split at h
  · cases h
  · rename_i i n hn
    cases h
    exact Cursor.reaches_advance (findClosingTag?_le hn)

theorem forward_tagName : Forward tagName := by
  intro c a d h
  simp only [tagName] at h
  split at h
  · cases h
    exact Cursor.reaches_advance (List.takeWhile_prefix _).length_le
  · cases h

theorem forward_tagEnd : Forward tagEnd :=
  (forward_eat _).bind fun _ =>
    (Forward.pure _).ite ((forward_expect _).bind fun _ => Forward.pure _)

theorem forward_startTag (ctx : Context) (start : Nat) (name : Text) (st : Stack) :
    Forward (startTag ctx start name st) :=
  (forward_ofExcept _).bind fun _ => (forward_attributes ctx _).bind fun _ =>
    forward_tagEnd.bind fun _ => forward_position.bind fun _ =>
      (Forward.pure _).ite ((forward_rawText _ _ _ _).ite (Forward.pure _))

theorem forward_closingTag (start : Nat) (name : Text) (st : Stack) :
    Forward (closingTag start name st) :=
  forward_skipBlank.bind fun _ => (forward_expect _).bind fun _ =>
    forward_position.bind fun _ => forward_ofExcept _

theorem forward_tag (ctx : Context) (start : Nat) (st : Stack) : Forward (tag ctx start st) :=
  (forward_eat _).bind fun _ => (forward_comment start st).ite <|
    (forward_eat _).bind fun _ => forward_tagName.bind fun _ =>
      (forward_closingTag _ _ _).ite (forward_startTag _ _ _ _)

end Reader

end ComponentDivision
