/-
# Attributes

The attributes of a start tag: plain ones, with or without a value, shorthands
and spreads in braces, and directives, which have a colon in their names.

* `Reader.oneAttribute` : one attribute;
* `attributes` : all attributes up to the end of a start tag.
-/
import ComponentDivision.Template.Element
import ComponentDivision.Template.Embedded

namespace ComponentDivision

/-! ## Values -/

/-- A text node for characters that begin at an offset. -/
def Node.ofText (start : Nat) (data : Text) : Node :=
  .leaf { kind := .text, start, stop := start + data.length, data := some data }

/-- Whether an attribute's value ends before the character `c`: at its quote, or
without one at white space and at the end of the tag. -/
def endsValue (quote : Option Char) (c : Char) (cs : Text) : Bool :=
  match quote with
  | some q => c == q
  | none => isBlank c || c == '>' || c == '/' && cs.head? == some '>'

/-- The length of the plain text that the rest of a value begins with. -/
def valueTextLength (quote : Option Char) : Text → Nat
  | [] => 0
  | c :: cs => if endsValue quote c cs || c == '{' then 0 else 1 + valueTextLength quote cs

theorem valueTextLength_le (quote : Option Char) (t : Text) :
    valueTextLength quote t ≤ t.length := by
  induction t with
  | nil => simp [valueTextLength]
  | cons c cs ih =>
    simp only [valueTextLength, List.length_cons]
    split <;> omega

namespace Reader

/-- Fails if a block or a special tag begins here: braces in a value hold an
expression. -/
def refuseTag : Reader Unit := do
  match ← peek? with
  | some c => if "#:/@".toList.contains c then fail (.missing .expression) else return ()
  | none => return ()

/-- An expression in braces inside a value, after the opening brace at `start`. -/
def valueMustache (ctx : Context) (start : Nat) : Reader Node := do
  skipBlank
  refuseTag
  let expression ← readExpressionAt ctx {}
  expect ['}']
  let stop ← position
  return .leaf { kind := .mustache, start, stop, expression := some expression }

theorem forward_refuseTag : Forward refuseTag :=
  forward_peek?.bind fun o => by
    cases o with
    | none => exact Forward.pure _
    | some c => exact (forward_fail _).ite (Forward.pure _)

theorem forward_valueMustache (ctx : Context) (start : Nat) :
    Forward (valueMustache ctx start) :=
  forward_skipBlank.bind fun _ => forward_refuseTag.bind fun _ =>
    (forward_readExpressionAt ctx {}).bind fun _ => (forward_expect _).bind fun _ =>
      forward_position.bind fun _ => Forward.pure _

end Reader

/-- The chunks of a value, up to its end. -/
def valueChunks (ctx : Context) (quote : Option Char) (c : Cursor) :
    Except Fault (List Node × Cursor) :=
  let n := valueTextLength quote c.rest
  let d := c.advance n
  let text := if n = 0 then [] else [Node.ofText c.pos (c.rest.take n)]
  match _hd : d.rest with
  | [] => .error (.misread ⟨.unexpectedEnd, d.pos⟩)
  | ch :: cs =>
    if endsValue quote ch cs then .ok (text, d)
    else
      match _hm : Reader.valueMustache ctx d.pos (d.advance 1) with
      | .error f => .error f
      | .ok (chunk, e) =>
        match valueChunks ctx quote e with
        | .error f => .error f
        | .ok (chunks, f) => .ok (text ++ chunk :: chunks, f)
termination_by c.rest.length
decreasing_by
  have h₁ := (Reader.forward_valueMustache ctx _ _hm).length_le
  have h₂ : d.rest.length ≤ c.rest.length := by simp [d, Cursor.advance]
  simp only [Cursor.advance, List.length_drop, _hd, List.length_cons] at h₁ h₂
  omega

theorem forward_valueChunks (ctx : Context) (quote : Option Char) :
    Reader.Forward (valueChunks ctx quote) := by
  intro c
  fun_induction valueChunks ctx quote c with
  | case1 => intro _ _ h; cases h
  | case2 c n d =>
    intro _ _ h
    cases h
    exact Cursor.reaches_advance (valueTextLength_le quote c.rest)
  | case3 => intro _ _ h; cases h
  | case4 => intro _ _ h; cases h
  | case5 =>
    rename_i c n d text ch cs hd _ chunk e hm chunks f hf ih
    intro _ _ h
    cases h
    have h₁ : c.Reaches d := Cursor.reaches_advance (valueTextLength_le quote c.rest)
    have h₂ : d.Reaches (d.advance 1) := Cursor.reaches_advance (by simp [hd])
    exact ((h₁.trans h₂).trans (Reader.forward_valueMustache ctx _ hm)).trans (ih hf)

/-! ## Names -/

/-- A character that ends the name of an attribute. -/
def endsAttributeName (c : Char) : Bool :=
  isBlank c || c == '=' || c == '/' || c == '>' || c == '"' || c == '\''

/-- The node of an attribute without braces, by its name: a directive if what
stands before the colon says so, which then has one expression as its value. -/
def namedAttribute (name : Text) (start stop : Nat) (value : Option (List Node)) :
    Except Misread Node :=
  let (head, modifiers) := name.cut '|'
  let (before, after) := head.cut ':'
  match after, directive? before with
  | some directiveName, some kind =>
    let label : Label :=
      { kind, start, stop, name := some directiveName
        modifiers :=
          match modifiers with
          | none | some [] => []
          | some t => t.splitOnChar '|' }
    match kind, value with
    | .styleDirective, _ => .ok { label, value }
    | _, none => .ok { label }
    | _, some [] => .error ⟨.directiveValue, start⟩
    | _, some (chunk :: chunks) =>
      if chunks.isEmpty && chunk.kind == .mustache then
        .ok { label := { label with expression := chunk.label.expression } }
      else .error ⟨.directiveValue, chunk.start.toNat⟩
  | _, _ => .ok { label := { kind := .plainAttribute, start, stop, name := some name }, value }

/-! ## Attributes -/

namespace Reader

/-- The value of an attribute, after the equals sign. -/
def attributeValue (ctx : Context) : Reader (List Node) := do
  match ← peek? with
  | some q =>
    if q == '"' || q == '\'' then
      let _ ← eat [q]
      let chunks ← valueChunks ctx (some q)
      let _ ← eat [q]
      return chunks
    else
      let chunks ← valueChunks ctx none
      if chunks.isEmpty then fail (.missing .attributeValue) else return chunks
  | none => fail .unexpectedEnd

/-- Whether an equals sign follows, after white space. -/
def valueFollows : Reader Bool := fun c =>
  .ok ((c.rest.dropWhile isBlank).head? == some '=', c)

/-- An attribute in braces, after the opening brace at `start`: a spread, or a
name that is also its value. -/
def bracedAttribute (ctx : Context) (start : Nat) : Reader Node := do
  skipBlank
  if ← eat "...".toList then
    let expression ← readExpressionAt ctx {}
    expect ['}']
    let stop ← position
    return .leaf { kind := .spread, start, stop, expression := some expression }
  else
    let d ← delimited {}
    if isIdentifier d.text then
      expect ['}']
      let expression ← checked ctx d
      let stop ← position
      let shorthand : Label :=
        { kind := .shorthand, start := d.scan.start, stop := d.scan.stop
          expression := some expression }
      return { label := { kind := .plainAttribute, start, stop, name := some d.text }
               value := some [.leaf shorthand] }
    else failAt (.missing .identifier) d.scan.start

/-- An attribute without braces, after the first character of its name at `start`. -/
def unbracedAttribute (ctx : Context) (start : Nat) (first : Char) : Reader Node := do
  let more ← takeWhile fun c => !endsAttributeName c
  if ← valueFollows then
    skipBlank
    let _ ← eat ['=']
    skipBlank
    let value ← attributeValue ctx
    let stop ← position
    ofExcept (namedAttribute (first :: more) start stop (some value))
  else
    let stop ← position
    ofExcept (namedAttribute (first :: more) start stop none)

/-- An attribute, after its first character at `start`. -/
def oneAttribute (ctx : Context) (start : Nat) (first : Char) : Reader Node :=
  if first = '{' then bracedAttribute ctx start
  else if endsAttributeName first then failAt (.missing .attributeName) start
  else unbracedAttribute ctx start first

theorem forward_attributeValue (ctx : Context) : Forward (attributeValue ctx) :=
  forward_peek?.bind fun o => by
    cases o with
    | none => exact forward_fail _
    | some q =>
      refine Forward.ite ?_ ?_
      · exact (forward_eat _).bind fun _ => (forward_valueChunks ctx _).bind fun _ =>
          (forward_eat _).bind fun _ => Forward.pure _
      · exact (forward_valueChunks ctx _).bind fun _ => (forward_fail _).ite (Forward.pure _)

theorem forward_valueFollows : Forward valueFollows := by
  intro c a d h
  cases h
  exact Cursor.Reaches.refl c

theorem forward_bracedAttribute (ctx : Context) (start : Nat) :
    Forward (bracedAttribute ctx start) :=
  forward_skipBlank.bind fun _ => (forward_eat _).bind fun _ => by
    refine Forward.ite ?_ ?_
    · exact (forward_readExpressionAt ctx _).bind fun _ => (forward_expect _).bind fun _ =>
        forward_position.bind fun _ => Forward.pure _
    · refine (forward_delimited _).bind fun d => Forward.ite ?_ (forward_failAt _ _)
      exact (forward_expect _).bind fun _ => (forward_checked ctx d).bind fun _ =>
        forward_position.bind fun _ => Forward.pure _

theorem forward_unbracedAttribute (ctx : Context) (start : Nat) (first : Char) :
    Forward (unbracedAttribute ctx start first) :=
  (forward_takeWhile _).bind fun _ => forward_valueFollows.bind fun _ => by
    refine Forward.ite ?_ ?_
    · exact forward_skipBlank.bind fun _ => (forward_eat _).bind fun _ =>
        forward_skipBlank.bind fun _ => (forward_attributeValue ctx).bind fun _ =>
          forward_position.bind fun _ => forward_ofExcept _
    · exact forward_position.bind fun _ => forward_ofExcept _

theorem forward_oneAttribute (ctx : Context) (start : Nat) (first : Char) :
    Forward (oneAttribute ctx start first) :=
  (forward_bracedAttribute ctx start).ite <|
    (forward_failAt _ _).ite (forward_unbracedAttribute ctx start first)

end Reader

/-- Adds the name of a plain attribute to the names seen so far; it must not be
one of them. -/
def seeAttribute (seen : List Text) (a : Node) : Except Misread (List Text) :=
  match a.kind, a.name with
  | .plainAttribute, some name =>
    if seen.contains name then .error ⟨.repeatedAttribute, a.start.toNat⟩ else .ok (name :: seen)
  | _, _ => .ok seen

/-- The attributes up to the end of a start tag, which is not taken. -/
def attributes (ctx : Context) (seen : List Text) (c : Cursor) :
    Except Fault (List Node × Cursor) :=
  let d := c.advance (c.rest.takeWhile isBlank).length
  match _hd : d.rest with
  | [] => .error (.misread ⟨.unexpectedEnd, d.pos⟩)
  | ch :: cs =>
    if ch == '>' || ch == '/' && cs.head? == some '>' then .ok ([], d)
    else
      match _ha : Reader.oneAttribute ctx d.pos ch (d.advance 1) with
      | .error f => .error f
      | .ok (a, e) =>
        match seeAttribute seen a with
        | .error m => .error (.misread m)
        | .ok seen =>
          match attributes ctx seen e with
          | .error f => .error f
          | .ok (as, f) => .ok (a :: as, f)
termination_by c.rest.length
decreasing_by
  have h₁ := (Reader.forward_oneAttribute ctx _ _ _ha).length_le
  have h₂ : d.rest.length ≤ c.rest.length := by simp [d, Cursor.advance]
  simp only [Cursor.advance, List.length_drop, _hd, List.length_cons] at h₁ h₂
  omega

theorem forward_attributes (ctx : Context) (seen : List Text) :
    Reader.Forward (attributes ctx seen) := by
  intro c
  fun_induction attributes ctx seen c with
  | case1 => intro _ _ h; cases h
  | case2 seen c d =>
    intro _ _ h
    cases h
    exact Cursor.reaches_advance (List.takeWhile_prefix _).length_le
  | case3 => intro _ _ h; cases h
  | case4 => intro _ _ h; cases h
  | case5 => intro _ _ h; cases h
  | case6 =>
    rename_i seen c d ch cs hd _ a e ha seen' _ as f hf ih
    intro _ _ h
    cases h
    have h₁ : c.Reaches d := Cursor.reaches_advance (List.takeWhile_prefix _).length_le
    have h₂ : d.Reaches (d.advance 1) := Cursor.reaches_advance (by simp [hd])
    exact ((h₁.trans h₂).trans (Reader.forward_oneAttribute ctx _ _ ha)).trans (ih hf)

end ComponentDivision
