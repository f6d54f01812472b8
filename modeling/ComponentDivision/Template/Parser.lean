/-
# Parsing a template

A template is read from left to right, one tag, one pair of braces or one run of
text at a time, with the open nodes on a stack. Nothing is recovered: the first
fault ends the reading.

* `Template.step` : reads one item;
* `Template.run` : reads to the end;
* `parseTemplate` : the tree of a template.
-/
import ComponentDivision.Template.Tag
import ComponentDivision.Template.Block

namespace ComponentDivision

/-! ## One item -/

namespace Reader

/-- A run of text whose first character is `first`, at `start`. -/
def text (start : Nat) (first : Char) (st : Stack) : Reader Stack := do
  let more ← takeWhile fun c => c != '<' && c != '{'
  return st.receive (.ofText start (first :: more))

/-- One item of a template, after its first character, which is at `start`. -/
def item (ctx : Context) (start : Nat) (first : Char) (st : Stack) : Reader Stack :=
  if first = '<' then tag ctx start st
  else if first = '{' then mustache ctx start st
  else text start first st

theorem forward_item (ctx : Context) (start : Nat) (first : Char) (st : Stack) :
    Forward (item ctx start first st) :=
  (forward_tag ctx start st).ite <| (forward_mustache ctx start st).ite <|
    (forward_takeWhile _).bind fun _ => Forward.pure _

end Reader

/-! ## The whole template -/

namespace Template

/-- Reads on to the end with the nodes `st` open. -/
def run (ctx : Context) (st : Stack) (c : Cursor) : Except Fault Node :=
  match _hc : c.rest with
  | [] => (st.finish c.pos).mapError .misread
  | first :: _ =>
    match _hs : Reader.item ctx c.pos first st (c.advance 1) with
    | .error f => .error f
    | .ok (st, d) => run ctx st d
termination_by c.rest.length
decreasing_by
  have h := (Reader.forward_item ctx _ _ _ _hs).length_le
  simp only [Cursor.advance, List.length_drop, _hc, List.length_cons] at h ⊢
  omega

/-- The open nodes at the beginning of a template: the root, which spans it. -/
def start (source : Text) : Stack where
  root := .leaf { kind := .fragment, start := 0, stop := source.length }

end Template

/-- The tree of a template, whose scripts the grammar has to accept. -/
def parseTemplate (grammar : Grammar) (source : Text) : Except Fault Node :=
  Template.run ⟨grammar, source.lineStarts⟩ (Template.start source) ⟨0, source⟩

end ComponentDivision
