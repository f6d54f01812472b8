/-
# Ends without closing tags

The start tag of an element may end the innermost open element, whose closing tag is then left
out. It ends one element only: if the element around that one would have to end as well, it
stays open, and the new element becomes its child. So a child before which its parent should
have ended comes right after a sibling that its start tag did end.

* `Node.YieldsTo` : the start tag of one element ends another one;
* `Node.YieldsOnce` : a start tag ends at most one element;
* `admitted_of_item` : each item keeps the open nodes so;
* `impliedEnds`, `shielded` : the names whose start tags end an element, and those before which
  an element stays open that should have ended;
* `parseTemplate_yieldsOnce` : the nodes of parsed templates, and the names for which an element
  can have a child before which it should have ended.
-/
import ComponentDivision.Proofs.Template.Assembly
import ComponentDivision.Proofs.Template.PlainTag

namespace ComponentDivision

namespace Node

/-! ## One end for one start tag -/

/-- The start tag of the element `c` ends the plain element `p`. -/
def YieldsTo (p c : Node) : Prop :=
  p.kind = .element .element ∧ c.kind.isElement = true ∧
    ∃ name ∈ c.name, closingTagOmitted p.name (some name) = true

/-- If `c` should have ended the node, it has ended the last of the children before it. -/
def SparedAfter (n : Node) (before : List Node) (c : Node) : Prop :=
  n.YieldsTo c → ∃ q ∈ before.getLast?, q.YieldsTo c

/-- A child before which the node should have ended comes right after one that its start tag
ended. -/
def YieldsOnce (n : Node) : Prop :=
  ∀ before c after, n.children = before ++ c :: after → n.SparedAfter before c

/-- Only the kinds and the names matter. -/
theorem YieldsTo.congr {p p' c c' : Node} (h : p.YieldsTo c) (hp : p'.kind = p.kind)
    (hpname : p'.name = p.name) (hc : c'.kind = c.kind) (hcname : c'.name = c.name) :
    p'.YieldsTo c' := by
  obtain ⟨hplain, helement, hname⟩ := h
  refine ⟨hp.trans hplain, ?_, ?_⟩
  · rw [hc]
    exact helement
  · rw [hcname, hpname]
    exact hname

theorem SparedAfter.congr {n n' c c' : Node} {before : List Node} (h : n.SparedAfter before c)
    (hn : n'.kind = n.kind) (hnname : n'.name = n.name) (hc : c'.kind = c.kind)
    (hcname : c'.name = c.name) : n'.SparedAfter before c' := by
  intro hyields
  obtain ⟨q, hq, hend⟩ := h (hyields.congr hn.symm hnname.symm hc.symm hcname.symm)
  exact ⟨q, hq, hend.congr rfl rfl hc hcname⟩

/-- Only a start tag ends an element. -/
theorem sparedAfter_of_not_isElement (n : Node) (before : List Node) {c : Node}
    (h : c.kind.isElement = false) : n.SparedAfter before c :=
  fun hyields => absurd (h.symm.trans hyields.2.1) Bool.false_ne_true

theorem yieldsOnce_of_nil {n : Node} (h : n.children = []) : n.YieldsOnce := by
  intro before c after hsplit
  rw [h] at hsplit
  exact absurd hsplit.symm (List.append_ne_nil_of_right_ne_nil _ (List.cons_ne_nil _ _))

/-- One more part leaves a node with one end for each start tag, if the part fits as the next
child. -/
theorem YieldsOnce.attach {n x : Node} (h : n.YieldsOnce) (hx : n.SparedAfter n.children x) :
    (n.attach x).YieldsOnce := by
  have hkind := n.kind_attach x
  have hname : (n.attach x).name = n.name := congrArg Label.name (n.label_attach x)
  intro before c after hsplit
  rcases x.kind.branch_or with ⟨b, hb⟩ | hcontent
  · rw [(attach_of_branch hb).2.2] at hsplit
    exact (h before c after hsplit).congr hkind hname rfl rfl
  · rw [attach_of_not_branch hcontent] at hsplit
    rcases List.eq_nil_or_concat' after with rfl | ⟨after, y, rfl⟩
    · obtain ⟨rfl, hlast⟩ := List.append_inj' hsplit rfl
      obtain rfl : x = c := (List.cons.inj hlast).1
      exact hx.congr hkind hname rfl rfl
    · have hsplit : n.children ++ [x] = (before ++ c :: after) ++ [y] := by
        rw [List.append_assoc, List.cons_append]
        exact hsplit
      exact (h before c after (List.append_inj' hsplit rfl).1).congr hkind hname rfl rfl

/-- All nodes of the tree have one end for each start tag. -/
def AllYieldOnce (n : Node) : Prop :=
  ∀ m ∈ n.walk, m.YieldsOnce

theorem allYieldOnce_iff {n : Node} :
    n.AllYieldOnce ↔ n.YieldsOnce ∧ ∀ p ∈ n.parts, p.AllYieldOnce :=
  forall_mem_walk

theorem AllYieldOnce.attach {n x : Node} (hn : n.AllYieldOnce) (hx : x.AllYieldOnce)
    (hspared : n.SparedAfter n.children x) : (n.attach x).AllYieldOnce := by
  obtain ⟨honce, hparts⟩ := allYieldOnce_iff.1 hn
  refine allYieldOnce_iff.2 ⟨honce.attach hspared, fun p hp => ?_⟩
  rcases mem_parts_attach hp with rfl | hp
  · exact hx
  · exact hparts p hp

/-- What a node says of itself may change, but for its kind and its name. -/
theorem AllYieldOnce.relabel {n : Node} {label : Label} (h : n.AllYieldOnce)
    (hkind : label.kind = n.kind) (hname : label.name = n.name) :
    AllYieldOnce { n with label } := by
  obtain ⟨honce, hparts⟩ := allYieldOnce_iff.1 h
  refine allYieldOnce_iff.2 ⟨fun before c after hsplit => ?_, hparts⟩
  exact (honce before c after hsplit).congr hkind hname rfl rfl

theorem allYieldOnce_leaf (label : Label) : (leaf label).AllYieldOnce :=
  allYieldOnce_iff.2 ⟨yieldsOnce_of_nil rfl, nofun⟩

/-- An attribute and its value have no children. -/
theorem allYieldOnce_of_isAttribute {a : Node} (hkind : a.kind.isAttribute = true)
    (ha : a.Whole) : a.AllYieldOnce := by
  intro m hm
  apply yieldsOnce_of_nil
  apply (ha m hm).children_eq
  rcases ha.attribute_or_chunk hkind hm with hattribute | hchunk
  · cases hk : m.kind <;> simp_all [Kind.isAttribute, Kind.holdsContent]
  · have hform : ∀ k ∈ [Kind.text, .mustache, .shorthand], k.holdsContent = false := by decide
    exact hform m.kind hchunk

/-- An element after its start tag. -/
theorem allYieldOnce_opened {ctx : Context} {c d : Cursor} (label : Label) {as : List Node}
    (has : ComponentDivision.attributes ctx [] c = .ok (as, d)) :
    AllYieldOnce { label, attributes := as } := by
  obtain ⟨hall, -⟩ := whole_of_attributes has
  refine allYieldOnce_iff.2 ⟨yieldsOnce_of_nil rfl, ?_⟩
  rw [parts_opened]
  intro a ha
  exact allYieldOnce_of_isAttribute (hall a ha).1 (hall a ha).2

end Node

/-! ## Open nodes -/

/-- Every open node may join the one around it as its next child, and what is open and what has
joined it has one end for each start tag. -/
def Admitted (root : Node) : List Node → Prop
  | [] => root.kind = .fragment ∧ root.AllYieldOnce
  | n :: ns => (ns.headD root).SparedAfter (ns.headD root).children n ∧ n.AllYieldOnce ∧
      Admitted root ns

namespace Stack

variable {st st' : Stack} {x : Node}

/-- The innermost open node is changed into one that is called the same. -/
theorem admitted_modifyCurrent {f : Node → Node} (h : Admitted st.root st.inner)
    (hkind : (f st.current).kind = st.current.kind) (hname : (f st.current).name = st.current.name)
    (hf : (f st.current).AllYieldOnce) :
    Admitted (st.modifyCurrent f).root (st.modifyCurrent f).inner := by
  obtain ⟨root, inner⟩ := st
  cases inner with
  | nil => exact ⟨hkind.trans h.1, hf⟩
  | cons n ns => exact ⟨h.1.congr rfl rfl hkind hname, hf, h.2.2⟩

theorem allYieldOnce_current (h : Admitted st.root st.inner) : st.current.AllYieldOnce := by
  obtain ⟨root, inner⟩ := st
  cases inner with
  | nil => exact h.2
  | cons n ns => exact h.2.1

theorem admitted_receive (h : Admitted st.root st.inner) (hx : x.AllYieldOnce)
    (hspared : st.current.SparedAfter st.current.children x) :
    Admitted (st.receive x).root (st.receive x).inner :=
  admitted_modifyCurrent h (st.current.kind_attach x)
    (congrArg Label.name (st.current.label_attach x)) ((allYieldOnce_current h).attach hx hspared)

/-- What is no element joins the innermost open node. -/
theorem admitted_receive_leaf (h : Admitted st.root st.inner) {label : Label}
    (hlabel : label.kind.isElement = false) :
    Admitted (st.receive (.leaf label)).root (st.receive (.leaf label)).inner :=
  admitted_receive h (Node.allYieldOnce_leaf label)
    (Node.sparedAfter_of_not_isElement _ _ hlabel)

/-- What is no element is opened. -/
theorem admitted_push (h : Admitted st.root st.inner) (hx : x.AllYieldOnce)
    (helement : x.kind.isElement = false) : Admitted (st.push x).root (st.push x).inner :=
  ⟨Node.sparedAfter_of_not_isElement _ _ helement, hx, h⟩

theorem admitted_pop (h : Admitted st.root st.inner) (r : Int) :
    Admitted (st.pop r).root (st.pop r).inner := by
  obtain ⟨root, inner⟩ := st
  cases inner with
  | nil => exact h
  | cons n ns =>
    obtain ⟨hspared, hn, hrest⟩ := h
    have haround : Admitted (Stack.mk root ns).root (Stack.mk root ns).inner := hrest
    exact admitted_receive haround (hn.relabel rfl rfl) (hspared.congr rfl rfl rfl rfl)

theorem admitted_closeOmitted (h : Admitted st.root st.inner) (r : Int) :
    Admitted (st.closeOmitted r).root (st.closeOmitted r).inner := by
  fun_induction Stack.closeOmitted r st with
  | case1 => exact h
  | case2 st n ns hinner hn ih => exact ih (admitted_pop h r)
  | case3 => exact h

theorem admitted_closeBefore (h : Admitted st.root st.inner) (name : Text) (r : Int) :
    Admitted (st.closeBefore name r).root (st.closeBefore name r).inner := by
  unfold Stack.closeBefore
  split
  · exact admitted_pop h r
  · exact h

theorem admitted_closeElement {name : Text} {start stop : Nat} (h : Admitted st.root st.inner)
    (hclose : st.closeElement name start stop = .ok st') : Admitted st'.root st'.inner := by
  unfold Stack.closeElement at hclose
  split at hclose
  · cases hclose
  · fun_induction Stack.closeNamed name start stop st with
    | case1 => cases hclose
    | case2 st n ns hinner hn =>
      cases hclose
      exact admitted_pop h stop
    | case3 st n ns hinner _ hn ih => exact ih (admitted_pop h start) hclose
    | case4 => cases hclose

theorem admitted_closeBranches (h : Admitted st.root st.inner) (kind : Kind) (r : Int) :
    Admitted (st.closeBranches kind r).root (st.closeBranches kind r).inner := by
  fun_induction Stack.closeBranches kind r st with
  | case1 => exact h
  | case2 st n ns hinner _ ih => exact ih (admitted_pop h r)
  | case3 => exact h

theorem admitted_closeBlock {kind : Kind} {keyword : Text} {start stop : Nat}
    (h : Admitted st.root st.inner) (hclose : st.closeBlock kind keyword start stop = .ok st') :
    Admitted st'.root st'.inner := by
  have hclosed := admitted_closeBranches (admitted_closeOmitted h start) kind start
  simp only [Stack.closeBlock] at hclose
  split at hclose
  · cases hclose
    exact admitted_pop hclosed stop
  · cases hclose

/-- **Once a start tag has ended what it ends, the innermost open node takes its element**: either
it need not have ended, or the element that did is its last child. -/
theorem sparedAfter_closeBefore (h : Admitted st.root st.inner) {name : Text} (r : Int)
    (helement : x.kind.isElement = true) (hx : x.name = some name) :
    (st.closeBefore name r).current.SparedAfter (st.closeBefore name r).current.children x := by
  have hends {n : Node} (hn : n.kind = .element .element) :
      n.YieldsTo x ↔ closingTagOmitted n.name (some name) = true := by
    constructor
    · rintro ⟨-, -, other, hother, hyields⟩
      rw [hx] at hother
      cases hother
      exact hyields
    · intro hyields
      exact ⟨hn, helement, name, hx, hyields⟩
  unfold Stack.closeBefore
  split
  · rename_i hn
    rw [Bool.and_eq_true, decide_eq_true_eq] at hn
    obtain ⟨root, inner⟩ := st
    cases inner with
    | nil => cases h.1.symm.trans hn.1
    | cons n ns =>
      have hn : n.kind = .element .element ∧ closingTagOmitted n.name (some name) = true := hn
      have hbranch : (n.endAt r).kind.isBranch = false := by
        show n.kind.isBranch = false
        rw [hn.1]
        rfl
      intro _
      refine ⟨n.endAt r, ?_, (hends (n := n.endAt r) hn.1).2 hn.2⟩
      show n.endAt r ∈ ((Stack.mk root ns).receive (n.endAt r)).current.children.getLast?
      rw [current_receive, Node.attach_of_not_branch hbranch]
      exact List.getLast?_concat
  · rename_i hn
    intro hyields
    rw [Bool.and_eq_true, decide_eq_true_eq] at hn
    exact absurd ⟨hyields.1, (hends hyields.1).1 hyields⟩ hn

end Stack

/-- **Every item leaves the open nodes so.** -/
theorem admitted_of_item {ctx : Context} {st st' : Stack} {c d : Cursor}
    (h : Admitted st.root st.inner) (hitem : Item ctx st c st' d) :
    Admitted st'.root st'.inner := by
  have hbranch (b : BranchKind) (start : Nat) : (Node.branch b start).AllYieldOnce :=
    Node.allYieldOnce_leaf _
  cases hitem with
  | text first more => exact Stack.admitted_receive_leaf h rfl
  | comment data => exact Stack.admitted_receive_leaf h rfl
  | braces kind expression d hkind hexpr =>
    have hform : ∀ k ∈ [Kind.mustache, .rawMustache, .debugTag, .constTag],
        k.isElement = false := by decide
    exact Stack.admitted_receive_leaf h (hform kind hkind)
  | closedElement name kind as c₁ c₂ d hkind hc₁ has hc₂ =>
    exact Stack.admitted_receive (Stack.admitted_closeBefore h name _)
      (Node.allYieldOnce_opened _ has) (Stack.sparedAfter_closeBefore h _ rfl rfl)
  | rawElement name as c₁ c₂ c₃ i n hkind hraw hvoid hc₁ has hc₃ hclosing =>
    have hraw := (Node.allYieldOnce_opened
      { kind := .element .element, start := c.pos, stop := c₃.pos + i + n, name := some name }
      has).attach (Node.allYieldOnce_leaf _)
        (Node.sparedAfter_of_not_isElement (c := .ofText c₃.pos (c₃.rest.take i)) _ _ rfl)
    exact Stack.admitted_receive (Stack.admitted_closeBefore h name _) hraw
      (Stack.sparedAfter_closeBefore h _ rfl rfl)
  | openElement name kind as c₁ c₂ d hkind hvoid hc₁ has hc₂ hname =>
    exact ⟨Stack.sparedAfter_closeBefore h _ rfl rfl, Node.allYieldOnce_opened _ has,
      Stack.admitted_closeBefore h name _⟩
  | closeElement name st' d hclose => exact Stack.admitted_closeElement h hclose
  | openGuarded b label e m d hkind hstart hwritten helseif hexpr he hm hkey =>
    refine Stack.admitted_push h (Node.allYieldOnce_leaf label) ?_
    show label.kind.isElement = false
    rw [hkind]
    rfl
  | openAwait b e thenPattern catchPattern m d hb hthen hcatch he hm =>
    refine Stack.admitted_push (Stack.admitted_push h ?_ rfl) (hbranch b _) rfl
    refine Node.allYieldOnce_iff.2 ⟨Node.yieldsOnce_of_nil rfl, ?_⟩
    intro p hp
    simp only [Node.parts, Option.getD_none, Option.toList_none, Option.toList_some,
      List.append_nil, List.nil_append, List.cons_append, List.mem_cons, List.not_mem_nil,
      or_false] at hp
    rcases hp with rfl | rfl | rfl
    all_goals exact Node.allYieldOnce_leaf _
  | elseIf e d hkind helse he =>
    exact Stack.admitted_push (Stack.admitted_push (Stack.admitted_closeOmitted h _)
      (hbranch .elseBlock _) rfl) (Node.allYieldOnce_leaf _) rfl
  | elseBranch b d hb hkind helse =>
    exact Stack.admitted_push (Stack.admitted_closeOmitted h _) (hbranch .elseBlock _) rfl
  | awaitBranch a b pattern d hab hkind =>
    have hpopped := Stack.admitted_pop (Stack.admitted_closeOmitted h c.pos) c.pos
    refine Stack.admitted_push (Stack.admitted_modifyCurrent hpopped ?_ ?_ ?_) (hbranch b _) rfl
    · split <;> rfl
    · split <;> rfl
    · have hcurrent := Stack.allYieldOnce_current hpopped
      split
      · exact hcurrent.relabel rfl rfl
      · exact hcurrent.relabel rfl rfl
  | closeBlock kind keyword st' d hkind hclose => exact Stack.admitted_closeBlock h hclose

/-- A start tag ends at most one element, in all of a parsed template. -/
theorem allYieldOnce_of_parseTemplate {grammar : Grammar} {source : Text} {root : Node}
    (h : parseTemplate grammar source = .ok root) : root.AllYieldOnce := by
  have hstart : Admitted (Template.start source).root (Template.start source).inner :=
    ⟨rfl, Node.allYieldOnce_leaf _⟩
  obtain ⟨st, c, hadmitted, -, hfinish⟩ := Template.run_invariant
    (I := fun st _ => Admitted st.root st.inner)
    (fun hinv hitem _ => admitted_of_item hinv hitem) hstart h
  have hclosed := Stack.admitted_closeOmitted hadmitted c.pos
  rw [Stack.finish_eq_ok.1 hfinish] at hclosed
  exact hclosed.2

/-! ## Names -/

/-- The pairs of an element whose closing tag may be left out and an element whose start tag
ends it. -/
def impliedEnds : List (Text × Text) :=
  disallowedContents.flatMap fun e => e.2.map fun c => (e.1.toList, c.toList)

theorem closingTagOmitted_iff {p c : Text} :
    closingTagOmitted (some p) (some c) = true ↔ (p, c) ∈ impliedEnds := by
  constructor
  · intro h
    simp only [closingTagOmitted, Option.bind_some, closers?] at h
    cases hfind : disallowedContents.find? (·.1.toList == p) with
    | none =>
      rw [hfind] at h
      cases h
    | some e =>
      rw [hfind] at h
      have hp := List.find?_some hfind
      obtain ⟨d, hd, rfl⟩ := List.mem_map.1 (List.contains_iff_mem.1 h)
      refine List.mem_flatMap.2 ⟨e, List.mem_of_find?_eq_some hfind, List.mem_map.2 ⟨d, hd, ?_⟩⟩
      rw [eq_of_beq hp]
  · intro h
    have hall : (impliedEnds.all fun e => closingTagOmitted (some e.1) (some e.2)) = true := by
      decide +kernel
    exact List.all_eq_true.1 hall (p, c) h

/-- The start tag of `c` ends an element that may stand in `p`. -/
def shielded (p c : Text) : Bool :=
  impliedEnds.any fun e => e.2 == c && !impliedEnds.contains (p, e.1)

theorem shielded_iff {p c : Text} : shielded p c = true ↔
    ∃ q, closingTagOmitted (some q) (some c) = true ∧
      closingTagOmitted (some p) (some q) = false := by
  have hcontains (q : Text) : impliedEnds.contains (p, q) = false ↔
      closingTagOmitted (some p) (some q) = false := by
    rw [← Bool.not_eq_true, ← Bool.not_eq_true, List.contains_iff_mem, closingTagOmitted_iff]
  rw [shielded, List.any_eq_true]
  constructor
  · rintro ⟨⟨q, d⟩, hd, hq⟩
    rw [Bool.and_eq_true, beq_iff_eq, Bool.not_eq_true', hcontains] at hq
    obtain ⟨rfl, hq⟩ := hq
    exact ⟨q, closingTagOmitted_iff.2 hd, hq⟩
  · rintro ⟨q, hend, hopen⟩
    refine ⟨(q, c), closingTagOmitted_iff.1 hend, ?_⟩
    rw [Bool.and_eq_true, beq_iff_eq, Bool.not_eq_true', hcontains]
    exact ⟨rfl, hopen⟩

/-- What shields an element from the start tag of one that `c` ends shields it from that of
`c`. -/
theorem shielded_of_omitted {p q c : Text} (hc : closingTagOmitted (some p) (some c) = true)
    (hq : closingTagOmitted (some q) (some c) = true) (h : shielded p q = true) :
    shielded p c = true := by
  have hall : (impliedEnds.all fun e => shielded e.1 e.2 ||
      impliedEnds.all fun e' => e'.2 != e.2 || !shielded e.1 e'.1) = true := by
    decide +kernel
  have houter := List.all_eq_true.1 hall (p, c) (closingTagOmitted_iff.1 hc)
  rw [Bool.or_eq_true] at houter
  apply houter.resolve_right
  intro hinner
  have hpair := List.all_eq_true.1 hinner (q, c) (closingTagOmitted_iff.1 hq)
  rw [Bool.or_eq_true, bne_iff_ne, Bool.not_eq_true', h] at hpair
  rcases hpair with hne | hfalse
  · exact hne rfl
  · exact Bool.false_ne_true hfalse.symm

/-- The name of an element whose closing tag may be left out, and which has content of its own. -/
structure IsOmissible (name : Text) : Prop where
  isTagName : IsTagName name
  isElement : ∀ start st, elementKind name start st = .ok .element
  not_void : isVoid name = false
  not_raw : isRawText name = false
  omitted : closingTagOmitted (some name) none = true

theorem elementKind_of_mem {e : String × List String} (he : e ∈ disallowedContents) (start : Nat)
    (st : Stack) : elementKind e.1.toList start st = .ok .element := by
  simp only [disallowedContents, List.mem_cons, List.not_mem_nil, or_false] at he
  rcases he with rfl | rfl | rfl | rfl | rfl | rfl | rfl | rfl | rfl | rfl | rfl | rfl | rfl | rfl
  all_goals rfl

theorem isOmissible_of_mem {e : String × List String} (he : e ∈ disallowedContents) :
    IsOmissible e.1.toList := by
  have hall : (disallowedContents.all fun e => isTagName e.1.toList &&
      (e.1.toList.all fun c => !endsTagName c) && !isVoid e.1.toList && !isRawText e.1.toList &&
      closingTagOmitted (some e.1.toList) none) = true := by
    decide +kernel
  have hform := List.all_eq_true.1 hall e he
  simp only [Bool.and_eq_true, Bool.not_eq_true'] at hform
  obtain ⟨⟨⟨⟨hvalid, hunended⟩, hvoid⟩, hraw⟩, homitted⟩ := hform
  exact ⟨⟨hvalid, hunended⟩, elementKind_of_mem he, hvoid, hraw, homitted⟩

theorem IsOmissible.of_omitted {p : Text} {c : Option Text}
    (h : closingTagOmitted (some p) c = true) : IsOmissible p := by
  cases hfind : disallowedContents.find? (·.1.toList == p) with
  | none =>
    simp only [closingTagOmitted, Option.bind_some, closers?, hfind] at h
    cases h
  | some e =>
    have hp := List.find?_some hfind
    rw [← eq_of_beq hp]
    exact isOmissible_of_mem (List.mem_of_find?_eq_some hfind)

/-- An element from whose start tag another one is shielded may itself be left without a closing
tag. -/
theorem IsOmissible.of_shielded {p c : Text} (hc : closingTagOmitted (some p) (some c) = true)
    (h : shielded p c = true) : IsOmissible c := by
  have hall : (impliedEnds.all fun e => !shielded e.1 e.2 ||
      closingTagOmitted (some e.2) none) = true := by
    decide +kernel
  have hpair := List.all_eq_true.1 hall (p, c) (closingTagOmitted_iff.1 hc)
  rw [Bool.or_eq_true, Bool.not_eq_true', h] at hpair
  exact .of_omitted (hpair.resolve_left Bool.false_ne_true.symm)

/-! ## Elements that stay open -/

namespace Template

/-- In some template an element `p` has an element `c` as a child. -/
def Nests (grammar : Grammar) (p c : Text) : Prop :=
  ∃ source root n m, parseTemplate grammar source = .ok root ∧ n ∈ root.walk ∧
    n.kind = .element .element ∧ n.name = some p ∧ m ∈ n.children ∧ m.kind.isElement = true ∧
    m.name = some c

/-- An element that has been opened by its start tag alone. -/
def opened (name : Text) (pos : Nat) : Node where
  label := { kind := .element .element, start := pos, name := some name }

theorem run_openingTag {name : Text} (h : IsOmissible name) (ctx : Context) (st : Stack)
    (pos : Nat) (rest : Text) :
    run ctx st ⟨pos, openingTag name ++ rest⟩
      = run ctx ((st.closeBefore name pos).push (opened name pos))
        ⟨pos + (openingTag name).length, rest⟩ := by
  have hitem : Reader.item ctx pos '<' st ⟨pos + 1, name ++ '>' :: rest⟩ = _ :=
    item_startTag h.isTagName (h.isElement pos _)
      (fun hvoid => Bool.false_ne_true (h.not_void.symm.trans hvoid.2))
      (fun hraw => Bool.false_ne_true (h.not_raw.symm.trans hraw.2))
  have hsource : openingTag name ++ rest = '<' :: (name ++ '>' :: rest) := by
    simp [openingTag]
  have hpos : pos + (openingTag name).length = pos + 1 + name.length + 1 := by
    rw [openingTag, List.length_cons, List.length_append, List.length_singleton]
    omega
  rw [hsource, hpos]
  exact run_of_item hitem

/-- The root with the element `p` in it, which has the elements `q` and `c`, all three without
closing tags. -/
def rowOf (p q c : Text) : Node where
  label := { kind := .fragment, start := 0
             stop := (openingTag p ++ (openingTag q ++ openingTag c)).length }
  children :=
    [{ (opened p 0).endAt (openingTag p ++ (openingTag q ++ openingTag c)).length with
       children :=
        [(opened q (openingTag p).length).endAt (openingTag p ++ openingTag q).length,
         (opened c (openingTag p ++ openingTag q).length).endAt
           (openingTag p ++ (openingTag q ++ openingTag c)).length] }]

/-- At the end of the text the two innermost elements end, if their closing tags may be left
out. -/
theorem finish_two {root n m : Node} (pos : Nat) (hn : n.kind = .element .element)
    (hnend : closingTagOmitted n.name none = true) (hm : m.kind = .element .element)
    (hmend : closingTagOmitted m.name none = true) :
    (Stack.mk root [m, n]).finish pos
      = .ok (root.attach ((n.attach (m.endAt pos)).endAt pos)) := by
  have hinner : (Stack.mk root [m, n]).closeOmitted pos
      = (Stack.mk root [n.attach (m.endAt pos)]).closeOmitted pos := by
    rw [Stack.closeOmitted_of_cons _ rfl, if_pos (by rw [hm, hmend]; rfl)]
    rfl
  have houter : (Stack.mk root [n.attach (m.endAt pos)]).closeOmitted pos
      = ⟨root.attach ((n.attach (m.endAt pos)).endAt pos), []⟩ := by
    have hname : (n.attach (m.endAt pos)).name = n.name := congrArg Label.name (n.label_attach _)
    rw [Stack.closeOmitted_of_cons _ rfl, Node.kind_attach, hname,
      if_pos (by rw [hn, hnend]; rfl)]
    exact Stack.closeOmitted_of_nil _ rfl
  rw [Stack.finish, hinner, houter]

/-- Of three start tags the second opens an element inside that of the first one, and the third
ends the second element only. -/
theorem parseTemplate_three_tags {p q c : Text} (grammar : Grammar) (hp : IsOmissible p)
    (hq : IsOmissible q) (hc : IsOmissible c)
    (hopen : closingTagOmitted (some p) (some q) = false)
    (hend : closingTagOmitted (some q) (some c) = true) :
    parseTemplate grammar (openingTag p ++ (openingTag q ++ openingTag c))
      = .ok (rowOf p q c) := by
  have hsecond (root : Node) (pos : Int) :
      (Stack.mk root [opened p 0]).closeBefore q pos = ⟨root, [opened p 0]⟩ := by
    refine if_neg fun h => ?_
    rw [Bool.and_eq_true] at h
    exact Bool.false_ne_true (hopen.symm.trans h.2)
  -- the third tag ends the second element only: the first one is not asked again
  have hthird (root : Node) (start : Nat) (pos : Int) :
      (Stack.mk root [opened q start, opened p 0]).closeBefore c pos
        = ⟨root, [{ opened p 0 with children := [(opened q start).endAt pos] }]⟩ := by
    refine if_pos ?_
    rw [Bool.and_eq_true, decide_eq_true_eq]
    exact ⟨rfl, hend⟩
  have hsource : openingTag p ++ (openingTag q ++ openingTag c)
      = openingTag p ++ (openingTag q ++ (openingTag c ++ [])) := by
    rw [List.append_nil]
  have hrun : parseTemplate grammar (openingTag p ++ (openingTag q ++ openingTag c))
      = run (.of grammar (openingTag p ++ (openingTag q ++ openingTag c)))
        (start (openingTag p ++ (openingTag q ++ openingTag c)))
        ⟨0, openingTag p ++ (openingTag q ++ (openingTag c ++ []))⟩ := by
    rw [← hsource]
    rfl
  have hfirst (source : Text) : ((start source).closeBefore p (0 : Nat)).push (opened p 0)
      = ⟨(start source).root, [opened p 0]⟩ := rfl
  rw [hrun, run_openingTag hp, hfirst, run_openingTag hq, hsecond, run_openingTag hc]
  show run _ (((Stack.mk _ [opened q _, opened p 0]).closeBefore c _).push _) _ = _
  rw [hthird, run_nil]
  show ((Stack.mk _ [opened c _, _]).finish _).mapError _ = _
  rw [finish_two]
  · simp only [rowOf, start, List.length_append, Nat.zero_add, Nat.add_assoc]
    rfl
  · rfl
  · exact hp.omitted
  · rfl
  · exact hc.omitted

theorem nests_rowOf {grammar : Grammar} {source p q c : Text}
    (h : parseTemplate grammar source = .ok (rowOf p q c)) : Nests grammar p c := by
  have hmem {n m : Node} (hm : m ∈ n.children) : m ∈ n.parts :=
    Node.mem_parts_iff.2 (Or.inr (Or.inr (Or.inl hm)))
  refine ⟨source, rowOf p q c, _, _, h,
    mem_walk.2 (Or.inr ⟨_, hmem List.mem_cons_self, mem_walk.2 (Or.inl rfl)⟩), rfl, rfl,
    List.mem_cons_of_mem _ List.mem_cons_self, rfl, rfl⟩

end Template

/-- A node is shielded from a child before which it should have ended. -/
theorem Node.YieldsOnce.shielded_child {n m : Node} {p c : Text} {before after : List Node}
    (h : n.YieldsOnce) (hkind : n.kind = .element .element) (hn : n.name = some p)
    (hsplit : n.children = before ++ m :: after) (helement : m.kind.isElement = true)
    (hm : m.name = some c) (hc : closingTagOmitted (some p) (some c) = true) :
    shielded p c = true := by
  -- by induction on the children before it: the last of them has ended, and if the node should
  -- have ended before that one too, it was shielded then
  induction before using List.reverseRecOn generalizing m c after with
  | nil =>
    obtain ⟨q, hq, -⟩ := h [] m after hsplit ⟨hkind, helement, c, hm, by rw [hn]; exact hc⟩
    cases hq
  | append_singleton before q ih =>
    obtain ⟨q', hq', hplain, -, c', hc', hends⟩ := h (before ++ [q]) m after hsplit
      ⟨hkind, helement, c, hm, by rw [hn]; exact hc⟩
    rw [List.getLast?_concat] at hq'
    obtain rfl : q = q' := Option.some.inj hq'
    obtain rfl : c = c' := Option.some.inj (hm.symm.trans hc')
    cases hname : q.name with
    | none =>
      rw [hname] at hends
      cases hends
    | some name =>
      rw [hname] at hends
      by_cases hagain : closingTagOmitted (some p) (some name) = true
      · have hearlier : n.children = before ++ q :: (m :: after) := by
          rw [hsplit, List.append_assoc]
          rfl
        exact shielded_of_omitted hc hends (ih hearlier (by rw [hplain]; rfl) hname hagain)
      · exact shielded_iff.2 ⟨name, hends, Bool.eq_false_iff.2 hagain⟩

open Template in
/-- **A start tag ends at most one element.** In a parsed template a child before which its parent
should have ended comes right after one that its start tag ended; and there are such children
exactly for the names of which the start tag `c` ends an element `q` that may stand in `p`. -/
theorem parseTemplate_yieldsOnce (grammar : Grammar) :
    (∀ source root, parseTemplate grammar source = .ok root → ∀ n ∈ root.walk, n.YieldsOnce) ∧
    ∀ p c, closingTagOmitted (some p) (some c) = true →
      (Nests grammar p c ↔ ∃ q, closingTagOmitted (some q) (some c) = true ∧
        closingTagOmitted (some p) (some q) = false) := by
  refine ⟨fun source root h => allYieldOnce_of_parseTemplate h, fun p c hc => ?_⟩
  constructor
  · rintro ⟨source, root, n, m, hparse, hmem, hkind, hn, hchild, helement, hm⟩
    obtain ⟨before, after, hsplit⟩ := List.append_of_mem hchild
    have honce := allYieldOnce_of_parseTemplate hparse n hmem
    exact shielded_iff.1 (honce.shielded_child hkind hn hsplit helement hm hc)
  · rintro ⟨q, hend, hopen⟩
    have hparse := parseTemplate_three_tags grammar (.of_omitted hc) (.of_omitted hend)
      (.of_shielded hc (shielded_iff.2 ⟨q, hend, hopen⟩)) hopen hend
    exact nests_rowOf hparse

open Template in
theorem parseTemplate_yieldsOnce_cells :
    (∃ root, parseTemplate .permissive "<tr><td><tr>".toList = .ok root ∧
      ∀ n ∈ root.walk, n.YieldsOnce) ∧
    closingTagOmitted (some "tr".toList) (some "tr".toList) = true ∧
    Nests .permissive "tr".toList "tr".toList ∧
    closingTagOmitted (some "td".toList) (some "tr".toList) = true ∧
    ¬ Nests .permissive "td".toList "tr".toList := by
  obtain ⟨hyields, hnests⟩ := parseTemplate_yieldsOnce .permissive
  have hcell : IsOmissible "td".toList := .of_omitted (c := none) rfl
  have hrow : IsOmissible "tr".toList := .of_omitted (c := none) rfl
  have hparse := parseTemplate_three_tags .permissive hrow hcell hrow rfl rfl
  refine ⟨⟨_, hparse, hyields _ _ hparse⟩, rfl, (hnests _ _ rfl).2 ⟨"td".toList, rfl, rfl⟩, rfl,
    fun h => ?_⟩
  have hshielded := shielded_iff.2 ((hnests _ _ rfl).1 h)
  revert hshielded
  decide +kernel

open Template in
/-- A row that begins in a cell ends the cell, and not the row around it. -/
theorem parseTemplate_row_in_row :
    closingTagOmitted (some "tr".toList) (some "tr".toList) = true ∧
      parseTemplate .permissive "<tr><td><tr>".toList
        = .ok (rowOf "tr".toList "td".toList "tr".toList) := by
  have hcell : IsOmissible "td".toList := .of_omitted (c := none) rfl
  have hrow : IsOmissible "tr".toList := .of_omitted (c := none) rfl
  exact ⟨rfl, parseTemplate_three_tags .permissive hrow hcell hrow rfl rfl⟩

end ComponentDivision
