/-
# Ends that are written

Only plain elements may end without closing tags. A block ends with a closer that has its own
keyword, and an element of any other kind ends with its own closing tag or closes itself: the
closer is the last text of the node, and no part of the node reaches into it. So nothing else can
have ended the node, be it the tag of a neighbour, of a node around it or the end of the text.

* `Node.EndsWith` : a text that is the end of a node and of none of its parts;
* `Node.Explicit` : a node whose end is written, if it has to be;
* `Stack.Explicit` : what has joined the open nodes is so;
* `explicit_of_item` : each item keeps this;
* `parseTemplate_explicit` : the nodes of parsed templates.
-/
import ComponentDivision.Proofs.Template.FirstBlock

namespace ComponentDivision

namespace Node

/-! ## Closers of nodes -/

/-- The node ends with the text `closer`, and its parts end before that. -/
structure EndsWith (source : Text) (n : Node) (closer : Text) : Prop where
  suffix : closer <:+ source.slice n.start n.stop
  apart : ∀ p ∈ n.parts, p.stop ≤ n.stop - closer.length

/-- If the node is a block that continues no other one, it begins with a brace. -/
def Braced (source : Text) (n : Node) : Prop :=
  n.kind.isBlock = true → ¬ n.Continues →
    ∃ i : Nat, n.start = i ∧ source[i]? = some '{'

/-- A block that continues no other one goes from a brace to a closer with its keyword, and an
element that is not plain closes itself or goes to a closing tag with its name. -/
structure Explicit (source : Text) (n : Node) : Prop where
  braced : n.Braced source
  block : n.kind.isBlock = true → ¬ n.Continues →
    ∃ keyword closer, block? keyword = some n.kind ∧ IsBlockCloser keyword closer ∧
      n.EndsWith source closer
  element : ∀ kind, n.kind = .element kind → kind ≠ .element →
    ∃ name closer, n.name = some name ∧ (closer = "/>".toList ∨ IsClosingTag name closer) ∧
      n.EndsWith source closer

/-- All nodes of the tree have the ends that they have to have. -/
def AllExplicit (source : Text) (n : Node) : Prop :=
  ∀ m ∈ n.walk, m.Explicit source

variable {source : Text} {n p : Node}

theorem allExplicit_iff :
    n.AllExplicit source ↔ n.Explicit source ∧ ∀ p ∈ n.parts, p.AllExplicit source :=
  forall_mem_walk

/-- Plain elements, blocks that continue others, and what is neither an element nor a block may
end anywhere. -/
theorem explicit_of_silent (hblock : n.kind.isBlock = true → n.Continues)
    (helement : ∀ kind, n.kind = .element kind → kind = .element) : n.Explicit source where
  braced hb hchain := absurd (hblock hb) hchain
  block hb hchain := absurd (hblock hb) hchain
  element kind hkind hne := absurd (helement kind hkind) hne

theorem explicit_of_plain (h : n.kind = .element .element) : n.Explicit source := by
  refine explicit_of_silent (fun hblock => ?_) fun kind hkind => ?_
  · rw [h] at hblock
    cases hblock
  · cases h.symm.trans hkind
    rfl

theorem explicit_of_kind (hblock : n.kind.isBlock = false) (helement : n.kind.isElement = false) :
    n.Explicit source := by
  refine explicit_of_silent (fun hb => ?_) fun kind hkind => ?_
  · exact absurd (hblock.symm.trans hb) Bool.false_ne_true
  · rw [hkind] at helement
    cases helement

theorem allExplicit_leaf {label : Label} (hblock : label.kind.isBlock = false)
    (helement : label.kind.isElement = false) : (leaf label).AllExplicit source :=
  allExplicit_iff.2 ⟨explicit_of_kind hblock helement, nofun⟩

theorem allExplicit_of_attributes {ctx : Context} {c d : Cursor} {as : List Node}
    (has : ComponentDivision.attributes ctx [] c = .ok (as, d)) :
    ∀ a ∈ as, a.AllExplicit source := by
  intro a ha m hm
  obtain ⟨hkind, hwhole⟩ := (whole_of_attributes has).1 a ha
  rcases hwhole.attribute_or_chunk hkind hm with hattribute | hchunk
  · apply explicit_of_kind
    · cases hk : m.kind <;> simp_all [Kind.isAttribute, Kind.isBlock]
    · cases hk : m.kind <;> simp_all [Kind.isAttribute, Kind.isElement]
  · have hform : ∀ k ∈ [Kind.text, .mustache, .shorthand],
        k.isBlock = false ∧ k.isElement = false := by decide
    obtain ⟨hblock, helement⟩ := hform m.kind hchunk
    exact explicit_of_kind hblock helement

/-! ## Where closers stand -/

/-- The parts of an open node end before the place up to which it has been read. -/
theorem Open.stop_le {r : Int} (h : n.Open source r) (hp : p ∈ n.parts) : p.stop ≤ r := by
  obtain ⟨hnonneg, hle⟩ := h.le
  rcases h.sound p hp p (mem_walk.2 (Or.inl rfl)) with ⟨b, -, rfl⟩ | hplaced
  · show (-1 : Int) ≤ r
    omega
  · have hmem : p ∈ n.attributes ++ n.value.getD [] ++ n.children ++ n.branches := by
      rw [List.append_assoc, List.append_assoc, List.mem_append, List.mem_append, List.mem_append]
      rcases mem_parts_iff.1 hp with hp | hp | hp | hp
      · exact Or.inl hp
      · exact Or.inr (Or.inl hp)
      · exact Or.inr (Or.inr (Or.inl hp))
      · exact Or.inr (Or.inr (Or.inr (mem_branches (exists_mem_slot.1 hp) hplaced.written)))
    exact (h.placed.row.mem (List.mem_append_right _ (List.mem_map_of_mem hmem))).2.2

/-- An open node that ends after a text ends with it. -/
theorem Open.endsWith {c d : Cursor} {closer : Text} (h : n.Open source c.pos)
    (hc : c.On source) (hcd : c.Reaches d) (hrest : c.rest = closer ++ d.rest) :
    (n.endAt d.pos).EndsWith source closer := by
  obtain ⟨hnonneg, hle⟩ := h.le
  have hpos : d.pos = c.pos + closer.length := by
    obtain ⟨k, hk, rfl⟩ := hcd
    have hlength := congrArg List.length hrest
    simp only [Cursor.advance, List.length_append, List.length_drop] at hlength ⊢
    omega
  have hlen := (hcd.on hc).pos_le
  refine ⟨⟨source.slice n.start c.pos, ?_⟩, fun p hp => ?_⟩
  · show _ = source.slice n.start d.pos
    obtain ⟨i, hi⟩ := Int.eq_ofNat_of_zero_le hnonneg
    rw [hi] at hle ⊢
    have hle : i ≤ c.pos := Int.ofNat_le.1 hle
    have hsplit : source.drop i = (source.slice i c.pos ++ closer) ++ d.rest := by
      rw [List.append_assoc, ← hrest, hc.rest_eq]
      exact (Text.slice_append_drop hle (by omega)).symm
    have hslice := Text.slice_of_drop_eq_append (by omega) hsplit
    rw [← hslice]
    congr 1
    have hlength := Text.length_slice (t := source) (by omega : (0 : Int) ≤ i)
      (by omega : (i : Int) ≤ c.pos) (by omega)
    rw [List.length_append]
    push_cast
    omega
  · have hstop := h.stop_le hp
    show p.stop ≤ d.pos - closer.length
    omega

end Node

/-! ## Open nodes -/

/-- The node begins as it has to, and what has joined it has the ends that it has to have. -/
structure Node.OpenExplicit (source : Text) (n : Node) : Prop where
  braced : n.Braced source
  parts : ∀ p ∈ n.parts, p.AllExplicit source

/-- This holds of all open nodes. -/
def Stack.Explicit (source : Text) (st : Stack) : Prop :=
  ∀ n ∈ st.root :: st.inner, n.OpenExplicit source

namespace Stack

variable {source : Text} {st st' : Stack} {x : Node} {r : Int}

theorem Explicit.modifyCurrent {f : Node → Node} (h : st.Explicit source)
    (hf : ∀ n : Node, n.OpenExplicit source → (f n).OpenExplicit source) :
    (st.modifyCurrent f).Explicit source := by
  obtain ⟨root, inner⟩ := st
  cases inner with
  | nil =>
    intro n hn
    rw [List.mem_singleton.1 hn]
    exact hf root (h root List.mem_cons_self)
  | cons m ms =>
    obtain ⟨hroot, hinner⟩ := List.forall_mem_cons.1 h
    obtain ⟨hm, hms⟩ := List.forall_mem_cons.1 hinner
    exact List.forall_mem_cons.2 ⟨hroot, List.forall_mem_cons.2 ⟨hf m hm, hms⟩⟩

theorem Explicit.receive (h : st.Explicit source) (hx : x.AllExplicit source) :
    (st.receive x).Explicit source := by
  refine h.modifyCurrent fun n hn => ⟨?_, fun p hp => ?_⟩
  · unfold Node.Braced Node.Continues
    rw [Node.kind_attach, Node.label_attach, Node.start_attach]
    exact hn.braced
  · rcases Node.mem_parts_attach hp with rfl | hp
    · exact hx
    · exact hn.parts p hp

theorem Explicit.push (h : st.Explicit source) (hx : x.OpenExplicit source) :
    (st.push x).Explicit source := by
  obtain ⟨hroot, hinner⟩ := List.forall_mem_cons.1 h
  exact List.forall_mem_cons.2 ⟨hroot, List.forall_mem_cons.2 ⟨hx, hinner⟩⟩

/-- A node ends where it has the end that it has to have. -/
theorem Explicit.pop {n : Node} {ns : List Node} (h : st.Explicit source)
    (hinner : st.inner = n :: ns) (hn : (n.endAt r).Explicit source) :
    (st.pop r).Explicit source := by
  obtain ⟨root, inner⟩ := st
  cases hinner
  obtain ⟨hroot, hinner⟩ := List.forall_mem_cons.1 h
  obtain ⟨hopen, hns⟩ := List.forall_mem_cons.1 hinner
  have haround : (Stack.mk root ns).Explicit source := List.forall_mem_cons.2 ⟨hroot, hns⟩
  exact haround.receive (Node.allExplicit_iff.2 ⟨hn, hopen.parts⟩)

theorem Explicit.closeOmitted (h : st.Explicit source) : (st.closeOmitted r).Explicit source := by
  fun_induction Stack.closeOmitted r st with
  | case1 => exact h
  | case2 st n ns hinner hn ih =>
    rw [Bool.and_eq_true, decide_eq_true_eq] at hn
    exact ih (h.pop hinner (Node.explicit_of_plain hn.1))
  | case3 => exact h

theorem Explicit.closeBranches (h : st.Explicit source) (kind : Kind) :
    (st.closeBranches kind r).Explicit source := by
  fun_induction Stack.closeBranches kind r st with
  | case1 => exact h
  | case2 st n ns hinner hn ih =>
    refine ih (h.pop hinner ?_)
    simp only [Bool.or_eq_true, Bool.and_eq_true, decide_eq_true_eq] at hn
    rcases hn with hbranch | ⟨⟨-, hif⟩, helseif⟩
    · obtain ⟨b, hb⟩ := n.kind.branch_or.resolve_right (by rw [hbranch]; decide)
      have hb : (n.endAt r).kind = .branch b := hb
      exact Node.explicit_of_kind (by rw [hb]; rfl) (by rw [hb]; rfl)
    · have hif : (n.endAt r).kind = .guarded .ifBlock := hif
      refine Node.explicit_of_silent (fun _ => ⟨hif, helseif⟩) fun kind hkind => ?_
      cases hif.symm.trans hkind
  | case3 => exact h

variable {c d : Cursor} {closer : Text}

theorem Explicit.closeBefore (h : st.Explicit source) (hready : st.Ready source r) (name : Text) :
    (st.closeBefore name r).Explicit source := by
  unfold Stack.closeBefore
  split
  · rename_i hn
    rw [Bool.and_eq_true, decide_eq_true_eq] at hn
    obtain ⟨n, ns, hinner, hcurrent⟩ := hready.nested.exists_inner (by rw [hn.1]; nofun)
    rw [hcurrent] at hn
    exact h.pop hinner (Node.explicit_of_plain hn.1)
  · exact h

/-- A closing tag ends plain elements, and then the element that has its name. -/
theorem Explicit.closeNamed {name : Text} (h : st.Explicit source)
    (hready : st.Ready source c.pos) (hc : c.On source) (hcd : c.Reaches d)
    (hcloser : IsClosingTag name closer) (hrest : c.rest = closer ++ d.rest)
    (hclose : st.closeNamed name c.pos d.pos = .ok st') : st'.Explicit source := by
  fun_induction Stack.closeNamed name c.pos d.pos st with
  | case1 => cases hclose
  | case2 st n ns hinner hn =>
    cases hclose
    rw [Bool.and_eq_true, decide_eq_true_eq] at hn
    have hends := (hready.nested.tail hinner).1.endsWith hc hcd hrest
    have hblock : n.kind.isBlock = false := by
      cases hk : n.kind <;> simp_all [Kind.isElement, Kind.isBlock]
    refine h.pop hinner ⟨fun hb => ?_, fun hb => ?_, fun kind hkind hne => ?_⟩
    · exact absurd (hblock.symm.trans hb) Bool.false_ne_true
    · exact absurd (hblock.symm.trans hb) Bool.false_ne_true
    · exact ⟨name, closer, hn.2, Or.inr hcloser, hends⟩
  | case3 st n ns hinner _ hn ih =>
    refine ih (h.pop hinner (Node.explicit_of_plain hn)) ?_ hclose
    exact hready.nested.pop_ready hinner (Int.le_refl _) hready.nested.le_length (by rw [hn]; rfl)
  | case4 => cases hclose

/-- A closer ends plain elements and branches, and then a block that has its keyword. -/
theorem Explicit.closeBlock {kind : Kind} {keyword : Text} (h : st.Explicit source)
    (hready : st.Ready source c.pos) (hc : c.On source) (hcd : c.Reaches d)
    (hkind : block? keyword = some kind) (hcloser : IsBlockCloser keyword closer)
    (hrest : c.rest = closer ++ d.rest)
    (hclose : st.closeBlock kind keyword c.pos d.pos = .ok st') : st'.Explicit source := by
  have hexplicit := (h.closeOmitted (r := c.pos)).closeBranches (r := c.pos) kind
  have hnested := hready.closeOmitted.nested.closeBranches kind
  obtain ⟨hcurrent, rfl⟩ := closeBlock_eq_ok.1 hclose
  have hblock : kind ≠ .fragment ∧ kind.isElement = false := by
    rcases block?_eq_some hkind with ⟨b, rfl⟩ | rfl
    · exact ⟨nofun, rfl⟩
    · exact ⟨nofun, rfl⟩
  obtain ⟨n, ns, hinner, hn⟩ := hnested.exists_inner (by rw [hcurrent]; exact hblock.1)
  rw [hn] at hcurrent
  have hends := (hnested.tail hinner).1.endsWith hc hcd hrest
  have hbraced := (hexplicit n (by rw [hinner]; exact List.mem_cons_of_mem _ List.mem_cons_self)).1
  refine hexplicit.pop hinner ⟨hbraced, fun _ _ => ?_, fun k hk _ => ?_⟩
  · exact ⟨keyword, closer, hkind.trans (congrArg some hcurrent.symm), hcloser, hends⟩
  · have hk : n.kind = .element k := hk
    rw [← hcurrent, hk] at hblock
    cases hblock.2

end Stack

/-! ## Items -/

section

variable {source : Text} {n : Node} {c d : Cursor}

/-- A node that has just been opened at a brace. -/
theorem openExplicit_of_brace (hc : c.On source) (hbrace : c.rest.head? = some '{')
    (hstart : n.start = c.pos) (hparts : ∀ p ∈ n.parts, p.AllExplicit source) :
    n.OpenExplicit source := by
  refine ⟨fun _ _ => ⟨c.pos, hstart, ?_⟩, hparts⟩
  rw [hc.rest_eq, List.head?_drop] at hbrace
  exact hbrace

/-- A node that has just been opened and is no block, or continues one. -/
theorem openExplicit_of_silent (hblock : n.kind.isBlock = true → n.Continues)
    (hparts : ∀ p ∈ n.parts, p.AllExplicit source) : n.OpenExplicit source :=
  ⟨fun hb hchain => absurd (hblock hb) hchain, hparts⟩

theorem openExplicit_branch (b : BranchKind) (start : Nat) :
    (Node.branch b start).OpenExplicit source :=
  openExplicit_of_silent nofun nofun

/-- An element whose start tag closes it. -/
theorem allExplicit_closedElement {grammar : Grammar} {name : Text} {kind : ElementKind}
    {as : List Node} {c₁ c₂ : Cursor} (hc : c.On source) (hc₁ : c.Reaches c₁)
    (has : attributes ⟨grammar, source.lineStarts⟩ [] c₁ = .ok (as, c₂)) (hd : c₂.Reaches d)
    (hend : kind = .element ∨ c₂.rest = "/>".toList ++ d.rest) :
    Node.AllExplicit source
      { label := { kind := .element kind, start := c.pos, stop := d.pos, name := some name }
        attributes := as } := by
  refine Node.allExplicit_iff.2 ⟨⟨nofun, nofun, fun k hk hne => ?_⟩, ?_⟩
  · cases hk
    have hc₂ := hc₁.trans (forward_attributes _ _ has)
    have hopen := open_element name kind hc hc₁ has (.refl c₂)
    refine ⟨name, _, rfl, Or.inl rfl, ?_⟩
    exact hopen.endsWith (hc₂.on hc) hd (hend.resolve_left hne)
  · rw [Node.parts_opened]
    exact Node.allExplicit_of_attributes has

end

/-- **Every item leaves the nodes with the ends that they have to have.** -/
theorem explicit_of_item {grammar : Grammar} {source : Text} {st st' : Stack} {c d : Cursor}
    (hc : c.On source) (hready : st.Ready source c.pos) (h : st.Explicit source)
    (hitem : Item ⟨grammar, source.lineStarts⟩ st c st' d) (hcd : c.Reaches d) :
    st'.Explicit source := by
  cases hitem with
  | text first more => exact h.receive (Node.allExplicit_leaf rfl rfl)
  | comment data => exact h.receive (Node.allExplicit_leaf rfl rfl)
  | braces kind expression d hkind hexpr =>
    have hform : ∀ k ∈ [Kind.mustache, .rawMustache, .debugTag, .constTag],
        k.isBlock = false ∧ k.isElement = false := by decide
    obtain ⟨hblock, helement⟩ := hform kind hkind
    exact h.receive (Node.allExplicit_leaf hblock helement)
  | closedElement name kind as c₁ c₂ d hkind hc₁ has hd hend =>
    exact (h.closeBefore hready name).receive (allExplicit_closedElement hc hc₁ has hd hend)
  | rawElement name as c₁ c₂ c₃ i n hkind hraw hvoid hc₁ has hc₃ hclosing =>
    refine (h.closeBefore hready name).receive (Node.allExplicit_iff.2 ⟨?_, fun p hp => ?_⟩)
    · exact Node.explicit_of_plain rfl
    · rcases Node.mem_parts_iff.1 hp with hp | hp | hp | ⟨b, hp⟩
      · exact Node.allExplicit_of_attributes has p hp
      · cases hp
      · rw [List.mem_singleton.1 hp]
        exact Node.allExplicit_leaf rfl rfl
      · cases b <;> cases hp
  | openElement name kind as c₁ c₂ d hkind hvoid hc₁ has hd hname =>
    refine (h.closeBefore hready name).push (openExplicit_of_silent (fun hblock => ?_) ?_)
    · cases hblock
    · rw [Node.parts_opened]
      exact Node.allExplicit_of_attributes has
  | closeElement name st' d hclose hcloser =>
    obtain ⟨closer, hcloser, hrest⟩ := hcloser
    unfold Stack.closeElement at hclose
    split at hclose
    · cases hclose
    · exact h.closeNamed hready hc hcd hcloser hrest hclose
  | openGuarded b label e m d hkind hstart hwritten helseif hexpr he hm hkey hbrace =>
    exact h.push (openExplicit_of_brace hc hbrace hstart fun p hp => by cases hp)
  | openAwait b e thenPattern catchPattern m d hb hthen hcatch he hm hbrace =>
    refine (h.push (openExplicit_of_brace hc hbrace rfl fun p hp => ?_)).push
      (openExplicit_branch b _)
    simp only [Node.parts, Option.getD_none, Option.toList_none, Option.toList_some,
      List.append_nil, List.nil_append, List.cons_append, List.mem_cons, List.not_mem_nil,
      or_false] at hp
    rcases hp with rfl | rfl | rfl
    all_goals exact Node.allExplicit_leaf rfl rfl
  | elseIf e d hkind helse he =>
    exact (h.closeOmitted.push (openExplicit_branch .elseBlock _)).push
      (openExplicit_of_silent (fun _ => ⟨rfl, rfl⟩) fun p hp => by cases hp)
  | elseBranch b d hb hkind helse =>
    exact h.closeOmitted.push (openExplicit_branch .elseBlock _)
  | awaitBranch a b pattern d hab hkind =>
    have hinside : (st.closeOmitted c.pos).current.kind ≠ .fragment := by
      rw [hkind]
      exact Kind.noConfusion
    obtain ⟨n, ns, hinner, hn⟩ := hready.closeOmitted.nested.exists_inner hinside
    rw [hn] at hkind
    have hended : (n.endAt c.pos).kind = .branch a := hkind
    have hpopped := h.closeOmitted.pop hinner (r := c.pos)
      (Node.explicit_of_kind (by rw [hended]; rfl) (by rw [hended]; rfl))
    refine (hpopped.modifyCurrent fun n hn => ?_).push (openExplicit_branch b _)
    split
    · exact ⟨hn.braced, hn.parts⟩
    · exact ⟨hn.braced, hn.parts⟩
  | closeBlock kind keyword st' d hkind hclose htext hcloser =>
    obtain ⟨closer, hcloser, hrest⟩ := hcloser
    exact h.closeBlock hready hc hcd hkind hcloser hrest hclose

/-! ## Templates -/

/-- **Only plain elements end without closers of their own.** Every block of a parsed template
that continues no other one begins with a brace and ends with a closer that has its keyword, and
every element that is not plain closes itself or ends with a closing tag that has its name. -/
theorem parseTemplate_explicit {grammar : Grammar} {source : Text} {root : Node}
    (h : parseTemplate grammar source = .ok root) : ∀ n ∈ root.walk, n.Explicit source := by
  have hstart : (Template.start source).Explicit source := by
    intro n hn
    rw [List.mem_singleton.1 hn]
    exact openExplicit_of_silent nofun nofun
  obtain ⟨st, c, ⟨hc, hready, hexplicit⟩, -, hfinish⟩ := Template.run_invariant
    (I := fun st c => c.On source ∧ st.Ready source c.pos ∧ st.Explicit source)
    (fun hinv hitem hreach => ⟨hreach.on hinv.1, ready_of_item hinv.1 hinv.2.1 hitem hreach,
      explicit_of_item hinv.1 hinv.2.1 hinv.2.2 hitem hreach⟩)
    ⟨⟨Nat.zero_le _, rfl⟩, ready_start source, hstart⟩ h
  obtain ⟨-, hlabel, -⟩ := hready.finish hfinish
  have hkind : root.kind = .fragment := congrArg Label.kind hlabel
  have hroot : root.OpenExplicit source := by
    have hclosed := hexplicit.closeOmitted (r := c.pos)
    rw [Stack.finish_eq_ok.1 hfinish] at hclosed
    exact hclosed root List.mem_cons_self
  refine Node.allExplicit_iff.2 ⟨?_, hroot.parts⟩
  exact Node.explicit_of_kind (by rw [hkind]; rfl) (by rw [hkind]; rfl)

/-- An if block with blanks in its closer, which ends a list item as well. The item holds a
component that closes itself and one with a closing tag. -/
def Text.listItem : Text :=
  "\x7b#if a\x7d<li><A/><B>x</B >\x7b /if \x7d".toList

theorem parseTemplate_explicit_listItem : ∃ root,
    parseTemplate .permissive Text.listItem = .ok root ∧
      (root.walk.map fun n => (n.kind, n.start, n.stop)) =
        [(.fragment, 0, 31), (.guarded .ifBlock, 0, 31), (.element .element, 7, 24),
          (.element .component, 11, 15), (.element .component, 15, 24), (.text, 18, 19)] ∧
      ∀ n ∈ root.walk, n.Explicit Text.listItem := by
  have hwalk : ((parseTemplate .permissive Text.listItem).toOption.map fun root =>
      root.walk.map fun n => (n.kind, n.start, n.stop)) = some
        [(.fragment, 0, 31), (.guarded .ifBlock, 0, 31), (.element .element, 7, 24),
          (.element .component, 11, 15), (.element .component, 15, 24), (.text, 18, 19)] := by
    decide +kernel
  obtain ⟨root, hparse, hnodes⟩ := exists_ok_of_toOption_map hwalk
  exact ⟨root, hparse, hnodes, parseTemplate_explicit hparse⟩

end ComponentDivision
