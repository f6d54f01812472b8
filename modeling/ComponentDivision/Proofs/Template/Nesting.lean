/-
# How open nodes are nested

While a template is read, every open node begins where the node around it ends so
far, and the node around it has room for it: no child comes after a branch, and no
branch after a later one. Each item of a template keeps this, so the tree of a
template that is read to its end has every node in its place.

* `Node.Accepts` : an open node has room for a part;
* `Node.Open` : an open node is placed as far as it has been read;
* `Stack.Nested`, `Stack.Ready` : all open nodes, and the innermost one has room for
  a child;
* `ready_of_item` : each item keeps this;
* `sound_of_parseTemplate` : so every node of a parsed template is placed.
-/
import ComponentDivision.Proofs.Template.Placement
import ComponentDivision.Proofs.Template.Step

namespace ComponentDivision

/-! ## Room for a part -/

/-- A kind is that of a branch or it is not. -/
theorem Kind.branch_or (k : Kind) : (∃ b, k = .branch b) ∨ k.isBranch = false := by
  cases k with
  | branch b => exact Or.inl ⟨b, rfl⟩
  | _ => exact Or.inr rfl

/-- A branch with the branches that come after it in a text. -/
def BranchKind.onward : BranchKind → List BranchKind
  | .elseBlock => [.elseBlock, .pendingBlock, .thenBlock, .catchBlock]
  | .pendingBlock => [.pendingBlock, .thenBlock, .catchBlock]
  | .thenBlock => [.thenBlock, .catchBlock]
  | .catchBlock => [.catchBlock]

namespace Node

/-- The branch of a node, written or not. -/
def slot (n : Node) : BranchKind → Option Node
  | .elseBlock => n.elseBlock
  | .pendingBlock => n.pendingBlock
  | .thenBlock => n.thenBlock
  | .catchBlock => n.catchBlock

/-- The branch `b` and those after it are not written. -/
def FreeFrom (n : Node) (b : BranchKind) : Prop :=
  ∀ b' ∈ b.onward, ∀ m ∈ n.slot b', m.label.unwritten = true

/-- The node has room for a child that begins at `r`. -/
def Receptive (n : Node) (r : Int) : Prop :=
  n.FreeFrom .elseBlock ∧ ∃ lo, Tile lo r (n.children.map Node.span)

/-- The node has room for a part of this kind that begins at `r`. -/
def Accepts (n : Node) (r : Int) : Kind → Prop
  | .branch b => n.kind ≠ .fragment ∧ n.FreeFrom b
  | _ => n.Receptive r

/-- The node is placed as far as it has been read, up to `r`. -/
structure Open (source : Text) (n : Node) (r : Int) : Prop where
  placed : (n.endAt r).Placed source
  sound : ∀ p ∈ n.parts, p.Sound source

theorem Receptive.accepts {n : Node} {r : Int} {k : Kind} (h : n.Receptive r)
    (hk : k.isBranch = false) : n.Accepts r k := by
  cases k with
  | branch b => cases hk
  | _ => exact h

theorem Accepts.receptive {n : Node} {r : Int} {k : Kind} (h : n.Accepts r k)
    (hk : k.isBranch = false) : n.Receptive r := by
  cases k with
  | branch b => cases hk
  | _ => exact h

/-- Attaching does not change what a node says of itself. -/
@[simp] theorem label_attach (n m : Node) : (n.attach m).label = n.label := by
  unfold attach
  split <;> rfl

@[simp] theorem kind_attach (n m : Node) : (n.attach m).kind = n.kind :=
  congrArg Label.kind (label_attach n m)

@[simp] theorem start_attach (n m : Node) : (n.attach m).start = n.start :=
  congrArg Label.start (label_attach n m)

/-- A part that is not a branch becomes a child. -/
theorem attach_of_not_branch {n m : Node} (h : m.kind.isBranch = false) :
    n.attach m = { n with children := n.children ++ [m] } := by
  unfold attach
  split <;> simp_all [Kind.isBranch]

/-- A branch that is not written is not among the written ones. -/
theorem FreeFrom.filter_slot {n : Node} {b b' : BranchKind} (h : n.FreeFrom b)
    (hb : b' ∈ b.onward) : ((n.slot b').toList.filter fun m => !m.label.unwritten) = [] := by
  rw [List.filter_eq_nil_iff]
  intro m hm
  rw [h b' hb m (Option.mem_toList.1 hm)]
  decide

theorem FreeFrom.branches_eq_nil {n : Node} (h : n.FreeFrom .elseBlock) : n.branches = [] := by
  have hfilter (b : BranchKind) (hb : b ∈ BranchKind.elseBlock.onward) := h.filter_slot hb
  simp only [BranchKind.onward, List.forall_mem_cons, slot] at hfilter
  simp only [branches, List.filter_append, hfilter, List.append_nil]

/-- A branch that is attached comes after the branches there are. -/
theorem branches_attach {n m : Node} {b : BranchKind} (hk : m.kind = .branch b)
    (hfree : n.FreeFrom b) (hm : m.label.unwritten = false) :
    (n.attach m).branches = n.branches ++ [m] := by
  have hwritten : ([m].filter fun m => !m.label.unwritten) = [m] := by
    rw [List.filter_cons_of_pos (by rw [hm]; rfl), List.filter_nil]
  have hfilter (b' : BranchKind) (hb : b' ∈ b.onward) := hfree.filter_slot hb
  -- the slots before `b` stay as they are, the others were empty
  cases b <;> simp only [BranchKind.onward, List.forall_mem_cons, slot] at hfilter <;>
    simp only [attach, hk, branches, List.filter_append, Option.toList_some, hwritten, hfilter,
      List.nil_append, List.append_nil]

/-- A branch changes nothing but the branches. -/
theorem attach_of_branch {n m : Node} {b : BranchKind} (hb : m.kind = .branch b) :
    (n.attach m).attributes = n.attributes ∧ (n.attach m).value = n.value ∧
      (n.attach m).children = n.children := by
  unfold attach
  rw [hb]
  cases b <;> exact ⟨rfl, rfl, rfl⟩

/-- A node that has room for a part has it last among its parts. -/
theorem spans_attach {n m : Node} {r : Int} (hacc : n.Accepts r m.kind)
    (hm : m.label.unwritten = false) : (n.attach m).spans = n.spans ++ [m.span] := by
  have hembedded := congrArg Label.embedded (label_attach n m)
  unfold spans
  rcases m.kind.branch_or with ⟨b, hb⟩ | hk
  · obtain ⟨has, hvalue, hchildren⟩ := attach_of_branch (n := n) hb
    rw [hb] at hacc
    rw [hembedded, has, hvalue, hchildren, branches_attach hb hacc.2 hm]
    simp only [List.map_append, List.map_cons, List.map_nil, List.append_assoc]
  · have hnil := (hacc.receptive hk).1.branches_eq_nil
    have hattach := attach_of_not_branch (n := n) hk
    have hbranches : (n.attach m).branches = n.branches := by
      rw [hattach]
      rfl
    rw [hembedded, hbranches, hnil, hattach]
    simp only [List.map_append, List.map_cons, List.map_nil, List.append_nil, List.append_assoc]

/-- The parts of a node that got one more. -/
theorem mem_parts_attach {n m p : Node} (h : p ∈ (n.attach m).parts) : p = m ∨ p ∈ n.parts := by
  unfold attach at h
  split at h <;> simp only [parts, List.mem_append, Option.mem_toList, Option.some.injEq,
    List.mem_singleton] at h ⊢ <;> tauto

/-- The else branch of a node that got one more part. -/
theorem mem_else_attach {n m p : Node} (h : p ∈ (n.attach m).elseBlock) :
    p = m ∨ p ∈ n.elseBlock := by
  unfold attach at h
  split at h
  · exact Or.inl (Option.some.inj h).symm
  all_goals exact Or.inr h

/-- The children of a node that got one more part still follow one another. -/
theorem tile_attach {n m : Node} (hn : ∃ lo hi, Tile lo hi (n.children.map Node.span))
    (hacc : n.Accepts m.start m.kind) :
    ∃ lo hi, Tile lo hi ((n.attach m).children.map Node.span) := by
  rcases m.kind.branch_or with ⟨b, hb⟩ | hk
  · rw [(attach_of_branch hb).2.2]
    exact hn
  · obtain ⟨lo, hlo⟩ := (hacc.receptive hk).2
    rw [attach_of_not_branch hk, List.map_append]
    exact ⟨lo, m.stop, Tile.concat (s := m.span) hlo⟩

variable {source : Text}

/-- A finished node is sound. -/
theorem Open.endAt {n : Node} {r : Int} (h : n.Open source r) : (n.endAt r).Sound source :=
  h.placed.sound h.sound

/-- A node is still open a little later. -/
theorem Open.mono {n : Node} {r r' : Int} (h : n.Open source r) (hr : r ≤ r')
    (hlen : r' ≤ source.length) : n.Open source r' where
  placed :=
    { written := h.placed.written
      nonneg := h.placed.nonneg
      row := h.placed.row.mono (Int.le_refl _) hr
      stop_le := hlen
      tile := h.placed.tile
      exact := h.placed.exact
      else_written := h.placed.else_written }
  sound := h.sound

/-- A node that was read so far has its start before its end. -/
theorem Open.le {n : Node} {r : Int} (h : n.Open source r) : 0 ≤ n.start ∧ n.start ≤ r :=
  ⟨h.placed.nonneg, h.placed.row.le⟩

/-- What is attached to an open node that has room for it is placed. -/
theorem Open.attach {n m : Node} (hn : n.Open source m.start) (hacc : n.Accepts m.start m.kind)
    (hm : m.Sound source) : (n.attach m).Open source m.stop := by
  obtain ⟨hnonneg, hle⟩ := hn.le
  have hplaced := hm.placed (Int.le_trans hnonneg hle)
  have hspans := spans_attach hacc hplaced.written
  refine ⟨⟨?_, ?_, ?_, hplaced.stop_le, tile_attach hn.placed.tile hacc, ?_,
    fun b hb => ?_⟩, fun p hp => ?_⟩
  · show (n.attach m).label.unwritten = false
    rw [label_attach]
    exact hn.placed.written
  · show 0 ≤ (n.attach m).start
    rw [start_attach]
    exact hnonneg
  · show Row (n.attach m).start m.stop (n.attach m).spans
    rw [start_attach, hspans]
    exact hn.placed.row.concat hplaced.row.le (Int.le_refl _)
  · show ∀ e ∈ (n.attach m).label.embedded, e.Exact source
    rw [label_attach]
    exact hn.placed.exact
  · rcases mem_else_attach hb with rfl | hb
    · exact hplaced.written
    · exact hn.placed.else_written b hb
  · rcases mem_parts_attach hp with rfl | hp
    · exact hm
    · exact hn.sound p hp

/-- A child is followed by another one. -/
theorem Receptive.attach {n m : Node} (h : n.Receptive m.start) (hm : m.kind.isBranch = false) :
    (n.attach m).Receptive m.stop := by
  obtain ⟨hfree, lo, htile⟩ := h
  rw [attach_of_not_branch hm]
  refine ⟨hfree, lo, ?_⟩
  rw [List.map_append]
  exact Tile.concat (s := m.span) htile

/-- A branch is followed by a later one. -/
theorem FreeFrom.attach {n m : Node} {a b : BranchKind} (h : n.FreeFrom a)
    (hm : m.kind = .branch a) (hab : b.onward ⊆ a.onward) (hne : a ∉ b.onward) :
    (n.attach m).FreeFrom b := by
  intro b' hb' p hp
  have hslot : (n.attach m).slot b' = n.slot b' := by
    have hne' : b' ≠ a := fun heq => hne (heq ▸ hb')
    unfold Node.attach
    rw [hm]
    cases a <;> cases b' <;> first | rfl | exact absurd rfl hne'
  rw [hslot] at hp
  exact h b' (hab hb') p hp

end Node

/-! ## The open nodes -/

/-- The open nodes are placed up to `r`, each where the one around it ends so far,
which has room for it. -/
def Nested (source : Text) (root : Node) : List Node → Int → Prop
  | [], r => root.Open source r ∧ root.label = (Template.start source).root.label ∧
      root.FreeFrom .elseBlock ∧ Tile 0 r (root.children.map Node.span)
  | n :: ns, r => n.Open source r ∧ (ns.headD root).Accepts n.start n.kind ∧
      Nested source root ns n.start

namespace Stack

/-- The open nodes of the stack are nested up to `r`. -/
def Nested (source : Text) (st : Stack) (r : Int) : Prop :=
  ComponentDivision.Nested source st.root st.inner r

/-- The open nodes are nested, and the innermost one has room for a child. -/
structure Ready (source : Text) (st : Stack) (r : Int) : Prop where
  nested : st.Nested source r
  receptive : st.current.Receptive r

variable {source : Text} {st st' : Stack} {r r' : Int}

/-- The innermost open node has been read up to `r`. -/
theorem Nested.open_current (h : st.Nested source r) : st.current.Open source r := by
  obtain ⟨root, inner⟩ := st
  cases inner with
  | nil => exact h.1
  | cons n ns => exact h.1

/-- What the innermost open node has room for can be given to it. -/
theorem Nested.receive {m : Node} (h : st.Nested source m.start)
    (hacc : st.current.Accepts m.start m.kind) (hm : m.Sound source) :
    (st.receive m).Nested source m.stop := by
  have hopen := h.open_current.attach hacc hm
  obtain ⟨root, inner⟩ := st
  cases inner with
  | nil =>
    obtain ⟨-, hlabel, hfree, htile⟩ := h
    rcases m.kind.branch_or with ⟨b, hb⟩ | hk
    · rw [hb] at hacc
      exact absurd (congrArg Label.kind hlabel) hacc.1
    · refine ⟨hopen, (root.label_attach m).trans hlabel, ?_, ?_⟩
      · show (root.attach m).FreeFrom .elseBlock
        rw [Node.attach_of_not_branch hk]
        exact hfree
      · show Tile 0 m.stop ((root.attach m).children.map Node.span)
        rw [Node.attach_of_not_branch hk, List.map_append]
        exact Tile.concat (s := m.span) htile
  | cons n ns =>
    obtain ⟨-, hn, hrest⟩ := h
    refine ⟨hopen, ?_, ?_⟩
    · show (ns.headD root).Accepts (n.attach m).start (n.attach m).kind
      rw [Node.start_attach, Node.kind_attach]
      exact hn
    · show ComponentDivision.Nested source root ns (n.attach m).start
      rw [Node.start_attach]
      exact hrest

/-- The innermost open node after a change. -/
theorem current_modifyCurrent (st : Stack) (f : Node → Node) :
    (st.modifyCurrent f).current = f st.current := by
  obtain ⟨root, inner⟩ := st
  cases inner <;> rfl

theorem current_receive (st : Stack) (m : Node) :
    (st.receive m).current = st.current.attach m :=
  current_modifyCurrent st _

/-- A child leaves room for another one. -/
theorem Ready.receive {m : Node} (h : st.Ready source m.start) (hm : m.Sound source)
    (hk : m.kind.isBranch = false) : (st.receive m).Ready source m.stop := by
  refine ⟨h.nested.receive (h.receptive.accepts hk) hm, ?_⟩
  rw [current_receive]
  exact h.receptive.attach hk

/-- A node may be opened where there is room for it. -/
theorem Nested.push {n : Node} (h : st.Nested source n.start)
    (hacc : st.current.Accepts n.start n.kind) (hn : n.Open source r) :
    (st.push n).Nested source r :=
  ⟨hn, hacc, h⟩

theorem Ready.push {n : Node} (h : st.Ready source n.start) (hk : n.kind.isBranch = false)
    (hn : n.Open source r) (hrec : n.Receptive r) : (st.push n).Ready source r :=
  ⟨h.nested.push (h.receptive.accepts hk) hn, hrec⟩

/-- The open nodes around the innermost one are nested up to where it begins. -/
theorem Nested.tail {n : Node} {ns : List Node} (h : st.Nested source r)
    (hinner : st.inner = n :: ns) :
    n.Open source r ∧ (Stack.mk st.root ns).current.Accepts n.start n.kind ∧
      (Stack.mk st.root ns).Nested source n.start := by
  unfold Nested at h
  rw [hinner] at h
  exact h

/-- The innermost open node may end where it has been read to, or later. -/
theorem Nested.pop {n : Node} {ns : List Node} (h : st.Nested source r)
    (hinner : st.inner = n :: ns) (hr : r ≤ r') (hlen : r' ≤ source.length) :
    (st.pop r').Nested source r' := by
  obtain ⟨hopen, hacc, hrest⟩ := h.tail hinner
  rw [Stack.pop, hinner]
  exact Nested.receive (m := n.endAt r') hrest hacc (hopen.mono hr hlen).endAt

/-- Where a node that is not a branch ends there is room for another child. -/
theorem Nested.pop_ready {n : Node} {ns : List Node} (h : st.Nested source r)
    (hinner : st.inner = n :: ns) (hr : r ≤ r') (hlen : r' ≤ source.length)
    (hk : n.kind.isBranch = false) : (st.pop r').Ready source r' := by
  refine ⟨h.pop hinner hr hlen, ?_⟩
  obtain ⟨-, hacc, -⟩ := h.tail hinner
  rw [Stack.pop, hinner, current_receive]
  exact Node.Receptive.attach (m := n.endAt r') (hacc.receptive hk) hk

/-- The root is the only open node of its kind that can be innermost. -/
theorem Nested.exists_inner (h : st.Nested source r) (hk : st.current.kind ≠ .fragment) :
    ∃ n ns, st.inner = n :: ns ∧ st.current = n := by
  obtain ⟨root, inner⟩ := st
  cases inner with
  | nil =>
    obtain ⟨-, hlabel, -⟩ := h
    exact absurd (congrArg Label.kind hlabel) hk
  | cons n ns => exact ⟨n, ns, rfl, rfl⟩

/-- All that has been read is in the text. -/
theorem Nested.le_length (h : st.Nested source r) : r ≤ source.length :=
  h.open_current.placed.stop_le

/-! ## What ends open nodes -/

theorem Ready.closeOmitted (h : st.Ready source r) : (st.closeOmitted r).Ready source r := by
  fun_induction Stack.closeOmitted r st with
  | case1 => exact h
  | case2 st n ns hinner hn ih =>
    rw [Bool.and_eq_true, decide_eq_true_eq] at hn
    apply ih
    exact h.nested.pop_ready hinner (Int.le_refl r) h.nested.le_length (by rw [hn.1]; rfl)
  | case3 => exact h

theorem Ready.closeBefore (h : st.Ready source r) (name : Text) :
    (st.closeBefore name r).Ready source r := by
  unfold Stack.closeBefore
  split
  · rename_i hn
    rw [Bool.and_eq_true, decide_eq_true_eq] at hn
    obtain ⟨n, ns, hinner, hcurrent⟩ := h.nested.exists_inner (by rw [hn.1]; nofun)
    rw [hcurrent] at hn
    exact h.nested.pop_ready hinner (Int.le_refl r) h.nested.le_length (by rw [hn.1]; rfl)
  · exact h

theorem Ready.closeNamed {name : Text} {start stop : Nat} (h : st.Ready source start)
    (hle : start ≤ stop) (hlen : stop ≤ source.length)
    (hclose : st.closeNamed name start stop = .ok st') : st'.Ready source stop := by
  fun_induction Stack.closeNamed name start stop st with
  | case1 => cases hclose
  | case2 st n ns hinner hn =>
    cases hclose
    rw [Bool.and_eq_true] at hn
    have hk : n.kind.isBranch = false := by
      cases hkind : n.kind <;> simp_all [Kind.isElement, Kind.isBranch]
    exact h.nested.pop_ready hinner (by omega) (by omega) hk
  | case3 st n ns hinner _ hn ih =>
    refine ih ?_ hclose
    exact h.nested.pop_ready hinner (Int.le_refl _) h.nested.le_length (by rw [hn]; rfl)
  | case4 => cases hclose

theorem Nested.closeBranches (h : st.Nested source r) (kind : Kind) :
    (st.closeBranches kind r).Nested source r := by
  fun_induction Stack.closeBranches kind r st with
  | case1 => exact h
  | case2 st n ns hinner _ ih => exact ih (h.pop hinner (Int.le_refl r) h.le_length)
  | case3 => exact h

theorem Ready.closeBlock {kind : Kind} {keyword : Text} {start stop : Nat}
    (h : st.Ready source start) (hle : start ≤ stop) (hlen : stop ≤ source.length)
    (hkind : block? keyword = some kind)
    (hclose : st.closeBlock kind keyword start stop = .ok st') : st'.Ready source stop := by
  have hnested := h.closeOmitted.nested.closeBranches kind
  simp only [Stack.closeBlock] at hclose
  split at hclose
  · rename_i hcurrent
    cases hclose
    have hblock : kind ≠ .fragment ∧ kind.isBranch = false := by
      rcases block?_eq_some hkind with ⟨b, rfl⟩ | rfl
      · exact ⟨nofun, rfl⟩
      · exact ⟨nofun, rfl⟩
    obtain ⟨n, ns, hinner, hn⟩ := hnested.exists_inner (by rw [hcurrent]; exact hblock.1)
    rw [hn] at hcurrent
    exact hnested.pop_ready hinner (by omega) (by omega) (by rw [hcurrent]; exact hblock.2)
  · cases hclose

end Stack

/-! ## What opens nodes -/

section Opened

variable {grammar : Grammar} {source : Text} {c c₁ c₂ d m : Cursor}

/-- A node that has nothing but attributes has room for a child anywhere. -/
theorem receptive_opened (label : Label) (as : List Node) (r : Int) :
    Node.Receptive { label, attributes := as } r := by
  refine ⟨fun b _ p hp => ?_, r, rfl⟩
  cases b <;> cases hp

/-- A branch that begins at an offset. -/
theorem open_branch {start : Nat} {r : Int} (b : BranchKind) (hr : start ≤ r)
    (hlen : r ≤ source.length) :
    (Node.branch b start).Open source r ∧ (Node.branch b start).Receptive r := by
  refine ⟨⟨⟨rfl, Int.natCast_nonneg start, hr, hlen, ⟨0, 0, rfl⟩, nofun, nofun⟩, nofun⟩, ?_⟩
  exact receptive_opened _ [] r

/-- An element after its start tag. -/
theorem open_element {as : List Node} (name : Text) (kind : ElementKind) (hc : c.On source)
    (hc₁ : c.Reaches c₁)
    (has : attributes ⟨grammar, source.lineStarts⟩ [] c₁ = .ok (as, c₂)) (hd : c₂.Reaches d) :
    Node.Open source { label := { kind := .element kind, start := c.pos, name := some name }
                       attributes := as } d.pos := by
  have hlisted := listed_of_attributes (hc₁.on hc) has
  have hcd := hc₁.trans ((forward_attributes _ _ has).trans hd)
  have hlen := (hcd.on hc).pos_le
  refine ⟨⟨rfl, Int.natCast_nonneg _, ?_, by show (d.pos : Int) ≤ source.length; omega,
    ⟨0, 0, rfl⟩, nofun, nofun⟩, fun p hp => ?_⟩
  · show Row c.pos d.pos ((as ++ [] ++ [] ++ []).map Node.span)
    rw [List.append_nil, List.append_nil, List.append_nil]
    exact hlisted.row.mono (Int.ofNat_le.2 hc₁.pos_le) (Int.ofNat_le.2 hd.pos_le)
  · simp only [Node.parts, Option.getD_none, Option.toList_none, List.append_nil] at hp
    exact hlisted.sound p hp

/-- An element with raw text, up to its closing tag. -/
theorem sound_rawElement {as : List Node} {i n : Nat} {name : Text}
    (hopen : Node.Open source { label := { kind := .element .element, start := c.pos
                                           name := some name }
                                attributes := as } d.pos)
    (hd : d.On source) (hle : i + n ≤ d.rest.length) :
    Node.Sound source
      { label := { kind := .element .element, start := c.pos, stop := d.pos + i + n
                   name := some name }
        attributes := as
        children := [.ofText d.pos (d.rest.take i)] } := by
  have hi : i ≤ d.rest.length := by omega
  have hreach := Cursor.reaches_advance hi
  have hlength : (d.rest.take i).length = i := by rw [List.length_take, Nat.min_eq_left hi]
  have htext : (Node.ofText d.pos (d.rest.take i)).Sound source := by
    apply sound_ofText hreach (hreach.on hd)
    rw [hlength]
    rfl
  have hlen := ((Cursor.reaches_advance hle).on hd).pos_le
  have hlen : d.pos + (i + n) ≤ source.length := hlen
  have hattach := Node.Open.attach (m := .ofText d.pos (d.rest.take i)) hopen
    (receptive_opened _ as d.pos) htext
  have hstop : (d.pos : Int) + (d.rest.take i).length ≤ d.pos + i + n := by
    rw [hlength]
    omega
  exact (hattach.mono hstop (by omega)).endAt

/-- A block with a guard after its opener. -/
theorem open_guarded {label : Label} {e : Expression} (hstart : label.start = c.pos)
    (hwritten : label.unwritten = false) (hexpr : label.expression = some e)
    (he : Embedded ⟨grammar, source.lineStarts⟩ c m e) (hm : m.Reaches d) (hm' : m.On source)
    (hkey : ∀ k ∈ label.key, Embedded ⟨grammar, source.lineStarts⟩ m d k) :
    Node.Open source { label } d.pos := by
  have hd := hm.on hm'
  have hlen := hd.pos_le
  have he := he.between hm'
  have hkey (k : Expression) (hk : k ∈ label.key) := (hkey k hk).between hd
  have hembedded : label.embedded = e :: label.key.toList := by
    rw [Label.embedded, hexpr]
    rfl
  refine ⟨⟨hwritten, ?_, ?_, by show (d.pos : Int) ≤ source.length; omega, ⟨0, 0, rfl⟩, ?_, ?_⟩,
    fun p hp => ?_⟩
  · show 0 ≤ label.start
    omega
  · show Row label.start d.pos (label.embedded.map Expression.span ++ [])
    rw [List.append_nil, hembedded, hstart]
    refine ⟨he.le_start, Int.le_of_lt he.exact.start_lt_stop, ?_⟩
    exact (row_expression (Int.ofNat_le.2 hm.pos_le) hkey).mono he.stop_le (Int.le_refl _)
  · show ∀ k ∈ label.embedded, k.Exact source
    rw [hembedded]
    intro k hk
    rcases List.mem_cons.1 hk with rfl | hk
    · exact he.exact
    · exact (hkey k (Option.mem_toList.1 hk)).exact
  · intro b hb
    cases hb
  · cases hp

/-- An await block after its expression, with no branch written. -/
theorem open_await {label : Label} {e : Expression} (hstart : label.start = c.pos)
    (hwritten : label.unwritten = false) (hexpr : label.expression = some e)
    (hkey : label.key = none) (he : Embedded ⟨grammar, source.lineStarts⟩ c m e)
    (hm : m.On source) :
    Node.Open source { label
                       pendingBlock := some (.unwritten .pendingBlock)
                       thenBlock := some (.unwritten .thenBlock)
                       catchBlock := some (.unwritten .catchBlock) } m.pos := by
  have hguarded := open_guarded hstart hwritten hexpr he (.refl m) hm
    (fun k hk => by rw [hkey] at hk; cases hk)
  refine ⟨⟨hwritten, hguarded.placed.nonneg, hguarded.placed.row, hguarded.placed.stop_le,
    ⟨0, 0, rfl⟩, hguarded.placed.exact, hguarded.placed.else_written⟩, fun p hp => ?_⟩
  simp only [Node.parts, Option.getD_none, Option.toList_none, Option.toList_some,
    List.nil_append, List.cons_append, List.mem_cons, List.not_mem_nil, or_false] at hp
  rcases hp with rfl | rfl | rfl
  · exact sound_unwritten (by decide)
  · exact sound_unwritten (by decide)
  · exact sound_unwritten (by decide)

end Opened

/-! ## Items -/

namespace Stack

variable {grammar : Grammar} {source : Text} {st st' : Stack} {c d m : Cursor}

/-- A finished child that was read from one place to another. -/
theorem Ready.read {n : Node} (h : st.Ready source c.pos) (hn : n.Sound source)
    (hk : n.kind.isBranch = false) (hstart : n.start = c.pos) (hstop : n.stop = d.pos) :
    (st.receive n).Ready source d.pos := by
  rw [← hstart] at h
  rw [← hstop]
  exact h.receive hn hk

/-- The opener of an await block leaves its first branch open. -/
theorem Ready.openAwait {label : Label} {e : Expression} {b : BranchKind}
    (h : st.Ready source c.pos) (hkind : label.kind = .awaitBlock)
    (hstart : label.start = c.pos) (hwritten : label.unwritten = false)
    (hexpr : label.expression = some e) (hkey : label.key = none)
    (he : Embedded ⟨grammar, source.lineStarts⟩ c m e) (hm : m.On source) (hmd : m.Reaches d) :
    ((st.push
      { label
        pendingBlock := some (.unwritten .pendingBlock)
        thenBlock := some (.unwritten .thenBlock)
        catchBlock := some (.unwritten .catchBlock) }).push (.branch b m.pos)).Ready source
      d.pos := by
  have hopen := open_await hstart hwritten hexpr hkey he hm
  have hk : label.kind.isBranch = false := by
    rw [hkind]
    rfl
  rw [← hstart] at h
  have hnested := h.nested.push (h.receptive.accepts hk) hopen
  have hbranch := open_branch b (Int.ofNat_le.2 hmd.pos_le)
    (Int.ofNat_le.2 (hmd.on hm).pos_le)
  refine ⟨Nested.push (n := .branch b m.pos) hnested ⟨?_, ?_⟩ hbranch.1, hbranch.2⟩
  · show label.kind ≠ .fragment
    rw [hkind]
    nofun
  · intro b' _ p hp
    cases b' <;> cases hp <;> rfl

/-- An else branch may be opened in a block that has none. -/
theorem Ready.push_else {r : Int} (h : st.Ready source c.pos) (hk : st.current.kind ≠ .fragment)
    (hr : c.pos ≤ r) (hlen : r ≤ source.length) :
    (st.push (.branch .elseBlock c.pos)).Ready source r := by
  have hbranch := open_branch .elseBlock hr hlen
  exact ⟨Nested.push (n := .branch .elseBlock c.pos) h.nested ⟨hk, h.receptive.1⟩ hbranch.1,
    hbranch.2⟩

/-- The function changes nothing but the label of a node, and not its place. -/
def Relabels (f : Node → Node) : Prop :=
  ∀ n : Node, ∃ label : Label, f n = { n with label } ∧ label.kind = n.kind ∧
    label.start = n.start ∧ label.embedded = n.label.embedded ∧
      label.unwritten = n.label.unwritten

/-- The innermost open node may be given another label that says the same of its place. -/
theorem Nested.relabel {f : Node → Node} {r : Int} (h : st.Nested source r)
    (hk : st.current.kind ≠ .fragment) (hf : Relabels f) :
    (st.modifyCurrent f).Nested source r := by
  obtain ⟨n, ns, hinner, -⟩ := h.exists_inner hk
  obtain ⟨hopen, hacc, hrest⟩ := h.tail hinner
  obtain ⟨label, hfn, hkind, hstart, hembedded, hwritten⟩ := hf n
  have hn : (f n).Open source r := by
    rw [hfn]
    refine ⟨⟨hwritten.trans hopen.placed.written, ?_, ?_, hopen.placed.stop_le,
      hopen.placed.tile, ?_, hopen.placed.else_written⟩, hopen.sound⟩
    · show 0 ≤ label.start
      rw [hstart]
      exact hopen.placed.nonneg
    · show Row label.start r (label.embedded.map Expression.span ++ _)
      rw [hstart, hembedded]
      exact hopen.placed.row
    · show ∀ e ∈ label.embedded, e.Exact source
      rw [hembedded]
      exact hopen.placed.exact
  have haround : (Stack.mk st.root ns).Nested source (f n).start := by
    rw [hfn]
    show Nested source _ label.start
    rw [hstart]
    exact hrest
  have hroom : (Stack.mk st.root ns).current.Accepts (f n).start (f n).kind := by
    rw [hfn]
    show Node.Accepts _ label.start label.kind
    rw [hstart, hkind]
    exact hacc
  unfold modifyCurrent
  rw [hinner]
  exact haround.push hroom hn

/-- A later branch of an await block may be opened where an earlier one ends. -/
theorem Nested.awaitBranch {a b : BranchKind} {f : Node → Node} {r : Int}
    (h : st.Nested source c.pos) (hkind : st.current.kind = .branch a)
    (hab : b.onward ⊆ a.onward) (hne : a ∉ b.onward) (hf : Relabels f)
    (hr : c.pos ≤ r) (hlen : r ≤ source.length) :
    (((st.pop c.pos).modifyCurrent f).push (.branch b c.pos)).Ready source r := by
  obtain ⟨n, ns, hinner, hn⟩ := h.exists_inner (by rw [hkind]; nofun)
  rw [hn] at hkind
  obtain ⟨-, hacc, -⟩ := h.tail hinner
  rw [hkind] at hacc
  obtain ⟨hblock, hfree⟩ := hacc
  have hpop := h.pop hinner (Int.le_refl _) h.le_length
  have hcurrent : (st.pop c.pos).current
      = (Stack.mk st.root ns).current.attach (n.endAt c.pos) := by
    rw [Stack.pop, hinner, current_receive]
  have hk : (st.pop c.pos).current.kind ≠ .fragment := by
    rw [hcurrent, Node.kind_attach]
    exact hblock
  have hslots : (st.pop c.pos).current.FreeFrom b := by
    rw [hcurrent]
    exact hfree.attach hkind hab hne
  have hbranch := open_branch b hr hlen
  refine ⟨Nested.push (n := .branch b c.pos) (hpop.relabel hk hf) ⟨?_, ?_⟩ hbranch.1, hbranch.2⟩
  · rw [current_modifyCurrent]
    obtain ⟨label, hfn, hsame, -⟩ := hf (st.pop c.pos).current
    rw [hfn]
    show label.kind ≠ .fragment
    rw [hsame]
    exact hk
  · rw [current_modifyCurrent]
    obtain ⟨label, hfn, -⟩ := hf (st.pop c.pos).current
    rw [hfn]
    intro b' hb' p hp
    exact hslots b' hb' p (by cases b' <;> exact hp)

end Stack

/-- **Every item leaves the open nodes nested.** -/
theorem ready_of_item {grammar : Grammar} {source : Text} {st st' : Stack} {c d : Cursor}
    (hc : c.On source) (h : st.Ready source c.pos)
    (hitem : Item ⟨grammar, source.lineStarts⟩ st c st' d) (hcd : c.Reaches d) :
    st'.Ready source d.pos := by
  have hd := hcd.on hc
  have hle := hcd.pos_le
  have hlen := hd.pos_le
  cases hitem with
  | text first more =>
    refine h.read (sound_ofText hcd hd rfl) rfl rfl ?_
    show (c.pos : Int) + (first :: more).length = (c.pos + (more.length + 1) : Nat)
    rw [List.length_cons]
    omega
  | comment data => exact h.read (sound_read hcd hd rfl rfl rfl rfl nofun) rfl rfl rfl
  | braces kind expression d hkind hexpr =>
    refine h.read (sound_read hcd hd rfl rfl rfl rfl fun e he => ?_) ?_ rfl rfl
    · exact (hexpr e he).between hd
    · show kind.isBranch = false
      revert hkind kind
      decide
  | closedElement name kind as c₁ c₂ d hkind hc₁ has hc₂ =>
    exact (h.closeBefore name).read (open_element name kind hc hc₁ has hc₂).endAt rfl rfl rfl
  | rawElement name as c₁ c₂ c₃ i n hkind hraw hvoid hc₁ has hc₃ hclosing =>
    have hon := (hc₁.trans ((forward_attributes _ _ has).trans hc₃)).on hc
    refine (h.closeBefore name).read (sound_rawElement (open_element name _ hc hc₁ has hc₃) hon
      (findClosingTag?_le hclosing)) rfl rfl ?_
    show (c₃.pos : Int) + i + n = (c₃.pos + (i + n) : Nat)
    omega
  | openElement name kind as c₁ c₂ d hkind hvoid hc₁ has hc₂ hname =>
    exact Stack.Ready.push (h.closeBefore name) rfl (open_element name kind hc hc₁ has hc₂)
      (receptive_opened _ as d.pos)
  | closeElement name st' d hclose =>
    unfold Stack.closeElement at hclose
    split at hclose
    · cases hclose
    · exact h.closeNamed hle hlen hclose
  | openGuarded b label e m d hkind hstart hwritten helseif hexpr he hm hkey =>
    have hopen := open_guarded hstart hwritten hexpr he hm (he.reaches.on hc) hkey
    have hk : label.kind.isBranch = false := by
      rw [hkind]
      rfl
    rw [← hstart] at h
    exact h.push hk hopen (receptive_opened label [] d.pos)
  | openAwait b e thenPattern catchPattern m d hb hthen hcatch he hm =>
    exact h.openAwait rfl rfl rfl rfl rfl he (he.reaches.on hc) hm
  | elseIf e d hkind helse he =>
    have helse := h.closeOmitted.push_else (by rw [hkind]; nofun) (Int.le_refl _) (by omega)
    exact Stack.Ready.push helse rfl (open_guarded rfl rfl rfl he (.refl d) hd nofun)
      (receptive_opened _ [] d.pos)
  | elseBranch b d hb hkind helse =>
    exact h.closeOmitted.push_else (by rw [hkind]; nofun) (by omega) (by omega)
  | awaitBranch a b pattern d hab hkind =>
    have horder : b.onward ⊆ a.onward ∧ a ∉ b.onward := by
      simp only [List.mem_cons, List.not_mem_nil, or_false, Prod.mk.injEq] at hab
      rcases hab with ⟨rfl, rfl⟩ | ⟨rfl, rfl⟩ | ⟨rfl, rfl⟩ <;> decide
    refine h.closeOmitted.nested.awaitBranch hkind horder.1 horder.2 (fun n => ?_) (by omega)
      (by omega)
    by_cases hb : b = .thenBlock
    · exact ⟨{ n.label with thenPattern := pattern }, if_pos hb, rfl, rfl, rfl, rfl⟩
    · exact ⟨{ n.label with catchPattern := pattern }, if_neg hb, rfl, rfl, rfl, rfl⟩
  | closeBlock kind keyword st' d hkind hclose => exact h.closeBlock hle hlen hkind hclose

/-! ## Templates -/

/-- At the beginning the root is open and has nothing in it. -/
theorem ready_start (source : Text) : (Template.start source).Ready source 0 := by
  have hfree : (Template.start source).root.FreeFrom .elseBlock := by
    intro b _ m hm
    cases b <;> cases hm
  refine ⟨⟨⟨⟨rfl, Int.le_refl 0, Int.le_refl 0, Int.natCast_nonneg _, ⟨0, 0, rfl⟩, nofun, nofun⟩,
    nofun⟩, rfl, hfree, rfl⟩, hfree, 0, rfl⟩

/-- At the end the root is open up to there and has tiles in it. -/
theorem Stack.Ready.finish {source : Text} {st : Stack} {stop : Nat} {root : Node}
    (h : st.Ready source stop) (hfinish : st.finish stop = .ok root) :
    root.Open source stop ∧ root.label = (Template.start source).root.label ∧
      Tile 0 stop (root.children.map Node.span) := by
  have hnested := h.closeOmitted.nested
  rw [Stack.finish_eq_ok.1 hfinish] at hnested
  obtain ⟨hopen, hlabel, -, htile⟩ := hnested
  exact ⟨hopen, hlabel, htile⟩

theorem Node.endAt_stop (n : Node) : n.endAt n.stop = n := by
  cases n
  rfl

/-- **Every node of a parsed template is placed**, and the children of the root leave out
nothing of the text. -/
theorem sound_of_parseTemplate {grammar : Grammar} {source : Text} {root : Node}
    (h : parseTemplate grammar source = .ok root) :
    root.Sound source ∧ root.start = 0 ∧ Tile 0 source.length (root.children.map Node.span) := by
  obtain ⟨st, c, ⟨hc, hready⟩, hend, hfinish⟩ :=
    Template.run_invariant (I := fun st c => c.On source ∧ st.Ready source c.pos)
      (fun hinv hitem hreach => ⟨hreach.on hinv.1, ready_of_item hinv.1 hinv.2 hitem hreach⟩)
      ⟨⟨Nat.zero_le _, rfl⟩, ready_start source⟩ h
  have hpos : c.pos = source.length := by
    have hle := hc.pos_le
    have hdrop := hc.rest_eq
    rw [hend] at hdrop
    have := List.drop_eq_nil_iff.1 hdrop.symm
    omega
  obtain ⟨hopen, hlabel, htile⟩ := hready.finish hfinish
  rw [hpos] at hopen htile
  have hstop : root.stop = source.length := congrArg Label.stop hlabel
  refine ⟨?_, congrArg Label.start hlabel, htile⟩
  rw [← root.endAt_stop, hstop]
  exact hopen.endAt

end ComponentDivision
