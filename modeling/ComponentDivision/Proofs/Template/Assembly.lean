/-
# How trees are put together

The open nodes stand in one another: each of them will join the one around it as a
child, as an else branch or as a branch of an await block, and that node has room for
it. Between two items the innermost open node takes children; while the closer of a
block ends its branches it may be an await block or an if block with its else branch.

* `Node.StandsIn` : the ways in which an open node stands in those around it;
* `Linked` : all open nodes;
* `Stack.Assembled`, `Stack.Settled` : while nodes end, and between two items;
* `settled_of_item` : each item leaves the open nodes settled;
* `whole_of_parseTemplate` : so every node of a parsed template is shaped.
-/
import ComponentDivision.Proofs.Template.Form

namespace ComponentDivision

/-! ## Open nodes -/

/-- How an open node stands in the open nodes around it, innermost first. -/
inductive Node.StandsIn (n root : Node) : List Node → Prop
  /-- It will be a child of a node that takes children. -/
  | content {ns : List Node} (hkind : n.kind.isContent = true) (hchain : ¬ n.Continues)
      (haround : (ns.headD root).TakesContent) : n.StandsIn root ns
  /-- It continues a chain: it will be all of the else branch of an if block. -/
  | chain {m : Node} {ms : List Node} (hchain : n.Continues) (haround : m.Shaped none)
      (helse : m.kind = .branch .elseBlock) (hempty : m.children = [])
      (hif : (ms.headD root).kind = .guarded .ifBlock) : n.StandsIn root (m :: ms)
  /-- It will be the else branch of a block that has none. -/
  | elseBranch {ns : List Node} (hkind : n.kind = .branch .elseBlock)
      (haround : (ns.headD root).Shaped none)
      (hhas : (ns.headD root).kind.hasBranch .elseBlock = true)
      (hnone : (ns.headD root).elseBlock = none)
      (hchain : ∀ c ∈ n.children, c.Continues → (ns.headD root).kind = .guarded .ifBlock) :
      n.StandsIn root ns
  /-- It will be a branch of an await block. -/
  | awaitBranch {ns : List Node} (b : BranchKind)
      (hb : b ∈ [BranchKind.pendingBlock, .thenBlock, .catchBlock]) (hkind : n.kind = .branch b)
      (hwritten : n.label.unwritten = false) (hawait : (ns.headD root).kind = .awaitBlock)
      (haround : (ns.headD root).Shaped (some b)) : n.StandsIn root ns

/-- The open nodes stand in one another, and what has joined them is whole. -/
def Linked (root : Node) : List Node → Prop
  | [] => root.kind = .fragment ∧ ∀ p ∈ root.parts, p.Whole
  | n :: ns => n.StandsIn root ns ∧ (∀ p ∈ n.parts, p.Whole) ∧ Linked root ns

/-- A node stands where it did if no chain has joined it, or one may. -/
theorem Node.StandsIn.congr {root n n' : Node} {ns : List Node} (h : n.StandsIn root ns)
    (hlabel : n'.label = n.label)
    (hchildren : ∀ c ∈ n'.children, c.Continues →
      c ∈ n.children ∨ (ns.headD root).kind = .guarded .ifBlock) : n'.StandsIn root ns := by
  have hkind : n'.kind = n.kind := congrArg Label.kind hlabel
  have hcontinues : n'.Continues ↔ n.Continues := by
    unfold Continues
    rw [hkind, hlabel]
  cases h with
  | content hcontent hchain haround =>
    exact .content (hkind ▸ hcontent) (fun h => hchain (hcontinues.1 h)) haround
  | chain hchain haround helse hempty hif =>
    exact .chain (hcontinues.2 hchain) haround helse hempty hif
  | elseBranch hbranch haround hhas hnone hchain =>
    refine .elseBranch (hkind.trans hbranch) haround hhas hnone fun c hc hcont => ?_
    rcases hchildren c hc hcont with hmem | hif
    · exact hchain c hmem hcont
    · exact hif
  | awaitBranch b hb hbranch hwritten hawait haround =>
    exact .awaitBranch b hb (hkind.trans hbranch) (by rw [hlabel]; exact hwritten) hawait haround

/-- A child stands in a node that takes children. -/
theorem Node.StandsIn.takesContent {root n : Node} {ns : List Node} (h : n.StandsIn root ns)
    (hkind : n.kind.isContent = true) (hchain : ¬ n.Continues) :
    (ns.headD root).TakesContent := by
  cases h with
  | content _ _ haround => exact haround
  | chain hcont => exact absurd hcont hchain
  | elseBranch hbranch =>
    rw [hbranch] at hkind
    cases hkind
  | awaitBranch b _ hbranch =>
    rw [hbranch] at hkind
    cases hkind

/-- A branch that is no else branch stands in an await block. -/
theorem Node.StandsIn.await {root n : Node} {ns : List Node} {a : BranchKind}
    (h : n.StandsIn root ns) (hkind : n.kind = .branch a) (ha : a ≠ .elseBlock) :
    n.label.unwritten = false ∧ (ns.headD root).kind = .awaitBlock ∧
      (ns.headD root).Shaped (some a) := by
  cases h with
  | content hcontent =>
    rw [hkind] at hcontent
    cases hcontent
  | chain hcont => cases hkind.symm.trans hcont.1
  | elseBranch helse =>
    rw [hkind] at helse
    cases helse
    exact absurd rfl ha
  | awaitBranch a' _ hkind' hwritten hawait haround =>
    rw [hkind] at hkind'
    cases hkind'
    exact ⟨hwritten, hawait, haround⟩

namespace Stack

/-- The open nodes are linked, and the innermost one is shaped. -/
structure Assembled (st : Stack) : Prop where
  linked : Linked st.root st.inner
  shaped : st.current.Shaped none

/-- The open nodes are linked, and the innermost one takes children. -/
structure Settled (st : Stack) : Prop where
  linked : Linked st.root st.inner
  takes : st.current.TakesContent

variable {st st' : Stack} {n x : Node} {ns : List Node} {r : Int}

theorem Settled.assembled (h : st.Settled) : st.Assembled :=
  ⟨h.linked, h.takes.shaped⟩

/-- What joins the innermost open node leaves the open nodes linked, if it continues no chain,
or may. -/
theorem linked_receive (st : Stack) (h : Linked st.root st.inner) (hx : x.Whole)
    (hchildren : ∀ m ms, st.inner = m :: ms → ∀ c ∈ (m.attach x).children, c.Continues →
      c ∈ m.children ∨ (ms.headD st.root).kind = .guarded .ifBlock) :
    Linked (st.receive x).root (st.receive x).inner := by
  obtain ⟨root, inner⟩ := st
  have hparts {m : Node} (hm : ∀ p ∈ m.parts, p.Whole) : ∀ p ∈ (m.attach x).parts, p.Whole := by
    intro p hp
    rcases Node.mem_parts_attach hp with rfl | hp
    · exact hx
    · exact hm p hp
  cases inner with
  | nil => exact ⟨(root.kind_attach x).trans h.1, hparts h.2⟩
  | cons m ms =>
    obtain ⟨hstands, hwhole, hrest⟩ := h
    exact ⟨hstands.congr (m.label_attach x) (hchildren m ms rfl), hparts hwhole, hrest⟩

/-- A branch that joins a node changes no child. -/
theorem mem_children_attach_branch {m c : Node} {b : BranchKind} (hx : x.kind = .branch b)
    (hc : c ∈ (m.attach x).children) : c ∈ m.children := by
  rw [(Node.attach_of_branch hx).2.2] at hc
  exact hc

/-- The children of a node after another one has joined it. -/
theorem mem_children_attach_content {m c : Node} (hx : x.kind.isContent = true)
    (hc : c ∈ (m.attach x).children) : c ∈ m.children ∨ c = x := by
  rw [Node.attach_of_not_branch (Kind.isBranch_of_isContent hx)] at hc
  rcases List.mem_append.1 hc with hc | hc
  · exact Or.inl hc
  · exact Or.inr (List.mem_singleton.1 hc)

/-- A child joins the innermost open node. -/
theorem Settled.receive (h : st.Settled) (hx : x.Whole) (hkind : x.kind.isContent = true)
    (hchain : ¬ x.Continues) : (st.receive x).Settled := by
  refine ⟨linked_receive st h.linked hx fun m ms _ c hc hcont => ?_, ?_⟩
  · rcases mem_children_attach_content hkind hc with hc | rfl
    · exact Or.inl hc
    · exact absurd hcont hchain
  · rw [current_receive]
    exact h.takes.attach hkind hchain

/-- A node that takes children is opened inside the innermost open node. -/
theorem Settled.push (h : st.Settled) (hkind : n.kind.isContent = true) (hchain : ¬ n.Continues)
    (hparts : ∀ p ∈ n.parts, p.Whole) (hn : n.TakesContent) : (st.push n).Settled :=
  ⟨⟨.content hkind hchain h.takes, hparts, h.linked⟩, hn⟩

/-- The innermost open node and what is around it. -/
theorem Assembled.tail (h : st.Assembled) (hinner : st.inner = n :: ns) :
    n.StandsIn st.root ns ∧ (∀ r, (n.endAt r).Whole) ∧ Linked st.root ns := by
  obtain ⟨hlinked, hshaped⟩ := h
  rw [Stack.current, hinner] at hshaped
  rw [hinner] at hlinked
  obtain ⟨hstands, hparts, hrest⟩ := hlinked
  exact ⟨hstands, fun r => Node.whole_iff.2 ⟨hshaped.endAt r, hparts⟩, hrest⟩

/-- A child that ends joins the node around it, which takes another one. -/
theorem Assembled.pop_settled (h : st.Assembled) (hinner : st.inner = n :: ns)
    (hkind : n.kind.isContent = true) (hchain : ¬ n.Continues) : (st.pop r).Settled := by
  obtain ⟨hstands, hwhole, hrest⟩ := h.tail hinner
  rw [Stack.pop, hinner]
  have haround : (Stack.mk st.root ns).Settled := ⟨hrest, hstands.takesContent hkind hchain⟩
  exact haround.receive (hwhole r) hkind hchain

/-- The innermost open node ends. -/
theorem Assembled.pop (h : st.Assembled) (hinner : st.inner = n :: ns) : (st.pop r).Assembled := by
  obtain ⟨hstands, hwhole, hrest⟩ := h.tail hinner
  cases hstands with
  | content hkind hchain _ => exact (h.pop_settled hinner hkind hchain).assembled
  | @chain m ms hchain haround helse hempty hif =>
    rw [Stack.pop, hinner]
    refine ⟨linked_receive ⟨st.root, m :: ms⟩ hrest (hwhole r) ?_, ?_⟩
    · rintro _ _ ⟨⟩ c hc _
      exact Or.inr hif
    · exact (Node.Shaped.attach_chain (c := n.endAt r) haround helse hempty hchain).1
  | elseBranch hkind haround hhas hnone hchain =>
    rw [Stack.pop, hinner]
    refine ⟨linked_receive ⟨st.root, ns⟩ hrest (hwhole r) fun m ms _ c hc _ => ?_, ?_⟩
    · exact Or.inl (mem_children_attach_branch (x := n.endAt r) hkind hc)
    · rw [current_receive]
      exact haround.attach_else hhas hkind hchain
  | awaitBranch b hb hkind hwritten hawait haround =>
    rw [Stack.pop, hinner]
    refine ⟨linked_receive ⟨st.root, ns⟩ hrest (hwhole r) fun m ms _ c hc _ => ?_, ?_⟩
    · exact Or.inl (mem_children_attach_branch (x := n.endAt r) hkind hc)
    · rw [current_receive]
      exact haround.attach_await hawait hb hkind hwritten

/-- The root is the only open node of its kind. -/
theorem exists_inner_of_linked (st : Stack) (h : Linked st.root st.inner)
    (hk : st.current.kind ≠ .fragment) :
    ∃ n ns, st.inner = n :: ns ∧ st.current = n := by
  obtain ⟨root, inner⟩ := st
  cases inner with
  | nil => exact absurd h.1 hk
  | cons n ns => exact ⟨n, ns, rfl, rfl⟩

/-! ## What ends open nodes -/

/-- An element continues no chain. -/
theorem not_continues_of_isElement (h : n.kind.isElement = true) :
    n.kind.isContent = true ∧ ¬ n.Continues := by
  refine ⟨?_, fun hcont => ?_⟩
  · cases hk : n.kind <;> simp_all [Kind.isElement, Kind.isContent]
  · rw [hcont.1] at h
    cases h

theorem Settled.closeOmitted (h : st.Settled) : (st.closeOmitted r).Settled := by
  fun_induction Stack.closeOmitted r st with
  | case1 => exact h
  | case2 st n ns hinner hn ih =>
    rw [Bool.and_eq_true, decide_eq_true_eq] at hn
    obtain ⟨hkind, hchain⟩ := not_continues_of_isElement (n := n) (by rw [hn.1]; rfl)
    exact ih (h.assembled.pop_settled hinner hkind hchain)
  | case3 => exact h

theorem Settled.closeBefore (h : st.Settled) (name : Text) : (st.closeBefore name r).Settled := by
  unfold Stack.closeBefore
  split
  · rename_i hn
    rw [Bool.and_eq_true, decide_eq_true_eq] at hn
    obtain ⟨n, ns, hinner, hcurrent⟩ := exists_inner_of_linked st h.linked (by rw [hn.1]; nofun)
    rw [hcurrent] at hn
    obtain ⟨hkind, hchain⟩ := not_continues_of_isElement (n := n) (by rw [hn.1]; rfl)
    exact h.assembled.pop_settled hinner hkind hchain
  · exact h

theorem Settled.closeNamed {name : Text} {start stop : Nat} (h : st.Settled)
    (hclose : st.closeNamed name start stop = .ok st') : st'.Settled := by
  fun_induction Stack.closeNamed name start stop st with
  | case1 => cases hclose
  | case2 st n ns hinner hn =>
    cases hclose
    rw [Bool.and_eq_true] at hn
    obtain ⟨hkind, hchain⟩ := not_continues_of_isElement hn.1
    exact h.assembled.pop_settled hinner hkind hchain
  | case3 st n ns hinner _ hn ih =>
    obtain ⟨hkind, hchain⟩ := not_continues_of_isElement (n := n) (by rw [hn]; rfl)
    exact ih (h.assembled.pop_settled hinner hkind hchain) hclose
  | case4 => cases hclose

theorem Settled.closeElement {name : Text} {start stop : Nat} (h : st.Settled)
    (hclose : st.closeElement name start stop = .ok st') : st'.Settled := by
  unfold Stack.closeElement at hclose
  split at hclose
  · cases hclose
  · exact h.closeNamed hclose

theorem Assembled.closeBranches (h : st.Assembled) (kind : Kind) :
    (st.closeBranches kind r).Assembled := by
  fun_induction Stack.closeBranches kind r st with
  | case1 => exact h
  | case2 st n ns hinner _ ih => exact ih (h.pop hinner)
  | case3 => exact h

/-- Once its branches have ended, what is innermost is no branch, and no if block that continues
a chain when an if block is closed. -/
theorem not_continues_closeBranches {kind : Kind}
    (hinner : (st.closeBranches kind r).inner = n :: ns) :
    n.kind.isBranch = false ∧ (kind = .guarded .ifBlock → ¬ n.Continues) := by
  fun_induction Stack.closeBranches kind r st with
  | case1 st hnil =>
    rw [hnil] at hinner
    cases hinner
  | case2 st m ms _ _ ih => exact ih hinner
  | case3 st m ms hcons hstop =>
    rw [hcons] at hinner
    cases hinner
    simp only [Bool.or_eq_true, Bool.and_eq_true, decide_eq_true_eq, not_or,
      Bool.not_eq_true] at hstop
    exact ⟨hstop.1, fun hkind hcont => hstop.2 ⟨⟨hkind, hcont.1⟩, hcont.2⟩⟩

theorem Settled.closeBlock {kind : Kind} {keyword : Text} {start stop : Nat} (h : st.Settled)
    (hkind : block? keyword = some kind)
    (hclose : st.closeBlock kind keyword start stop = .ok st') : st'.Settled := by
  have hassembled := (h.closeOmitted (r := start)).assembled.closeBranches (r := start) kind
  simp only [Stack.closeBlock] at hclose
  split at hclose
  · rename_i hcurrent
    cases hclose
    have hblock : kind ≠ .fragment ∧ kind.isContent = true := by
      rcases block?_eq_some hkind with ⟨b, rfl⟩ | rfl
      · exact ⟨fun h => (by cases h), rfl⟩
      · exact ⟨fun h => (by cases h), rfl⟩
    obtain ⟨n, ns, hinner, hn⟩ := exists_inner_of_linked _ hassembled.linked
      (by rw [hcurrent]; exact hblock.1)
    rw [hn] at hcurrent
    refine hassembled.pop_settled hinner (by rw [hcurrent]; exact hblock.2) fun hcont => ?_
    -- an if block that continues a chain would have ended with the branches
    exact (not_continues_closeBranches hinner).2 (hcurrent.symm.trans hcont.1) hcont
  · cases hclose

end Stack

/-! ## Nodes that open -/

namespace Node

/-- A child joins a node that takes children. -/
theorem whole_attach {m c : Node} (hm : m.TakesContent) (hparts : ∀ p ∈ m.parts, p.Whole)
    (hc : c.Whole) (hkind : c.kind.isContent = true) (hchain : ¬ c.Continues) :
    (m.attach c).Whole := by
  refine whole_iff.2 ⟨(hm.attach hkind hchain).shaped, fun p hp => ?_⟩
  rcases mem_parts_attach hp with rfl | hp
  · exact hc
  · exact hparts p hp

/-- A node without children and branches is shaped. -/
theorem shaped_opened {label : Label} {as : List Node} (hholds : label.kind.holdsContent = true)
    (helement : label.kind.isElement = false → as = [])
    (has : ∀ a ∈ as, a.kind.isAttribute = true) (hnames : (as.filterMap plainName?).Nodup)
    (hguard : label.kind.isBlock = true → label.expression.isSome = true) :
    Shaped none { label, attributes := as } := by
  refine ⟨⟨helement, fun _ => rfl, fun _ => rfl, fun b _ => ?_, has, nofun, nofun,
    fun b m hm => ?_⟩, hguard, nofun, nofun, fun hawait => ?_, fun _ _ _ _ => rfl, hnames,
    fun hplain => ?_⟩
  · cases b <;> rfl
  · cases b <;> cases hm
  · have hawait : label.kind = .awaitBlock := hawait
    rw [hawait] at hholds
    cases hholds
  · have hplain : label.kind = .plainAttribute := hplain
    rw [hplain] at hholds
    cases hholds

/-- A node without attributes, children and branches takes children. -/
theorem takesContent_opened {label : Label} (hholds : label.kind.holdsContent = true)
    (helement : label.kind.isElement = false)
    (hguard : label.kind.isBlock = true → label.expression.isSome = true) :
    TakesContent { label } := by
  refine ⟨shaped_opened hholds (fun _ => rfl) nofun List.nodup_nil hguard, hholds, rfl, nofun,
    fun hkind => ?_⟩
  have hkind : label.kind = .element .element := hkind
  rw [hkind] at helement
  cases helement

/-- A node that has just been opened has no parts. -/
theorem whole_parts_opened (label : Label) : ∀ p ∈ parts { label }, p.Whole := by
  intro p hp
  cases hp

/-- A branch that has just been opened takes children. -/
theorem takesContent_branch (b : BranchKind) (start : Nat) : (branch b start).TakesContent :=
  takesContent_opened rfl rfl nofun

/-- What a node consists of right after its start tag. -/
theorem parts_opened (label : Label) (as : List Node) :
    parts { label, attributes := as } = as := by
  simp [parts]

/-- An element is shaped after its start tag. -/
theorem shaped_element {ctx : Context} {c d : Cursor} {label : Label} {kind : ElementKind}
    {as : List Node} (hkind : label.kind = .element kind)
    (has : ComponentDivision.attributes ctx [] c = .ok (as, d)) :
    Shaped none { label, attributes := as } ∧
      ∀ p ∈ parts { label, attributes := as }, p.Whole := by
  obtain ⟨hall, hnames, -⟩ := whole_of_attributes has
  rw [parts_opened]
  refine ⟨shaped_opened ?_ ?_ (fun a ha => (hall a ha).1) hnames ?_, fun a ha => (hall a ha).2⟩
  · rw [hkind]
    rfl
  · rw [hkind]
    exact nofun
  · rw [hkind]
    exact nofun

/-- An element that may have children takes them after its start tag. -/
theorem takesContent_element {ctx : Context} {c d : Cursor} {label : Label} {kind : ElementKind}
    {name : Text} {as : List Node} (hkind : label.kind = .element kind)
    (hname : label.name = some name) (hvoid : ¬ (kind = .element ∧ isVoid name))
    (has : ComponentDivision.attributes ctx [] c = .ok (as, d)) :
    TakesContent { label, attributes := as } := by
  refine ⟨(shaped_element hkind has).1, ?_, rfl, nofun, fun helement name' hname' => ?_⟩
  · show label.kind.holdsContent = true
    rw [hkind]
    rfl
  · have helement : label.kind = .element .element := helement
    have hname' : label.name = some name' := hname'
    rw [hname] at hname'
    rw [hkind] at helement
    cases hname'
    cases helement
    exact Bool.eq_false_iff.2 fun h => hvoid ⟨rfl, h⟩

/-- An await block whose first branch is open. -/
theorem shaped_await {label : Label} {b : BranchKind}
    (hb : b ∈ [BranchKind.pendingBlock, .thenBlock, .catchBlock])
    (hkind : label.kind = .awaitBlock) (hexpr : label.expression.isSome = true)
    (hpattern : ∀ b', (label.pattern b').isSome = true → b' = b) :
    Shaped (some b)
      { label
        pendingBlock := some (.unwritten .pendingBlock)
        thenBlock := some (.unwritten .thenBlock)
        catchBlock := some (.unwritten .catchBlock) } := by
  refine ⟨⟨fun _ => rfl, fun _ => rfl, fun _ => rfl, fun b' hb' => ?_, nofun, nofun, nofun,
    fun b' m hm => ?_⟩, fun _ => hexpr, nofun, nofun, fun _ => ⟨?_, ?_, ?_, nofun⟩,
    fun _ _ _ _ => rfl, List.nodup_nil, fun hplain => absurd (hkind.symm.trans hplain) nofun⟩
  · have hb' : label.kind.hasBranch b' = false := hb'
    rw [hkind] at hb'
    cases b' with
    | elseBlock => rfl
    | _ => cases hb'
  · cases b' <;> cases hm <;> rfl
  · intro b' hb'
    cases b' with
    | elseBlock => exact absurd hb' (by decide)
    | _ => exact Or.inl rfl
  · have honward : ∀ a ∈ [BranchKind.pendingBlock, .thenBlock, .catchBlock],
        BranchKind.elseBlock ∉ a.onward := by decide
    rintro _ ⟨⟩ b' hb'
    cases b' with
    | elseBlock => exact absurd hb' (honward b hb)
    | _ => rfl
  · intro b' hb'
    exact Or.inl (congrArg some (hpattern b' hb').symm)

end Node

namespace Stack

variable {st : Stack} {b : BranchKind} {pos : Nat}

/-- An await block is opened, with one of its branches. -/
theorem Settled.openAwait {label : Label} (h : st.Settled)
    (hb : b ∈ [BranchKind.pendingBlock, .thenBlock, .catchBlock])
    (hkind : label.kind = .awaitBlock) (hexpr : label.expression.isSome = true)
    (hpattern : ∀ b', (label.pattern b').isSome = true → b' = b) :
    ((st.push
      { label
        pendingBlock := some (.unwritten .pendingBlock)
        thenBlock := some (.unwritten .thenBlock)
        catchBlock := some (.unwritten .catchBlock) }).push (.branch b pos)).Settled := by
  have hawait := Node.shaped_await hb hkind hexpr hpattern
  refine ⟨⟨.awaitBranch b hb rfl rfl hkind hawait, Node.whole_parts_opened _,
    .content ?_ (fun hcont => ?_) h.takes, ?_, h.linked⟩,
    Node.takesContent_branch b pos⟩
  · show label.kind.isContent = true
    rw [hkind]
    rfl
  · cases hkind.symm.trans hcont.1
  · intro p hp
    simp only [Node.parts, Option.getD_none, Option.toList_none, Option.toList_some,
      List.append_nil, List.nil_append, List.cons_append, List.mem_cons, List.not_mem_nil,
      or_false] at hp
    rcases hp with rfl | rfl | rfl
    all_goals exact Node.whole_leaf rfl fun h => by cases h

/-- An else branch is opened. -/
theorem Settled.push_else {g : GuardedKind} (h : st.Settled) (hg : g = .ifBlock ∨ g = .eachBlock)
    (hkind : st.current.kind = .guarded g) (helse : st.current.elseBlock = none) :
    (st.push (.branch .elseBlock pos)).Settled := by
  have hhas : st.current.kind.hasBranch .elseBlock = true := by
    rw [hkind]
    rcases hg with rfl | rfl <;> rfl
  exact ⟨⟨.elseBranch rfl h.takes.shaped hhas helse nofun, Node.whole_parts_opened _, h.linked⟩,
    Node.takesContent_branch _ pos⟩

/-- An else branch is opened, with the if block that continues the chain in it. -/
theorem Settled.push_elseIf {label : Label} (h : st.Settled)
    (hkind : st.current.kind = .guarded .ifBlock) (helse : st.current.elseBlock = none)
    (hlabel : label.kind = .guarded .ifBlock) (helseif : label.elseif = true)
    (hexpr : label.expression.isSome = true) :
    ((st.push (.branch .elseBlock pos)).push { label }).Settled := by
  have hpushed : (st.push (.branch .elseBlock pos)).Settled :=
    h.push_else (Or.inl rfl) hkind helse
  obtain ⟨hlinked, htakes⟩ := hpushed
  refine ⟨⟨.chain ⟨hlabel, helseif⟩ htakes.shaped rfl rfl hkind, Node.whole_parts_opened _,
    hlinked⟩,
    Node.takesContent_opened ?_ ?_ fun _ => hexpr⟩
  · rw [hlabel]
    rfl
  · rw [hlabel]
    rfl

/-- A branch of an await block ends and a later one is opened. -/
theorem Settled.awaitBranch {a : BranchKind} {f : Node → Node} {r : Int} (h : st.Settled)
    (pattern : Option Text) (ha : a ∈ [BranchKind.pendingBlock, .thenBlock, .catchBlock])
    (hb : b ∈ [BranchKind.thenBlock, .catchBlock]) (hkind : st.current.kind = .branch a)
    (hab : b.onward ⊆ a.onward) (hne : a ∉ b.onward)
    (hf : ∀ n, f n = { n with label := n.label.setPattern b pattern }) :
    (((st.pop r).modifyCurrent f).push (.branch b pos)).Settled := by
  obtain ⟨n, ns, hinner, hn⟩ := exists_inner_of_linked st h.linked fun hroot => by
    cases hkind.symm.trans hroot
  rw [hn] at hkind
  obtain ⟨hstands, hwhole, hrest⟩ := h.assembled.tail hinner
  have hnot : a ≠ .elseBlock := by
    rintro rfl
    exact absurd ha (by decide)
  obtain ⟨hwritten, hawait, haround⟩ := hstands.await hkind hnot
  obtain ⟨m, ms, hns, hm⟩ := exists_inner_of_linked ⟨st.root, ns⟩ hrest fun hroot => by
    cases hawait.symm.trans hroot
  have hns : ns = m :: ms := hns
  subst hns
  obtain ⟨hstands, hparts, hrest⟩ := hrest
  rw [Stack.pop, hinner]
  show Settled ⟨st.root, .branch b pos :: f (m.attach (n.endAt r)) :: ms⟩
  rw [hf]
  have hawait : m.kind = .awaitBlock := hawait
  obtain ⟨hsame, hname, hexpr⟩ := Label.setPattern_eq (m.attach (n.endAt r)).label b pattern
  have hsame' := hsame.trans ((m.kind_attach _).trans hawait)
  have hjoined := Node.Shaped.attach_await (c := n.endAt r) haround hawait ha hkind hwritten
  have hnext := Node.Awaits.next (c := n.endAt r) (haround.awaits hawait) ha hkind hwritten hab
    hne fun b' hb' => (Label.pattern_setPattern _ pattern hb hb').trans
      (congrArg (·.pattern b') (m.label_attach (n.endAt r)))
  refine ⟨⟨.awaitBranch b (List.mem_cons_of_mem _ hb) rfl rfl hsame'
    (hjoined.relabel hsame hname hexpr fun _ => hnext), Node.whole_parts_opened _,
    .content ?_ (fun hcont => ?_) ?_, ?_, hrest⟩,
    Node.takesContent_branch b pos⟩
  · exact (congrArg Kind.isContent hsame').trans rfl
  · cases hsame'.symm.trans hcont.1
  · refine hstands.takesContent (by rw [hawait]; rfl) fun hcont => ?_
    cases hawait.symm.trans hcont.1
  · intro p hp
    rcases Node.mem_parts_attach (n := m) (m := n.endAt r) hp with rfl | hp
    · exact hwhole r
    · exact hparts p hp

end Stack

/-- **Every item leaves the open nodes settled.** -/
theorem settled_of_item {ctx : Context} {st st' : Stack} {c d : Cursor} (h : st.Settled)
    (hitem : Item ctx st c st' d) : st'.Settled := by
  cases hitem with
  | text first more => exact h.receive (Node.whole_leaf rfl nofun) rfl nofun
  | comment data => exact h.receive (Node.whole_leaf rfl nofun) rfl nofun
  | braces kind expression d hkind hexpr =>
    have hform : ∀ k ∈ [Kind.mustache, .rawMustache, .debugTag, .constTag],
        k.isBlock = false ∧ k ≠ .plainAttribute ∧ k.isContent = true ∧
          k ≠ .guarded .ifBlock := by decide
    obtain ⟨hblock, hplain, hcontent, hif⟩ := hform kind hkind
    exact h.receive (Node.whole_leaf hblock fun h => absurd h hplain) hcontent
      fun hcont => hif hcont.1
  | closedElement name kind as c₁ c₂ d hkind hc₁ has hc₂ =>
    exact (h.closeBefore name).receive (Node.whole_iff.2 (Node.shaped_element rfl has)) rfl nofun
  | rawElement name as c₁ c₂ c₃ i n hkind hraw hvoid hc₁ has hc₃ hclosing =>
    have hopened : Node.TakesContent
        { label := { kind := .element .element, start := c.pos, stop := c₃.pos + i + n
                     name := some name }
          attributes := as } :=
      Node.takesContent_element rfl rfl (fun h => hvoid h.2) has
    have hwhole := Node.whole_attach (c := .ofText c₃.pos (c₃.rest.take i)) hopened
      (Node.shaped_element rfl has).2 (Node.whole_leaf rfl nofun) rfl nofun
    exact (h.closeBefore name).receive hwhole rfl nofun
  | openElement name kind as c₁ c₂ d hkind hvoid hc₁ has hc₂ hname =>
    exact (h.closeBefore name).push rfl nofun (Node.shaped_element rfl has).2
      (Node.takesContent_element rfl rfl hvoid has)
  | closeElement name st' d hclose => exact h.closeElement hclose
  | openGuarded b label e m d hkind hstart hwritten helseif hexpr he hm hkey =>
    have hlabel : label.kind.isContent = true ∧ label.kind.holdsContent = true ∧
        label.kind.isElement = false := by
      rw [hkind]
      exact ⟨rfl, rfl, rfl⟩
    refine h.push hlabel.1 ?_ (Node.whole_parts_opened label)
      (Node.takesContent_opened hlabel.2.1 hlabel.2.2 fun _ => ?_)
    · exact fun hcont => absurd (helseif.symm.trans hcont.2) nofun
    · rw [hexpr]
      rfl
  | openAwait b e thenPattern catchPattern m d hb hthen hcatch he hm =>
    refine h.openAwait hb rfl rfl fun b' hb' => ?_
    cases b' with
    | thenBlock => exact (hthen hb').symm
    | catchBlock => exact (hcatch hb').symm
    | _ => cases hb'
  | elseIf e d hkind helse he => exact h.closeOmitted.push_elseIf hkind helse rfl rfl rfl
  | elseBranch b d hb hkind helse => exact h.closeOmitted.push_else hb hkind helse
  | awaitBranch a b pattern d hab hkind =>
    have horder : a ∈ [BranchKind.pendingBlock, .thenBlock, .catchBlock] ∧
        b ∈ [BranchKind.thenBlock, .catchBlock] ∧ b.onward ⊆ a.onward ∧ a ∉ b.onward := by
      simp only [List.mem_cons, List.not_mem_nil, or_false, Prod.mk.injEq] at hab
      rcases hab with ⟨rfl, rfl⟩ | ⟨rfl, rfl⟩ | ⟨rfl, rfl⟩ <;> decide
    obtain ⟨ha, hb, hab, hne⟩ := horder
    refine h.closeOmitted.awaitBranch pattern ha hb hkind hab hne fun n => ?_
    unfold Label.setPattern
    split <;> rfl
  | closeBlock kind keyword st' d hkind hclose => exact h.closeBlock hkind hclose

/-! ## Templates -/

/-- At the beginning the root is open and has nothing in it. -/
theorem settled_start (source : Text) : (Template.start source).Settled :=
  ⟨⟨rfl, nofun⟩, Node.takesContent_opened rfl rfl nofun⟩

/-- **Every node of a parsed template is shaped**, and the root holds what is not in a node of
its own. -/
theorem whole_of_parseTemplate {grammar : Grammar} {source : Text} {root : Node}
    (h : parseTemplate grammar source = .ok root) : root.kind = .fragment ∧ root.Whole := by
  obtain ⟨st, c, hsettled, -, hfinish⟩ := Template.run_invariant (I := fun st _ => st.Settled)
    (fun hinv hitem _ => settled_of_item hinv hitem) (settled_start source) h
  obtain ⟨hlinked, htakes⟩ := hsettled.closeOmitted (r := c.pos)
  rw [Stack.finish_eq_ok.1 hfinish] at hlinked htakes
  exact ⟨hlinked.1, Node.whole_iff.2 ⟨htakes.shaped, hlinked.2⟩⟩

end ComponentDivision
