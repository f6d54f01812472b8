/-
# What a grammar approves of

A grammar approves of a tree if it accepts every expression and every pattern that the
tree records. Nothing that has been recorded is lost while a tree is put together: a
branch that joins a block takes a place that was empty, and so does the pattern of an
await block. Whether the open nodes are approved therefore does not depend on which of
them have ended.

* `Node.Approved`, `Stack.Approved` : a tree and the open nodes;
* `approved_attach` : a part that joins a node;
* `Stack.Assembled.approved_pop` : the end of an open node;
* `Stack.Settled.approved_awaitBranch` : a later branch of an await block, whose pattern
  is new.
-/
import ComponentDivision.Proofs.Template.Assembly

namespace ComponentDivision

/-! ## Trees -/

/-- The grammar accepts the text of the expression. -/
def Grammar.Accepts (grammar : Grammar) (source : Text) (e : Expression) : Prop :=
  grammar.expression (source.slice e.start e.stop) = .accepted

/-- The grammar accepts what a node records itself. -/
def Label.Approved (grammar : Grammar) (source : Text) (l : Label) : Prop :=
  (∀ e ∈ l.embedded, grammar.Accepts source e) ∧
    ∀ p ∈ l.patterns, grammar.pattern p = .accepted

/-- The grammar accepts all that the tree records. -/
def Node.Approved (grammar : Grammar) (source : Text) (n : Node) : Prop :=
  ∀ m ∈ n.walk, m.label.Approved grammar source

section

variable {grammar : Grammar} {source : Text}

/-- What a node records itself, by where it is kept. -/
theorem Label.approved_iff {l : Label} : l.Approved grammar source ↔
    (∀ e ∈ l.expression, grammar.Accepts source e) ∧ (∀ e ∈ l.key, grammar.Accepts source e) ∧
      (∀ p ∈ l.context, grammar.pattern p = .accepted) ∧
      (∀ p ∈ l.index, grammar.pattern p = .accepted) ∧
      (∀ p ∈ l.thenPattern, grammar.pattern p = .accepted) ∧
      ∀ p ∈ l.catchPattern, grammar.pattern p = .accepted := by
  simp only [Approved, embedded, patterns, List.mem_append, Option.mem_toList, Option.mem_def,
    or_imp, forall_and, and_assoc]

/-- A node that records nothing itself. -/
theorem Label.approved_of_nil {l : Label} (hembedded : l.embedded = [])
    (hpatterns : l.patterns = []) : l.Approved grammar source := by
  unfold Approved
  rw [hembedded, hpatterns]
  exact ⟨fun _ h => absurd h List.not_mem_nil, fun _ h => absurd h List.not_mem_nil⟩

namespace Node

variable {n m c : Node}

/-- A tree is approved if its root and the trees right below it are. -/
theorem approved_iff : n.Approved grammar source ↔
    n.label.Approved grammar source ∧ ∀ p ∈ n.parts, p.Approved grammar source :=
  forall_mem_walk

/-- A tree of one node is approved if the node is. -/
theorem approved_leaf {label : Label} :
    (leaf label).Approved grammar source ↔ label.Approved grammar source := by
  rw [approved_iff]
  exact ⟨And.left, fun h => ⟨h, nofun⟩⟩

/-- A tree of one node that records nothing is approved. -/
theorem approved_bare {label : Label} (hembedded : label.embedded = [])
    (hpatterns : label.patterns = []) : (leaf label).Approved grammar source :=
  approved_leaf.2 (Label.approved_of_nil hembedded hpatterns)

/-- A node with nothing but attributes is approved with them. -/
theorem approved_opened {label : Label} {as : List Node} :
    Node.Approved grammar source { label, attributes := as } ↔
      label.Approved grammar source ∧ ∀ a ∈ as, a.Approved grammar source := by
  rw [approved_iff, parts_opened]

/-- A node with nothing but a value is approved with its chunks. -/
theorem approved_valued {label : Label} {value : Option (List Node)} :
    Node.Approved grammar source { label, value } ↔
      label.Approved grammar source ∧ ∀ p ∈ value.getD [], p.Approved grammar source := by
  have hparts : parts { label, value } = value.getD [] := by
    simp [parts]
  rw [approved_iff, hparts]

/-- Of a chunk the expression counts. -/
theorem IsChunk.approved_iff (h : n.IsChunk) :
    n.Approved grammar source ↔ ∀ e ∈ n.label.expression, grammar.Accepts source e := by
  obtain ⟨hkind, hwhole, hkey, hpatterns⟩ := h
  have hlabel : n.label.Approved grammar source ↔
      ∀ e ∈ n.label.expression, grammar.Accepts source e := by
    unfold Label.Approved Label.embedded
    rw [hkey, hpatterns]
    simp
  rw [Node.approved_iff, hlabel, (whole_iff.1 hwhole).1.toFitted.parts_chunk hkind]
  exact ⟨And.left, fun h => ⟨h, nofun⟩⟩

/-- The end of a node is nothing that a grammar sees. -/
theorem approved_endAt (r : Int) :
    (n.endAt r).Approved grammar source ↔ n.Approved grammar source := by
  rw [approved_iff, approved_iff]
  rfl

/-- What joins a node is a part of it. -/
theorem mem_parts_attach_self : c ∈ (m.attach c).parts := by
  rw [mem_parts_iff]
  rcases Kind.branch_or c.kind with ⟨b, hb⟩ | hb
  · refine Or.inr (Or.inr (Or.inr ⟨b, ?_⟩))
    rw [slot_attach hb, if_pos rfl]
    rfl
  · rw [attach_of_not_branch hb]
    exact Or.inr (Or.inr (Or.inl (List.mem_append_right _ (List.mem_singleton_self c))))

/-- Of the parts of a node, a branch that joins it replaces the one it had. -/
theorem mem_parts_attach_of_mem {p : Node} (hp : p ∈ m.parts) :
    p ∈ (m.attach c).parts ∨ ∃ b, c.kind = .branch b ∧ p ∈ m.slot b := by
  rw [mem_parts_iff] at hp ⊢
  rcases Kind.branch_or c.kind with ⟨b, hb⟩ | hb
  · obtain ⟨has, hvalue, hchildren⟩ := attach_of_branch (n := m) hb
    rw [has, hvalue, hchildren]
    rcases hp with hp | hp | hp | ⟨b', hp⟩
    · exact Or.inl (Or.inl hp)
    · exact Or.inl (Or.inr (Or.inl hp))
    · exact Or.inl (Or.inr (Or.inr (Or.inl hp)))
    · by_cases heq : b' = b
      · rw [heq] at hp
        exact Or.inr ⟨b, hb, hp⟩
      · refine Or.inl (Or.inr (Or.inr (Or.inr ⟨b', ?_⟩)))
        rw [slot_attach hb, if_neg heq]
        exact hp
  · rw [attach_of_not_branch hb]
    left
    rcases hp with hp | hp | hp | ⟨b', hp⟩
    · exact Or.inl hp
    · exact Or.inr (Or.inl hp)
    · exact Or.inr (Or.inr (Or.inl (List.mem_append_left _ hp)))
    · exact Or.inr (Or.inr (Or.inr ⟨b', by cases b' <;> exact hp⟩))

/-- **A part that joins a node is approved with it**, if what it replaces is approved. -/
theorem approved_attach
    (hroom : ∀ b, c.kind = .branch b → ∀ p ∈ m.slot b, p.Approved grammar source) :
    (m.attach c).Approved grammar source ↔
      m.Approved grammar source ∧ c.Approved grammar source := by
  rw [approved_iff, label_attach, approved_iff]
  constructor
  · rintro ⟨hlabel, hparts⟩
    refine ⟨⟨hlabel, fun p hp => ?_⟩, hparts c mem_parts_attach_self⟩
    rcases mem_parts_attach_of_mem (c := c) hp with hp | ⟨b, hb, hp⟩
    · exact hparts p hp
    · exact hroom b hb p hp
  · rintro ⟨⟨hlabel, hparts⟩, hc⟩
    refine ⟨hlabel, fun p hp => ?_⟩
    rcases mem_parts_attach hp with rfl | hp
    · exact hc
    · exact hparts p hp

end Node

/-- A branch that is not written records nothing. -/
theorem approved_unwritten (b : BranchKind) : (Node.unwritten b).Approved grammar source :=
  Node.approved_bare rfl rfl

/-- Of the branch that an open node will be, the node around it has at most one that is not
written. -/
theorem Node.StandsIn.room {root n p : Node} {ns : List Node} {b : BranchKind}
    (h : n.StandsIn root ns) (hkind : n.kind = .branch b) (hp : p ∈ (ns.headD root).slot b) :
    p.Approved grammar source := by
  cases h with
  | content hcontent =>
    rw [hkind] at hcontent
    cases hcontent
  | chain hcont => exact absurd (hkind.symm.trans hcont.1) nofun
  | elseBranch helse _ _ hnone =>
    rw [hkind] at helse
    cases helse
    have hp : p ∈ (ns.headD root).elseBlock := hp
    rw [hnone] at hp
    cases hp
  | awaitBranch b' _ hkind' _ hawait haround =>
    rw [hkind] at hkind'
    cases hkind'
    have hself : b ∈ b.onward := by cases b <;> decide
    rw [(haround.awaits hawait).later b rfl b hself] at hp
    cases hp
    exact approved_unwritten b

/-! ## Patterns of await blocks -/

/-- A pattern that is set where none was is what is new. -/
theorem Label.approved_setPattern {l : Label} {b : BranchKind} {pattern : Option Text}
    (hb : b ∈ [BranchKind.thenBlock, .catchBlock]) (hnone : l.pattern b = none) :
    (l.setPattern b pattern).Approved grammar source ↔
      l.Approved grammar source ∧ ∀ p ∈ pattern, grammar.pattern p = .accepted := by
  have hembedded : (l.setPattern b pattern).embedded = l.embedded := by
    unfold setPattern
    split <;> rfl
  have hpatterns : ∀ p, p ∈ (l.setPattern b pattern).patterns ↔ p ∈ l.patterns ∨ p ∈ pattern := by
    intro p
    simp only [List.mem_cons, List.not_mem_nil, or_false] at hb
    rcases hb with rfl | rfl
    · have hnone : l.thenPattern = none := hnone
      simp only [patterns, setPattern, if_true, hnone, List.mem_append, Option.mem_toList,
        Option.mem_def, reduceCtorEq, or_false]
      rw [or_right_comm]
    · have hnone : l.catchPattern = none := hnone
      simp only [patterns, setPattern, reduceCtorEq, if_false, hnone, List.mem_append,
        Option.mem_toList, Option.mem_def, or_false]
  unfold Approved
  rw [hembedded]
  simp only [hpatterns, or_imp, forall_and, and_assoc]

/-! ## Open nodes -/

namespace Stack

/-- The grammar accepts all that the open nodes record so far. -/
def Approved (grammar : Grammar) (source : Text) (st : Stack) : Prop :=
  st.root.Approved grammar source ∧ ∀ n ∈ st.inner, n.Approved grammar source

variable {st st' : Stack} {n x : Node} {r : Int}

/-- A change of the innermost open node counts for all of them. -/
theorem approved_modifyCurrent {f : Node → Node} {P : Prop}
    (h : (f st.current).Approved grammar source ↔ st.current.Approved grammar source ∧ P) :
    (st.modifyCurrent f).Approved grammar source ↔ st.Approved grammar source ∧ P := by
  obtain ⟨root, inner⟩ := st
  unfold Approved
  cases inner with
  | nil =>
    have h : (f root).Approved grammar source ↔ root.Approved grammar source ∧ P := h
    show (f root).Approved grammar source ∧ _ ↔ _
    rw [h, and_right_comm]
    rfl
  | cons n ns =>
    have h : (f n).Approved grammar source ↔ n.Approved grammar source ∧ P := h
    show root.Approved grammar source ∧ (∀ m ∈ f n :: ns, m.Approved grammar source) ↔ _
    rw [List.forall_mem_cons, List.forall_mem_cons, h]
    tauto

/-- What joins the innermost open node is approved with the open nodes. -/
theorem approved_receive
    (hroom : ∀ b, x.kind = .branch b → ∀ p ∈ st.current.slot b, p.Approved grammar source) :
    (st.receive x).Approved grammar source ↔
      st.Approved grammar source ∧ x.Approved grammar source :=
  approved_modifyCurrent (Node.approved_attach hroom)

/-- A child is approved with the open nodes. -/
theorem approved_receive_child (hx : x.kind.isBranch = false) :
    (st.receive x).Approved grammar source ↔
      st.Approved grammar source ∧ x.Approved grammar source := by
  refine approved_receive fun b hb => ?_
  rw [hb] at hx
  cases hx

theorem approved_push : (st.push n).Approved grammar source ↔
    st.Approved grammar source ∧ n.Approved grammar source := by
  show _ ∧ (∀ m ∈ n :: st.inner, m.Approved grammar source) ↔ _
  rw [List.forall_mem_cons, and_comm (a := n.Approved grammar source), ← and_assoc]
  rfl

/-- **The end of an open node loses nothing.** -/
theorem Assembled.approved_pop (h : st.Assembled) :
    (st.pop r).Approved grammar source ↔ st.Approved grammar source := by
  unfold Stack.pop
  split
  · rfl
  · rename_i n ns hinner
    obtain ⟨hstands, -, -⟩ := h.tail hinner
    have haround : st.Approved grammar source ↔
        (Stack.mk st.root ns).Approved grammar source ∧ n.Approved grammar source := by
      rw [← approved_push]
      unfold Stack.push Approved
      rw [hinner]
    rw [haround, ← Node.approved_endAt r]
    exact approved_receive fun b hb p hp => hstands.room hb hp

/-! ## What ends open nodes -/

theorem Settled.approved_closeOmitted (h : st.Settled) :
    (st.closeOmitted r).Approved grammar source ↔ st.Approved grammar source := by
  fun_induction Stack.closeOmitted r st with
  | case1 => rfl
  | case2 st n ns hinner hn ih =>
    rw [Bool.and_eq_true, decide_eq_true_eq] at hn
    obtain ⟨hkind, hchain⟩ := not_continues_of_isElement (n := n) (by rw [hn.1]; rfl)
    rw [ih (h.assembled.pop_settled hinner hkind hchain)]
    exact h.assembled.approved_pop
  | case3 => rfl

theorem Settled.approved_closeBefore (h : st.Settled) (name : Text) :
    (st.closeBefore name r).Approved grammar source ↔ st.Approved grammar source := by
  unfold Stack.closeBefore
  split
  · exact h.assembled.approved_pop
  · rfl

theorem Settled.approved_closeNamed {name : Text} {start stop : Nat} (h : st.Settled)
    (hclose : st.closeNamed name start stop = .ok st') :
    st'.Approved grammar source ↔ st.Approved grammar source := by
  fun_induction Stack.closeNamed name start stop st with
  | case1 => cases hclose
  | case2 st n ns hinner hn =>
    cases hclose
    exact h.assembled.approved_pop
  | case3 st n ns hinner _ hn ih =>
    obtain ⟨hkind, hchain⟩ := not_continues_of_isElement (n := n) (by rw [hn]; rfl)
    rw [ih (h.assembled.pop_settled hinner hkind hchain) hclose]
    exact h.assembled.approved_pop
  | case4 => cases hclose

theorem Settled.approved_closeElement {name : Text} {start stop : Nat} (h : st.Settled)
    (hclose : st.closeElement name start stop = .ok st') :
    st'.Approved grammar source ↔ st.Approved grammar source := by
  unfold Stack.closeElement at hclose
  split at hclose
  · cases hclose
  · exact h.approved_closeNamed hclose

theorem Assembled.approved_closeBranches (h : st.Assembled) (kind : Kind) :
    (st.closeBranches kind r).Approved grammar source ↔ st.Approved grammar source := by
  fun_induction Stack.closeBranches kind r st with
  | case1 => rfl
  | case2 st n ns hinner _ ih =>
    rw [ih (h.pop hinner)]
    exact h.approved_pop
  | case3 => rfl

theorem Settled.approved_closeBlock {kind : Kind} {keyword : Text} {start stop : Nat}
    (h : st.Settled) (hclose : st.closeBlock kind keyword start stop = .ok st') :
    st'.Approved grammar source ↔ st.Approved grammar source := by
  have hassembled := (h.closeOmitted (r := start)).assembled
  simp only [Stack.closeBlock] at hclose
  split at hclose
  · cases hclose
    rw [(hassembled.closeBranches kind).approved_pop, hassembled.approved_closeBranches,
      h.approved_closeOmitted]
  · cases hclose

/-- A later branch of an await block is opened: its pattern is what is new. -/
theorem Settled.approved_awaitBranch {a b : BranchKind} {f : Node → Node} {pos : Nat}
    {pattern : Option Text} (h : st.Settled)
    (hb : b ∈ [BranchKind.thenBlock, .catchBlock]) (hkind : st.current.kind = .branch a)
    (ha : a ≠ .elseBlock) (hab : b ∈ a.onward) (hne : a ≠ b)
    (hf : ∀ n, f n = { n with label := n.label.setPattern b pattern }) :
    (((st.pop r).modifyCurrent f).push (.branch b pos)).Approved grammar source ↔
      st.Approved grammar source ∧ ∀ p ∈ pattern, grammar.pattern p = .accepted := by
  obtain ⟨n, ns, hinner, hn⟩ := exists_inner_of_linked st h.linked fun hroot => by
    cases hkind.symm.trans hroot
  rw [hn] at hkind
  obtain ⟨hstands, -, -⟩ := h.assembled.tail hinner
  have hnone : (st.pop r).current.label.pattern b = none := by
    rw [Stack.pop, hinner, current_receive, Node.label_attach]
    obtain ⟨-, hawait, haround⟩ := hstands.await hkind ha
    exact (haround.awaits hawait).pattern_eq_none hab hne
  have hbranch : (Node.branch b pos).Approved grammar source :=
    Node.approved_bare rfl rfl
  rw [approved_push, and_iff_left hbranch, ← h.assembled.approved_pop (r := r)]
  refine approved_modifyCurrent ?_
  rw [hf, Node.approved_iff, Node.approved_iff, and_right_comm]
  rw [← Label.approved_setPattern hb hnone]
  rfl

end Stack

end

end ComponentDivision
