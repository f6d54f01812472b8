/-
# A block from its opener to its closer

A block that has been opened stays open, with whatever is opened and ended inside it, until a closer
ends it; nothing else ends a block. What has joined the root stays its first part, so that the block
with which a template begins is the first child of its root.

* `Stack.Change` : what may happen to the open nodes without the end of a block;
* `Item.changes` : an item does only such things, or it is the closer of a block;
* `Stack.StandsOn` : the open nodes stand on a block;
* `Template.Closer`, `Template.Goes.exists_closer` : the closer of a block;
* `Template.Goes.exists_first_child` : the block that a template begins with.
-/
import ComponentDivision.Proofs.Template.Assembly
import ComponentDivision.Proofs.Template.SharedRun

namespace ComponentDivision

/-! ## What an item does -/

namespace Stack

/-- What may happen to the open nodes without the end of a block that begins no chain. -/
inductive Change : Stack → Stack → Prop
  | receive (st : Stack) (n : Node) : Change st (st.receive n)
  | push (st : Stack) (n : Node) : Change st (st.push n)
  | pattern (st : Stack) (b : BranchKind) (text : Option Text) :
      Change st (st.modifyCurrent fun n => { n with label := n.label.setPattern b text })
  | pop (st : Stack) (r : Int) (h : st.current.kind.isElement = true ∨
      st.current.kind.isBranch = true ∨ st.current.label.elseif = true) : Change st (st.pop r)

/-- Some of these things, one after the other. -/
abbrev Changes : Stack → Stack → Prop :=
  Relation.ReflTransGen Change

variable {st st' : Stack}

theorem current_of_cons {n : Node} {ns : List Node} (h : st.inner = n :: ns) : st.current = n := by
  rw [current, h, List.headD_cons]

theorem changes_closeOmitted (st : Stack) (r : Int) : Changes st (st.closeOmitted r) := by
  fun_induction Stack.closeOmitted r st with
  | case1 => exact .refl
  | case2 st n ns hcons hn ih =>
    simp only [Bool.and_eq_true, decide_eq_true_eq] at hn
    refine .head (.pop st r (.inl ?_)) ih
    rw [current_of_cons hcons, hn.1]
    rfl
  | case3 => exact .refl

theorem changes_closeBefore (st : Stack) (name : Text) (r : Int) :
    Changes st (st.closeBefore name r) := by
  unfold closeBefore
  split
  · rename_i hn
    simp only [Bool.and_eq_true, decide_eq_true_eq] at hn
    refine .single (.pop st r (.inl ?_))
    rw [hn.1]
    rfl
  · exact .refl

theorem changes_closeNamed {name : Text} {start stop : Nat}
    (h : st.closeNamed name start stop = .ok st') : Changes st st' := by
  fun_induction Stack.closeNamed name start stop st with
  | case1 => cases h
  | case2 st n ns hcons hn =>
    cases h
    rw [Bool.and_eq_true] at hn
    refine .single (.pop st stop (.inl ?_))
    rw [current_of_cons hcons]
    exact hn.1
  | case3 st n ns hcons _ hkind ih =>
    refine .head (.pop st start (.inl ?_)) (ih h)
    rw [current_of_cons hcons, hkind]
    rfl
  | case4 => cases h

theorem changes_closeBranches (st : Stack) (kind : Kind) (r : Int) :
    Changes st (st.closeBranches kind r) := by
  fun_induction Stack.closeBranches kind r st with
  | case1 => exact .refl
  | case2 st n ns hcons hn ih =>
    simp only [Bool.or_eq_true, Bool.and_eq_true] at hn
    refine .head (.pop st r (.inr ?_)) ih
    rw [current_of_cons hcons]
    exact hn.imp_right And.right
  | case3 => exact .refl

/-- What the closer of a block does. -/
theorem closeBlock_eq_ok {kind : Kind} {keyword : Text} {start stop : Nat} :
    st.closeBlock kind keyword start stop = .ok st' ↔
      ((st.closeOmitted start).closeBranches kind start).current.kind = kind ∧
        st' = ((st.closeOmitted start).closeBranches kind start).pop stop := by
  unfold closeBlock
  dsimp only
  split
  · rename_i hkind
    rw [Except.ok.injEq, eq_comm, and_iff_right hkind]
  · rename_i hkind
    exact iff_of_false nofun fun h => hkind h.1

end Stack

/-- **An item ends no block that begins a chain, or it is the closer of a block.** -/
theorem Item.changes {ctx : Context} {st st' : Stack} {c d : Cursor} (h : Item ctx st c st' d) :
    st.Changes st' ∨ ∃ kind keyword, st.closeBlock kind keyword c.pos d.pos = .ok st' ∧
      kind.isBlock = true ∧ ∃ m : Cursor, c.rest = '{' :: m.rest ∧ m.Unbraced d := by
  cases h with
  | text => exact .inl (.single (.receive _ _))
  | comment => exact .inl (.single (.receive _ _))
  | braces => exact .inl (.single (.receive _ _))
  | closedElement name => exact .inl ((st.changes_closeBefore name _).tail (.receive _ _))
  | rawElement name => exact .inl ((st.changes_closeBefore name _).tail (.receive _ _))
  | openElement name => exact .inl ((st.changes_closeBefore name _).tail (.push _ _))
  | closeElement name st' d h =>
    unfold Stack.closeElement at h
    split at h
    · cases h
    · exact .inl (Stack.changes_closeNamed h)
  | openGuarded => exact .inl (.single (.push _ _))
  | openAwait => exact .inl ((Relation.ReflTransGen.single (.push _ _)).tail (.push _ _))
  | elseIf => exact .inl (((st.changes_closeOmitted _).tail (.push _ _)).tail (.push _ _))
  | elseBranch => exact .inl ((st.changes_closeOmitted _).tail (.push _ _))
  | awaitBranch a b pattern d hab hkind =>
    have hpop : st.Changes ((st.closeOmitted c.pos).pop c.pos) := by
      refine (st.changes_closeOmitted _).tail (.pop _ _ (.inr (.inl ?_)))
      rw [hkind]
      rfl
    have hset : (fun n : Node => if b = .thenBlock
          then { n with label := { n.label with thenPattern := pattern } }
          else { n with label := { n.label with catchPattern := pattern } })
        = fun n => { n with label := n.label.setPattern b pattern } := by
      funext n
      unfold Label.setPattern
      split <;> rfl
    rw [hset]
    exact .inl ((hpop.tail (.pattern _ b pattern)).tail (.push _ _))
  | closeBlock kind keyword st' d hkind h htext =>
    refine .inr ⟨kind, keyword, h, ?_, htext⟩
    rcases block?_eq_some hkind with ⟨b, rfl⟩ | rfl
    · rfl
    · rfl

/-! ## What the root has -/

theorem Node.prefix_children_attach (n m : Node) : n.children <+: (n.attach m).children := by
  unfold attach
  split
  · exact List.prefix_rfl
  · exact List.prefix_rfl
  · exact List.prefix_rfl
  · exact List.prefix_rfl
  · exact List.prefix_append _ _

namespace Stack

variable {st st' : Stack}

theorem prefix_receive (st : Stack) (n : Node) :
    st.root.children <+: (st.receive n).root.children := by
  obtain ⟨root, inner⟩ := st
  cases inner with
  | nil => exact root.prefix_children_attach n
  | cons m ms => exact List.prefix_rfl

theorem prefix_pop (st : Stack) (r : Int) : st.root.children <+: (st.pop r).root.children := by
  obtain ⟨root, inner⟩ := st
  cases inner with
  | nil => exact List.prefix_rfl
  | cons n ns => exact prefix_receive ⟨root, ns⟩ (n.endAt r)

theorem Change.prefix_children (h : Change st st') : st.root.children <+: st'.root.children := by
  cases h with
  | receive n => exact st.prefix_receive n
  | push n => exact List.prefix_rfl
  | pattern b text =>
    obtain ⟨root, inner⟩ := st
    cases inner with
    | nil => exact List.prefix_rfl
    | cons n ns => exact List.prefix_rfl
  | pop r => exact st.prefix_pop r

theorem Changes.prefix_children (h : Changes st st') : st.root.children <+: st'.root.children := by
  induction h with
  | refl => exact List.prefix_rfl
  | tail _ hchange ih => exact ih.trans hchange.prefix_children

end Stack

/-- What has joined the root stays there. -/
theorem Item.prefix_children {ctx : Context} {st st' : Stack} {c d : Cursor}
    (h : Item ctx st c st' d) : st.root.children <+: st'.root.children := by
  rcases h.changes with hchanges | ⟨kind, keyword, hclose, -⟩
  · exact hchanges.prefix_children
  · obtain ⟨-, rfl⟩ := Stack.closeBlock_eq_ok.1 hclose
    have hchanges :=
      (st.changes_closeOmitted c.pos).trans (Stack.changes_closeBranches _ kind c.pos)
    exact (Stack.Changes.prefix_children hchanges).trans (Stack.prefix_pop _ _)

/-! ## An open block -/

/-- A block with a guard that begins no chain's continuation. -/
structure Node.Heads (kind : Kind) (guard : Option Expression) (n : Node) : Prop where
  isBlock : kind.isBlock = true
  kind_eq : n.kind = kind
  guard_eq : n.label.expression = guard
  elseif_eq : n.label.elseif = false

namespace Node.Heads

variable {kind : Kind} {guard : Option Expression} {n m : Node}

theorem of_label (h : n.Heads kind guard) (hkind : m.label.kind = n.label.kind)
    (hguard : m.label.expression = n.label.expression)
    (helseif : m.label.elseif = n.label.elseif) : m.Heads kind guard :=
  ⟨h.isBlock, hkind.trans h.kind_eq, hguard.trans h.guard_eq, helseif.trans h.elseif_eq⟩

theorem attach (h : n.Heads kind guard) (m : Node) : (n.attach m).Heads kind guard :=
  h.of_label (by rw [label_attach]) (by rw [label_attach]) (by rw [label_attach])

theorem setPattern (h : n.Heads kind guard) (b : BranchKind) (text : Option Text) :
    Node.Heads kind guard { n with label := n.label.setPattern b text } := by
  refine h.of_label ?_ ?_ ?_
  all_goals
    dsimp only
    unfold Label.setPattern
    split <;> rfl

theorem endAt (h : n.Heads kind guard) (r : Int) : (n.endAt r).Heads kind guard :=
  h.of_label rfl rfl rfl

/-- Only the closer of a block ends it. -/
theorem stays (h : n.Heads kind guard) :
    ¬ (n.kind.isElement = true ∨ n.kind.isBranch = true ∨ n.label.elseif = true) := by
  have hblock := h.isBlock
  rw [h.kind_eq, h.elseif_eq]
  cases kind with
  | guarded => rintro (h | h | h) <;> cases h
  | awaitBlock => rintro (h | h | h) <;> cases h
  | _ => cases hblock

end Node.Heads

namespace Stack

/-- The open nodes stand on a block, below which others are open. -/
def StandsOn (below : List Node × Node) (kind : Kind) (guard : Option Expression) (st : Stack) :
    Prop :=
  ∃ f us, st = .upon (some below) f us ∧ f.Heads kind guard

variable {below : List Node × Node} {kind : Kind} {guard : Option Expression} {st st' : Stack}

theorem StandsOn.length_lt (h : st.StandsOn below kind guard) :
    below.1.length < st.inner.length := by
  obtain ⟨f, us, rfl, -⟩ := h
  simp only [upon, List.length_append, List.length_cons]
  omega

theorem StandsOn.modifyCurrent {g : Node → Node} (h : st.StandsOn below kind guard)
    (hg : ∀ n, n.Heads kind guard → (g n).Heads kind guard) :
    (st.modifyCurrent g).StandsOn below kind guard := by
  obtain ⟨f, us, rfl, hf⟩ := h
  cases us with
  | nil => exact ⟨g f, [], modifyCurrent_upon_nil g, hg f hf⟩
  | cons n us => exact ⟨f, g n :: us, modifyCurrent_upon_cons g, hf⟩

theorem StandsOn.change (h : st.StandsOn below kind guard) (hchange : Change st st') :
    st'.StandsOn below kind guard := by
  cases hchange with
  | receive n => exact h.modifyCurrent fun _ hm => hm.attach n
  | push n =>
    obtain ⟨f, us, rfl, hf⟩ := h
    exact ⟨f, n :: us, push_upon, hf⟩
  | pattern b text => exact h.modifyCurrent fun _ hm => hm.setPattern b text
  | pop r hcurrent =>
    obtain ⟨f, us, rfl, hf⟩ := h
    cases us with
    | nil =>
      rw [current_upon_nil] at hcurrent
      exact absurd hcurrent hf.stays
    | cons n us =>
      have haround : (upon (some below) f us).StandsOn below kind guard := ⟨f, us, rfl, hf⟩
      rw [pop_upon]
      exact haround.modifyCurrent fun _ hm => hm.attach _

theorem StandsOn.changes (h : st.StandsOn below kind guard) (hchanges : Changes st st') :
    st'.StandsOn below kind guard := by
  induction hchanges with
  | refl => exact h
  | tail _ hchange ih => exact ih.change hchange

/-- The closer of a block ends another one, or the one on which the open nodes stand. -/
theorem StandsOn.closeBlock {kind' : Kind} {keyword : Text} {start stop : Nat}
    (h : st.StandsOn below kind guard)
    (hclose : st.closeBlock kind' keyword start stop = .ok st') :
    st'.StandsOn below kind guard ∨ ∃ f, f.Heads kind guard ∧
      (st.closeOmitted start).closeBranches f.kind start = .upon (some below) f [] ∧
      st' = receive (f.endAt stop) ⟨below.2, below.1⟩ := by
  obtain ⟨hkind, rfl⟩ := closeBlock_eq_ok.1 hclose
  have hchanges := (st.changes_closeOmitted start).trans (changes_closeBranches _ kind' start)
  obtain ⟨f, us, hst, hf⟩ := h.changes hchanges
  rw [hst] at hkind ⊢
  cases us with
  | nil =>
    rw [current_upon_nil] at hkind
    rw [← hkind] at hst
    exact .inr ⟨f, hf, hst, rfl⟩
  | cons n us =>
    have haround : (upon (some below) f us).StandsOn below kind guard := ⟨f, us, rfl, hf⟩
    rw [pop_upon]
    exact .inl (haround.modifyCurrent fun _ hm => hm.attach _)

/-- While a block is open the text may not end. -/
theorem StandsOn.finish_ne_ok {stop : Nat} {root : Node} (h : st.StandsOn below kind guard) :
    st.finish stop ≠ .ok root := by
  intro hfinish
  obtain ⟨f, us, hst, -⟩ := h.changes (st.changes_closeOmitted stop)
  have hnil := congrArg inner (hst.symm.trans (finish_eq_ok.1 hfinish))
  exact List.append_ne_nil_of_right_ne_nil us (List.cons_ne_nil f below.1) hnil

end Stack

/-! ## The closer of a block -/

namespace Template

variable {ctx : Context} {below : List Node × Node} {kind : Kind} {guard : Option Expression}
  {st st' : Stack} {c d : Cursor} {root : Node}

/-- The closer, from `c` to `d`, of the block `f`, below which other nodes are open. -/
structure Closer (ctx : Context) (below : List Node × Node) (f : Node) (st : Stack) (c : Cursor)
    (st' : Stack) (d : Cursor) : Prop where
  goes : Goes ctx st c st' d
  text : ∃ m : Cursor, c.rest = '{' :: m.rest ∧ m.Unbraced d
  ends : (st.closeOmitted c.pos).closeBranches f.kind c.pos = .upon (some below) f []
  leaves : st' = Stack.receive (f.endAt d.pos) ⟨below.2, below.1⟩

theorem Goes.prefix_children (h : Goes ctx st c st' d) :
    st.root.children <+: st'.root.children := by
  induction h with
  | refl => exact List.prefix_rfl
  | item hrest hitem _ ih => exact (item_of_reader hrest hitem).prefix_children.trans ih

/-- **A block that is open and is not so later has been ended by its closer**, and until then the
open nodes stood on it. -/
theorem Goes.exists_closer (h : Goes ctx st c st' d) (hst : st.StandsOn below kind guard)
    (hend : ¬ st'.StandsOn below kind guard) :
    ∃ f st₁ c₁ st₂ c₂, f.Heads kind guard ∧ Goes ctx st c st₁ c₁ ∧
      Closer ctx below f st₁ c₁ st₂ c₂ ∧ Goes ctx st₂ c₂ st' d ∧
      ∀ st₃ c₃, Goes ctx st c st₃ c₃ → Goes ctx st₃ c₃ st₁ c₁ →
        st₃.StandsOn below kind guard := by
  induction h with
  | refl => exact absurd hst hend
  | @item st st₂ st' c c₂ d first rest hrest hitem hgoes ih =>
    by_cases hst₂ : st₂.StandsOn below kind guard
    · obtain ⟨f, st₁, c₁, st₃, c₃, hf, hgoes₁, hcloser, hlast, hbetween⟩ := ih hst₂ hend
      refine ⟨f, st₁, c₁, st₃, c₃, hf, .item hrest hitem hgoes₁, hcloser, hlast, ?_⟩
      intro st₄ c₄ h₁ h₂
      cases h₁ with
      | refl => exact hst
      | item hrest' hitem' h₁ =>
        cases hrest.symm.trans hrest'
        cases hitem.symm.trans hitem'
        exact hbetween st₄ c₄ h₁ h₂
    · have hitem₁ := item_of_reader hrest hitem
      rcases hitem₁.changes with hchanges | ⟨kind', keyword, hclose, -, htext⟩
      · exact absurd (hst.changes hchanges) hst₂
      · obtain hst₂' | ⟨f, hf, hends, hleaves⟩ := hst.closeBlock hclose
        · exact absurd hst₂' hst₂
        · refine ⟨f, st, c, st₂, c₂, hf, .refl st c,
            ⟨.item hrest hitem (.refl st₂ c₂), htext, hends, hleaves⟩, hgoes, ?_⟩
          intro st₄ c₄ h₁ h₂
          cases h₁ with
          | refl => exact hst
          | item hrest' hitem' h₁ =>
            cases hrest.symm.trans hrest'
            exact ((h₁.trans h₂).not_item hrest hitem').elim

/-- **The block with which a text begins is the first child of its root.** -/
theorem Goes.exists_first_child {r : Node} (h : Goes ctx st c st' d)
    (hst : st.StandsOn ([], r) kind guard) (hr : r.children = [])
    (hfinish : st'.finish d.pos = .ok root) :
    ∃ f st₁ c₁ st₂ c₂ ns, f.Heads kind guard ∧ Goes ctx st c st₁ c₁ ∧
      Closer ctx ([], r) f st₁ c₁ st₂ c₂ ∧ Goes ctx st₂ c₂ st' d ∧
      (∀ st₃ c₃, Goes ctx st c st₃ c₃ → Goes ctx st₃ c₃ st₁ c₁ →
        st₃.StandsOn ([], r) kind guard) ∧
      root.children = f.endAt c₂.pos :: ns := by
  obtain ⟨f, st₁, c₁, st₂, c₂, hf, hgoes₁, hcloser, hlast, hbetween⟩ :=
    h.exists_closer hst fun hst' => hst'.finish_ne_ok hfinish
  have hchild : st₂.root.children = [f.endAt c₂.pos] := by
    have hbranch : (f.endAt c₂.pos).kind.isBranch = false :=
      Bool.eq_false_iff.2 fun hbranch => hf.stays (.inr (.inl hbranch))
    rw [hcloser.leaves]
    show (r.attach (f.endAt c₂.pos)).children = _
    rw [Node.attach_of_not_branch hbranch, hr]
    rfl
  have hroot : st'.root.children <+: root.children := by
    have hprefix := (st'.changes_closeOmitted d.pos).prefix_children
    rwa [Stack.finish_eq_ok.1 hfinish] at hprefix
  obtain ⟨ns, hns⟩ := hlast.prefix_children.trans hroot
  rw [hchild] at hns
  exact ⟨f, st₁, c₁, st₂, c₂, ns, hf, hgoes₁, hcloser, hlast, hbetween, hns.symm⟩

end Template

end ComponentDivision
