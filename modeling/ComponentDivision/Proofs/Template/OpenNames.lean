/-
# The names of open elements

An element is opened by a start tag, which has a name. Nothing that happens to the element while
it is open changes the name, so every element on the stack has one.

* `Label.Tagged` : an element that has the name of a tag;
* `Stack.Tagged` : so do all elements that are open;
* `tagged_of_item` : each item keeps this.
-/
import ComponentDivision.Proofs.Template.Nesting

namespace ComponentDivision

/-! ## Names -/

/-- The name of a tag has no line feed. -/
theorem newline_notMem_of_isTagName {name : Text} (h : isTagName name = true) : '\n' ∉ name := by
  cases name with
  | nil => exact List.not_mem_nil
  | cons c cs =>
    rw [isTagName, Bool.and_eq_true, List.all_eq_true] at h
    intro hmem
    rcases List.mem_cons.1 hmem with rfl | hmem
    · exact absurd h.1 (by decide)
    · exact absurd (h.2 _ hmem) (by decide)

/-- An element has the name of a tag. -/
def Label.Tagged (l : Label) : Prop :=
  l.kind.isElement = true → isTagName (l.name.getD []) = true

theorem Label.Tagged.congr {l l' : Label} (h : l.Tagged) (hkind : l'.kind = l.kind)
    (hname : l'.name = l.name) : l'.Tagged := by
  unfold Label.Tagged
  rw [hkind, hname]
  exact h

theorem Label.tagged_of_kind {l : Label} (h : l.kind.isElement = false) : l.Tagged :=
  fun helement => absurd (h.symm.trans helement) Bool.false_ne_true

namespace Stack

/-- All open elements have the names of tags. -/
def Tagged (st : Stack) : Prop :=
  ∀ n ∈ st.root :: st.inner, n.label.Tagged

variable {st st' : Stack} {r : Int}

theorem Tagged.current (h : st.Tagged) : st.current.label.Tagged := by
  obtain ⟨root, inner⟩ := st
  cases inner with
  | nil => exact h root List.mem_cons_self
  | cons n ns => exact h n (List.mem_cons_of_mem _ List.mem_cons_self)

theorem Tagged.modifyCurrent {f : Node → Node} (h : st.Tagged)
    (hf : ∀ n : Node, n.label.Tagged → (f n).label.Tagged) : (st.modifyCurrent f).Tagged := by
  obtain ⟨root, inner⟩ := st
  obtain ⟨hroot, hinner⟩ := List.forall_mem_cons.1 h
  cases inner with
  | nil => exact List.forall_mem_cons.2 ⟨hf root hroot, hinner⟩
  | cons n ns =>
    obtain ⟨hn, hns⟩ := List.forall_mem_cons.1 hinner
    exact List.forall_mem_cons.2 ⟨hroot, List.forall_mem_cons.2 ⟨hf n hn, hns⟩⟩

theorem Tagged.receive (h : st.Tagged) (x : Node) : (st.receive x).Tagged :=
  h.modifyCurrent fun n hn => by rwa [Node.label_attach]

theorem Tagged.push {n : Node} (h : st.Tagged) (hn : n.label.Tagged) : (st.push n).Tagged := by
  obtain ⟨hroot, hinner⟩ := List.forall_mem_cons.1 h
  exact List.forall_mem_cons.2 ⟨hroot, List.forall_mem_cons.2 ⟨hn, hinner⟩⟩

theorem Tagged.pop (h : st.Tagged) (r : Int) : (st.pop r).Tagged := by
  obtain ⟨root, inner⟩ := st
  cases inner with
  | nil => exact h
  | cons n ns =>
    obtain ⟨hroot, hinner⟩ := List.forall_mem_cons.1 h
    have haround : (Stack.mk root ns).Tagged :=
      List.forall_mem_cons.2 ⟨hroot, (List.forall_mem_cons.1 hinner).2⟩
    exact haround.receive _

theorem Tagged.closeOmitted (h : st.Tagged) : (st.closeOmitted r).Tagged := by
  fun_induction Stack.closeOmitted r st with
  | case1 => exact h
  | case2 st n ns hinner hn ih => exact ih (h.pop r)
  | case3 => exact h

theorem Tagged.closeBefore (h : st.Tagged) (name : Text) : (st.closeBefore name r).Tagged := by
  unfold Stack.closeBefore
  split
  · exact h.pop r
  · exact h

theorem Tagged.closeBranches (h : st.Tagged) (kind : Kind) : (st.closeBranches kind r).Tagged := by
  fun_induction Stack.closeBranches kind r st with
  | case1 => exact h
  | case2 st n ns hinner hn ih => exact ih (h.pop r)
  | case3 => exact h

theorem Tagged.closeElement {name : Text} {start stop : Nat} (h : st.Tagged)
    (hclose : st.closeElement name start stop = .ok st') : st'.Tagged := by
  have hnamed {st : Stack} (h : st.Tagged) (hclose : st.closeNamed name start stop = .ok st') :
      st'.Tagged := by
    fun_induction Stack.closeNamed name start stop st with
    | case1 => cases hclose
    | case2 =>
      cases hclose
      exact h.pop _
    | case3 st n ns hinner _ _ ih => exact ih (h.pop _) hclose
    | case4 => cases hclose
  unfold Stack.closeElement at hclose
  split at hclose
  · cases hclose
  · exact hnamed h hclose

theorem Tagged.closeBlock {kind : Kind} {keyword : Text} {start stop : Nat} (h : st.Tagged)
    (hclose : st.closeBlock kind keyword start stop = .ok st') : st'.Tagged := by
  simp only [Stack.closeBlock] at hclose
  split at hclose
  · cases hclose
    exact (h.closeOmitted.closeBranches kind).pop _
  · cases hclose

end Stack

/-! ## Items -/

/-- **Every item leaves the open elements with the names of tags.** -/
theorem tagged_of_item {ctx : Context} {st st' : Stack} {c d : Cursor} (h : st.Tagged)
    (hitem : Item ctx st c st' d) : st'.Tagged := by
  have hbranch (b : BranchKind) (start : Nat) : (Node.branch b start).label.Tagged :=
    Label.tagged_of_kind rfl
  cases hitem with
  | text => exact h.receive _
  | comment => exact h.receive _
  | braces => exact h.receive _
  | closedElement name => exact (h.closeBefore name).receive _
  | rawElement name => exact (h.closeBefore name).receive _
  | openElement name kind as c₁ c₂ d hkind hvoid hc₁ has hd hname =>
    exact (h.closeBefore name).push fun _ => hname
  | closeElement name st' d hclose => exact h.closeElement hclose
  | openGuarded b label e m d hkind =>
    exact h.push (Label.tagged_of_kind (by rw [hkind]; rfl))
  | openAwait b => exact (h.push (Label.tagged_of_kind rfl)).push (hbranch b _)
  | elseIf => exact (h.closeOmitted.push (hbranch _ _)).push (Label.tagged_of_kind rfl)
  | elseBranch => exact h.closeOmitted.push (hbranch _ _)
  | awaitBranch a b =>
    refine ((h.closeOmitted.pop _).modifyCurrent fun n hn => ?_).push (hbranch b _)
    split
    · exact hn.congr rfl rfl
    · exact hn.congr rfl rfl
  | closeBlock kind keyword st' d hkind hclose => exact h.closeBlock hclose

theorem tagged_start (source : Text) : (Template.start source).Tagged := by
  intro n hn
  rw [List.mem_singleton.1 hn]
  exact Label.tagged_of_kind rfl

end ComponentDivision
