/-
# Ending open nodes without a guard

The open nodes are a list with the root at its bottom. Nodes are taken off this list in loops that
look at the innermost node only, and do not ask whether it is the root. The root is no element and
no block, so that none of the loops takes it off: each ends with the root at the bottom, and there
always is an innermost node to look at.

* `Stack.nodes` : the open nodes as a list;
* `Unguarded.omittedLoop`, `Unguarded.namedLoop`, `Unguarded.branchLoop` : the loops, turn by turn;
* `Stack.Pops` : some open nodes have been ended;
* `Stack.Unwinds` : a loop ends as the stack says, with the root at the bottom;
* `Stack.KeepsRoot`, `Stack.Rooted.keepsRoot` : all loops do, and whatever else ends open nodes.
-/
import ComponentDivision.Proofs.Loop
import ComponentDivision.Proofs.Template.FirstBlock
import ComponentDivision.Proofs.Template.PlainTag

namespace ComponentDivision

/-- The open nodes as a list, innermost first; the root is at the bottom. -/
def Stack.nodes (st : Stack) : List Node :=
  st.inner ++ [st.root]

/-! ## Lists of open nodes -/

namespace Unguarded

/-- Why open nodes are not ended. -/
inductive Failure where
  | refused (m : Misread)
  /-- There is no node to look at. -/
  | noNode

/-- Takes off the innermost node, whatever it is, and ends it at `stop`. -/
def pop (stop : Int) : List Node → List Node
  | n :: around :: ns => around.attach (n.endAt stop) :: ns
  | _ => []

/-- One turn of the loop that ends, at `stop`, elements whose closing tags may be left out. -/
def omittedLoop (stop : Int) : Loop Failure (List Node) (List Node)
  | n :: around :: ns =>
    if n.kind = .element .element && closingTagOmitted n.name none then
      .ok (.again (pop stop (n :: around :: ns)))
    else .ok (.done (n :: around :: ns))
  | ns => .ok (.done ns)

/-- One turn of the loop that looks for the element `name`, which ends at `stop`; plain elements
inside it end at `start`. -/
def namedLoop (name : Text) (start stop : Nat) : Loop Failure (List Node) (List Node)
  | [] => .error .noNode
  | n :: ns =>
    if n.kind.isElement && n.name = some name then .ok (.done (pop stop (n :: ns)))
    else if n.kind = .element .element then .ok (.again (pop start (n :: ns)))
    else .error (.refused ⟨.notOpen name, start⟩)

/-- One turn of the loop that ends, at `stop`, branches and what continues a chain of if blocks. -/
def branchLoop (kind : Kind) (stop : Int) : Loop Failure (List Node) (List Node)
  | [] => .error .noNode
  | n :: ns =>
    if n.kind.isBranch
        || kind = .guarded .ifBlock && n.kind = .guarded .ifBlock && n.label.elseif then
      .ok (.again (pop stop (n :: ns)))
    else .ok (.done (n :: ns))

/-- Ends the block `kind` at `stop`, which has to be innermost. -/
def endBlock (kind : Kind) (keyword : Text) (start stop : Nat) :
    List Node → Except Failure (List Node)
  | [] => .error .noNode
  | n :: ns =>
    if n.kind = kind then .ok (pop stop (n :: ns))
    else .error (.refused ⟨.closesOuterBlock n.label.describe keyword, start⟩)

/-- Ends the innermost element at `start` if the start tag of the element `name` ends it. -/
def endBefore (name : Text) (start : Int) : List Node → Except Failure (List Node)
  | [] => .error .noNode
  | n :: ns =>
    if n.kind = .element .element && closingTagOmitted n.name (some name) then
      .ok (pop start (n :: ns))
    else .ok (n :: ns)

end Unguarded

/-! ## The innermost node -/

namespace Stack

variable {st st' : Stack} {n : Node} {ns : List Node}

theorem nodes_of_nil (h : st.inner = []) : st.nodes = [st.root] := by
  rw [nodes, h, List.nil_append]

theorem nodes_of_cons (h : st.inner = n :: ns) : st.nodes = n :: (ns ++ [st.root]) := by
  rw [nodes, h, List.cons_append]

/-- There always is an innermost node. -/
theorem head?_nodes (st : Stack) : st.nodes.head? = some st.current := by
  cases h : st.inner with
  | nil => rw [nodes_of_nil h, current, h, List.head?_cons, List.headD_nil]
  | cons n ns => rw [nodes_of_cons h, current_of_cons h, List.head?_cons]

/-- What is taken off above the root joins the node around it. -/
theorem pop_nodes (stop : Int) (h : st.inner = n :: ns) :
    Unguarded.pop stop st.nodes = (st.pop stop).nodes := by
  obtain ⟨root, inner⟩ := st
  cases h
  cases ns with
  | nil => rfl
  | cons m ms => rfl

theorem length_inner_of_cons (stop : Int) (h : st.inner = n :: ns) :
    st.inner.length = (st.pop stop).inner.length + 1 := by
  rw [length_inner_pop, h, List.length_cons, Nat.add_sub_cancel]

/-! ## Ends, one after the other -/

/-- Some of the innermost open nodes have been ended. -/
abbrev Pops : Stack → Stack → Prop :=
  Relation.ReflTransGen fun st st' => ∃ stop, st' = st.pop stop

theorem length_inner_of_pops (h : Pops st st') : st'.inner.length ≤ st.inner.length := by
  induction h with
  | refl => exact Nat.le_refl _
  | tail _ hpop ih =>
    obtain ⟨stop, rfl⟩ := hpop
    rw [length_inner_pop]
    omega

theorem pops_closeOmitted (st : Stack) (stop : Int) : Pops st (st.closeOmitted stop) := by
  fun_induction Stack.closeOmitted stop st with
  | case1 => exact .refl
  | case2 st n ns hinner hn ih => exact .head ⟨stop, rfl⟩ ih
  | case3 => exact .refl

theorem pops_closeBefore (st : Stack) (name : Text) (start : Int) :
    Pops st (st.closeBefore name start) := by
  unfold closeBefore
  split
  · exact .single ⟨start, rfl⟩
  · exact .refl

theorem pops_closeNamed {name : Text} {start stop : Nat}
    (h : st.closeNamed name start stop = .ok st') : Pops st st' := by
  fun_induction Stack.closeNamed name start stop st with
  | case1 => cases h
  | case2 =>
    cases h
    exact .single ⟨stop, rfl⟩
  | case3 st n ns hinner _ _ ih => exact .head ⟨start, rfl⟩ (ih h)
  | case4 => cases h

theorem pops_closeBranches (st : Stack) (kind : Kind) (stop : Int) :
    Pops st (st.closeBranches kind stop) := by
  fun_induction Stack.closeBranches kind stop st with
  | case1 => exact .refl
  | case2 st n ns hinner hn ih => exact .head ⟨stop, rfl⟩ ih
  | case3 => exact .refl

theorem pops_closeBlock {kind : Kind} {keyword : Text} {start stop : Nat}
    (h : st.closeBlock kind keyword start stop = .ok st') : Pops st st' := by
  obtain ⟨-, rfl⟩ := closeBlock_eq_ok.1 h
  exact ((st.pops_closeOmitted start).trans (pops_closeBranches _ kind start)).tail ⟨stop, rfl⟩

/-! ## The root at the bottom -/

/-- The root is the one that a reading begins with. -/
def Rooted (source : Text) (st : Stack) : Prop :=
  st.root.label = (Template.start source).root.label

section

variable {source : Text}

theorem Rooted.kind (h : st.Rooted source) : st.root.kind = .fragment :=
  congrArg Label.kind h

/-- A node that is not of the root's kind is above the root. -/
theorem Rooted.exists_cons (h : st.Rooted source) (hkind : st.current.kind ≠ .fragment) :
    ∃ n ns, st.inner = n :: ns := by
  cases hinner : st.inner with
  | nil =>
    rw [current, hinner, List.headD_nil] at hkind
    exact absurd h.kind hkind
  | cons n ns => exact ⟨n, ns, rfl⟩

theorem Rooted.receive (h : st.Rooted source) (m : Node) : (st.receive m).Rooted source := by
  obtain ⟨root, inner⟩ := st
  cases inner with
  | nil => exact (root.label_attach m).trans h
  | cons n ns => exact h

theorem Rooted.pop (h : st.Rooted source) (stop : Int) : (st.pop stop).Rooted source := by
  obtain ⟨root, inner⟩ := st
  cases inner with
  | nil => exact h
  | cons n ns =>
    have hbelow : Rooted source ⟨root, ns⟩ := h
    exact hbelow.receive (n.endAt stop)

theorem Rooted.pops (h : st.Rooted source) (hpops : Pops st st') : st'.Rooted source := by
  induction hpops with
  | refl => exact h
  | tail _ hpop ih =>
    obtain ⟨stop, rfl⟩ := hpop
    exact ih.pop stop

/-! ## The loops -/

/-- The loop ends after at most `limit` turns, with the open nodes of the stack that `r` gives or
with the refusal that `r` gives; the root is at the bottom. -/
def Unwinds (source : Text) (limit : Nat)
    (loop : Loop Unguarded.Failure (List Node) (List Node)) (st : Stack)
    (r : Except Misread Stack) : Prop :=
  (∃ n ≤ limit, loop.Takes n st.nodes ((r.map nodes).mapError .refused)) ∧
    ∀ st', r = .ok st' → st'.Rooted source

theorem exists_takes_closeOmitted (st : Stack) (stop : Int) :
    ∃ n ≤ st.inner.length + 1,
      (Unguarded.omittedLoop stop).Takes n st.nodes (.ok (st.closeOmitted stop).nodes) := by
  fun_induction Stack.closeOmitted stop st with
  | case1 st hinner =>
    refine ⟨1, Nat.succ_pos _, .done ?_⟩
    rw [nodes_of_nil hinner]
    rfl
  | case2 st n ns hinner hn ih =>
    obtain ⟨k, hk, htakes⟩ := ih
    refine ⟨k + 1, ?_, .again ?_ htakes⟩
    · have hlength := length_inner_of_cons stop hinner
      omega
    · rw [← pop_nodes stop hinner, nodes_of_cons hinner]
      cases ns <;> exact if_pos hn
  | case3 st n ns hinner hn =>
    refine ⟨1, Nat.succ_pos _, .done ?_⟩
    rw [nodes_of_cons hinner]
    cases ns <;> exact if_neg hn

/-- The root has no name to be found. -/
theorem Rooted.exists_takes_closeNamed (h : st.Rooted source) (name : Text) (start stop : Nat) :
    ∃ n ≤ st.inner.length + 1, (Unguarded.namedLoop name start stop).Takes n st.nodes
      (((st.closeNamed name start stop).map nodes).mapError .refused) := by
  fun_induction Stack.closeNamed name start stop st with
  | case1 st hinner =>
    refine ⟨1, Nat.succ_pos _, .error ?_⟩
    rw [nodes_of_nil hinner]
    simp only [Unguarded.namedLoop, h.kind]
    rfl
  | case2 st n ns hinner hn =>
    refine ⟨1, Nat.succ_pos _, .done ?_⟩
    rw [← pop_nodes stop hinner, nodes_of_cons hinner]
    exact if_pos hn
  | case3 st n ns hinner hn hplain ih =>
    obtain ⟨k, hk, htakes⟩ := ih (h.pop start)
    refine ⟨k + 1, ?_, .again ?_ htakes⟩
    · have hlength := length_inner_of_cons (start : Nat) hinner
      omega
    · rw [← pop_nodes start hinner, nodes_of_cons hinner]
      exact (if_neg hn).trans (if_pos hplain)
  | case4 st n ns hinner hn hplain =>
    refine ⟨1, Nat.succ_pos _, .error ?_⟩
    rw [nodes_of_cons hinner]
    exact (if_neg hn).trans (if_neg hplain)

/-- The root is no branch and continues no chain. -/
theorem Rooted.exists_takes_closeBranches (h : st.Rooted source) (kind : Kind) (stop : Int) :
    ∃ n ≤ st.inner.length + 1, (Unguarded.branchLoop kind stop).Takes n st.nodes
      (.ok (st.closeBranches kind stop).nodes) := by
  fun_induction Stack.closeBranches kind stop st with
  | case1 st hinner =>
    refine ⟨1, Nat.succ_pos _, .done ?_⟩
    rw [nodes_of_nil hinner]
    simp only [Unguarded.branchLoop, h.kind]
    simp [Kind.isBranch]
  | case2 st n ns hinner hn ih =>
    obtain ⟨k, hk, htakes⟩ := ih (h.pop stop)
    refine ⟨k + 1, ?_, .again ?_ htakes⟩
    · have hlength := length_inner_of_cons stop hinner
      omega
    · rw [← pop_nodes stop hinner, nodes_of_cons hinner]
      exact if_pos hn
  | case3 st n ns hinner hn =>
    refine ⟨1, Nat.succ_pos _, .done ?_⟩
    rw [nodes_of_cons hinner]
    exact if_neg hn

/-! ## Single nodes -/

/-- A node above the root is taken off. -/
theorem Rooted.pop_nodes (h : st.Rooted source) (stop : Int)
    (hkind : st.current.kind ≠ .fragment) :
    Unguarded.pop stop st.nodes = (st.pop stop).nodes := by
  obtain ⟨n, ns, hinner⟩ := h.exists_cons hkind
  exact Stack.pop_nodes stop hinner

theorem nodes_eq (st : Stack) : ∃ ns, st.nodes = st.current :: ns := by
  obtain ⟨ns, hns⟩ := List.head?_eq_some_iff.1 st.head?_nodes
  exact ⟨ns, hns⟩

/-- No start tag ends the root. -/
theorem Rooted.endBefore_nodes (h : st.Rooted source) (name : Text) (start : Int) :
    Unguarded.endBefore name start st.nodes = .ok (st.closeBefore name start).nodes := by
  obtain ⟨ns, hns⟩ := st.nodes_eq
  unfold closeBefore
  split
  · rename_i hends
    simp only [Bool.and_eq_true, decide_eq_true_eq] at hends
    rw [← h.pop_nodes start (by rw [hends.1]; exact Kind.noConfusion), hns]
    exact if_pos (by simpa using hends)
  · rename_i hends
    rw [hns]
    exact if_neg hends

/-- No closer ends the root. -/
theorem Rooted.endBlock_nodes (h : st.Rooted source) {kind : Kind} {keyword : Text}
    (hkind : block? keyword = some kind) (start stop : Nat) :
    Unguarded.endBlock kind keyword start stop
        ((st.closeOmitted start).closeBranches kind start).nodes
      = ((st.closeBlock kind keyword start stop).map nodes).mapError .refused := by
  have hroot := h.pops ((st.pops_closeOmitted start).trans (pops_closeBranches _ kind start))
  unfold closeBlock
  dsimp only
  obtain ⟨ns, hns⟩ := ((st.closeOmitted start).closeBranches kind start).nodes_eq
  split
  · rename_i hcurrent
    have hne : ((st.closeOmitted start).closeBranches kind start).current.kind ≠ .fragment := by
      rw [hcurrent]
      rcases block?_eq_some hkind with ⟨b, rfl⟩ | rfl <;> exact Kind.noConfusion
    simp only [Except.map, Except.mapError]
    rw [← hroot.pop_nodes stop hne, hns]
    exact if_pos hcurrent
  · rename_i hcurrent
    rw [hns]
    exact if_neg hcurrent

/-! ## All ends -/

/-- Whatever ends open nodes, without asking for the root, does what is done to the stack: the loops
end after at most `limit` turns with the root at the bottom, and there always is a node to look
at. -/
structure KeepsRoot (source : Text) (limit : Nat) (st : Stack) : Prop where
  rooted : st.Rooted source
  current : st.nodes.head? = some st.current
  omitted : ∀ stop, Unwinds source limit (Unguarded.omittedLoop stop) st
    (.ok (st.closeOmitted stop))
  named : ∀ name start stop, Unwinds source limit (Unguarded.namedLoop name start stop) st
    (st.closeNamed name start stop)
  branches : ∀ kind stop, Unwinds source limit (Unguarded.branchLoop kind stop)
    (st.closeOmitted stop) (.ok ((st.closeOmitted stop).closeBranches kind stop))
  block : ∀ {kind keyword}, block? keyword = some kind → ∀ start stop : Nat,
    Unguarded.endBlock kind keyword start stop
        ((st.closeOmitted start).closeBranches kind start).nodes
      = ((st.closeBlock kind keyword start stop).map nodes).mapError .refused
  before : ∀ name start,
    Unguarded.endBefore name start st.nodes = .ok (st.closeBefore name start).nodes
  branch : ∀ {b} {stop : Int}, (st.closeOmitted stop).current.kind = .branch b →
    Unguarded.pop stop (st.closeOmitted stop).nodes = ((st.closeOmitted stop).pop stop).nodes

theorem Rooted.keepsRoot (h : st.Rooted source) {limit : Nat} (hlimit : st.inner.length < limit) :
    st.KeepsRoot source limit where
  rooted := h
  current := st.head?_nodes
  omitted stop := by
    obtain ⟨n, hn, htakes⟩ := st.exists_takes_closeOmitted stop
    refine ⟨⟨n, by omega, htakes⟩, ?_⟩
    rintro _ ⟨⟩
    exact h.pops (st.pops_closeOmitted stop)
  named name start stop := by
    obtain ⟨n, hn, htakes⟩ := h.exists_takes_closeNamed name start stop
    exact ⟨⟨n, by omega, htakes⟩, fun st' hst' => h.pops (pops_closeNamed hst')⟩
  branches kind stop := by
    have hlength := length_inner_of_pops (st.pops_closeOmitted stop)
    have homitted := h.pops (st.pops_closeOmitted stop)
    obtain ⟨n, hn, htakes⟩ := homitted.exists_takes_closeBranches kind stop
    refine ⟨⟨n, by omega, htakes⟩, ?_⟩
    rintro _ ⟨⟩
    exact homitted.pops (pops_closeBranches _ kind stop)
  block hkind start stop := h.endBlock_nodes hkind start stop
  before name start := h.endBefore_nodes name start
  branch hkind := (h.pops (st.pops_closeOmitted _)).pop_nodes _
    (by rw [hkind]; exact Kind.noConfusion)

end

end Stack

end ComponentDivision
