/-
# Open nodes that are alike

Two runs that read the same text may stand on different ground: one has read other things before
it, and other nodes are open around those which it opens. What the two runs do next depends only
on the kinds, the names and the branches of the nodes that they have opened themselves, as long as
they do not end the node on which they stand.

* `Node.gist` : what counts of a node, its expressions moved;
* `Node.Like` : two nodes with the same gist;
* `Stack.upon` : open nodes above a lowest one, and what is below it;
* `Ground` : the lowest nodes of two runs and what lies below them;
* `Ground.Alike`, `Ground.Follows` : the open nodes of two runs on some ground.
-/
import ComponentDivision.Proofs.Template.Laminar
import ComponentDivision.Proofs.Template.Surround

namespace ComponentDivision

/-! ## What counts of a node -/

/-- The label without the place, the text and what else does not count. -/
def Label.gist (move : Expression → Expression) (l : Label) : Label where
  kind := l.kind
  start := 0
  name := l.name
  expression := l.expression.map move
  elseif := l.elseif
  thenPattern := l.thenPattern
  catchPattern := l.catchPattern

/-- The labels are the same as far as it counts, with the expression of the first one moved. -/
def Label.Like (move : Expression → Expression) (l l' : Label) : Prop :=
  l'.gist id = l.gist move

theorem Label.like_iff {move : Expression → Expression} {l l' : Label} :
    l.Like move l' ↔ l'.kind = l.kind ∧ l'.name = l.name ∧
      l'.expression = l.expression.map move ∧ l'.elseif = l.elseif ∧
      l'.thenPattern = l.thenPattern ∧ l'.catchPattern = l.catchPattern := by
  simp [Like, gist]

/-- Every label has one that is like it. -/
theorem Label.like_gist (move : Expression → Expression) (l : Label) :
    Like move l (l.gist move) := by
  simp only [Like, gist, Option.map_id]
  rfl

/-- What counts of a node and of the nodes below it, with the expressions moved. -/
def Node.gist (move : Expression → Expression) (n : Node) : Node :=
  n.map (Label.gist move)

/-- The nodes are the same as far as it counts, with the expressions of the first one moved. -/
def Node.Like (move : Expression → Expression) (n n' : Node) : Prop :=
  n'.gist id = n.gist move

/-- Nodes that are alike one by one. -/
def Node.AllLike (move : Expression → Expression) (ns ns' : List Node) : Prop :=
  ns'.map (gist id) = ns.map (gist move)

namespace Node

variable {move : Expression → Expression} {n n' m m' : Node}

theorem label_gist (move : Expression → Expression) (n : Node) :
    (n.gist move).label = n.label.gist move :=
  label_map _ n

theorem gist_attach (move : Expression → Expression) (n m : Node) :
    (n.attach m).gist move = (n.gist move).attach (m.gist move) :=
  map_attach (g := Label.gist move) (fun _ => rfl) n m

/-- The gist has the expressions, moved. -/
theorem expressions_gist (move : Expression → Expression) (n : Node) :
    (n.gist move).expressions = n.expressions.map move :=
  expressions_map (g := Label.gist move) (f := move) (fun _ => rfl) (fun _ => rfl) n

theorem gist_gist (move : Expression → Expression) (n : Node) :
    (n.gist move).gist id = n.gist move := by
  have hlabel : Label.gist id ∘ Label.gist move = Label.gist move :=
    funext (Label.like_gist move)
  rw [gist, gist, map_map, hlabel]

/-- Every node has one that is like it. -/
theorem like_gist (move : Expression → Expression) (n : Node) : Like move n (n.gist move) :=
  gist_gist move n

theorem Like.label (h : Like move n n') : n.label.Like move n'.label := by
  rw [Label.Like, ← label_gist, h, label_gist]

theorem Like.kind (h : Like move n n') : n'.kind = n.kind :=
  (Label.like_iff.1 h.label).1

theorem Like.name (h : Like move n n') : n'.name = n.name :=
  (Label.like_iff.1 h.label).2.1

theorem Like.expression (h : Like move n n') :
    n'.label.expression = n.label.expression.map move :=
  (Label.like_iff.1 h.label).2.2.1

theorem Like.elseif (h : Like move n n') : n'.label.elseif = n.label.elseif :=
  (Label.like_iff.1 h.label).2.2.2.1

theorem elseBlock_gist (move : Expression → Expression) (n : Node) :
    (n.gist move).elseBlock = n.elseBlock.map (gist move) := by
  cases n
  exact mapBranch_eq _ _

/-- Nodes that are alike both have an else branch, or none has. -/
theorem Like.isNone_elseBlock (h : Like move n n') :
    n'.elseBlock.isNone = n.elseBlock.isNone := by
  have helse := congrArg (fun m : Node => m.elseBlock.isNone) h
  simpa only [elseBlock_gist, Option.isNone_map] using helse

theorem Like.expressions (h : Like move n n') : n'.expressions = n.expressions.map move := by
  rw [← expressions_gist move n, ← h, expressions_gist, List.map_id]

theorem Like.attach (h : Like move n n') (hm : Like move m m') :
    Like move (n.attach m) (n'.attach m') := by
  rw [Like, gist_attach, gist_attach, h, hm]

/-- Where a node ends does not count. -/
theorem Like.endAt (h : Like move n n') (r r' : Int) : Like move (n.endAt r) (n'.endAt r') := by
  cases n
  cases n'
  exact h

/-- The pattern of a branch is set in both nodes. -/
theorem Like.setPattern (h : Like move n n') (b : BranchKind) (pattern : Option Text) :
    Like move { n with label := n.label.setPattern b pattern }
      { n' with label := n'.label.setPattern b pattern } := by
  have hlabel : (n.label.setPattern b pattern).Like move (n'.label.setPattern b pattern) := by
    have h := Label.like_iff.1 h.label
    unfold Label.setPattern
    split <;> simp only [Label.like_iff, h, and_self]
  cases n
  cases n'
  simp only [Like, gist, map, mk.injEq] at h ⊢
  exact ⟨hlabel, h.2⟩

/-- Nodes without parts are alike if their labels are. -/
theorem like_leaf {l l' : Label} (h : l.Like move l') : Like move (leaf l) (leaf l') :=
  congrArg leaf h

/-- Nodes with their attributes, their values and their children. -/
theorem like_parts {l l' : Label} {attributes attributes' children children' : List Node}
    {value value' : Option (List Node)} (hl : l.Like move l')
    (hattributes : AllLike move attributes attributes')
    (hvalue : mapValue (Label.gist id) value' = mapValue (Label.gist move) value)
    (hchildren : AllLike move children children') :
    Like move { label := l, attributes, value, children }
      { label := l', attributes := attributes', value := value', children := children' } := by
  have hall {ns ns' : List Node} (h : AllLike move ns ns') :
      mapAll (Label.gist id) ns' = mapAll (Label.gist move) ns := by
    rw [mapAll_eq, mapAll_eq]
    exact h
  simp only [Like, gist, map, mk.injEq]
  exact ⟨hl, hall hattributes, hvalue, hall hchildren, rfl, rfl, rfl, rfl⟩

theorem AllLike.cons {ns ns' : List Node} (hn : Like move n n') (hns : AllLike move ns ns') :
    AllLike move (n :: ns) (n' :: ns') := by
  rw [AllLike, List.map_cons, List.map_cons, hn, hns]

theorem AllLike.exists_cons {ns ns' : List Node} (h : AllLike move (n :: ns) ns') :
    ∃ m ms, ns' = m :: ms ∧ Like move n m ∧ AllLike move ns ms := by
  cases ns' with
  | nil => cases h
  | cons m ms =>
    obtain ⟨hn, hns⟩ := List.cons.inj h
    exact ⟨m, ms, rfl, hn, hns⟩

theorem AllLike.append {ms ms' ns ns' : List Node} (hms : AllLike move ms ms')
    (hns : AllLike move ns ns') : AllLike move (ms ++ ns) (ms' ++ ns') := by
  rw [AllLike, List.map_append, List.map_append, hms, hns]

theorem AllLike.isEmpty {ns ns' : List Node} (h : AllLike move ns ns') :
    ns'.isEmpty = ns.isEmpty := by
  rw [← List.isEmpty_map (f := gist id), h, List.isEmpty_map]

/-- Texts do not count. -/
theorem like_ofText (i j : Nat) (t u : Text) : Like move (.ofText i t) (.ofText j u) :=
  rfl

end Node

/-! ## Open nodes above a lowest one -/

namespace Stack

/-- The open nodes `us`, innermost first, above the node `floor`; this is the root, or it stands
in other nodes and their root. -/
def upon (base : Option (List Node × Node)) (floor : Node) (us : List Node) : Stack :=
  match base with
  | none => ⟨floor, us⟩
  | some (below, root) => ⟨root, us ++ floor :: below⟩

variable {base : Option (List Node × Node)} {f n m : Node} {us : List Node}

theorem inner_upon_cons : (upon base f (n :: us)).inner = n :: (upon base f us).inner := by
  cases base <;> rfl

@[simp] theorem current_upon_nil : (upon base f []).current = f := by
  cases base <;> rfl

@[simp] theorem current_upon_cons : (upon base f (n :: us)).current = n := by
  cases base <;> rfl

theorem modifyCurrent_upon_nil (g : Node → Node) :
    (upon base f []).modifyCurrent g = upon base (g f) [] := by
  cases base <;> rfl

theorem modifyCurrent_upon_cons (g : Node → Node) :
    (upon base f (n :: us)).modifyCurrent g = upon base f (g n :: us) := by
  cases base <;> rfl

theorem push_upon : (upon base f us).push n = upon base f (n :: us) := by
  cases base <;> rfl

theorem pop_upon (r : Int) :
    (upon base f (n :: us)).pop r = (upon base f us).receive (n.endAt r) := by
  cases base <;> rfl

end Stack

/-! ## Two runs -/

/-- What the open nodes of two runs stand on: the lowest node of each run, which is not ended, and
what lies below it. The first run stands on the root of its text, or on an if block. -/
structure Ground (move : Expression → Expression) where
  base : Option (List Node × Node)
  base' : Option (List Node × Node)
  /-- What the lowest nodes have in common. -/
  rel : Node → Node → Prop
  attach : ∀ {f f' m m' : Node}, rel f f' → m.Like move m' → rel (f.attach m) (f'.attach m')
  setPattern : ∀ {f f' : Node} (b : BranchKind) (pattern : Option Text), rel f f' →
    rel { f with label := f.label.setPattern b pattern }
      { f' with label := f'.label.setPattern b pattern }
  kind : ∀ {f f' : Node}, rel f f' → base = none ∧ f.kind = .fragment ∨
    base ≠ none ∧ f.kind = .guarded .ifBlock ∧ f.label.elseif = false ∧
      f'.kind = .guarded .ifBlock ∧ f'.elseBlock.isNone = f.elseBlock.isNone
  kind' : ∀ {f f' : Node}, rel f f' → f'.kind.isElement = false
  plain : ∀ o ∈ base, ∀ n ∈ o.1, n.kind.isElement = false
  plain' : ∀ o ∈ base', ∀ n ∈ o.1, n.kind.isElement = false
  /-- If the first run stands on an if block, the closer of one is accepted in the second run. -/
  closes : ∀ {f f' : Node}, rel f f' → base ≠ none → ∀ keyword start stop, ∃ st',
    (Stack.upon base' f' []).closeBlock (.guarded .ifBlock) keyword start stop = .ok st'

namespace Ground

variable {move : Expression → Expression}

/-- The open nodes of the two runs are alike. -/
def Alike (G : Ground move) (st st' : Stack) : Prop :=
  ∃ f f' us us', st = .upon G.base f us ∧ st' = .upon G.base' f' us' ∧
    List.Forall₂ (Node.Like move) us us' ∧ G.rel f f'

/-- The node on which the first run stands is still open. -/
def Kept (G : Ground move) (st : Stack) : Prop :=
  ∀ o ∈ G.base, o.1.length < st.inner.length

/-- The open nodes are alike, unless the one on which the first run stands has been ended. -/
def Follows (G : Ground move) (st st' : Stack) : Prop :=
  G.Kept st → G.Alike st st'

/-- Nothing is below the root, on which both runs stand. -/
structure OnRoots (G : Ground move) : Prop where
  base : G.base = none
  base' : G.base' = none

variable {G : Ground move} {st st' st₁ : Stack} {f f' n n' m m' : Node} {us us' : List Node}

/-- The root is never ended. -/
theorem kept_of_none (h : G.base = none) (st : Stack) : G.Kept st := by
  intro o ho
  rw [h] at ho
  cases ho

theorem not_isElement (h : G.rel f f') : f.kind.isElement = false := by
  rcases G.kind h with ⟨-, hkind⟩ | ⟨-, hkind, -⟩
  · rw [hkind]
    rfl
  · rw [hkind]
    rfl

theorem not_isBranch (h : G.rel f f') : f.kind.isBranch = false := by
  rcases G.kind h with ⟨-, hkind⟩ | ⟨-, hkind, -⟩
  · rw [hkind]
    rfl
  · rw [hkind]
    rfl

/-- Nothing is open above the nodes on which the two runs stand. -/
def Bare (G : Ground move) (st st' : Stack) : Prop :=
  ∃ f f', st = .upon G.base f [] ∧ st' = .upon G.base' f' [] ∧ G.rel f f'

namespace Bare

/-- The innermost node, if it is not the root, is the one on which the first run stands. -/
theorem exists_rel {ns : List Node} (h : G.Bare st st') (hcons : st.inner = n :: ns) :
    ∃ f', G.rel n f' := by
  obtain ⟨f, f', rfl, rfl, hf⟩ := h
  have hcurrent : (Stack.upon G.base f []).current = n := by
    rw [Stack.current, hcons, List.headD_cons]
  rw [Stack.current_upon_nil] at hcurrent
  exact ⟨f', hcurrent ▸ hf⟩

theorem not_isElement {ns : List Node} (h : G.Bare st st') (hcons : st.inner = n :: ns) :
    n.kind.isElement = false := by
  obtain ⟨f', hf⟩ := h.exists_rel hcons
  exact Ground.not_isElement hf

theorem not_isBranch {ns : List Node} (h : G.Bare st st') (hcons : st.inner = n :: ns) :
    n.kind.isBranch = false := by
  obtain ⟨f', hf⟩ := h.exists_rel hcons
  exact Ground.not_isBranch hf

/-- It begins a chain. -/
theorem elseif {ns : List Node} (h : G.Bare st st') (hcons : st.inner = n :: ns) :
    n.label.elseif = false := by
  obtain ⟨f, f', rfl, rfl, hf⟩ := h
  have hcurrent : (Stack.upon G.base f []).current = n := by
    rw [Stack.current, hcons, List.headD_cons]
  rw [Stack.current_upon_nil] at hcurrent
  rcases G.kind hf with ⟨hbase, -⟩ | ⟨-, -, helseif, -⟩
  · rw [hbase] at hcons
    cases hcons
  · exact hcurrent ▸ helseif

/-- The second run stands on no element. -/
theorem closeOmitted (h : G.Bare st st') (r : Int) : st'.closeOmitted r = st' := by
  obtain ⟨f, f', rfl, rfl, hf⟩ := h
  apply Stack.closeOmitted_eq_self
  rw [Stack.current_upon_nil]
  intro helement
  have hplain := G.kind' hf
  rw [helement] at hplain
  cases hplain

/-- The block on which the first run stands is closed. -/
theorem closeBlock {kind : Kind} (h : G.Bare st st') (hkind : kind ≠ .fragment)
    (hcurrent : st.current.kind = kind) (keyword : Text) (start stop : Nat) (r : Int) :
    (∃ st₁', st'.closeBlock kind keyword start stop = .ok st₁') ∧ ¬ G.Kept (st.pop r) := by
  obtain ⟨f, f', rfl, rfl, hf⟩ := h
  rw [Stack.current_upon_nil] at hcurrent
  rcases G.kind hf with ⟨-, hroot⟩ | ⟨hbase, hif, -⟩
  · exact absurd (hcurrent.symm.trans hroot) hkind
  · obtain rfl : kind = .guarded .ifBlock := hcurrent.symm.trans hif
    refine ⟨G.closes hf hbase keyword start stop, fun hkept => ?_⟩
    obtain ⟨o, ho⟩ := Option.ne_none_iff_exists'.1 hbase
    have hlength := hkept o ho
    rw [Stack.length_inner_pop, ho] at hlength
    simp [Stack.upon] at hlength

end Bare

namespace Alike

theorem follows (h : G.Alike st st') : G.Follows st st' :=
  fun _ => h

/-- What the innermost nodes of the two runs have in common, unless the first one is a root. -/
theorem current (h : G.Alike st st') (hkind : st.current.kind ≠ .fragment) :
    st'.current.kind = st.current.kind ∧
      st'.current.elseBlock.isNone = st.current.elseBlock.isNone := by
  obtain ⟨f, f', us, us', rfl, rfl, hus, hf⟩ := h
  cases hus with
  | nil =>
    rw [Stack.current_upon_nil] at hkind
    rw [Stack.current_upon_nil, Stack.current_upon_nil]
    rcases G.kind hf with ⟨-, hroot⟩ | ⟨-, hif, -, hif', helse⟩
    · exact absurd hroot hkind
    · exact ⟨hif'.trans hif.symm, helse⟩
  | cons hn hus =>
    rw [Stack.current_upon_cons, Stack.current_upon_cons]
    exact ⟨hn.kind, hn.isNone_elseBlock⟩

theorem inHead (h : G.Alike st st') : st'.inHead = st.inHead := by
  obtain ⟨f, f', us, us', rfl, rfl, hus, hf⟩ := h
  have hplain {n : Node} (hn : n.kind.isElement = false) : (n.kind == .element .head) = false := by
    cases hk : n.kind with
    | element e =>
      rw [hk] at hn
      cases hn
    | _ => rfl
  have hbelow {base : Option (List Node × Node)} {f : Node} {us : List Node}
      (hbase : ∀ o ∈ base, ∀ n ∈ o.1, n.kind.isElement = false) (hf : f.kind.isElement = false) :
      (Stack.upon base f us).inHead = us.any fun n => n.kind == .element .head := by
    cases base with
    | none => rfl
    | some o =>
      have hfalse : (f :: o.1).any (fun n => n.kind == .element .head) = false := by
        rw [List.any_eq_false]
        intro n hn
        rw [Bool.not_eq_true]
        rcases List.mem_cons.1 hn with rfl | hn
        · exact hplain hf
        · exact hplain (hbase o rfl n hn)
      show (us ++ f :: o.1).any (fun n => n.kind == .element .head) = _
      rw [List.any_append, hfalse, Bool.or_false]
  rw [hbelow G.plain' (G.kind' hf), hbelow G.plain (not_isElement hf)]
  clear hf
  induction hus with
  | nil => rfl
  | cons hn _ ih => rw [List.any_cons, List.any_cons, hn.kind, ih]

/-- A change of the innermost nodes. -/
theorem modifyCurrent {g g' : Node → Node} (h : G.Alike st st')
    (hlike : ∀ n n', n.Like move n' → (g n).Like move (g' n'))
    (hrel : ∀ f f', G.rel f f' → G.rel (g f) (g' f')) :
    G.Alike (st.modifyCurrent g) (st'.modifyCurrent g') := by
  obtain ⟨f, f', us, us', rfl, rfl, hus, hf⟩ := h
  cases hus with
  | nil =>
    rw [Stack.modifyCurrent_upon_nil, Stack.modifyCurrent_upon_nil]
    exact ⟨_, _, [], [], rfl, rfl, .nil, hrel f f' hf⟩
  | cons hn hus =>
    rw [Stack.modifyCurrent_upon_cons, Stack.modifyCurrent_upon_cons]
    exact ⟨f, f', _, _, rfl, rfl, .cons (hlike _ _ hn) hus, hf⟩

theorem receive (h : G.Alike st st') (hm : m.Like move m') :
    G.Alike (st.receive m) (st'.receive m') :=
  h.modifyCurrent (fun _ _ hn => hn.attach hm) fun _ _ hf => G.attach hf hm

theorem push (h : G.Alike st st') (hm : m.Like move m') :
    G.Alike (st.push m) (st'.push m') := by
  obtain ⟨f, f', us, us', rfl, rfl, hus, hf⟩ := h
  exact ⟨f, f', m :: us, m' :: us', Stack.push_upon, Stack.push_upon, .cons hm hus, hf⟩

/-- The innermost nodes end, which the two runs have opened. -/
theorem pop_cons (hus : List.Forall₂ (Node.Like move) us us') (hn : n.Like move n')
    (hf : G.rel f f') (r r' : Int) :
    G.Alike ((Stack.upon G.base f (n :: us)).pop r)
      ((Stack.upon G.base' f' (n' :: us')).pop r') := by
  have haround : G.Alike (.upon G.base f us) (.upon G.base' f' us') :=
    ⟨f, f', us, us', rfl, rfl, hus, hf⟩
  rw [Stack.pop_upon, Stack.pop_upon]
  exact haround.receive (hn.endAt r r')

/-- An element or a branch that ends is none on which a run stands. -/
theorem pop (h : G.Alike st st')
    (hkind : st.current.kind.isElement = true ∨ st.current.kind.isBranch = true) (r r' : Int) :
    G.Alike (st.pop r) (st'.pop r') := by
  obtain ⟨f, f', us, us', rfl, rfl, hus, hf⟩ := h
  cases hus with
  | nil =>
    rw [Stack.current_upon_nil, not_isElement hf, not_isBranch hf] at hkind
    rcases hkind with hkind | hkind <;> cases hkind
  | cons hn hus => exact pop_cons hus hn hf r r'

/-! ## What ends open nodes -/

/-- Nothing is open above the nodes on which the runs stand, or both have opened the innermost one
of their nodes and may end it. -/
theorem bare_or_opened (h : G.Alike st st') :
    G.Bare st st' ∨ ∃ n ns n' ns', st.inner = n :: ns ∧ st'.inner = n' :: ns' ∧
      n.Like move n' ∧ ∀ r r', G.Alike (st.pop r) (st'.pop r') := by
  obtain ⟨f, f', us, us', rfl, rfl, hus, hf⟩ := h
  cases hus with
  | nil => exact .inl ⟨f, f', rfl, rfl, hf⟩
  | cons hn hus =>
    exact .inr ⟨_, _, _, _, Stack.inner_upon_cons, Stack.inner_upon_cons, hn, pop_cons hus hn hf⟩

theorem closeOmitted (h : G.Alike st st') (r r' : Int) :
    G.Alike (st.closeOmitted r) (st'.closeOmitted r') := by
  fun_induction Stack.closeOmitted r st generalizing st' with
  | case1 st hnil =>
    rcases h.bare_or_opened with hbare | ⟨n, ns, n', ns', hcons, -⟩
    · rw [hbare.closeOmitted]
      exact h
    · cases hnil.symm.trans hcons
  | case2 st n ns hcons hn ih =>
    rcases h.bare_or_opened with hbare | ⟨m, ms, m', ms', hm, hm', hlike, hpop⟩
    · have hkind := hbare.not_isElement hcons
      simp only [Bool.and_eq_true, decide_eq_true_eq] at hn
      rw [hn.1] at hkind
      cases hkind
    · obtain ⟨rfl, rfl⟩ := List.cons.inj (hcons.symm.trans hm)
      rw [Stack.closeOmitted_of_cons _ hm', hlike.kind, hlike.name, if_pos hn]
      exact ih (hpop r r')
  | case3 st n ns hcons hn =>
    rcases h.bare_or_opened with hbare | ⟨m, ms, m', ms', hm, hm', hlike, hpop⟩
    · rw [hbare.closeOmitted]
      exact h
    · obtain ⟨rfl, rfl⟩ := List.cons.inj (hcons.symm.trans hm)
      rw [Stack.closeOmitted_of_cons _ hm', hlike.kind, hlike.name, if_neg hn]
      exact h

theorem closeBefore (h : G.Alike st st') (name : Text) (r r' : Int) :
    G.Alike (st.closeBefore name r) (st'.closeBefore name r') := by
  unfold Stack.closeBefore
  rcases h.bare_or_opened with hbare | ⟨n, ns, n', ns', hn, hn', hlike, hpop⟩
  · obtain ⟨f, f', rfl, rfl, hf⟩ := hbare
    have hplain {m : Node} (hm : m.kind.isElement = false) : m.kind ≠ .element .element := by
      intro helement
      rw [helement] at hm
      cases hm
    rw [Stack.current_upon_nil, Stack.current_upon_nil, if_neg, if_neg]
    · exact h
    · simp [hplain (G.kind' hf)]
    · simp [hplain (not_isElement hf)]
  · have hcurrent : st.current = n := by rw [Stack.current, hn, List.headD_cons]
    have hcurrent' : st'.current = n' := by rw [Stack.current, hn', List.headD_cons]
    rw [hcurrent, hcurrent', hlike.kind, hlike.name]
    split
    · exact hpop r r'
    · exact h

theorem closeNamed {name : Text} {start stop : Nat} (h : G.Alike st st')
    (hclose : st.closeNamed name start stop = .ok st₁) (start' stop' : Nat) :
    ∃ st₁', st'.closeNamed name start' stop' = .ok st₁' ∧ G.Alike st₁ st₁' := by
  fun_induction Stack.closeNamed name start stop st generalizing st' with
  | case1 => cases hclose
  | case2 st n ns hcons hn =>
    cases hclose
    rcases h.bare_or_opened with hbare | ⟨m, ms, m', ms', hm, hm', hlike, hpop⟩
    · rw [hbare.not_isElement hcons] at hn
      cases hn
    · obtain ⟨rfl, rfl⟩ := List.cons.inj (hcons.symm.trans hm)
      rw [Stack.closeNamed_of_cons _ _ _ hm', hlike.kind, hlike.name, if_pos hn]
      exact ⟨_, rfl, hpop stop stop'⟩
  | case3 st n ns hcons hn hkind ih =>
    rcases h.bare_or_opened with hbare | ⟨m, ms, m', ms', hm, hm', hlike, hpop⟩
    · have hplain := hbare.not_isElement hcons
      rw [hkind] at hplain
      cases hplain
    · obtain ⟨rfl, rfl⟩ := List.cons.inj (hcons.symm.trans hm)
      rw [Stack.closeNamed_of_cons _ _ _ hm', hlike.kind, hlike.name, if_neg hn, if_pos hkind]
      exact ih (hpop start start') hclose
  | case4 => cases hclose

theorem closeElement {name : Text} {start stop : Nat} (h : G.Alike st st')
    (hclose : st.closeElement name start stop = .ok st₁) (start' stop' : Nat) :
    ∃ st₁', st'.closeElement name start' stop' = .ok st₁' ∧ G.Alike st₁ st₁' := by
  unfold Stack.closeElement at hclose ⊢
  split at hclose
  · cases hclose
  · rename_i hvoid
    rw [if_neg hvoid]
    exact h.closeNamed hclose start' stop'

/-- Ending branches stops in both runs at nodes that they have opened, or it goes on in the second
run from the node on which it stands. -/
theorem closeBranches (h : G.Alike st st') (kind : Kind) (r r' : Int) :
    (∃ n ns n' ns', (st.closeBranches kind r).inner = n :: ns ∧
        (st'.closeBranches kind r').inner = n' :: ns' ∧ n.Like move n' ∧
        ∀ q q', G.Alike ((st.closeBranches kind r).pop q) ((st'.closeBranches kind r').pop q')) ∨
      ∃ st₀', G.Bare (st.closeBranches kind r) st₀' ∧
        st'.closeBranches kind r' = st₀'.closeBranches kind r' := by
  fun_induction Stack.closeBranches kind r st generalizing st' with
  | case1 st hnil =>
    rcases h.bare_or_opened with hbare | ⟨n, ns, n', ns', hcons, -⟩
    · exact .inr ⟨st', hbare, rfl⟩
    · cases hnil.symm.trans hcons
  | case2 st n ns hcons hn ih =>
    rcases h.bare_or_opened with hbare | ⟨m, ms, m', ms', hm, hm', hlike, hpop⟩
    · -- the node on which the first run stands is no branch and continues no chain
      rw [hbare.not_isBranch hcons, hbare.elseif hcons, Bool.and_false] at hn
      cases hn
    · obtain ⟨rfl, rfl⟩ := List.cons.inj (hcons.symm.trans hm)
      rw [Stack.closeBranches_of_cons _ _ hm', hlike.kind, hlike.elseif, if_pos hn]
      exact ih (hpop r r')
  | case3 st n ns hcons hn =>
    rcases h.bare_or_opened with hbare | ⟨m, ms, m', ms', hm, hm', hlike, hpop⟩
    · exact .inr ⟨st', hbare, rfl⟩
    · obtain ⟨rfl, rfl⟩ := List.cons.inj (hcons.symm.trans hm)
      rw [Stack.closeBranches_of_cons _ _ hm', hlike.kind, hlike.elseif, if_neg hn]
      exact .inl ⟨_, _, _, _, hm, hm', hlike, hpop⟩

/-- **A block is closed in both runs.** If it was the one on which the first run stands, nothing is
said of what is open afterwards. -/
theorem closeBlock {kind : Kind} {keyword : Text} {start stop : Nat} (h : G.Alike st st')
    (hkind : kind ≠ .fragment) (hclose : st.closeBlock kind keyword start stop = .ok st₁)
    (start' stop' : Nat) :
    ∃ st₁', st'.closeBlock kind keyword start' stop' = .ok st₁' ∧ G.Follows st₁ st₁' := by
  simp only [Stack.closeBlock] at hclose
  split at hclose
  · rename_i hcurrent
    cases hclose
    rcases (h.closeOmitted start start').closeBranches kind start start' with
      ⟨n, ns, n', ns', hn, hn', hlike, hpop⟩ | ⟨st₀', hbare, hst'⟩
    · rw [Stack.current, hn, List.headD_cons] at hcurrent
      refine ⟨_, if_pos ?_, fun _ => hpop stop stop'⟩
      rw [Stack.current, hn', List.headD_cons, hlike.kind]
      exact hcurrent
    · have hsame : st'.closeBlock kind keyword start' stop'
          = st₀'.closeBlock kind keyword start' stop' := by
        rw [Stack.closeBlock, Stack.closeBlock, hbare.closeOmitted, hst']
      obtain ⟨⟨st₁', hclose'⟩, hlost⟩ := hbare.closeBlock hkind hcurrent keyword start' stop' stop
      exact ⟨st₁', hsame.trans hclose', fun hkept => absurd hkept hlost⟩
  · cases hclose

/-- Where only the root is open, it is so in both runs. -/
theorem root_of_nil (h : G.Alike st st') (hroots : G.OnRoots) (hnil : st.inner = []) :
    st'.inner = [] ∧ G.rel st.root st'.root := by
  rcases h.bare_or_opened with ⟨f, f', rfl, rfl, hf⟩ | ⟨n, ns, n', ns', hcons, -⟩
  · rw [hroots.base, hroots.base']
    exact ⟨rfl, hf⟩
  · cases hnil.symm.trans hcons

/-- The roots of two texts that have ended. -/
theorem finish {stop : Nat} {root : Node} (h : G.Alike st st') (hroots : G.OnRoots)
    (hfinish : st.finish stop = .ok root) (stop' : Nat) :
    ∃ root', st'.finish stop' = .ok root' ∧ G.rel root root' := by
  rw [Stack.finish_eq_ok] at hfinish
  have halike := h.closeOmitted stop stop'
  rw [hfinish] at halike
  obtain ⟨hnil, hroot⟩ := halike.root_of_nil hroots rfl
  exact ⟨_, Stack.finish_eq_ok.2 (congrArg (Stack.mk _) hnil), hroot⟩

end Alike

end Ground

end ComponentDivision
