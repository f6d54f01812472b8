/-
# Chains of if blocks

An if block may go on with another guard. Such a chain means nested blocks: an if block whose else
branch is the block that the second guard begins. Both are read as two templates are, one if block
each, and both have the expressions of the first block and then those of the second one.

* `chainText`, `nestedText` : the two ways to write it;
* `Template.BeforeElse` : the first block, before the tag of its else branch;
* `Ground.chain` : an if block as it is, and as the continuation of another one;
* `parseTemplate_else_if` : the same expressions either way.
-/
import ComponentDivision.Proofs.Template.IfBlock
import ComponentDivision.Proofs.Template.Transfer

namespace ComponentDivision

/-- The tag by which an if block goes on with another guard, up to the guard. -/
def elseIfTag : Text :=
  ['{', ':', 'e', 'l', 's', 'e', ' ', 'i', 'f', ' ']

/-- The tag of an else branch. -/
def elseTag : Text :=
  ['{', ':', 'e', 'l', 's', 'e', '}']

/-- An if block that goes on with another guard. -/
def chainText (a y c x : Text) : Text :=
  ifOpening a y ++ (elseIfTag ++ (c ++ '}' :: x ++ ifCloser))

/-- An if block with an if block as its else branch. -/
def nestedText (a y c x : Text) : Text :=
  ifOpening a y ++ (elseTag ++ (ifText c x ++ ifCloser))

/-! ## Blocks in else branches -/

namespace Node

variable {f b : Node}

theorem expressions_endAt (n : Node) (r : Int) : (n.endAt r).expressions = n.expressions := by
  cases n
  rfl

/-- An else branch adds its expressions to those of the block. -/
theorem expressions_attach_else {kind : GuardedKind} (hf : f.kind = .guarded kind)
    (hnone : f.elseBlock = none) (hb : b.kind = .branch .elseBlock) :
    (f.attach b).expressions = f.expressions ++ allExpressions b.children := by
  obtain ⟨l, attributes, value, children, elseBlock, pending, thenBlock, catchBlock⟩ := f
  obtain rfl : elseBlock = none := hnone
  have hl : l.kind = .guarded kind := hf
  unfold attach
  rw [hb]
  cases b
  simp only [expressions, hl, branchExpressions, List.append_nil]

/-- The same block as the continuation of another one. -/
def continued (n : Node) : Node :=
  { n with label := { n.label with elseif := true } }

theorem continued_attach (n m : Node) : (n.attach m).continued = n.continued.attach m := by
  unfold attach
  split <;> rfl

theorem continued_setPattern (n : Node) (b : BranchKind) (pattern : Option Text) :
    continued { n with label := n.label.setPattern b pattern }
      = { n.continued with label := n.continued.label.setPattern b pattern } := by
  unfold continued Label.setPattern
  dsimp only
  split <;> rfl

theorem expressions_continued (n : Node) : n.continued.expressions = n.expressions := by
  cases n
  rfl

end Node

namespace Stack

variable {st : Stack} {root g b f : Node}

/-- An if block that is innermost and begins a chain ends alone. -/
theorem closeBlock_of_if {keyword : Text} {start stop : Nat}
    (hif : st.current.kind = .guarded .ifBlock) (hfirst : st.current.label.elseif = false) :
    st.closeBlock (.guarded .ifBlock) keyword start stop = .ok (st.pop stop) := by
  have helement : st.current.kind ≠ .element .element := by
    rw [hif]
    nofun
  rw [closeBlock_eq_ok, closeOmitted_eq_self helement,
    closeBranches_eq_self (congrArg Kind.isBranch hif) hfirst]
  exact ⟨hif, rfl⟩

/-- An else branch ends with its block. -/
theorem closeBranches_else (hb : b.kind = .branch .elseBlock) (hf : f.kind = .guarded .ifBlock)
    (hfirst : f.label.elseif = false) (r : Int) :
    (Stack.mk root [b, f]).closeBranches (.guarded .ifBlock) r
      = ⟨root, [f.attach (b.endAt r)]⟩ := by
  have hbranch : (Stack.mk root [b, f]).current.kind.isBranch = true := congrArg Kind.isBranch hb
  have hif : (f.attach (b.endAt r)).kind = .guarded .ifBlock := (f.kind_attach _).trans hf
  rw [closeBranches_of_branch hbranch, closeBranches_eq_self]
  · rfl
  · exact congrArg Kind.isBranch hif
  · exact (congrArg Label.elseif (f.label_attach _)).trans hfirst

/-- A chain of if blocks ends at once. -/
theorem closeBranches_chain (hg : g.kind = .guarded .ifBlock) (helseif : g.label.elseif = true)
    (hb : b.kind = .branch .elseBlock) (hf : f.kind = .guarded .ifBlock)
    (hfirst : f.label.elseif = false) (r : Int) :
    (Stack.mk root [g, b, f]).closeBranches (.guarded .ifBlock) r
      = ⟨root, [f.attach ((b.attach (g.endAt r)).endAt r)]⟩ := by
  have hchain : (g.kind.isBranch || Kind.guarded .ifBlock = .guarded .ifBlock &&
      g.kind = .guarded .ifBlock && g.label.elseif) = true := by
    rw [hg, helseif]
    rfl
  rw [closeBranches_of_cons _ _ rfl, if_pos hchain]
  exact closeBranches_else ((b.kind_attach _).trans hb) hf hfirst r

end Stack

/-- An if block as it is, and as the continuation of another one. -/
def Ground.chain (move : Expression → Expression) (root root' b f : Node)
    (hb : b.kind = .branch .elseBlock) (hf : f.kind = .guarded .ifBlock)
    (hfirst : f.label.elseif = false) : Ground move where
  base := some ([], root)
  base' := some ([b, f], root')
  rel g g' := g.kind = .guarded .ifBlock ∧ g.label.elseif = false ∧ g.continued.Like move g'
  attach {g g' m m'} hg hm := by
    refine ⟨(g.kind_attach m).trans hg.1,
      (congrArg Label.elseif (g.label_attach m)).trans hg.2.1, ?_⟩
    rw [Node.continued_attach]
    exact hg.2.2.attach hm
  setPattern {g g'} b pattern hg := by
    refine ⟨(Label.setPattern_eq _ b pattern).1.trans hg.1, ?_, ?_⟩
    · show (g.label.setPattern b pattern).elseif = false
      unfold Label.setPattern
      split <;> exact hg.2.1
    · rw [Node.continued_setPattern]
      exact hg.2.2.setPattern b pattern
  kind {g g'} hg := .inr ⟨nofun, hg.1, hg.2.1, hg.2.2.kind.trans hg.1, hg.2.2.isNone_elseBlock⟩
  kind' hg := by
    rw [hg.2.2.kind]
    exact congrArg Kind.isElement hg.1
  plain := by
    rintro o ⟨⟩
    exact nofun
  plain' := by
    rintro o ⟨⟩ n hn
    rcases List.mem_cons.1 hn with rfl | hn
    · rw [hb]
      rfl
    · rw [List.mem_singleton.1 hn, hf]
      rfl
  closes {g g'} hg _ keyword start stop := by
    have hg' : g'.kind = .guarded .ifBlock := hg.2.2.kind.trans hg.1
    refine ⟨_, Stack.closeBlock_eq_ok.2 ⟨?_, rfl⟩⟩
    rw [Stack.closeOmitted_eq_self (by rw [Stack.current_upon_nil, hg']; nofun)]
    show ((Stack.mk root' [g', b, f]).closeBranches (.guarded .ifBlock) start).current.kind = _
    rw [Stack.closeBranches_chain hg' hg.2.2.elseif hb hf hfirst]
    exact (f.kind_attach _).trans hf

/-- Where the branches of the block on which the first run stands have ended, those of the block on
which the second run stands have ended too. -/
theorem Ground.Alike.closeBranches_upon {move : Expression → Expression} {G : Ground move}
    {st st' : Stack} {kind : Kind} {r : Int} {g : Node} (h : G.Alike st st')
    (hbase : G.base ≠ none) (hst : st.closeBranches kind r = .upon G.base g []) (r' : Int) :
    ∃ g', st'.closeBranches kind r' = (Stack.upon G.base' g' []).closeBranches kind r' ∧
      G.rel g g' := by
  obtain ⟨o, ho⟩ := Option.ne_none_iff_exists'.1 hbase
  rcases h.closeBranches kind r r' with ⟨n, ns, n', ns', -, -, -, hpop⟩ | ⟨st₀', hbare, hst'⟩
  · obtain ⟨f, f', us, us', hleft, -⟩ := hpop r r'
    rw [hst, ho] at hleft
    have hlength := congrArg (fun st : Stack => st.inner.length) hleft
    simp [Stack.length_inner_pop, Stack.upon] at hlength
    omega
  · obtain ⟨f, g', hleft, rfl, hrel⟩ := hbare
    rw [hst, ho] at hleft
    obtain rfl : g = f := by
      have hcurrent := congrArg Stack.current hleft
      rwa [Stack.current_upon_nil, Stack.current_upon_nil] at hcurrent
    exact ⟨g', hst', hrel⟩

namespace Template

open Reader

variable {ctx : Context} {grammar : Grammar} {st : Stack} {root root₁ root₂ r f b n₁ n₂ : Node}
  {a y c x rest : Text} {es : List Expression}

theorem item_ifCloser {st' : Stack} {n : Nat}
    (h : st.closeBlock (.guarded .ifBlock) ['i', 'f'] n (n + 5) = .ok st') (rest : Text) :
    item ctx n '{' st ⟨n + 1, '/' :: 'i' :: 'f' :: '}' :: rest⟩ = .ok (st', ⟨n + 5, rest⟩) := by
  show ofExcept (st.closeBlock (.guarded .ifBlock) ['i', 'f'] n (n + 5)) ⟨n + 5, rest⟩ = _
  rw [h]
  rfl

/-- The closer of an if block that is the whole template and has an else branch. -/
theorem exists_closed (ctx : Context) {n : Nat}
    (h : (st.closeOmitted n).closeBranches (.guarded .ifBlock) n = ⟨r, [f.attach b]⟩)
    (hr : r.children = []) (hf : f.kind = .guarded .ifBlock) (hnone : f.elseBlock = none)
    (hb : b.kind = .branch .elseBlock) :
    ∃ root, run ctx st ⟨n, ifCloser⟩ = .ok root ∧
      allExpressions root.children = f.expressions ++ allExpressions b.children := by
  have hkind : (f.attach b).kind = .guarded .ifBlock := (f.kind_attach b).trans hf
  have hclose : st.closeBlock (.guarded .ifBlock) ['i', 'f'] n (n + 5)
      = .ok ⟨r.attach ((f.attach b).endAt (n + 5 : Nat)), []⟩ := by
    rw [Stack.closeBlock_eq_ok, h]
    exact ⟨hkind, rfl⟩
  refine ⟨r.attach ((f.attach b).endAt (n + 5 : Nat)), ?_, ?_⟩
  · refine (run_of_item (item_ifCloser hclose [])).trans ?_
    exact (run_eq_ok_of_nil rfl).2 (Stack.finish_eq_ok.2 (Stack.closeOmitted_of_nil _ rfl))
  · have hend : ((f.attach b).endAt (n + 5 : Nat)).kind = .guarded .ifBlock := hkind
    rw [allExpressions_attach, hr, hend, Node.expressions_endAt,
      Node.expressions_attach_else hf hnone hb]
    rfl

/-! ## The first block -/

/-- Where an expression of the first block stands if its closer is replaced. -/
def beforeElse (grammar : Grammar) (a y tail : Text) : Shared :=
  .between grammar (ifOpening a y) ⟨[], ifCloser⟩ ⟨[], tail⟩ 0 (Nat.zero_le _)

/-- The run over an if block up to the tag of its else branch, before which only the block is open,
with the expressions `es`. -/
structure BeforeElse (grammar : Grammar) (a y tail : Text) (es : List Expression) (st : Stack)
    (r f : Node) : Prop where
  goes : Goes (.of grammar (ifOpening a y ++ tail)) (start (ifOpening a y ++ tail))
    ⟨0, ifOpening a y ++ tail⟩ st ⟨(ifOpening a y).length, tail⟩
  closed : st.closeOmitted (ifOpening a y).length = ⟨r, [f]⟩
  children : r.children = []
  kind : f.kind = .guarded .ifBlock
  first : f.label.elseif = false
  elseBlock : f.elseBlock = none
  expressions : f.expressions = es

theorem BeforeElse.current {tail : Text} (h : BeforeElse grammar a y tail es st r f) :
    (st.closeOmitted (ifOpening a y).length).current = f := by
  rw [h.closed]
  rfl

/-- **An if block without an else branch may get one.** -/
theorem exists_beforeElse (ha : ScannedWhole [] a)
    (h : parseTemplate grammar (ifText a y) = .ok root) (hroot : root.children = [n₁])
    (hnone : n₁.elseBlock = none) (tail : Text) (htail : tail.takeWhile inText = []) :
    ∃ st r f, BeforeElse grammar a y tail
      ((allExpressions root.children).map (beforeElse grammar a y tail).move) st r f := by
  obtain ⟨-, hitem, -⟩ := exists_opener ha h
  obtain ⟨f, st, rfl, hf, hbody, hends, -⟩ := exists_body ha h hroot
  have hsettled : st.Settled :=
    hbody.settled
      (settled_of_item (settled_start _) (item_of_reader (c := ⟨0, ifText a y⟩) rfl hitem))
  -- the block has no else branch, so that nothing is open in it before its closer
  have hinner := hsettled.closeOmitted.assembled.eq_of_closeBranches hends hf.kind_eq hnone
  have hgoes : Goes (beforeElse grammar a y tail).leftContext (start (ifText a y))
      ((beforeElse grammar a y tail).left.cursor ⟨0, ifOpening a y⟩) st
      ((beforeElse grammar a y tail).left.cursor ⟨(ifOpening a y).length, []⟩) :=
    .item (c := ⟨0, ifText a y⟩) rfl hitem hbody
  have hstart : (Ground.roots (beforeElse grammar a y tail).move).Alike (start (ifText a y))
      (start (ifOpening a y ++ tail)) :=
    ⟨_, _, [], [], rfl, rfl, .nil, rfl, rfl⟩
  obtain ⟨st', hst', hgoes'⟩ := hgoes.share_exact htail ⟨Nat.zero_le _, rfl⟩ hstart
    fun _ _ => Ground.kept_of_none rfl _
  obtain ⟨r, r', us, us', hleft, hright, hus, hr⟩ :=
    hst'.closeOmitted (ifOpening a y).length (ifOpening a y).length
  cases hinner.symm.trans hleft
  obtain ⟨f', us', hf', hnil, rfl⟩ := List.forall₂_cons_left_iff.1 hus
  cases List.forall₂_nil_left_iff.1 hnil
  refine ⟨st', r', f', hgoes', hright, ?_, hf'.kind.trans hf.kind_eq, hf'.elseif.trans hf.elseif_eq,
    ?_, ?_⟩
  · exact List.isEmpty_iff.1 (hr.2.children.isEmpty.trans rfl)
  · have hnone' : f.elseBlock = none := hnone
    rw [← Option.isNone_iff_eq_none, hf'.isNone_elseBlock, hnone']
    rfl
  · rw [hroot, allExpressions, allExpressions, List.append_nil, Node.expressions_endAt]
    exact hf'.expressions

/-! ## The second block in an else branch -/

/-- Where an expression of the second block stands in an else branch of the first one. -/
def inElse (grammar : Grammar) (a y c x : Text) : Shared :=
  .between grammar (ifText c x) ⟨[], []⟩ ⟨ifOpening a y ++ elseTag, ifCloser⟩ 0 (Nat.zero_le _)

theorem text_inElse (grammar : Grammar) (a y c x : Text) :
    (inElse grammar a y c x).right.text (ifText c x) = nestedText a y c x :=
  List.append_assoc _ _ _

/-- The run over the second block goes through the same items in the branch. At the closer of the
first block only the branch is open in it. -/
theorem exists_body_nested (h : parseTemplate grammar (ifText c x) = .ok root₂)
    (hkind : f.kind = .guarded .ifBlock) (a y : Text) (r : Node) :
    ∃ (st' : Stack) (n : Nat) (b : Node),
      Goes (.of grammar (nestedText a y c x))
        ⟨r, [.branch .elseBlock (ifOpening a y).length, f]⟩
        ⟨(ifOpening a y).length + 7, ifText c x ++ ifCloser⟩ st' ⟨n, ifCloser⟩ ∧
      st'.closeOmitted n = ⟨r, [b, f]⟩ ∧ b.kind = .branch .elseBlock ∧
      allExpressions b.children
        = (allExpressions root₂.children).map (inElse grammar a y c x).move := by
  obtain ⟨st, d, hgoes, hd, hfinish⟩ := Template.exists_goes h
  have hplain : ∀ o ∈ some ([f], r), ∀ n ∈ o.1, n.kind.isElement = false := by
    rintro o ⟨⟩ n hn
    rw [List.mem_singleton.1 hn, hkind]
    rfl
  have hopened : (Ground.found (inElse grammar a y c x).move [] (some ([f], r))
      (.branch .elseBlock) rfl hplain).Alike (start (ifText c x))
      ⟨r, [.branch .elseBlock (ifOpening a y).length, f]⟩ :=
    ⟨_, _, [], [], rfl, rfl, .nil, rfl, rfl, rfl⟩
  obtain ⟨st', hst', hgoes'⟩ := (Goes.whole (S := inElse grammar a y c x) hgoes rfl).share_exact
    rfl ⟨Nat.zero_le _, rfl⟩ hopened fun _ _ => Ground.kept_of_none rfl _
  have hfrom : (inElse grammar a y c x).right.cursor ⟨0, ifText c x⟩
      = ⟨(ifOpening a y).length + 7, ifText c x ++ ifCloser⟩ := by
    show Cursor.mk (0 + (ifOpening a y ++ elseTag).length) _ = _
    rw [Nat.zero_add, List.length_append]
    rfl
  obtain ⟨n, hto⟩ : ∃ n, (inElse grammar a y c x).right.cursor d = ⟨n, ifCloser⟩ :=
    ⟨_, congrArg (fun t => Cursor.mk _ (t ++ ifCloser)) hd⟩
  have hcontext : (inElse grammar a y c x).rightContext = .of grammar (nestedText a y c x) :=
    congrArg (Context.of grammar) (text_inElse grammar a y c x)
  rw [hfrom, hto, hcontext] at hgoes'
  obtain ⟨root, b, us, us', hleft, hright, hus, -, hb, hexpressions⟩ := hst'.closeOmitted d.pos n
  cases (Stack.finish_eq_ok.1 hfinish).symm.trans hleft
  cases List.forall₂_nil_left_iff.1 hus
  exact ⟨st', n, b, hgoes', hright, hb, hexpressions⟩

/-- **An if block in the else branch of another one.** -/
theorem exists_nested
    (hst : BeforeElse grammar a y (elseTag ++ (ifText c x ++ ifCloser)) es st r f)
    (h : parseTemplate grammar (ifText c x) = .ok root₂) :
    ∃ root, parseTemplate grammar (nestedText a y c x) = .ok root ∧
      allExpressions root.children
        = es ++ (allExpressions root₂.children).map (inElse grammar a y c x).move := by
  have hitem : item (.of grammar (nestedText a y c x)) _ '{' st _ = .ok (_, _) :=
    item_else_of_closeOmitted _ st (ifText c x ++ ifCloser) (by rw [hst.current]; exact hst.kind)
      (by rw [hst.current]; exact hst.elseBlock)
  rw [hst.closed] at hitem
  obtain ⟨st', n, b, hgoes, hopen, hb, hexpressions⟩ := exists_body_nested h hst.kind a y r
  have hbranches : (st'.closeOmitted n).closeBranches (.guarded .ifBlock) n
      = ⟨r, [f.attach (b.endAt n)]⟩ := by
    rw [hopen]
    exact Stack.closeBranches_else hb hst.kind hst.first n
  obtain ⟨root, hrun, hroot⟩ := exists_closed (.of grammar (nestedText a y c x)) hbranches
    hst.children hst.kind hst.elseBlock hb
  refine ⟨root, hst.goes.run_eq.trans ((run_of_item hitem).trans (hgoes.run_eq.trans hrun)), ?_⟩
  rw [hroot, hst.expressions, ← hexpressions]
  rfl

/-! ## The second block as a continuation -/

/-- Where an expression of the second block stands if the first one goes on with it. -/
def inChain (grammar : Grammar) (a y c x : Text) : Shared :=
  .between grammar (c ++ '}' :: x) ⟨['{', '#', 'i', 'f', ' '], ifCloser⟩
    ⟨ifOpening a y ++ elseIfTag, ifCloser⟩ 0 (Nat.zero_le _)

theorem text_left_inChain (grammar : Grammar) (a y c x : Text) :
    (inChain grammar a y c x).left.text (c ++ '}' :: x) = ifText c x := by
  simp only [inChain, Shared.between, Surround.text, ifText, ifOpening, List.append_assoc,
    List.cons_append, List.nil_append]

theorem text_right_inChain (grammar : Grammar) (a y c x : Text) :
    (inChain grammar a y c x).right.text (c ++ '}' :: x) = chainText a y c x :=
  List.append_assoc _ _ _

theorem leftContext_inChain :
    (inChain grammar a y c x).leftContext = .of grammar (ifText c x) :=
  congrArg (Context.of grammar) (text_left_inChain grammar a y c x)

theorem rightContext_inChain :
    (inChain grammar a y c x).rightContext = .of grammar (chainText a y c x) :=
  congrArg (Context.of grammar) (text_right_inChain grammar a y c x)

/-- The place where the body of the second block begins. -/
theorem on_inChain (c x : Text) : Cursor.On (c ++ '}' :: x) ⟨c.length + 1, x⟩ := by
  constructor
  · show c.length + 1 ≤ (c ++ '}' :: x).length
    rw [List.length_append, List.length_cons]
    omega
  · rw [← List.drop_drop, List.drop_left]
    rfl

theorem cursor_left_inChain (grammar : Grammar) (a y c x : Text) :
    (inChain grammar a y c x).left.cursor ⟨c.length + 1, x⟩
      = ⟨5 + c.length + 1, x ++ ifCloser⟩ := by
  show Cursor.mk (c.length + 1 + 5) _ = _
  congr 1
  omega

theorem cursor_right_inChain (grammar : Grammar) (a y c x : Text) :
    (inChain grammar a y c x).right.cursor ⟨c.length + 1, x⟩
      = ⟨(ifOpening a y).length + 10 + c.length + 1, x ++ ifCloser⟩ := by
  have hlength : (ifOpening a y ++ elseIfTag).length = (ifOpening a y).length + 10 :=
    List.length_append
  show Cursor.mk (c.length + 1 + (ifOpening a y ++ elseIfTag).length) _ = _
  rw [hlength]
  congr 1
  omega

/-- The place where the second block ends. -/
theorem cursor_left_inChain_end (grammar : Grammar) (a y c x : Text) :
    (inChain grammar a y c x).left.cursor ⟨c.length + 1 + x.length, []⟩
      = ⟨(ifOpening c x).length, ifCloser⟩ := by
  show Cursor.mk (c.length + 1 + x.length + 5) _ = _
  rw [length_ifOpening]
  congr 1
  omega

/-- The guard of the second block. -/
theorem place_inChain :
    (Context.of grammar (chainText a y c x)).place ((ifOpening a y).length + 10)
        ((ifOpening a y).length + 10 + c.length)
      = (inChain grammar a y c x).move (ifGuard grammar c x) := by
  have hplace := (inChain grammar a y c x).place (Nat.zero_le c.length) (by
    show c.length ≤ (c ++ '}' :: x).length
    rw [List.length_append]
    omega)
  have hleft : 0 + (inChain grammar a y c x).left.before.length = 5 := rfl
  have hleft' : c.length + (inChain grammar a y c x).left.before.length = 5 + c.length :=
    Nat.add_comm _ _
  have hright : (inChain grammar a y c x).right.before.length = (ifOpening a y).length + 10 :=
    List.length_append
  rw [hleft, hleft', hright, Nat.zero_add, Nat.add_comm c.length] at hplace
  rw [← text_right_inChain grammar, ifGuard, ← text_left_inChain grammar a y]
  exact hplace

/-- The open nodes after the tag by which the block `f` goes on with another guard. -/
def continuation (grammar : Grammar) (a y c x : Text) (r f : Node) : Stack :=
  ((Stack.mk r [f]).push (.branch .elseBlock (ifOpening a y).length)).push
    { label := { kind := .guarded .ifBlock, start := (ifOpening a y).length, elseif := true
                 expression := some ((Context.of grammar (chainText a y c x)).place
                   ((ifOpening a y).length + 10) ((ifOpening a y).length + 10 + c.length)) } }

/-- The second block is open, as it is and as the continuation of the first one. -/
theorem alike_continuation (r : Node) (hkind : f.kind = .guarded .ifBlock)
    (hfirst : f.label.elseif = false) :
    (Ground.chain (inChain grammar a y c x).move (start (ifText c x)).root r
      (.branch .elseBlock (ifOpening a y).length) f rfl hkind hfirst).Alike
      (afterOpener grammar c x) (continuation grammar a y c x r f) := by
  refine ⟨_, _, [], [], rfl, rfl, .nil, rfl, rfl, Node.like_leaf (Label.like_iff.2
    ⟨rfl, rfl, ?_, rfl, rfl, rfl⟩)⟩
  exact congrArg some place_inChain

/-- The run over the body of the second block goes through the same items in the continuation. The
closer ends the continuation, the else branch and the first block. -/
theorem exists_body_continued (hc : ScannedWhole [] c)
    (h : parseTemplate grammar (ifText c x) = .ok root₂) (hroot : root₂.children = [n₂])
    (hkind : f.kind = .guarded .ifBlock) (hfirst : f.label.elseif = false) (a y : Text) (r : Node) :
    ∃ (st' : Stack) (n : Nat) (g : Node),
      Goes (.of grammar (chainText a y c x)) (continuation grammar a y c x r f)
        ⟨(ifOpening a y).length + 10 + c.length + 1, x ++ ifCloser⟩ st' ⟨n, ifCloser⟩ ∧
      (st'.closeOmitted n).closeBranches (.guarded .ifBlock) n
        = ⟨r, [f.attach (((Node.branch .elseBlock (ifOpening a y).length).attach
            (g.endAt n)).endAt n)]⟩ ∧
      g.kind = .guarded .ifBlock ∧
      g.expressions = (allExpressions root₂.children).map (inChain grammar a y c x).move := by
  obtain ⟨g, st, rfl, hg, hbody, hends, hstands⟩ := exists_body hc h hroot
  have hfrom := cursor_left_inChain grammar a y c x
  have hto := cursor_left_inChain_end grammar a y c x
  rw [← leftContext_inChain, ← hfrom, ← hto] at hbody
  -- the second block stays open up to its closer, so that the runs always have it to stand on
  have hkept {st₁ : Stack} {c₁ : Cursor}
      (h₁ : Goes (inChain grammar a y c x).leftContext (afterOpener grammar c x)
        ((inChain grammar a y c x).left.cursor ⟨c.length + 1, x⟩) st₁ c₁)
      (h₂ : Goes (inChain grammar a y c x).leftContext st₁ c₁ st
        ((inChain grammar a y c x).left.cursor ⟨c.length + 1 + x.length, []⟩)) :
      (Ground.chain (inChain grammar a y c x).move (start (ifText c x)).root r
        (.branch .elseBlock (ifOpening a y).length) f rfl hkind hfirst).Kept st₁ := by
    rintro o ⟨⟩
    rw [hfrom, leftContext_inChain] at h₁
    rw [hto, leftContext_inChain] at h₂
    exact (hstands _ _ h₁ h₂).length_lt
  obtain ⟨st', hst', hgoes⟩ := hbody.share_exact rfl (on_inChain c x)
    (alike_continuation r hkind hfirst) hkept
  obtain ⟨n, hto'⟩ : ∃ n, (inChain grammar a y c x).right.cursor ⟨c.length + 1 + x.length, []⟩
      = ⟨n, ifCloser⟩ := ⟨_, rfl⟩
  rw [cursor_right_inChain, hto', rightContext_inChain] at hgoes
  obtain ⟨g', hbranches, -, -, hg'⟩ :=
    (hst'.closeOmitted (ifOpening c x).length n).closeBranches_upon nofun hends n
  have hkind' : g'.kind = .guarded .ifBlock := hg'.kind.trans hg.kind_eq
  refine ⟨st', n, g', hgoes, hbranches.trans ?_, hkind', ?_⟩
  · exact Stack.closeBranches_chain hkind' hg'.elseif rfl hkind hfirst n
  · rw [hroot, allExpressions, allExpressions, List.append_nil, Node.expressions_endAt,
      ← Node.expressions_continued g]
    exact hg'.expressions

/-- **An if block that goes on with another one.** -/
theorem exists_chain
    (hst : BeforeElse grammar a y (elseIfTag ++ (c ++ '}' :: x ++ ifCloser)) es st r f)
    (hc : ScannedWhole [] c) (h : parseTemplate grammar (ifText c x) = .ok root₂)
    (hroot : root₂.children = [n₂]) :
    ∃ root, parseTemplate grammar (chainText a y c x) = .ok root ∧
      allExpressions root.children
        = es ++ (allExpressions root₂.children).map (inChain grammar a y c x).move := by
  obtain ⟨haccepted, -, -⟩ := exists_opener hc h
  have hitem : item (.of grammar (chainText a y c x)) _ '{' st _ = .ok (_, _) :=
    item_elseIf hc haccepted (by rw [hst.current]; exact hst.kind)
      (by rw [hst.current]; exact hst.elseBlock) (x ++ ifCloser)
  have htail : c ++ '}' :: (x ++ ifCloser) = c ++ '}' :: x ++ ifCloser :=
    (List.append_assoc c ('}' :: x) ifCloser).symm
  rw [hst.closed, htail] at hitem
  obtain ⟨st', n, g, hgoes, hbranches, hg, hexpressions⟩ :=
    exists_body_continued hc h hroot hst.kind hst.first a y r
  obtain ⟨root', hrun, hroot'⟩ := exists_closed (.of grammar (chainText a y c x)) hbranches
    hst.children hst.kind hst.elseBlock (Node.kind_attach _ _)
  have hnot : (g.endAt n).kind.isBranch = false := congrArg Kind.isBranch hg
  have hbranch : allExpressions ((Node.branch .elseBlock (ifOpening a y).length).attach
      (g.endAt n)).children = g.expressions := by
    rw [allExpressions_attach, hnot, Node.expressions_endAt]
    rfl
  refine ⟨root', hst.goes.run_eq.trans ((run_of_item hitem).trans (hgoes.run_eq.trans hrun)), ?_⟩
  rw [hroot', hst.expressions, ← hexpressions, ← hbranch]
  rfl

end Template

/-! ## The expressions -/

/-- The texts of the expressions of a template, if they are those of two others. -/
theorem texts_of_parts {grammar : Grammar} {t s₁ s₂ t₁ t₂ : Text}
    {left₁ right₁ left₂ right₂ : Surround} {root root₁ root₂ : Node}
    (h : parseTemplate grammar t = .ok root) (h₁ : parseTemplate grammar s₁ = .ok root₁)
    (h₂ : parseTemplate grammar s₂ = .ok root₂)
    (hleft₁ : left₁.text t₁ = s₁) (hright₁ : right₁.text t₁ = t)
    (hleft₂ : left₂.text t₂ = s₂) (hright₂ : right₂.text t₂ = t)
    (hparts : allExpressions root.children
      = (allExpressions root₁.children).map
          (Shared.between grammar t₁ left₁ right₁ 0 (Nat.zero_le _)).move
        ++ (allExpressions root₂.children).map
          (Shared.between grammar t₂ left₂ right₂ 0 (Nat.zero_le _)).move) (f : Fragment) :
    ({ f with text := t }.treeExpressions root).map Fragment.text
      = ({ f with text := s₁ }.treeExpressions root₁).map Fragment.text
        ++ ({ f with text := s₂ }.treeExpressions root₂).map Fragment.text := by
  have htexts (u : Text) (n : Node) : ({ f with text := u }.treeExpressions n).map Fragment.text
      = (allExpressions n.children).map fun x => u.slice x.start x.stop :=
    List.map_map
  -- an expression that is moved stands in the longer text, so that it stood in the shared part
  have horder := inOrder_of_parseTemplate h
  rw [hparts] at horder
  rw [htexts, htexts, htexts, hparts, List.map_append, ← hleft₁, ← hleft₂]
  congr 1
  · rw [← hright₁] at horder ⊢
    exact Shared.map_slice_between
      (fun e he => horder.exact _ (List.mem_append_left _ (List.mem_map_of_mem he)))
      fun e he => ((inOrder_of_parseTemplate h₁).exact e he).nonneg
  · rw [← hright₂] at horder ⊢
    exact Shared.map_slice_between
      (fun e he => horder.exact _ (List.mem_append_right _ (List.mem_map_of_mem he)))
      fun e he => ((inOrder_of_parseTemplate h₂).exact e he).nonneg

/-- **A chain of if blocks means nested if blocks.** If two if blocks are templates and the first
one has no else branch, then the first one may go on with the second one, and it may have the second
one as its else branch. Either way the texts of the expressions are those of the first block and
then those of the second one. -/
theorem parseTemplate_else_if {grammar : Grammar} {a y c x : Text} {root₁ root₂ n₁ n₂ : Node}
    (ha : ScannedWhole [] a) (hc : ScannedWhole [] c)
    (h₁ : parseTemplate grammar (ifText a y) = .ok root₁) (hroot₁ : root₁.children = [n₁])
    (hnone : n₁.elseBlock = none)
    (h₂ : parseTemplate grammar (ifText c x) = .ok root₂) (hroot₂ : root₂.children = [n₂]) :
    ∃ root root', parseTemplate grammar (chainText a y c x) = .ok root ∧
      parseTemplate grammar (nestedText a y c x) = .ok root' ∧
      ∀ f : Fragment,
        ({ f with text := chainText a y c x }.treeExpressions root).map Fragment.text
            = ({ f with text := nestedText a y c x }.treeExpressions root').map Fragment.text ∧
        ({ f with text := chainText a y c x }.treeExpressions root).map Fragment.text
            = ({ f with text := ifText a y }.treeExpressions root₁).map Fragment.text
              ++ ({ f with text := ifText c x }.treeExpressions root₂).map Fragment.text := by
  obtain ⟨st, r, f, hst⟩ := Template.exists_beforeElse ha h₁ hroot₁ hnone
    (elseIfTag ++ (c ++ '}' :: x ++ ifCloser)) rfl
  obtain ⟨root, hchain, hparts⟩ := Template.exists_chain hst hc h₂ hroot₂
  obtain ⟨st', r', f', hst'⟩ := Template.exists_beforeElse ha h₁ hroot₁ hnone
    (elseTag ++ (ifText c x ++ ifCloser)) rfl
  obtain ⟨root', hnested, hparts'⟩ := Template.exists_nested hst' h₂
  refine ⟨root, root', hchain, hnested, fun f => ?_⟩
  have htexts := texts_of_parts hchain h₁ h₂ rfl rfl (Template.text_left_inChain grammar a y c x)
    (Template.text_right_inChain grammar a y c x) hparts f
  have htexts' := texts_of_parts hnested h₁ h₂ rfl rfl (List.append_nil _)
    (Template.text_inElse grammar a y c x) hparts' f
  exact ⟨htexts.trans htexts'.symm, htexts⟩

open Template in
/-- An if block without an else branch. -/
theorem parseTemplate_if_name :
    parseTemplate .permissive (ifText ['p'] "\x7bp\x7d".toList)
      = .ok
        { label := { kind := .fragment, start := 0, stop := 15 }
          children := [
            { label := { kind := .guarded .ifBlock, start := 0, stop := 15
                         expression := some ⟨5, 6, 1, 5⟩ }
              children := [
                .leaf { kind := .mustache, start := 7, stop := 10
                        expression := some ⟨8, 9, 1, 8⟩ }] }] } := by
  refine (run_of_item (item_openIf rfl 0 _ _)).trans ?_
  refine (run_of_item (item_name rfl 7 _ _)).trans ?_
  refine (run_of_item (item_ifCloser (n := 10) (Stack.closeBlock_of_if rfl rfl) [])).trans ?_
  exact (run_eq_ok_of_nil rfl).2 (Stack.finish_eq_ok.2 (Stack.closeOmitted_of_nil _ rfl))

/-- Two guards, and an else branch after the second one. -/
theorem parseTemplate_else_if_name :
    ScannedWhole [] ['p'] ∧
    ∃ root root',
      parseTemplate .permissive (chainText ['p'] "\x7bp\x7d".toList ['p']
        "\x7bp\x7d\x7b:else\x7db".toList) = .ok root ∧
      parseTemplate .permissive (nestedText ['p'] "\x7bp\x7d".toList ['p']
        "\x7bp\x7d\x7b:else\x7db".toList) = .ok root' ∧
      ∀ f : Fragment,
        ({ f with
            text := chainText ['p'] "\x7bp\x7d".toList ['p']
              "\x7bp\x7d\x7b:else\x7db".toList }.treeExpressions root).map
            Fragment.text = [['p'], ['p'], ['p'], ['p']] := by
  have hwhole : ScannedWhole [] ['p'] := by
    show readExpression _ _ _ = _
    decide +kernel
  obtain ⟨root, root', hchain, hnested, htexts⟩ := @parseTemplate_else_if .permissive ['p']
    "\x7bp\x7d".toList ['p'] "\x7bp\x7d\x7b:else\x7db".toList _ _ _ _ hwhole
    hwhole parseTemplate_if_name rfl rfl parseTemplate_if_else rfl
  exact ⟨hwhole, root, root', hchain, hnested, fun f => (htexts f).2⟩

end ComponentDivision
