/-
# The shape of parsed templates

What the kinds of the nodes of a parsed template say about the nodes around them. An
else branch belongs to an if or each block, an if block that continues a chain is all
there is in such a branch, an await block consists of its three branches, a void
element is empty, and no attribute is written twice.

* `Node.ThreeBranched` : the parts of an await block;
* `Node.WellShaped` : one node and what is right below it;
* `Node.Whole.wellShaped` : the nodes of a whole tree are so;
* `parseTemplate_wellShaped` : the nodes of every parsed template are so.
-/
import ComponentDivision.Proofs.Template.Assembly
import ComponentDivision.Proofs.Template.Laminar

namespace ComponentDivision

namespace Node

/-! ## Shapes -/

/-- The node consists of the three branches of an await block, some of which may not be
written. -/
structure ThreeBranched (n : Node) : Prop where
  /-- It has no children of its own. -/
  children_eq : n.children = []
  /-- It has the three branches and no other part. -/
  branches : ∃ pending ∈ n.pendingBlock, ∃ done ∈ n.thenBlock, ∃ failed ∈ n.catchBlock,
    pending.kind = .branch .pendingBlock ∧ done.kind = .branch .thenBlock ∧
      failed.kind = .branch .catchBlock ∧ n.parts = [pending, done, failed]
  /-- One of them is written. -/
  written : ∃ b ∈ n.parts, b.label.unwritten = false
  /-- A branch that is not written is empty. -/
  unwritten : ∀ b ∈ n.parts, b.label.unwritten = true → b.children = []
  /-- The patterns belong to branches that are written. -/
  then_pattern : n.label.thenPattern.isSome = true → ∃ b ∈ n.thenBlock, b.label.unwritten = false
  catch_pattern : n.label.catchPattern.isSome = true →
    ∃ b ∈ n.catchBlock, b.label.unwritten = false

/-- The node and what is right below it fit together. -/
structure WellShaped (n : Node) : Prop where
  /-- A block has a guard. -/
  guard : n.kind.isBlock = true → n.label.expression.isSome = true
  /-- An else branch belongs to an if or each block. -/
  else_kind : ∀ b ∈ n.elseBlock, b.kind = .branch .elseBlock ∧
    (n.kind = .guarded .ifBlock ∨ n.kind = .guarded .eachBlock)
  /-- No other part of a node is an else branch. -/
  else_only : ∀ p ∈ n.attributes ++ n.value.getD [] ++ n.children ++ n.pendingBlock.toList ++
    n.thenBlock.toList ++ n.catchBlock.toList, p.kind ≠ .branch .elseBlock
  /-- An if block that continues a chain is all there is in the else branch of an if block. -/
  chain : ∀ b ∈ n.parts, ∀ c ∈ b.parts, c.Continues →
    n.kind = .guarded .ifBlock ∧ n.elseBlock = some b ∧ b.children = [c] ∧ b.parts = [c]
  /-- An await block consists of its three branches. -/
  await : n.kind = .awaitBlock → n.ThreeBranched
  /-- No child is a branch. -/
  no_branch : ∀ c ∈ n.children, c.kind.isBranch = false
  /-- A void element is empty. -/
  void : n.kind = .element .element → ∀ name ∈ n.name, isVoid name = true → n.children = []
  /-- No attribute is written twice. -/
  names : (n.attributes.filter (·.kind == .plainAttribute)).Pairwise fun a b => a.name ≠ b.name

/-! ## Whole trees -/

variable {n p : Node}

/-- A branch consists of its children. -/
theorem Fitted.parts_branch {b : BranchKind} (h : n.Fitted) (hkind : n.kind = .branch b) :
    n.parts = n.children := by
  have hslot (b' : BranchKind) : n.slot b' = none :=
    h.slot_eq b' (by rw [hkind]; rfl)
  have hattributes := h.attributes_eq (by rw [hkind]; rfl)
  have hvalue := h.value_eq (by rw [hkind]; rfl)
  have helse : n.elseBlock = none := hslot .elseBlock
  have hpending : n.pendingBlock = none := hslot .pendingBlock
  have hthen : n.thenBlock = none := hslot .thenBlock
  have hcatch : n.catchBlock = none := hslot .catchBlock
  simp [parts, hattributes, hvalue, helse, hpending, hthen, hcatch]

/-- A part that continues a chain is the only child of an else branch. -/
theorem Shaped.continues (h : n.Shaped none) (hp : p ∈ n.parts) (hcont : p.Continues) :
    n.kind = .branch .elseBlock ∧ n.children = [p] := by
  rcases mem_parts_iff.1 hp with hp | hp | hp | ⟨b, hp⟩
  · have hkind := h.attribute_kind p hp
    rw [hcont.1] at hkind
    cases hkind
  · have hkind := h.chunk_kind p hp
    rw [hcont.1] at hkind
    exact absurd hkind (by decide)
  · exact h.chain p hp hcont
  · have hkind := h.slot_kind b p hp
    rw [hcont.1] at hkind
    cases hkind

/-- An else branch is kept as one. -/
theorem Fitted.mem_elseBlock (h : n.Fitted) (hp : p ∈ n.parts)
    (hkind : p.kind = .branch .elseBlock) : p ∈ n.elseBlock := by
  have hbranch : p.kind.isBranch ≠ false := by
    rw [hkind]
    exact Bool.false_ne_true.symm
  rcases mem_parts_iff.1 hp with hp | hp | hp | ⟨b, hp⟩
  · exact absurd (h.plain_part (Or.inl hp)).1 hbranch
  · exact absurd (h.plain_part (Or.inr (Or.inl hp))).1 hbranch
  · exact absurd (h.plain_part (Or.inr (Or.inr hp))).1 hbranch
  · have hslot := h.slot_kind b p hp
    rw [hkind] at hslot
    cases hslot
    exact hp

/-- An await block whose branches have all joined it. -/
theorem Shaped.threeBranched (h : n.Shaped none) (hkind : n.kind = .awaitBlock) :
    n.ThreeBranched := by
  obtain ⟨hbranch, -, hpattern, hwritten⟩ := h.awaits hkind
  have hslot (b) (hb : b ∈ [BranchKind.pendingBlock, .thenBlock, .catchBlock]) :
      ∃ m, n.slot b = some m := by
    rcases hbranch b hb with hnone | ⟨m, hm, -⟩
    · exact ⟨_, hnone⟩
    · exact ⟨m, hm⟩
  -- a branch that is not written is the one that the block began with
  have hempty (b) (hb : b ∈ [BranchKind.pendingBlock, .thenBlock, .catchBlock]) {m : Node}
      (hm : n.slot b = some m) (hunwritten : m.label.unwritten = true) : m.children = [] := by
    rcases hbranch b hb with hnone | ⟨m', hm', hmw⟩
    · rw [hm] at hnone
      cases hnone
      rfl
    · rw [hm] at hm'
      cases hm'
      cases hmw.symm.trans hunwritten
  obtain ⟨pending, hpending⟩ := hslot .pendingBlock (by decide)
  obtain ⟨done, hdone⟩ := hslot .thenBlock (by decide)
  obtain ⟨failed, hfailed⟩ := hslot .catchBlock (by decide)
  have hchildren : n.children = [] := h.children_eq (by rw [hkind]; rfl)
  have hparts : n.parts = [pending, done, failed] := by
    have hattributes := h.attributes_eq (by rw [hkind]; rfl)
    have hvalue := h.value_eq (by rw [hkind]; rfl)
    have helse : n.elseBlock = none := h.slot_eq .elseBlock (by rw [hkind]; rfl)
    have hpending : n.pendingBlock = some pending := hpending
    have hdone : n.thenBlock = some done := hdone
    have hfailed : n.catchBlock = some failed := hfailed
    simp [parts, hattributes, hvalue, hchildren, helse, hpending, hdone, hfailed]
  refine ⟨hchildren, ⟨pending, hpending, done, hdone, failed, hfailed,
    h.slot_kind _ _ hpending, h.slot_kind _ _ hdone, h.slot_kind _ _ hfailed, hparts⟩, ?_, ?_, ?_,
    ?_⟩
  · obtain ⟨b, hb, m, hm, hmw⟩ := hwritten rfl
    exact ⟨m, mem_parts_iff.2 (Or.inr (Or.inr (Or.inr ⟨b, hm⟩))), hmw⟩
  · intro b hb
    rw [hparts] at hb
    simp only [List.mem_cons, List.not_mem_nil, or_false] at hb
    rcases hb with rfl | rfl | rfl
    · exact hempty .pendingBlock (by decide) hpending
    · exact hempty .thenBlock (by decide) hdone
    · exact hempty .catchBlock (by decide) hfailed
  · intro hthen
    rcases hpattern .thenBlock hthen with hopened | hwrites
    · cases hopened
    · exact hwrites
  · intro hcatch
    rcases hpattern .catchBlock hcatch with hopened | hwrites
    · cases hopened
    · exact hwrites

/-- The names of plain attributes are distinct. -/
theorem Whole.pairwise_names (h : n.Whole) :
    (n.attributes.filter (·.kind == .plainAttribute)).Pairwise fun a b => a.name ≠ b.name := by
  obtain ⟨hshaped, hparts⟩ := whole_iff.1 h
  have hnames := List.pairwise_filterMap.1 hshaped.names
  rw [List.pairwise_filter]
  refine hnames.imp_of_mem fun {a b} ha hb hne hka hkb heq => ?_
  rw [beq_iff_eq] at hka hkb
  have hnamed := (whole_iff.1 (hparts a (mem_parts_iff.2 (Or.inl ha)))).1.named hka
  obtain ⟨name, hname⟩ := Option.isSome_iff_exists.1 hnamed
  refine hne name ?_ name ?_ rfl
  · rw [plainName?, if_pos hka, hname]
  · rw [plainName?, if_pos hkb, ← heq, hname]

/-- **The nodes of a whole tree are well shaped.** -/
theorem Whole.wellShaped (h : n.Whole) : n.WellShaped := by
  obtain ⟨hshaped, hparts⟩ := whole_iff.1 h
  refine ⟨hshaped.guard, fun b hb => ⟨hshaped.slot_kind .elseBlock b hb, ?_⟩, fun p hp hkind => ?_,
    fun b hb c hc hcont => ?_, hshaped.threeBranched, fun c hc => ?_, hshaped.void,
    h.pairwise_names⟩
  · have hhas : n.kind.hasBranch .elseBlock = true := by
      rw [← Bool.not_eq_false]
      intro hnot
      have hnone : n.elseBlock = none := hshaped.slot_eq .elseBlock hnot
      rw [hnone] at hb
      cases hb
    cases hk : n.kind with
    | guarded g =>
      rw [hk] at hhas
      cases g with
      | ifBlock => exact Or.inl rfl
      | eachBlock => exact Or.inr rfl
      | keyBlock => cases hhas
    | _ =>
      rw [hk] at hhas
      cases hhas
  · have hbranch : p.kind.isBranch ≠ false := by
      rw [hkind]
      exact Bool.false_ne_true.symm
    simp only [List.mem_append, Option.mem_toList] at hp
    rcases hp with ((((hp | hp) | hp) | hp) | hp) | hp
    · exact hbranch (hshaped.plain_part (Or.inl hp)).1
    · exact hbranch (hshaped.plain_part (Or.inr (Or.inl hp))).1
    · exact hbranch (hshaped.plain_part (Or.inr (Or.inr hp))).1
    · cases hkind.symm.trans (hshaped.slot_kind .pendingBlock p hp)
    · cases hkind.symm.trans (hshaped.slot_kind .thenBlock p hp)
    · cases hkind.symm.trans (hshaped.slot_kind .catchBlock p hp)
  · obtain ⟨hbshaped, -⟩ := whole_iff.1 (hparts b hb)
    obtain ⟨hkind, hchildren⟩ := hbshaped.continues hc hcont
    have helse := hshaped.mem_elseBlock hb hkind
    have hmem : c ∈ b.children := by
      rw [hchildren]
      exact List.mem_singleton_self c
    exact ⟨hshaped.chain_else b helse c hmem hcont, helse, hchildren,
      (hbshaped.parts_branch hkind).trans hchildren⟩
  · exact (hshaped.plain_part (Or.inr (Or.inr hc))).1

end Node

/-! ## An await block

The template reads `p`, opens the then branch at once and names what it gets `p`. -/

theorem scan_name_then (rest : Text) :
    scan { stopWords := ["then".toList, "catch".toList] }
        ('p' :: ' ' :: 't' :: 'h' :: 'e' :: 'n' :: ' ' :: rest)
      = .ok ⟨0, 1, 2, some "then".toList⟩ := by
  refine (scanFrom.eq_def _ _ _).trans ?_
  show scanFrom _ { offset := 1, start := some 0, stop := 1, afterValue := true }
    (' ' :: 't' :: 'h' :: 'e' :: 'n' :: ' ' :: rest) = _
  refine (scanFrom.eq_def _ _ _).trans ?_
  show scanFrom _
    { offset := 2, start := some 0, stop := 1, afterValue := true, afterBlank := true }
    ('t' :: 'h' :: 'e' :: 'n' :: ' ' :: rest) = _
  exact (scanFrom.eq_def _ _ _).trans rfl

theorem scan_blank_name (rest : Text) :
    scan { terminators := ['}'], allowEmpty := true } (' ' :: 'p' :: '}' :: rest)
      = .ok ⟨1, 2, 2, none⟩ := by
  refine (scanFrom.eq_def _ _ _).trans ?_
  show scanFrom _ { offset := 1, afterBlank := true } ('p' :: '}' :: rest) = _
  refine (scanFrom.eq_def _ _ _).trans ?_
  show scanFrom _ { offset := 2, start := some 1, stop := 2, afterValue := true } ('}' :: rest) = _
  exact (scanFrom.eq_def _ _ _).trans rfl

section

open Reader

variable {ctx : Context} (hctx : ctx.grammar = .permissive) (n : Nat) (st : Stack) (rest : Text)

include hctx in
theorem readPattern_name : readPattern ctx ['}'] ⟨n, ' ' :: 'p' :: '}' :: rest⟩
    = .ok (some ['p'], ⟨n + 2, '}' :: rest⟩) := by
  have hd : delimited { terminators := ['}'], allowEmpty := true } ⟨n, ' ' :: 'p' :: '}' :: rest⟩
      = .ok (⟨⟨1 + n, 2 + n, 2 + n, none⟩, ['p']⟩, ⟨n + 2, '}' :: rest⟩) := by
    unfold delimited
    rw [scan_blank_name]
    rfl
  have hempty : Scan.empty ⟨1 + n, 2 + n, 2 + n, none⟩ = false := by
    simp [Scan.empty]
  refine (bind_of_ok hd).trans ?_
  show (if Scan.empty ⟨1 + n, 2 + n, 2 + n, none⟩ = true then pure none else _ : Reader _) _ = _
  rw [hempty, if_neg Bool.false_ne_true, hctx]
  rfl

include hctx in
theorem item_openAwaitThen :
    item ctx n '{' st ⟨n + 1, '#' :: 'a' :: 'w' :: 'a' :: 'i' :: 't' :: ' ' :: 'p' :: ' ' :: 't' ::
        'h' :: 'e' :: 'n' :: ' ' :: 'p' :: '}' :: rest⟩
      = .ok ((st.push
        { label := { kind := .awaitBlock, start := n, thenPattern := some ['p']
                     expression := some (ctx.place (0 + (n + 8)) (1 + (n + 8))) }
          pendingBlock := some (.unwritten .pendingBlock)
          thenBlock := some (.unwritten .thenBlock)
          catchBlock := some (.unwritten .catchBlock) }).push (.branch .thenBlock (n + 10)),
        ⟨n + 17, rest⟩) := by
  have hexpr : readExpressionAt ctx { stopWords := ["then".toList, "catch".toList] }
        ⟨n + 8, 'p' :: ' ' :: 't' :: 'h' :: 'e' :: 'n' :: ' ' :: 'p' :: '}' :: rest⟩
      = .ok (ctx.place (0 + (n + 8)) (1 + (n + 8)),
        ⟨n + 10, 't' :: 'h' :: 'e' :: 'n' :: ' ' :: 'p' :: '}' :: rest⟩) :=
    readExpressionAt_of_scan (c := ⟨n + 8, _⟩) (scan_name_then ('p' :: '}' :: rest))
      (by rw [hctx]; rfl)
  show awaitBlock ctx n st ⟨n + 8, _⟩ = _
  unfold awaitBlock
  refine (bind_of_ok hexpr).trans ?_
  exact (bind_of_ok (readPattern_name hctx (n + 14) rest) :)

theorem item_closeAwait (hbranch : st.current.kind.isBranch = true)
    (hawait : (st.pop n).current.kind = .awaitBlock)
    (helseif : (st.pop n).current.label.elseif = false) :
    item ctx n '{' st ⟨n + 1, '/' :: 'a' :: 'w' :: 'a' :: 'i' :: 't' :: '}' :: rest⟩
      = .ok ((st.pop n).pop (n + 8 : Nat), ⟨n + 8, rest⟩) := by
  show ofExcept (st.closeBlock .awaitBlock ['a', 'w', 'a', 'i', 't'] n (n + 8)) ⟨n + 8, rest⟩ = _
  rw [Stack.closeBlock_of_branch hbranch hawait rfl helseif]
  rfl

end

/-- A template with an await block that names what its then branch gets. -/
def awaitThen : Text :=
  "\x7b#await p then p\x7d\x7bp\x7d\x7b/await\x7d".toList

open Template in
theorem parseTemplate_await_then :
    parseTemplate .permissive awaitThen
      = .ok
        { label := { kind := .fragment, start := 0, stop := 28 }
          children := [
            { label := { kind := .awaitBlock, start := 0, stop := 28
                         expression := some ⟨8, 9, 1, 8⟩, thenPattern := some ['p'] }
              pendingBlock := some (.unwritten .pendingBlock)
              thenBlock := some
                { label := { kind := .branch .thenBlock, start := 10, stop := 20 }
                  children := [
                    .leaf { kind := .mustache, start := 17, stop := 20
                            expression := some ⟨18, 19, 1, 18⟩ }] }
              catchBlock := some (.unwritten .catchBlock) }] } := by
  refine (run_of_item (item_openAwaitThen rfl 0 _ _)).trans ?_
  refine (run_of_item (item_name rfl 17 _ _)).trans ?_
  refine (run_of_item (item_closeAwait 20 _ _ rfl rfl rfl)).trans ?_
  rw [run_nil, Stack.finish, Stack.closeOmitted_eq_self]
  · rfl
  · intro hkind
    cases hkind

/-! ## All templates -/

/-- **Every parsed template is well shaped.** Its root is a fragment, no part of which
continues a chain, and every node fits together with what is right below it. -/
theorem parseTemplate_wellShaped {grammar : Grammar} {source : Text} {root : Node}
    (h : parseTemplate grammar source = .ok root) :
    root.kind = .fragment ∧ (∀ p ∈ root.parts, ¬ p.Continues) ∧ ∀ n ∈ root.walk, n.WellShaped := by
  obtain ⟨hkind, hwhole⟩ := whole_of_parseTemplate h
  refine ⟨hkind, fun p hp hcont => ?_, fun n hn => (hwhole.of_mem hn).wellShaped⟩
  have helse := ((Node.whole_iff.1 hwhole).1.continues hp hcont).1
  exact absurd (hkind.symm.trans helse) nofun

theorem parseTemplate_wellShaped_await_then :
    ∃ root block,
      parseTemplate .permissive awaitThen = .ok root ∧
      root.children = [block] ∧ block.kind = .awaitBlock ∧
      block.label.thenPattern = some ['p'] ∧ block.WellShaped :=
  ⟨_, _, parseTemplate_await_then, rfl, rfl, rfl,
    (parseTemplate_wellShaped parseTemplate_await_then).2.2 _
      (mem_walk.2 (Or.inr ⟨_, Node.mem_parts_iff.2 (Or.inr (Or.inr (Or.inl
        (List.mem_singleton_self _)))), mem_walk.2 (Or.inl rfl)⟩))⟩

end ComponentDivision
