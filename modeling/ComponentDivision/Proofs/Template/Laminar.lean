/-
# The spans of a template

Every part of a node lies in it, and parts of different sorts come one after the
other: attributes, children, the else branch, or the branches of an await block.
The children of the root, and those of every other node, leave out nothing between
the first and the last of them.

* `Node.Laminar` : where a node and its parts stand;
* `parseTemplate_laminar` : so it is for every node of a parsed template.
-/
import ComponentDivision.Proofs.Template.Nesting

namespace ComponentDivision

/-! ## Nodes -/

/-- The node lies in the text, its parts lie in it, and they follow one another. -/
structure Node.Laminar (source : Text) (n : Node) : Prop where
  written : n.label.unwritten = false
  within : n.span.Within ⟨0, source.length⟩
  /-- Each child begins where the one before it ends. -/
  adjoining : n.children.IsChain fun a b => a.stop = b.start
  attribute_within : ∀ a ∈ n.attributes, a.span.Within n.span
  chunk_within : ∀ chunks ∈ n.value, ∀ chunk ∈ chunks, chunk.span.Within n.span
  child_within : ∀ child ∈ n.children, child.span.Within n.span
  else_within : ∀ b ∈ n.elseBlock, b.span.Within n.span
  branch_within : ∀ o ∈ [n.pendingBlock, n.thenBlock, n.catchBlock], ∀ b ∈ o,
    b.label.unwritten = false → b.span.Within n.span
  attribute_before_child : ∀ a ∈ n.attributes, ∀ child ∈ n.children, a.span.Before child.span
  child_before_else : ∀ child ∈ n.children, ∀ b ∈ n.elseBlock, child.span.Before b.span
  /-- The written branches of an await block are in order: pending, then, catch. -/
  branches_in_order : [n.pendingBlock, n.thenBlock, n.catchBlock].Pairwise fun o o' =>
    ∀ a ∈ o, ∀ b ∈ o', a.label.unwritten = false → b.label.unwritten = false →
      a.span.Before b.span
  expression_within : ∀ e ∈ n.label.embedded, e.span.Within n.span

section

variable {source : Text} {n : Node}

/-- The written branches of a node are among its branches. -/
theorem mem_branches {b : Node} (h : b ∈ n.elseBlock ∨ b ∈ n.pendingBlock ∨ b ∈ n.thenBlock ∨
    b ∈ n.catchBlock) (hb : b.label.unwritten = false) : b ∈ n.branches := by
  rw [Node.branches, List.mem_filter, hb]
  simp only [List.mem_append, Option.mem_toList, Bool.not_false, and_true]
  tauto

/-- The nodes among the parts of a placed node lie in it. -/
theorem Node.Placed.within_of_mem {m : Node} (hn : n.Placed source)
    (hm : m ∈ n.attributes ++ n.value.getD [] ++ n.children ++ n.branches) :
    m.span.Within n.span :=
  hn.row.mem (List.mem_append_right _ (List.mem_map_of_mem hm))

/-- The nodes among the parts of a placed node follow one another. -/
theorem Node.Placed.pairwise (hn : n.Placed source) :
    (n.attributes ++ n.value.getD [] ++ n.children ++ n.branches).Pairwise
      fun a b => a.span.Before b.span :=
  List.pairwise_map.1 (List.pairwise_append.1 hn.row.pairwise).2.1

/-- The written branches of a placed await block are in order. -/
theorem Node.Placed.branches_in_order (hn : n.Placed source) :
    [n.pendingBlock, n.thenBlock, n.catchBlock].Pairwise fun o o' =>
      ∀ a ∈ o, ∀ b ∈ o', a.label.unwritten = false → b.label.unwritten = false →
        a.span.Before b.span := by
  have hpair := (List.pairwise_append.1 hn.pairwise).2.1
  rw [Node.branches, List.pairwise_filter, List.pairwise_append, List.pairwise_append,
    List.pairwise_append] at hpair
  obtain ⟨⟨⟨-, -, -⟩, -, hthen⟩, -, hcatch⟩ := hpair
  simp only [List.mem_append, Option.mem_toList] at hthen hcatch
  simp only [List.pairwise_cons, List.mem_cons, List.not_mem_nil, or_false, forall_eq_or_imp,
    forall_eq, List.Pairwise.nil, and_true, false_imp_iff, implies_true]
  refine ⟨⟨fun a ha b hb hwa hwb => ?_, fun a ha b hb hwa hwb => ?_⟩, fun a ha b hb hwa hwb => ?_⟩
  · exact hthen a (Or.inr ha) b hb (by rw [hwa]; rfl) (by rw [hwb]; rfl)
  · exact hcatch a (Or.inl (Or.inr ha)) b hb (by rw [hwa]; rfl) (by rw [hwb]; rfl)
  · exact hcatch a (Or.inr ha) b hb (by rw [hwa]; rfl) (by rw [hwb]; rfl)

/-- A placed node lies in the text and its parts lie in it. -/
theorem Node.Placed.laminar (hn : n.Placed source) : n.Laminar source := by
  obtain ⟨hbefore, -, hbranches⟩ := List.pairwise_append.1 hn.pairwise
  obtain ⟨-, -, hchildren⟩ := List.pairwise_append.1 hbefore
  refine
    { written := hn.written
      within := ⟨hn.nonneg, hn.row.le, hn.stop_le⟩
      adjoining := ?_
      attribute_within := fun a ha => hn.within_of_mem ?_
      chunk_within := fun chunks hchunks chunk hchunk => hn.within_of_mem ?_
      child_within := fun child hchild => hn.within_of_mem ?_
      else_within := fun b hb => hn.within_of_mem ?_
      branch_within := fun o ho b hb hwritten => hn.within_of_mem ?_
      attribute_before_child := fun a ha child hchild => ?_
      child_before_else := fun child hchild b hb => ?_
      branches_in_order := hn.branches_in_order
      expression_within := fun e he => ?_ }
  · obtain ⟨lo, hi, htile⟩ := hn.tile
    exact (List.isChain_map _).1 htile.isChain
  · simp [ha]
  · have hvalue : chunk ∈ n.value.getD [] := by
      rw [Option.mem_def.1 hchunks]
      exact hchunk
    simp [hvalue]
  · simp [hchild]
  · exact List.mem_append_right _ (mem_branches (Or.inl hb) (hn.else_written b hb))
  · refine List.mem_append_right _ (mem_branches (Or.inr ?_) hwritten)
    simp only [List.mem_cons, List.not_mem_nil, or_false] at ho
    rcases ho with rfl | rfl | rfl
    · exact Or.inl hb
    · exact Or.inr (Or.inl hb)
    · exact Or.inr (Or.inr hb)
  · exact hchildren a (List.mem_append_left _ ha) child hchild
  · exact hbranches child (List.mem_append_right _ hchild) b
      (mem_branches (Or.inl hb) (hn.else_written b hb))
  · exact hn.row.mem (List.mem_append_left _ (List.mem_map_of_mem he))

end

/-! ## An if block with an else branch -/

namespace Stack

variable {st : Stack} {kind : Kind} {r : Int}

/-- Where no element is innermost, no closing tag is left out. -/
theorem closeOmitted_eq_self (h : st.current.kind ≠ .element .element) :
    st.closeOmitted r = st := by
  obtain ⟨root, inner⟩ := st
  rw [closeOmitted.eq_def]
  cases inner with
  | nil => rfl
  | cons n ns =>
    have hn : n.kind ≠ .element .element := h
    exact if_neg (by simp [hn])

/-- Where no branch is innermost, and no if block that continues a chain, none ends. -/
theorem closeBranches_eq_self (h : st.current.kind.isBranch = false)
    (helseif : st.current.label.elseif = false) : st.closeBranches kind r = st := by
  obtain ⟨root, inner⟩ := st
  rw [closeBranches.eq_def]
  cases inner with
  | nil => rfl
  | cons n ns =>
    have hn : n.kind.isBranch = false := h
    have hchain : n.label.elseif = false := helseif
    exact if_neg (by simp [hn, hchain])

/-- A branch that is innermost ends. -/
theorem closeBranches_of_branch (h : st.current.kind.isBranch = true) :
    st.closeBranches kind r = (st.pop r).closeBranches kind r := by
  obtain ⟨root, inner⟩ := st
  cases inner with
  | nil => rfl
  | cons n ns =>
    have hn : n.kind.isBranch = true := h
    rw [closeBranches.eq_def]
    exact if_pos (by simp [hn])

/-- The end of a block whose branch is innermost ends the branch and the block. -/
theorem closeBlock_of_branch {keyword : Text} {start stop : Nat}
    (hbranch : st.current.kind.isBranch = true) (hkind : (st.pop start).current.kind = kind)
    (hblock : kind.isBranch = false) (helseif : (st.pop start).current.label.elseif = false) :
    st.closeBlock kind keyword start stop = .ok ((st.pop start).pop stop) := by
  have helement : st.current.kind ≠ .element .element := by
    intro helement
    rw [helement] at hbranch
    cases hbranch
  unfold closeBlock
  rw [closeOmitted_eq_self helement, closeBranches_of_branch hbranch,
    closeBranches_eq_self (by rw [hkind]; exact hblock) helseif]
  exact if_pos hkind

end Stack

/-- The name `p` before a closing brace is an expression. -/
theorem scan_name (rest : Text) : scan {} ('p' :: '}' :: rest) = .ok ⟨0, 1, 1, none⟩ := by
  refine (scanFrom.eq_def _ _ _).trans ?_
  show scanFrom {} { offset := 1, start := some 0, stop := 1, afterValue := true } ('}' :: rest) = _
  exact (scanFrom.eq_def _ _ _).trans rfl

section

open Reader

variable {ctx : Context} (hctx : ctx.grammar = .permissive) (n : Nat) (st : Stack) (rest : Text)

include hctx in
theorem readExpressionAt_name : readExpressionAt ctx {} ⟨n, 'p' :: '}' :: rest⟩
    = .ok (ctx.place (0 + n) (1 + n), ⟨n + 1, '}' :: rest⟩) :=
  readExpressionAt_of_scan (c := ⟨n, 'p' :: '}' :: rest⟩) (scan_name rest) (by rw [hctx]; rfl)

include hctx in
theorem item_openIf :
    item ctx n '{' st ⟨n + 1, '#' :: 'i' :: 'f' :: ' ' :: 'p' :: '}' :: rest⟩
      = .ok (st.push
        { label := { kind := .guarded .ifBlock, start := n
                     expression := some (ctx.place (0 + (n + 5)) (1 + (n + 5))) } },
        ⟨n + 7, rest⟩) :=
  (bind_of_ok (readExpressionAt_name hctx (n + 5) rest) :
    (readExpressionAt ctx {} >>= fun e => do
      expect ['}']
      return st.push { label := { kind := .guarded .ifBlock, start := n, expression := some e } })
      ⟨n + 5, 'p' :: '}' :: rest⟩ = _)

include hctx in
theorem item_name :
    item ctx n '{' st ⟨n + 1, 'p' :: '}' :: rest⟩
      = .ok (st.receive (.leaf
        { kind := .mustache, start := n, stop := (n + 3 : Nat)
          expression := some (ctx.place (0 + (n + 1)) (1 + (n + 1))) }), ⟨n + 3, rest⟩) :=
  (bind_of_ok (readExpressionAt_name hctx (n + 1) rest) :
    (readExpressionAt ctx {} >>= fun e => do
      expect ['}']
      let stop ← position
      return st.receive (.leaf { kind := .mustache, start := n, stop, expression := some e }))
      ⟨n + 1, 'p' :: '}' :: rest⟩ = _)

/-- The tag of an else branch, after the elements whose closing tags are left out. -/
theorem item_else_of_closeOmitted (hif : (st.closeOmitted n).current.kind = .guarded .ifBlock)
    (hnone : (st.closeOmitted n).current.elseBlock = none) :
    item ctx n '{' st ⟨n + 1, ':' :: 'e' :: 'l' :: 's' :: 'e' :: '}' :: rest⟩
      = .ok ((st.closeOmitted n).push (.branch .elseBlock n), ⟨n + 7, rest⟩) := by
  have hopen : (((st.closeOmitted n).current.kind == .guarded .ifBlock
      || (st.closeOmitted n).current.kind == .guarded .eachBlock)
      && (st.closeOmitted n).current.elseBlock.isNone) = true := by
    rw [hif, hnone]
    rfl
  show (if (((st.closeOmitted n).current.kind == .guarded .ifBlock
      || (st.closeOmitted n).current.kind == .guarded .eachBlock)
      && (st.closeOmitted n).current.elseBlock.isNone) = true then (do
        expect ['}']
        return (st.closeOmitted n).push (.branch .elseBlock n))
    else failAt .elseOutsideBlock n) ⟨n + 6, '}' :: rest⟩ = _
  rw [if_pos hopen]
  rfl

theorem item_else (hif : (st.current.kind == .guarded .ifBlock) = true)
    (hnone : st.current.elseBlock.isNone = true) :
    item ctx n '{' st ⟨n + 1, ':' :: 'e' :: 'l' :: 's' :: 'e' :: '}' :: rest⟩
      = .ok (st.push (.branch .elseBlock n), ⟨n + 7, rest⟩) := by
  have hclosed : st.closeOmitted n = st := by
    apply Stack.closeOmitted_eq_self
    rw [beq_iff_eq.1 hif]
    nofun
  rw [item_else_of_closeOmitted, hclosed]
  · rw [hclosed]
    exact beq_iff_eq.1 hif
  · rw [hclosed]
    exact Option.isNone_iff_eq_none.1 hnone

theorem item_closeIf (hbranch : st.current.kind.isBranch = true)
    (hif : (st.pop n).current.kind = .guarded .ifBlock)
    (helseif : (st.pop n).current.label.elseif = false) :
    item ctx n '{' st ⟨n + 1, '/' :: 'i' :: 'f' :: '}' :: rest⟩
      = .ok ((st.pop n).pop (n + 5 : Nat), ⟨n + 5, rest⟩) := by
  show ofExcept (st.closeBlock (.guarded .ifBlock) ['i', 'f'] n (n + 5)) ⟨n + 5, rest⟩ = _
  rw [Stack.closeBlock_of_branch hbranch hif rfl helseif]
  rfl

end

/-- A template with an if block, an expression in it and an else branch. -/
def ifElse : Text :=
  "\x7b#if p\x7d\x7bp\x7d\x7b:else\x7db\x7b/if\x7d".toList

open Template in
theorem parseTemplate_if_else :
    parseTemplate .permissive ifElse
      = .ok
        { label := { kind := .fragment, start := 0, stop := 23 }
          children := [
            { label := { kind := .guarded .ifBlock, start := 0, stop := 23
                         expression := some ⟨5, 6, 1, 5⟩ }
              children := [
                .leaf { kind := .mustache, start := 7, stop := 10
                        expression := some ⟨8, 9, 1, 8⟩ }]
              elseBlock := some
                { label := { kind := .branch .elseBlock, start := 10, stop := 18 }
                  children := [.ofText 17 ['b']] } }] } := by
  refine (run_of_item (item_openIf rfl 0 _ _)).trans ?_
  refine (run_of_item (item_name rfl 7 _ _)).trans ?_
  refine (run_of_item (item_else 10 _ _ rfl rfl)).trans ?_
  refine (run_of_item (rfl : Reader.item _ 17 'b' _ ⟨18, _⟩ = .ok (_, ⟨18, _⟩))).trans ?_
  refine (run_of_item (item_closeIf 18 _ _ rfl rfl rfl)).trans ?_
  rw [run_nil, Stack.finish, Stack.closeOmitted_eq_self]
  · rfl
  · intro hkind
    cases hkind

/-! ## All templates -/

/-- **The spans of a parsed template are nested and leave out nothing.** Every node is a
branch that is not written, which has no place, or lies in the text with its parts in it
and in order; the children of the root run from the beginning of the text to its end. -/
theorem parseTemplate_laminar {grammar : Grammar} {source : Text} {root : Node}
    (h : parseTemplate grammar source = .ok root) :
    (∀ n ∈ root.walk,
      (∃ b ∈ [BranchKind.pendingBlock, .thenBlock, .catchBlock], n = .unwritten b ∧
        n.start = -1 ∧ n.stop = -1) ∨ n.Laminar source) ∧
    (source ≠ [] → (∃ child ∈ root.children.head?, child.start = 0) ∧
      ∃ child ∈ root.children.getLast?, child.stop = source.length) := by
  obtain ⟨hsound, -, htile⟩ := sound_of_parseTemplate h
  refine ⟨fun n hn => ?_, fun hsource => ?_⟩
  · rcases hsound n hn with ⟨b, hb, rfl⟩ | hplaced
    · refine Or.inl ⟨b, ?_, rfl, rfl, rfl⟩
      cases b <;> simp_all
    · exact Or.inr hplaced.laminar
  · have hne : root.children ≠ [] := by
      rintro hnil
      rw [hnil] at htile
      exact hsource (List.length_eq_zero_iff.1 (Int.ofNat_inj.1 htile.symm))
    refine ⟨⟨root.children.head hne, List.head?_eq_some_head hne, ?_⟩,
      root.children.getLast hne, List.getLast?_eq_some_getLast hne, ?_⟩
    · show (root.children.head hne).span.start = 0
      apply htile.head?_start
      rw [List.head?_map, List.head?_eq_some_head hne]
      rfl
    · show (root.children.getLast hne).span.stop = source.length
      apply htile.getLast?_stop
      rw [List.getLast?_map, List.getLast?_eq_some_getLast hne]
      rfl

theorem parseTemplate_laminar_if_else :
    ∃ root,
      parseTemplate .permissive ifElse = .ok root ∧
      (∀ n ∈ root.walk,
        (∃ b ∈ [BranchKind.pendingBlock, .thenBlock, .catchBlock], n = .unwritten b ∧
          n.start = -1 ∧ n.stop = -1) ∨
        n.Laminar ifElse) ∧
      ((∃ child ∈ root.children.head?, child.start = 0) ∧
        ∃ child ∈ root.children.getLast?, child.stop = 23) :=
  ⟨_, parseTemplate_if_else, (parseTemplate_laminar parseTemplate_if_else).1,
    (parseTemplate_laminar parseTemplate_if_else).2 nofun⟩

end ComponentDivision
