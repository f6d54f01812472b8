/-
# Extraction and walking

The extraction of expressions goes by the kinds of nodes and looks only where nodes of
a kind keep something to extract; walking goes everywhere. In a parsed template both
come to the same expressions in the same order, since its nodes keep their parts where
their kinds say.

* `Node.visits` : the nodes of a tree as walking meets them, each with whether it is a
  chunk of the value of a style directive;
* `Visit.expression?` : what such a node contributes;
* `gathered_eq` : what is extracted from a whole tree;
* `parseTemplate_expressions_eq_walk` : what is extracted from a parsed template.
-/
import ComponentDivision.Template.Extract
import ComponentDivision.Proofs.Template.Shape

namespace ComponentDivision

/-! ## Visits -/

/-- Whether a template computes with the expressions of the nodes of this kind. -/
def Kind.computes : Kind → Bool
  | mustache | rawMustache | directive _ | guarded _ | awaitBlock => true
  | _ => false

/-- A node that walking meets. -/
structure Visit where
  node : Node
  /-- Whether the node is a chunk of the value of a style directive. -/
  styled : Bool

/-- The expression that a visited node contributes; an interpolation in a style directive
contributes none. -/
def Visit.expression? (v : Visit) : Option Expression :=
  if v.node.kind.computes && !(v.styled && v.node.kind == .mustache) then v.node.label.expression
  else none

mutual

/-- The visits of walking a tree; `styled` is for its root. -/
def Node.visits (styled : Bool) : Node → List Visit
  | ⟨label, attributes, value, children, elseBlock, pending, thenBlock, catchBlock⟩ =>
    ⟨⟨label, attributes, value, children, elseBlock, pending, thenBlock, catchBlock⟩, styled⟩
      :: (visitsAll false attributes ++ visitsValue (label.kind == .styleDirective) value
        ++ visitsAll false children ++ visitsBranch elseBlock ++ visitsBranch pending
        ++ visitsBranch thenBlock ++ visitsBranch catchBlock)

/-- The visits of a list of trees. -/
def visitsAll (styled : Bool) : List Node → List Visit
  | [] => []
  | n :: ns => n.visits styled ++ visitsAll styled ns

/-- The visits of a value. -/
def visitsValue (styled : Bool) : Option (List Node) → List Visit
  | none => []
  | some ns => visitsAll styled ns

/-- The visits of a branch. -/
def visitsBranch : Option Node → List Visit
  | none => []
  | some n => n.visits false

end

theorem visitsAll_eq (styled : Bool) (ns : List Node) :
    visitsAll styled ns = ns.flatMap (Node.visits styled) := by
  induction ns with
  | nil => rfl
  | cons n ns ih => rw [visitsAll, ih, List.flatMap_cons]

theorem visitsValue_eq (styled : Bool) (value : Option (List Node)) :
    visitsValue styled value = (value.getD []).flatMap (Node.visits styled) := by
  cases value with
  | none => rfl
  | some ns => exact visitsAll_eq styled ns

theorem visitsBranch_eq (branch : Option Node) :
    visitsBranch branch = branch.toList.flatMap (Node.visits false) := by
  cases branch with
  | none => rfl
  | some n => simp [visitsBranch]

/-- The visits of a tree are that of its root and those of the trees right below it. -/
theorem visits_eq (styled : Bool) (n : Node) :
    n.visits styled = ⟨n, styled⟩ :: (n.attributes.flatMap (Node.visits false)
      ++ (n.value.getD []).flatMap (Node.visits (n.kind == .styleDirective))
      ++ n.children.flatMap (Node.visits false) ++ n.elseBlock.toList.flatMap (Node.visits false)
      ++ n.pendingBlock.toList.flatMap (Node.visits false)
      ++ n.thenBlock.toList.flatMap (Node.visits false)
      ++ n.catchBlock.toList.flatMap (Node.visits false)) := by
  cases n
  simp only [Node.visits, visitsAll_eq, visitsValue_eq, visitsBranch_eq]
  rfl

/-- **The visits are those of walking.** -/
theorem map_node_visits (styled : Bool) (n : Node) :
    (n.visits styled).map Visit.node = n.walk := by
  induction n using Node.parts_induction generalizing styled with
  | h n ih =>
    have hpart {ns : List Node} (hns : ∀ p ∈ ns, p ∈ n.parts) (styled : Bool) :
        (ns.flatMap (Node.visits styled)).map Visit.node = ns.flatMap Node.walk := by
      rw [List.map_flatMap]
      exact List.flatMap_congr fun p hp => ih p (hns p hp) styled
    rw [visits_eq, walk_eq, Node.parts]
    simp only [List.map_cons, List.map_append, List.flatMap_append]
    rw [hpart, hpart, hpart, hpart, hpart, hpart, hpart]
    all_goals
      intro p hp
      simp only [Node.parts, List.mem_append, hp, true_or, or_true]

/-- A visit of a tree is that of its root or one of a tree right below it. -/
theorem mem_visits {styled : Bool} {n : Node} {v : Visit} :
    v ∈ n.visits styled ↔ v = ⟨n, styled⟩ ∨
      (∃ p ∈ n.value.getD [], v ∈ p.visits (n.kind == .styleDirective)) ∨
      ∃ p, (p ∈ n.attributes ∨ p ∈ n.children ∨ ∃ b, p ∈ n.slot b) ∧ v ∈ p.visits false := by
  rw [visits_eq]
  simp only [Node.exists_mem_slot]
  simp only [List.mem_cons, List.mem_append, List.mem_flatMap, Option.mem_toList, Option.mem_def,
    or_and_right, exists_or, or_assoc]
  rw [or_left_comm (a := ∃ p, p ∈ n.attributes ∧ _)]

/-- **The visits in style directives are those of the chunks of their values.** -/
theorem styled_mem_visits {styled : Bool} {n m : Node} :
    ⟨m, true⟩ ∈ n.visits styled ↔ (m = n ∧ styled = true) ∨
      ∃ d ∈ n.walk, d.kind = .styleDirective ∧ m ∈ d.value.getD [] := by
  induction n using Node.parts_induction generalizing styled with
  | h n ih =>
    rw [mem_visits]
    -- a visit is in a style directive only through a value, so the directive is the node above it
    constructor
    · rintro (hroot | ⟨p, hp, hm⟩ | ⟨p, hp, hm⟩)
      · cases hroot
        exact Or.inl ⟨rfl, rfl⟩
      · have hpart := Node.mem_parts_iff.2 (Or.inr (Or.inl hp))
        rcases (ih p hpart).1 hm with ⟨rfl, hstyle⟩ | ⟨d, hd, hchunk⟩
        · exact Or.inr ⟨n, mem_walk.2 (Or.inl rfl), beq_iff_eq.1 hstyle, hp⟩
        · exact Or.inr ⟨d, mem_walk.2 (Or.inr ⟨p, hpart, hd⟩), hchunk⟩
      · have hpart : p ∈ n.parts := by
          rw [Node.mem_parts_iff]
          tauto
        rcases (ih p hpart).1 hm with ⟨-, hstyle⟩ | ⟨d, hd, hchunk⟩
        · cases hstyle
        · exact Or.inr ⟨d, mem_walk.2 (Or.inr ⟨p, hpart, hd⟩), hchunk⟩
    · rintro (⟨rfl, rfl⟩ | ⟨d, hd, hkind, hchunk⟩)
      · exact Or.inl rfl
      · rcases mem_walk.1 hd with rfl | ⟨p, hp, hd⟩
        · refine Or.inr (Or.inl ⟨m, hchunk, ?_⟩)
          rw [hkind]
          exact mem_visits.2 (Or.inl rfl)
        · have hm {styled : Bool} : ⟨m, true⟩ ∈ p.visits styled :=
            (ih p hp).2 (Or.inr ⟨d, hd, hkind, hchunk⟩)
          rcases Node.mem_parts_iff.1 hp with hp | hp | hp
          · exact Or.inr (Or.inr ⟨p, Or.inl hp, hm⟩)
          · exact Or.inr (Or.inl ⟨p, hp, hm⟩)
          · exact Or.inr (Or.inr ⟨p, Or.inr hp, hm⟩)

/-! ## Contributions -/

theorem allExpressions_eq (ns : List Node) : allExpressions ns = ns.flatMap Node.expressions := by
  induction ns with
  | nil => rfl
  | cons n ns ih => rw [allExpressions, ih, List.flatMap_cons]

theorem valueExpressions_eq (value : Option (List Node)) :
    valueExpressions value = (value.getD []).flatMap Node.expressions := by
  cases value with
  | none => rfl
  | some ns => exact allExpressions_eq ns

theorem branchExpressions_eq (branch : Option Node) :
    branchExpressions branch
      = branch.toList.flatMap fun n => n.children.flatMap Node.expressions := by
  cases branch with
  | none => rfl
  | some n =>
    cases n
    simp [branchExpressions, allExpressions_eq]

namespace Node

/-- What is extracted from a node; from the root and from a branch it is what is extracted
from their children. -/
def gathered (n : Node) : List Expression :=
  if n.kind.isBranch || n.kind == .fragment then n.children.flatMap Node.expressions
  else n.expressions

/-- What walking a tree contributes. -/
def collected (n : Node) : List Expression :=
  (n.visits false).filterMap Visit.expression?

variable {n p : Node}

/-- A part that is no branch is extracted from by its kind. -/
theorem gathered_of_kind (hbranch : p.kind.isBranch = false) (hroot : p.kind ≠ .fragment) :
    p.gathered = p.expressions := by
  unfold gathered
  rw [hbranch, beq_eq_false_iff_ne.2 hroot, Bool.or_false, if_neg Bool.false_ne_true]

theorem gathered_of_branch {b : BranchKind} (hkind : p.kind = .branch b) :
    p.gathered = p.children.flatMap Node.expressions := by
  unfold gathered
  rw [hkind]
  rfl

theorem gathered_of_fragment (hkind : p.kind = .fragment) :
    p.gathered = p.children.flatMap Node.expressions := by
  unfold gathered
  rw [hkind]
  rfl

/-- A chunk of the value of a style directive contributes nothing. -/
theorem Whole.styled_eq_nil (h : p.Whole) (hkind : p.kind ∈ [.text, .mustache, .shorthand]) :
    (p.visits true).filterMap Visit.expression? = [] := by
  have hform : ∀ k ∈ [Kind.text, .mustache, .shorthand],
      (k.computes && !(true && k == .mustache)) = false := by decide
  have hexpression : Visit.expression? ⟨p, true⟩ = none := by
    unfold Visit.expression?
    rw [hform p.kind hkind]
    rfl
  rw [List.filterMap_eq_nil_iff]
  intro v hv
  have hparts := (whole_iff.1 h).1.toFitted.parts_chunk hkind
  rcases mem_visits.1 hv with rfl | ⟨q, hq, -⟩ | ⟨q, hq, -⟩
  · exact hexpression
  · have hmem : q ∈ p.parts := mem_parts_iff.2 (Or.inr (Or.inl hq))
    rw [hparts] at hmem
    cases hmem
  · have hmem : q ∈ p.parts := by
      rw [mem_parts_iff]
      tauto
    rw [hparts] at hmem
    cases hmem

/-- What walking a whole tree contributes, by the parts of its root. -/
theorem collected_eq (h : n.Whole) (ih : ∀ p ∈ n.parts, p.gathered = p.collected) :
    n.collected = (if n.kind.computes then n.label.expression else none).toList
      ++ n.attributes.flatMap Node.expressions
      ++ (if n.kind = .styleDirective then [] else valueExpressions n.value)
      ++ n.children.flatMap Node.expressions ++ branchExpressions n.elseBlock
      ++ branchExpressions n.pendingBlock ++ branchExpressions n.thenBlock
      ++ branchExpressions n.catchBlock := by
  obtain ⟨hshaped, hparts⟩ := whole_iff.1 h
  have hself : (Visit.expression? ⟨n, false⟩).toList
      = (if n.kind.computes then n.label.expression else none).toList := by
    simp [Visit.expression?]
  have hplain {ns : List Node}
      (hns : ∀ p ∈ ns, p ∈ n.attributes ∨ p ∈ n.value.getD [] ∨ p ∈ n.children) :
      (ns.flatMap (Node.visits false)).filterMap Visit.expression?
        = ns.flatMap Node.expressions := by
    rw [List.filterMap_flatMap]
    refine List.flatMap_congr fun p hp => ?_
    obtain ⟨hbranch, hroot⟩ := hshaped.plain_part (hns p hp)
    have hpart : p ∈ n.parts := by
      rw [mem_parts_iff]
      rcases hns p hp with hp | hp | hp
      · exact Or.inl hp
      · exact Or.inr (Or.inl hp)
      · exact Or.inr (Or.inr (Or.inl hp))
    exact (ih p hpart).symm.trans (gathered_of_kind hbranch hroot)
  have hbranch (b : BranchKind) :
      ((n.slot b).toList.flatMap (Node.visits false)).filterMap Visit.expression?
        = branchExpressions (n.slot b) := by
    rw [List.filterMap_flatMap, branchExpressions_eq]
    refine List.flatMap_congr fun p hp => ?_
    rw [Option.mem_toList] at hp
    have hpart := mem_parts_iff.2 (Or.inr (Or.inr (Or.inr ⟨b, hp⟩)))
    exact (ih p hpart).symm.trans (gathered_of_branch (hshaped.slot_kind b p hp))
  have hvalue : ((n.value.getD []).flatMap
        (Node.visits (n.kind == .styleDirective))).filterMap Visit.expression?
      = if n.kind = .styleDirective then [] else valueExpressions n.value := by
    by_cases hstyle : n.kind = .styleDirective
    · rw [if_pos hstyle, hstyle, List.filterMap_flatMap, List.flatMap_eq_nil_iff]
      intro p hp
      have hpart : p ∈ n.parts := mem_parts_iff.2 (Or.inr (Or.inl hp))
      exact (hparts p hpart).styled_eq_nil (hshaped.chunk_kind p hp)
    · rw [if_neg hstyle, beq_eq_false_iff_ne.2 hstyle, valueExpressions_eq]
      exact hplain fun p hp => Or.inr (Or.inl hp)
  have hattributes := hplain fun p (hp : p ∈ n.attributes) => Or.inl hp
  have hchildren := hplain fun p (hp : p ∈ n.children) => Or.inr (Or.inr hp)
  have helse := hbranch .elseBlock
  have hpending := hbranch .pendingBlock
  have hthen := hbranch .thenBlock
  have hcatch := hbranch .catchBlock
  simp only [slot] at helse hpending hthen hcatch
  have hcons (v : Visit) (vs : List Visit) : (v :: vs).filterMap Visit.expression?
      = v.expression?.toList ++ vs.filterMap Visit.expression? := by
    rw [List.filterMap_cons]
    cases v.expression? <;> rfl
  rw [collected, visits_eq, hcons, hself]
  simp only [List.filterMap_append, hattributes, hvalue, hchildren, helse, hpending, hthen, hcatch,
    List.append_assoc]

end Node

/-- **What is extracted from a whole tree is what walking it contributes.** -/
theorem gathered_eq {n : Node} (h : n.Whole) : n.gathered = n.collected := by
  induction n using Node.parts_induction with
  | h n ih =>
    obtain ⟨hshaped, hparts⟩ := Node.whole_iff.1 h
    rw [Node.collected_eq h fun p hp => ih p hp (hparts p hp)]
    -- the parts that the extraction leaves out are not there, by the kind of the node
    have hattributes := hshaped.attributes_eq
    have hvalue := hshaped.value_eq
    have hchildren := hshaped.children_eq
    have helse := hshaped.slot_eq .elseBlock
    have hpending := hshaped.slot_eq .pendingBlock
    have hthen := hshaped.slot_eq .thenBlock
    have hcatch := hshaped.slot_eq .catchBlock
    clear h ih hshaped hparts
    obtain ⟨label, as, value, children, elseBlock, pending, thenBlock, catchBlock⟩ := n
    simp only [Node.slot, Node.kind] at hattributes hvalue hchildren helse hpending hthen hcatch
    cases hk : label.kind with
    | guarded b =>
      rw [hk] at hattributes hvalue hpending hthen hcatch
      have hbranches : Kind.hasBranch .pendingBlock (.guarded b) = false ∧
          Kind.hasBranch .thenBlock (.guarded b) = false ∧
          Kind.hasBranch .catchBlock (.guarded b) = false := by
        cases b <;> decide
      rw [hattributes rfl, hvalue rfl, hpending hbranches.1, hthen hbranches.2.1,
        hcatch hbranches.2.2]
      simp [Node.gathered, Node.expressions, Node.kind, allExpressions_eq, hk, Kind.computes,
        Kind.isBranch, valueExpressions, branchExpressions]
    | _ =>
      rw [hk] at hattributes hvalue hchildren helse hpending hthen hcatch
      simp_all [Node.gathered, Node.expressions, Node.kind, allExpressions_eq, Kind.computes,
        Kind.isBranch, Kind.isElement, Kind.hasValue, Kind.holdsContent, Kind.hasBranch,
        valueExpressions, branchExpressions]

/-! ## All templates -/

/-- **Extraction and walking agree on every parsed template.** The expressions extracted from
the children of the root are those that walking meets, each once and in the same order; the
visits are those of walking, and the styled ones are those of the chunks of style
directives. -/
theorem parseTemplate_expressions_eq_walk {grammar : Grammar} {source : Text} {root : Node}
    (h : parseTemplate grammar source = .ok root) :
    root.children.flatMap Node.expressions = (root.visits false).filterMap Visit.expression? ∧
      (root.visits false).map Visit.node = root.walk ∧
      ∀ m, ⟨m, true⟩ ∈ root.visits false ↔
        ∃ d ∈ root.walk, d.kind = .styleDirective ∧ m ∈ d.value.getD [] := by
  obtain ⟨hkind, hwhole⟩ := whole_of_parseTemplate h
  refine ⟨?_, map_node_visits false root, fun m => ?_⟩
  · rw [← Node.gathered_of_fragment hkind]
    exact gathered_eq hwhole
  · rw [styled_mem_visits]
    simp

theorem parseTemplate_expressions_eq_walk_await_then :
    ∃ root,
      parseTemplate .permissive awaitThen = .ok root ∧
      root.children.flatMap Node.expressions = [⟨8, 9, 1, 8⟩, ⟨18, 19, 1, 18⟩] ∧
      root.children.flatMap Node.expressions = (root.visits false).filterMap Visit.expression? :=
  ⟨_, parseTemplate_await_then, by decide,
    (parseTemplate_expressions_eq_walk parseTemplate_await_then).1⟩

end ComponentDivision
