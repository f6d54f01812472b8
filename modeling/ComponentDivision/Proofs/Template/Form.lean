/-
# What nodes are made of

Which parts a node has depends on its kind: only elements have attributes, only
attributes have values, only blocks have branches. A node that is still open keeps
this while its parts join it one by one; an await block is complete once the branch
that was opened last has joined it.

* `Node.Fitted` : the parts of a node are of the sorts that its kind allows;
* `Node.Awaits` : the branches and the patterns of an await block;
* `Node.Shaped` : a node, perhaps with one branch still open;
* `Node.TakesContent` : an open node has room for a child;
* `Node.Whole` : all nodes of a tree are shaped;
* `whole_of_attributes` : attributes are whole, and their names are distinct.
-/
import ComponentDivision.Proofs.Template.Nesting

namespace ComponentDivision

/-! ## Kinds -/

namespace Kind

/-- Whether nodes of this kind have children. -/
def holdsContent : Kind → Bool
  | fragment | element _ | guarded _ | branch _ => true
  | _ => false

/-- Whether nodes of this kind can be children. -/
def isContent : Kind → Bool
  | text | comment | element _ | mustache | rawMustache | debugTag | constTag | guarded _
  | awaitBlock => true
  | _ => false

/-- Whether nodes of this kind can be attributes. -/
def isAttribute : Kind → Bool
  | plainAttribute | spread | directive _ | styleDirective => true
  | _ => false

/-- Whether nodes of this kind have a value. -/
def hasValue : Kind → Bool
  | plainAttribute | styleDirective => true
  | _ => false

/-- Whether nodes of this kind have the branch `b`. -/
def hasBranch (b : BranchKind) : Kind → Bool
  | guarded .ifBlock | guarded .eachBlock => b == .elseBlock
  | awaitBlock => b != .elseBlock
  | _ => false

/-- Whether nodes of this kind have a guard. -/
def isBlock : Kind → Bool
  | guarded _ | awaitBlock => true
  | _ => false

theorem isBranch_of_isContent {k : Kind} (h : k.isContent = true) : k.isBranch = false := by
  cases k with
  | branch b => cases h
  | _ => rfl

end Kind

/-- The pattern that names what the branch `b` of an await block gets. -/
def Label.pattern (l : Label) : BranchKind → Option Text
  | .thenBlock => l.thenPattern
  | .catchBlock => l.catchPattern
  | _ => none

/-- The patterns that a node has itself. -/
def Label.patterns (l : Label) : List Text :=
  l.context.toList ++ l.index.toList ++ l.thenPattern.toList ++ l.catchPattern.toList

/-- The label with the pattern of its then branch, or else of its catch branch. -/
def Label.setPattern (l : Label) (b : BranchKind) (pattern : Option Text) : Label :=
  if b = .thenBlock then { l with thenPattern := pattern } else { l with catchPattern := pattern }

/-- A pattern is no part of what a node is called. -/
theorem Label.setPattern_eq (l : Label) (b : BranchKind) (pattern : Option Text) :
    (l.setPattern b pattern).kind = l.kind ∧ (l.setPattern b pattern).name = l.name ∧
      (l.setPattern b pattern).expression = l.expression := by
  unfold setPattern
  split <;> exact ⟨rfl, rfl, rfl⟩

/-- Of the patterns the one that is set changes. -/
theorem Label.pattern_setPattern (l : Label) {a b : BranchKind} (pattern : Option Text)
    (hb : b ∈ [BranchKind.thenBlock, .catchBlock]) (hne : a ≠ b) :
    (l.setPattern b pattern).pattern a = l.pattern a := by
  simp only [List.mem_cons, List.not_mem_nil, or_false] at hb
  rcases hb with rfl | rfl
  · cases a with
    | thenBlock => exact absurd rfl hne
    | _ => rfl
  · cases a with
    | catchBlock => exact absurd rfl hne
    | _ => rfl

/-! ## Nodes -/

namespace Node

/-- The node is an if block that continues the chain of another one. -/
def Continues (n : Node) : Prop :=
  n.kind = .guarded .ifBlock ∧ n.label.elseif = true

/-- The name of a node that is a plain attribute. -/
def plainName? (n : Node) : Option Text :=
  if n.kind = .plainAttribute then n.name else none

/-- The parts of the node are of the sorts that its kind allows. -/
structure Fitted (n : Node) : Prop where
  attributes_eq : n.kind.isElement = false → n.attributes = []
  value_eq : n.kind.hasValue = false → n.value = none
  children_eq : n.kind.holdsContent = false → n.children = []
  slot_eq : ∀ b, n.kind.hasBranch b = false → n.slot b = none
  attribute_kind : ∀ a ∈ n.attributes, a.kind.isAttribute = true
  chunk_kind : ∀ chunk ∈ n.value.getD [], chunk.kind ∈ [.text, .mustache, .shorthand]
  child_kind : ∀ c ∈ n.children, c.kind.isContent = true
  slot_kind : ∀ b, ∀ m ∈ n.slot b, m.kind = .branch b

/-- The branch `b` of the node is written in the text. -/
def Writes (n : Node) (b : BranchKind) : Prop :=
  ∃ m ∈ n.slot b, m.label.unwritten = false

/-- The branches of an await block. The branch `opened` is still open: it and those after it
are not there yet. -/
structure Awaits (opened : Option BranchKind) (n : Node) : Prop where
  branch : ∀ b ∈ [BranchKind.pendingBlock, .thenBlock, .catchBlock],
    n.slot b = some (.unwritten b) ∨ n.Writes b
  later : ∀ a ∈ opened, ∀ b ∈ a.onward, n.slot b = some (.unwritten b)
  pattern : ∀ b, (n.label.pattern b).isSome = true → opened = some b ∨ n.Writes b
  written : opened = none → ∃ b ∈ [BranchKind.pendingBlock, .thenBlock, .catchBlock], n.Writes b

/-- The node has the form that its kind asks for; if it is an await block, its branch `opened`
is still open. -/
structure Shaped (opened : Option BranchKind) (n : Node) : Prop extends n.Fitted where
  guard : n.kind.isBlock = true → n.label.expression.isSome = true
  chain : ∀ c ∈ n.children, c.Continues → n.kind = .branch .elseBlock ∧ n.children = [c]
  chain_else : ∀ b ∈ n.elseBlock, ∀ c ∈ b.children, c.Continues → n.kind = .guarded .ifBlock
  awaits : n.kind = .awaitBlock → n.Awaits opened
  void : n.kind = .element .element → ∀ name ∈ n.name, isVoid name = true → n.children = []
  names : (n.attributes.filterMap plainName?).Nodup
  named : n.kind = .plainAttribute → n.name.isSome = true

/-- The open node has room for a child. -/
structure TakesContent (n : Node) : Prop where
  shaped : n.Shaped none
  holds : n.kind.holdsContent = true
  no_else : n.elseBlock = none
  no_chain : ∀ c ∈ n.children, ¬ c.Continues
  not_void : n.kind = .element .element → ∀ name ∈ n.name, isVoid name = false

/-- All nodes of the tree are shaped. -/
def Whole (n : Node) : Prop :=
  ∀ m ∈ n.walk, m.Shaped none

/-- A tree is whole if its root is shaped and the trees right below it are whole. -/
theorem whole_iff {n : Node} : n.Whole ↔ n.Shaped none ∧ ∀ p ∈ n.parts, p.Whole :=
  forall_mem_walk

/-- The branches of a node, by where they are kept. -/
theorem exists_mem_slot {n p : Node} : (∃ b, p ∈ n.slot b) ↔
    p ∈ n.elseBlock ∨ p ∈ n.pendingBlock ∨ p ∈ n.thenBlock ∨ p ∈ n.catchBlock := by
  constructor
  · rintro ⟨b, hb⟩
    cases b <;> simp_all [slot]
  · rintro (h | h | h | h)
    · exact ⟨.elseBlock, h⟩
    · exact ⟨.pendingBlock, h⟩
    · exact ⟨.thenBlock, h⟩
    · exact ⟨.catchBlock, h⟩

/-- The parts of a node, by where they are kept. -/
theorem mem_parts_iff {n p : Node} : p ∈ n.parts ↔
    p ∈ n.attributes ∨ p ∈ n.value.getD [] ∨ p ∈ n.children ∨ ∃ b, p ∈ n.slot b := by
  rw [exists_mem_slot]
  simp [parts]

/-- A part that is not kept as a branch is none, and no root. -/
theorem Fitted.plain_part {n p : Node} (h : n.Fitted)
    (hp : p ∈ n.attributes ∨ p ∈ n.value.getD [] ∨ p ∈ n.children) :
    p.kind.isBranch = false ∧ p.kind ≠ .fragment := by
  rcases hp with hp | hp | hp
  · have hkind := h.attribute_kind p hp
    cases hk : p.kind <;> simp_all [Kind.isAttribute, Kind.isBranch]
  · have hform : ∀ k ∈ [Kind.text, .mustache, .shorthand],
        k.isBranch = false ∧ k ≠ .fragment := by decide
    exact hform p.kind (h.chunk_kind p hp)
  · have hkind := h.child_kind p hp
    cases hk : p.kind <;> simp_all [Kind.isContent, Kind.isBranch]

/-- What is right below a node is smaller. -/
theorem sizeOf_lt_of_mem_parts {n p : Node} (hp : p ∈ n.parts) : sizeOf p < sizeOf n := by
  obtain ⟨label, as, value, children, elseBlock, pending, thenBlock, catchBlock⟩ := n
  rw [mk.sizeOf_spec]
  rcases mem_parts_iff.1 hp with hp | hp | hp | ⟨b, hp⟩
  · have : sizeOf p < sizeOf as := List.sizeOf_lt_of_mem hp
    omega
  · cases value with
    | none => cases hp
    | some chunks =>
      have : sizeOf p < sizeOf chunks := List.sizeOf_lt_of_mem hp
      rw [Option.some.sizeOf_spec]
      omega
  · have : sizeOf p < sizeOf children := List.sizeOf_lt_of_mem hp
    omega
  · cases b <;> cases hp <;> simp only [Option.some.sizeOf_spec] <;> omega

/-- What every node has if the nodes right below it have it, all nodes have. -/
theorem parts_induction {P : Node → Prop} (h : ∀ n : Node, (∀ p ∈ n.parts, P p) → P n) (n : Node) :
    P n := by
  induction hsize : sizeOf n using Nat.strongRecOn generalizing n with
  | ind size ih =>
    refine h n fun p hp => ih (sizeOf p) ?_ p rfl
    rw [← hsize]
    exact sizeOf_lt_of_mem_parts hp

/-- A tree in a whole one is whole. -/
theorem Whole.of_mem {n m : Node} (h : n.Whole) (hm : m ∈ n.walk) : m.Whole := by
  induction n using parts_induction with
  | h n ih =>
    rcases mem_walk.1 hm with rfl | ⟨p, hp, hm⟩
    · exact h
    · exact ih p hp ((whole_iff.1 h).2 p hp) hm

variable {n m c : Node} {a b : BranchKind} {opened : Option BranchKind}

/-! ## Joining -/

/-- Of the branches, joining changes the one that joins. -/
theorem slot_attach (hc : c.kind = .branch b) (b' : BranchKind) :
    (m.attach c).slot b' = if b' = b then some c else m.slot b' := by
  unfold attach
  rw [hc]
  cases b <;> cases b' <;> rfl

/-- A child changes no branch. -/
theorem slot_attach_of_isContent (hc : c.kind.isContent = true) (b' : BranchKind) :
    (m.attach c).slot b' = m.slot b' := by
  rw [attach_of_not_branch (Kind.isBranch_of_isContent hc)]
  cases b' <;> rfl

/-- A child may join a node that has children. -/
theorem Fitted.attach_content (hm : m.Fitted) (hholds : m.kind.holdsContent = true)
    (hc : c.kind.isContent = true) : (m.attach c).Fitted := by
  have hslot := slot_attach_of_isContent (m := m) hc
  rw [attach_of_not_branch (Kind.isBranch_of_isContent hc)] at hslot ⊢
  refine ⟨hm.attributes_eq, hm.value_eq, fun h => ?_, fun b hb => ?_, hm.attribute_kind,
    hm.chunk_kind, fun d hd => ?_, fun b d hd => ?_⟩
  · exact absurd (hholds.symm.trans h) nofun
  · rw [hslot]
    exact hm.slot_eq b hb
  · rcases List.mem_append.1 hd with hd | hd
    · exact hm.child_kind d hd
    · rw [List.mem_singleton.1 hd]
      exact hc
  · rw [hslot] at hd
    exact hm.slot_kind b d hd

/-- A branch may join a node that has such a branch. -/
theorem Fitted.attach_branch (hm : m.Fitted) (hb : m.kind.hasBranch b = true)
    (hc : c.kind = .branch b) : (m.attach c).Fitted := by
  obtain ⟨has, hvalue, hchildren⟩ := attach_of_branch (n := m) hc
  have hslot := slot_attach (m := m) hc
  refine ⟨?_, ?_, ?_, fun b' hb' => ?_, ?_, ?_, ?_, fun b' d hd => ?_⟩
  · rw [kind_attach, has]
    exact hm.attributes_eq
  · rw [kind_attach, hvalue]
    exact hm.value_eq
  · rw [kind_attach, hchildren]
    exact hm.children_eq
  · rw [kind_attach] at hb'
    rw [hslot, if_neg (by rintro rfl; exact absurd (hb.symm.trans hb') nofun)]
    exact hm.slot_eq b' hb'
  · rw [has]
    exact hm.attribute_kind
  · rw [hvalue]
    exact hm.chunk_kind
  · rw [hchildren]
    exact hm.child_kind
  · rw [hslot] at hd
    split at hd
    · rename_i heq
      cases hd
      rw [hc, heq]
    · exact hm.slot_kind b' d hd

/-- A child joins a node that has room for it, which then has room for another one. -/
theorem TakesContent.attach (hm : m.TakesContent) (hc : c.kind.isContent = true)
    (hchain : ¬ c.Continues) : (m.attach c).TakesContent := by
  have hfitted := hm.shaped.toFitted.attach_content hm.holds hc
  have hchildren : ∀ d ∈ m.children ++ [c], ¬ d.Continues := by
    intro d hd
    rcases List.mem_append.1 hd with hd | hd
    · exact hm.no_chain d hd
    · rw [List.mem_singleton.1 hd]
      exact hchain
  have hkind : m.kind ≠ .awaitBlock := by
    intro hawait
    have := hm.holds
    rw [hawait] at this
    cases this
  rw [attach_of_not_branch (Kind.isBranch_of_isContent hc)] at hfitted ⊢
  refine ⟨⟨hfitted, hm.shaped.guard, ?_, hm.shaped.chain_else, ?_, ?_, hm.shaped.names,
    hm.shaped.named⟩, hm.holds, hm.no_else, hchildren, hm.not_void⟩
  · exact fun d hd hcontinues => absurd hcontinues (hchildren d hd)
  · exact fun hawait => absurd hawait hkind
  · intro helement name hname hvoid
    exact absurd (hvoid.symm.trans (hm.not_void helement name hname)) nofun

/-- An if block that continues a chain joins an empty else branch. -/
theorem Shaped.attach_chain (hm : m.Shaped none) (hkind : m.kind = .branch .elseBlock)
    (hempty : m.children = []) (hc : c.Continues) :
    (m.attach c).Shaped none ∧ (m.attach c).children = [c] := by
  have hcontent : c.kind.isContent = true := by
    rw [hc.1]
    rfl
  have hfitted := hm.toFitted.attach_content (by rw [hkind]; rfl) hcontent
  have hchildren : m.children ++ [c] = [c] := by
    rw [hempty, List.nil_append]
  rw [attach_of_not_branch (Kind.isBranch_of_isContent hcontent)] at hfitted ⊢
  refine ⟨⟨hfitted, hm.guard, fun d hd _ => ⟨hkind, ?_⟩, hm.chain_else, ?_, ?_, hm.names,
    hm.named⟩, hchildren⟩
  · have hd : d ∈ m.children ++ [c] := hd
    rw [hchildren, List.mem_singleton] at hd
    rw [hd]
    exact hchildren
  · exact fun hawait => absurd (hkind.symm.trans hawait) nofun
  · exact fun helement => absurd (hkind.symm.trans helement) nofun

/-- An else branch joins a block that has none. -/
theorem Shaped.attach_else (hm : m.Shaped none) (hb : m.kind.hasBranch .elseBlock = true)
    (hc : c.kind = .branch .elseBlock)
    (hchain : ∀ d ∈ c.children, d.Continues → m.kind = .guarded .ifBlock) :
    (m.attach c).Shaped none := by
  obtain ⟨has, -, hchildren⟩ := attach_of_branch (n := m) hc
  have hlabel := label_attach m c
  have hguarded : m.kind ≠ .awaitBlock ∧ m.kind ≠ .element .element := by
    constructor
    · intro hkind
      rw [hkind] at hb
      cases hb
    · intro hkind
      rw [hkind] at hb
      cases hb
  refine ⟨hm.toFitted.attach_branch hb hc, ?_, ?_, ?_, ?_, ?_, ?_, ?_⟩
  · rw [kind_attach, hlabel]
    exact hm.guard
  · rw [kind_attach, hchildren]
    exact hm.chain
  · intro d hd
    rw [kind_attach]
    rcases mem_else_attach hd with rfl | hd
    · exact hchain
    · exact hm.chain_else d hd
  · rw [kind_attach]
    exact fun hkind => absurd hkind hguarded.1
  · rw [kind_attach]
    exact fun hkind => absurd hkind hguarded.2
  · rw [has]
    exact hm.names
  · rw [kind_attach, name, hlabel]
    exact hm.named

/-! ## Await blocks -/

/-- The branch that has joined is written, and so are those that were. -/
theorem writes_attach (hc : c.kind = .branch b) (hwritten : c.label.unwritten = false)
    {b' : BranchKind} (h : b' = b ∨ m.Writes b') : (m.attach c).Writes b' := by
  unfold Writes
  rw [slot_attach hc]
  by_cases hb' : b' = b
  · rw [if_pos hb']
    exact ⟨c, rfl, hwritten⟩
  · rw [if_neg hb']
    exact h.resolve_left hb'

/-- The open branch of an await block joins it. -/
theorem Awaits.attach (hm : m.Awaits (some b))
    (hb : b ∈ [BranchKind.pendingBlock, .thenBlock, .catchBlock]) (hc : c.kind = .branch b)
    (hwritten : c.label.unwritten = false) : (m.attach c).Awaits none := by
  have hwrites {b'} (h : b' = b ∨ m.Writes b') := writes_attach hc hwritten h
  refine ⟨fun b' hb' => ?_, nofun, fun b' hpattern => ?_, fun _ => ⟨b, hb, hwrites (Or.inl rfl)⟩⟩
  · by_cases heq : b' = b
    · exact Or.inr (hwrites (Or.inl heq))
    · rcases hm.branch b' hb' with hnone | hsome
      · left
        rw [slot_attach hc, if_neg heq]
        exact hnone
      · exact Or.inr (hwrites (Or.inr hsome))
  · right
    rw [label_attach] at hpattern
    rcases hm.pattern b' hpattern with hopened | hsome
    · exact hwrites (Or.inl (Option.some.inj hopened).symm)
    · exact hwrites (Or.inr hsome)

/-- The pattern of a branch that is yet to be opened is not there. -/
theorem Awaits.pattern_eq_none (hm : m.Awaits (some a)) (hb : b ∈ a.onward) (hne : a ≠ b) :
    m.label.pattern b = none := by
  rw [← Option.not_isSome_iff_eq_none]
  intro hpattern
  rcases hm.pattern b hpattern with hopened | ⟨p, hp, hwritten⟩
  · exact hne (Option.some.inj hopened)
  · rw [hm.later a rfl b hb] at hp
    cases hp
    cases hwritten

/-- The open branch of an await block joins it. -/
theorem Shaped.attach_await (hm : m.Shaped (some b)) (hkind : m.kind = .awaitBlock)
    (hb : b ∈ [BranchKind.pendingBlock, .thenBlock, .catchBlock]) (hc : c.kind = .branch b)
    (hwritten : c.label.unwritten = false) : (m.attach c).Shaped none := by
  obtain ⟨has, -, hchildren⟩ := attach_of_branch (n := m) hc
  have hlabel := label_attach m c
  have hhas : ∀ b ∈ [BranchKind.pendingBlock, .thenBlock, .catchBlock],
      Kind.hasBranch b .awaitBlock = true := by decide
  have hfitted := hm.toFitted.attach_branch (by rw [hkind]; exact hhas b hb) hc
  have helse : (m.attach c).elseBlock = none :=
    hfitted.slot_eq .elseBlock (by rw [kind_attach, hkind]; rfl)
  refine ⟨hfitted, ?_, ?_, ?_, fun _ => (hm.awaits hkind).attach hb hc hwritten, ?_, ?_, ?_⟩
  · rw [kind_attach, hlabel]
    exact hm.guard
  · rw [kind_attach, hchildren]
    exact hm.chain
  · rw [helse]
    exact nofun
  · rw [kind_attach]
    exact fun helement => absurd (hkind.symm.trans helement) nofun
  · rw [has]
    exact hm.names
  · rw [kind_attach, name, hlabel]
    exact hm.named

/-! ## Labels -/

theorem slot_relabel (n : Node) (label : Label) (b : BranchKind) :
    ({ n with label } : Node).slot b = n.slot b := by
  cases b <;> rfl

/-- Of the label of a node its form depends on the kind, the name and the expression, and for
an await block on the patterns. -/
theorem Shaped.relabel {opened' : Option BranchKind} {label : Label} (h : n.Shaped opened)
    (hkind : label.kind = n.kind) (hname : label.name = n.name)
    (hexpr : label.expression = n.label.expression)
    (hawaits : n.kind = .awaitBlock → Awaits opened' { n with label }) :
    Shaped opened' { n with label } := by
  have hslot := slot_relabel n label
  obtain ⟨⟨h₁, h₂, h₃, h₄, h₅, h₆, h₇, h₈⟩, hguard, hchain, hchainElse, -, hvoid, hnames,
    hnamed⟩ := h
  rw [← hkind] at h₁ h₂ h₃ h₄ hguard hchain hchainElse hawaits hvoid hnamed
  rw [← hexpr] at hguard
  rw [← hname] at hvoid hnamed
  refine ⟨⟨h₁, h₂, h₃, fun b hb => ?_, h₅, h₆, h₇, fun b m hm => ?_⟩, hguard, hchain, hchainElse,
    hawaits, hvoid, hnames, hnamed⟩
  · rw [hslot]
    exact h₄ b hb
  · rw [hslot] at hm
    exact h₈ b m hm

/-- Of the label of an await block its branches depend on the patterns alone. -/
theorem Awaits.relabel {label : Label} (h : n.Awaits opened)
    (hpattern : ∀ b, label.pattern b = n.label.pattern b) : Awaits opened { n with label } := by
  have hslot := slot_relabel n label
  refine ⟨fun b hb => ?_, fun a ha b hb => ?_, fun b hb => ?_, fun hopened => ?_⟩
  · unfold Writes
    rw [hslot]
    exact h.branch b hb
  · rw [hslot]
    exact h.later a ha b hb
  · unfold Writes
    rw [hslot]
    exact h.pattern b (by rwa [← hpattern])
  · unfold Writes
    simp only [hslot]
    exact h.written hopened

/-- The end of a node is no part of its form. -/
theorem Shaped.endAt (h : n.Shaped opened) (stop : Int) : (n.endAt stop).Shaped opened :=
  h.relabel rfl rfl rfl fun hkind => (h.awaits hkind).relabel fun b => by cases b <;> rfl

/-- The next branch of an await block is opened once the open one has joined it. -/
theorem Awaits.next {label : Label} (hm : m.Awaits (some a))
    (ha : a ∈ [BranchKind.pendingBlock, .thenBlock, .catchBlock]) (hc : c.kind = .branch a)
    (hwritten : c.label.unwritten = false) (hab : b.onward ⊆ a.onward) (hne : a ∉ b.onward)
    (hpattern : ∀ b', b' ≠ b → label.pattern b' = m.label.pattern b') :
    Awaits (some b) { m.attach c with label } := by
  have hjoined := hm.attach ha hc hwritten
  have hslot := slot_relabel (m.attach c) label
  refine ⟨fun b' hb' => ?_, ?_, fun b' hb' => ?_, nofun⟩
  · unfold Writes
    rw [hslot]
    exact hjoined.branch b' hb'
  · rintro _ ⟨⟩ b' hb'
    rw [hslot, slot_attach hc, if_neg (by rintro rfl; exact hne hb')]
    exact hm.later a rfl b' (hab hb')
  · by_cases heq : b' = b
    · rw [heq]
      exact Or.inl rfl
    · right
      have hb' : (label.pattern b').isSome = true := hb'
      rw [hpattern b' heq, ← label_attach m c] at hb'
      unfold Writes
      rw [hslot]
      exact (hjoined.pattern b' hb').resolve_left nofun

/-! ## Attributes -/

/-- A node without parts is whole, unless it is a block or an attribute without a name. -/
theorem whole_leaf {label : Label} (h : label.kind.isBlock = false)
    (hname : label.kind = .plainAttribute → label.name.isSome = true) : (leaf label).Whole := by
  have hfitted : (leaf label).Fitted := by
    refine ⟨fun _ => rfl, fun _ => rfl, fun _ => rfl, fun b _ => ?_, nofun, nofun, nofun,
      fun b m hm => ?_⟩
    · cases b <;> rfl
    · cases b <;> cases hm
  refine whole_iff.2 ⟨⟨hfitted, fun hblock => ?_, nofun, nofun, fun hawait => ?_,
    fun _ _ _ _ => rfl, List.nodup_nil, hname⟩, nofun⟩
  · exact absurd (h.symm.trans hblock) nofun
  · have hawait : label.kind = .awaitBlock := hawait
    rw [hawait] at h
    cases h

/-- A chunk of a value has no parts. -/
theorem Fitted.parts_chunk (h : n.Fitted) (hkind : n.kind ∈ [.text, .mustache, .shorthand]) :
    n.parts = [] := by
  have hform : ∀ k ∈ [Kind.text, .mustache, .shorthand], k.isElement = false ∧
      k.hasValue = false ∧ k.holdsContent = false ∧ k.hasBranch .elseBlock = false ∧
      k.hasBranch .pendingBlock = false ∧ k.hasBranch .thenBlock = false ∧
      k.hasBranch .catchBlock = false := by decide
  obtain ⟨helement, hvalue, hholds, helse, hpending, hthen, hcatch⟩ := hform n.kind hkind
  have helse : n.elseBlock = none := h.slot_eq .elseBlock helse
  have hpending : n.pendingBlock = none := h.slot_eq .pendingBlock hpending
  have hthen : n.thenBlock = none := h.slot_eq .thenBlock hthen
  have hcatch : n.catchBlock = none := h.slot_eq .catchBlock hcatch
  simp [parts, h.attributes_eq helement, h.value_eq hvalue, h.children_eq hholds, helse, hpending,
    hthen, hcatch]

/-- The nodes of an attribute are the attribute itself and the chunks of its value. -/
theorem Whole.attribute_or_chunk {a m : Node} (ha : a.Whole) (hkind : a.kind.isAttribute = true)
    (hm : m ∈ a.walk) :
    m.kind.isAttribute = true ∨ m.kind ∈ [.text, .mustache, .shorthand] := by
  obtain ⟨hshaped, hparts⟩ := whole_iff.1 ha
  have hform : a.kind.holdsContent = false ∧ a.kind.isElement = false ∧
      ∀ b, a.kind.hasBranch b = false := by
    cases hk : a.kind <;> simp_all [Kind.isAttribute, Kind.holdsContent, Kind.isElement,
      Kind.hasBranch]
  rcases mem_walk.1 hm with rfl | ⟨p, hp, hm⟩
  · exact Or.inl hkind
  · rcases mem_parts_iff.1 hp with hattribute | hchunk | hchild | ⟨b, hbranch⟩
    · rw [hshaped.attributes_eq hform.2.1] at hattribute
      cases hattribute
    · have hchunk := hshaped.chunk_kind p hchunk
      have hnil := (whole_iff.1 (hparts p hp)).1.parts_chunk hchunk
      rcases mem_walk.1 hm with rfl | ⟨q, hq, -⟩
      · exact Or.inr hchunk
      · rw [hnil] at hq
        cases hq
    · rw [hshaped.children_eq hform.1] at hchild
      cases hchild
    · rw [hshaped.slot_eq b (hform.2.2 b)] at hbranch
      cases hbranch

/-- The node can be a chunk of a value. -/
structure IsChunk (n : Node) : Prop where
  kind : n.kind ∈ [.text, .mustache, .shorthand]
  whole : n.Whole
  key_eq : n.label.key = none
  patterns_eq : n.label.patterns = []

theorem isChunk_leaf {label : Label} (kind : Kind) (hkind : label.kind = kind)
    (hmem : kind ∈ [.text, .mustache, .shorthand]) (hkey : label.key = none)
    (hpatterns : label.patterns = []) : (leaf label).IsChunk := by
  have hform : ∀ k ∈ [Kind.text, .mustache, .shorthand],
      k.isBlock = false ∧ k ≠ .plainAttribute := by decide
  rw [← hkind] at hmem
  obtain ⟨hblock, hplain⟩ := hform label.kind hmem
  exact ⟨hmem, whole_leaf hblock fun h => absurd h hplain, hkey, hpatterns⟩

/-- A node with a value is whole if the chunks of the value are. -/
theorem whole_valued {label : Label} {value : Option (List Node)}
    (hkind : label.kind.hasValue = true) (hname : label.name.isSome = true)
    (hvalue : ∀ chunk ∈ value.getD [], chunk.IsChunk) : Whole { label, value } := by
  have hblock : label.kind.isBlock = false := by
    cases hk : label.kind <;> simp_all [Kind.hasValue, Kind.isBlock]
  have hshaped : (leaf label).Shaped none := (whole_iff.1 (whole_leaf hblock fun _ => hname)).1
  refine whole_iff.2 ⟨⟨⟨hshaped.attributes_eq, fun h => ?_, hshaped.children_eq, fun b hb => ?_,
    nofun, fun chunk hchunk => (hvalue chunk hchunk).kind, nofun, fun b m hm => ?_⟩, hshaped.guard,
    nofun, nofun, fun h => ?_, hshaped.void, List.nodup_nil, fun _ => hname⟩, fun p hp => ?_⟩
  · exact absurd (hkind.symm.trans h) nofun
  · cases b <;> rfl
  · cases b <;> cases hm
  · have h : label.kind = .awaitBlock := h
    rw [h] at hkind
    cases hkind
  · have hparts : parts { label, value } = value.getD [] := by
      simp [parts]
    rw [hparts] at hp
    exact (hvalue p hp).whole

end Node

section Attributes

open Reader

variable {ctx : Context} {c d : Cursor}

/-- An expression in the braces of a value is a chunk of it. -/
theorem isChunk_of_valueMustache {start : Nat} {chunk : Node}
    (h : valueMustache ctx start c = .ok (chunk, d)) : chunk.IsChunk := by
  simp only [valueMustache, bind_eq_ok, position_eq_ok, pure_eq_ok] at h
  obtain ⟨_, _, -, _, _, -, e, _, -, _, _, -, _, _, -, rfl, -⟩ := h
  exact Node.isChunk_leaf .mustache rfl (by decide) rfl rfl

/-- What a value consists of. -/
theorem isChunk_of_valueChunks {quote : Option Char} {chunks : List Node}
    (h : valueChunks ctx quote c = .ok (chunks, d)) : ∀ chunk ∈ chunks, chunk.IsChunk := by
  have htext (n : Nat) (c : Cursor) :
      ∀ chunk ∈ (if n = 0 then [] else [Node.ofText c.pos (c.rest.take n)]), chunk.IsChunk := by
    intro chunk hchunk
    split at hchunk
    · cases hchunk
    · rw [List.mem_singleton.1 hchunk]
      exact Node.isChunk_leaf .text rfl (by decide) rfl rfl
  fun_induction valueChunks ctx quote c generalizing chunks d with
  | case1 => cases h
  | case2 c =>
    cases h
    exact htext _ c
  | case3 => cases h
  | case4 => cases h
  | case5 =>
    rename_i c n c₁ text ch cs hrest _ first c₂ hfirst rest c₃ _ ih
    cases h
    intro chunk hchunk
    rcases List.mem_append.1 hchunk with hchunk | hchunk
    · exact htext _ c chunk hchunk
    rcases List.mem_cons.1 hchunk with rfl | hchunk
    · exact isChunk_of_valueMustache hfirst
    · exact ih ‹_› chunk hchunk

/-- The value of an attribute consists of chunks. -/
theorem isChunk_of_attributeValue {chunks : List Node}
    (h : attributeValue ctx c = .ok (chunks, d)) : ∀ chunk ∈ chunks, chunk.IsChunk := by
  obtain ⟨q, c₁, h₁, h⟩ := bind_eq_ok.1 h
  cases q with
  | none => cases h
  | some q =>
    rcases ite_eq_ok.1 h with ⟨-, h⟩ | ⟨-, h⟩
    · obtain ⟨_, c₂, -, h⟩ := bind_eq_ok.1 h
      obtain ⟨chunks', c₃, hchunks, h⟩ := bind_eq_ok.1 h
      obtain ⟨_, c₄, -, h⟩ := bind_eq_ok.1 h
      obtain ⟨rfl, -⟩ := pure_eq_ok.1 h
      exact isChunk_of_valueChunks hchunks
    · obtain ⟨chunks', c₂, hchunks, h⟩ := bind_eq_ok.1 h
      rcases ite_eq_ok.1 h with ⟨-, h⟩ | ⟨-, h⟩
      · cases h
      · obtain ⟨rfl, -⟩ := pure_eq_ok.1 h
        exact isChunk_of_valueChunks hchunks

/-- The attributes that what stands before a colon gives. -/
theorem directive?_eq_some {before : Text} {kind : Kind} (h : directive? before = some kind) :
    (∃ d, kind = .directive d) ∨ kind = .styleDirective := by
  obtain ⟨entry, hentry, rfl⟩ := Option.map_eq_some_iff.1 h
  have hmem := List.mem_of_find?_eq_some hentry
  simp only [List.mem_cons, List.not_mem_nil, or_false] at hmem
  rcases hmem with rfl | rfl | rfl | rfl | rfl | rfl | rfl | rfl | rfl | rfl
  all_goals simp

/-- An attribute without braces is whole if its value is. -/
theorem whole_of_namedAttribute {name : Text} {start stop : Nat} {value : Option (List Node)}
    {a : Node} (hvalue : ∀ chunk ∈ value.getD [], chunk.IsChunk)
    (h : namedAttribute name start stop value = .ok a) :
    a.kind.isAttribute = true ∧ a.Whole := by
  simp only [namedAttribute] at h
  split at h
  · rename_i _ hkind
    rcases directive?_eq_some hkind with ⟨d, rfl⟩ | rfl
    · split at h
      · rename_i heq
        cases heq
      · cases h
        exact ⟨rfl, Node.whole_leaf rfl fun h => by cases h⟩
      · cases h
      · split at h
        · cases h
          exact ⟨rfl, Node.whole_leaf rfl fun h => by cases h⟩
        · cases h
    · cases h
      exact ⟨rfl, Node.whole_valued rfl rfl hvalue⟩
  · cases h
    exact ⟨rfl, Node.whole_valued rfl rfl hvalue⟩

/-- An attribute in braces is whole. -/
theorem whole_of_bracedAttribute {start : Nat} {a : Node}
    (h : bracedAttribute ctx start c = .ok (a, d)) : a.kind.isAttribute = true ∧ a.Whole := by
  simp only [bracedAttribute, bind_eq_ok] at h
  obtain ⟨_, _, -, _, _, -, h⟩ := h
  rcases ite_eq_ok.1 h with ⟨-, h⟩ | ⟨-, h⟩
  · simp only [bind_eq_ok, pure_eq_ok] at h
    obtain ⟨_, _, -, _, _, -, _, _, -, rfl, -⟩ := h
    exact ⟨rfl, Node.whole_leaf rfl fun h => by cases h⟩
  · obtain ⟨x, _, -, h⟩ := bind_eq_ok.1 h
    rcases ite_eq_ok.1 h with ⟨-, h⟩ | ⟨-, h⟩
    · simp only [bind_eq_ok, pure_eq_ok] at h
      obtain ⟨_, _, -, _, _, -, _, _, -, rfl, -⟩ := h
      refine ⟨rfl, Node.whole_valued rfl rfl fun chunk hchunk => ?_⟩
      rw [List.mem_singleton.1 hchunk]
      exact Node.isChunk_leaf .shorthand rfl (by decide) rfl rfl
    · cases h

/-- An attribute without braces is whole. -/
theorem whole_of_unbracedAttribute {start : Nat} {first : Char} {a : Node}
    (h : unbracedAttribute ctx start first c = .ok (a, d)) :
    a.kind.isAttribute = true ∧ a.Whole := by
  simp only [unbracedAttribute, bind_eq_ok] at h
  obtain ⟨more, _, -, _, _, -, h⟩ := h
  rcases ite_eq_ok.1 h with ⟨-, h⟩ | ⟨-, h⟩
  · simp only [bind_eq_ok, ofExcept_eq_ok] at h
    obtain ⟨_, _, -, _, _, -, _, _, -, value, _, hvalue, _, _, -, hnamed, -⟩ := h
    exact whole_of_namedAttribute (isChunk_of_attributeValue hvalue) hnamed
  · simp only [bind_eq_ok, ofExcept_eq_ok] at h
    obtain ⟨_, _, -, hnamed, -⟩ := h
    exact whole_of_namedAttribute (fun _ hchunk => absurd hchunk List.not_mem_nil) hnamed

/-- An attribute is whole. -/
theorem whole_of_oneAttribute {start : Nat} {first : Char} {a : Node}
    (h : oneAttribute ctx start first c = .ok (a, d)) : a.kind.isAttribute = true ∧ a.Whole := by
  rcases ite_eq_ok.1 h with ⟨-, h⟩ | ⟨-, h⟩
  · exact whole_of_bracedAttribute h
  rcases ite_eq_ok.1 h with ⟨-, h⟩ | ⟨-, h⟩
  · cases h
  · exact whole_of_unbracedAttribute h

/-- The name of a plain attribute is seen once, and no other name is. -/
theorem seeAttribute_eq_ok {seen seen' : List Text} {a : Node}
    (h : seeAttribute seen a = .ok seen') :
    (∀ name ∈ a.plainName?, name ∉ seen) ∧ seen' = a.plainName?.toList ++ seen := by
  unfold seeAttribute at h
  split at h
  · rename_i name hkind hname
    have hplain : a.plainName? = some name := by
      unfold Node.plainName?
      rw [if_pos hkind, hname]
    rw [hplain]
    split at h
    · cases h
    · rename_i hnew
      cases h
      refine ⟨?_, rfl⟩
      rintro _ ⟨⟩
      simpa using hnew
  · rename_i hother
    have hplain : a.plainName? = none := by
      unfold Node.plainName?
      split
      · rename_i hkind
        cases hname : a.name with
        | none => rfl
        | some name => exact absurd hname (hother name hkind)
      · rfl
    cases h
    rw [hplain]
    exact ⟨nofun, rfl⟩

/-- **The attributes of a start tag are whole, and no two plain ones have the same name.** -/
theorem whole_of_attributes {seen : List Text} {as : List Node}
    (h : attributes ctx seen c = .ok (as, d)) :
    (∀ a ∈ as, a.kind.isAttribute = true ∧ a.Whole) ∧ (as.filterMap Node.plainName?).Nodup ∧
      ∀ name ∈ as.filterMap Node.plainName?, name ∉ seen := by
  fun_induction attributes ctx seen c generalizing as d with
  | case1 => cases h
  | case2 =>
    cases h
    exact ⟨fun _ h => absurd h List.not_mem_nil, List.nodup_nil,
      fun _ h => absurd h List.not_mem_nil⟩
  | case3 => cases h
  | case4 => cases h
  | case5 => cases h
  | case6 =>
    rename_i seen c c₁ ch cs hrest _ a c₂ ha seen' hseen as c₃ has ih
    cases h
    obtain ⟨hnew, rfl⟩ := seeAttribute_eq_ok hseen
    obtain ⟨hall, hnodup, hnotin⟩ := ih has
    refine ⟨?_, ?_⟩
    · intro a' ha'
      rcases List.mem_cons.1 ha' with rfl | ha'
      · exact whole_of_oneAttribute ha
      · exact hall a' ha'
    · rw [List.filterMap_cons]
      cases hname : a.plainName? with
      | none =>
        rw [hname] at hnotin
        exact ⟨hnodup, hnotin⟩
      | some name =>
        rw [hname] at hnotin
        refine ⟨List.nodup_cons.2 ⟨fun hmem => hnotin name hmem List.mem_cons_self, hnodup⟩, ?_⟩
        intro other hother
        rcases List.mem_cons.1 hother with rfl | hother
        · exact hnew other hname
        · exact fun hmem => hnotin other hother (List.mem_cons_of_mem _ hmem)

end Attributes

end ComponentDivision
