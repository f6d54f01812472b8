/-
# Where nodes stand

A node that is placed in a text has its parts in a row inside it: its expressions,
its attributes, the chunks of its value, its children and its branches, in this
order and without overlap. Only the branches that are not written in the text have
no place.

* `Node.spans` : the spans of the parts of a node, in document order;
* `Node.Placed`, `Node.Sound` : a node is placed, and so are the nodes below it;
* `mem_walk` : a node and what is below it;
* `listed_of_attributes` : the attributes of a start tag are placed in a row.
-/
import ComponentDivision.Proofs.Span
import ComponentDivision.Proofs.Template.Reading
import ComponentDivision.Template.Attribute
import ComponentDivision.Template.Block

namespace ComponentDivision

/-! ## The parts of a node -/

/-- Where an expression stands. -/
def Expression.span (e : Expression) : Span :=
  ⟨e.start, e.stop⟩

/-- The expressions that a node has itself. -/
def Label.embedded (l : Label) : List Expression :=
  l.expression.toList ++ l.key.toList

namespace Node

/-- Where a node stands. -/
def span (n : Node) : Span :=
  ⟨n.start, n.stop⟩

/-- The branches of a node that are written in the text. -/
def branches (n : Node) : List Node :=
  (n.elseBlock.toList ++ n.pendingBlock.toList ++ n.thenBlock.toList
    ++ n.catchBlock.toList).filter fun b => !b.label.unwritten

/-- The spans of the parts of a node, in document order. -/
def spans (n : Node) : List Span :=
  n.label.embedded.map Expression.span
    ++ (n.attributes ++ n.value.getD [] ++ n.children ++ n.branches).map Node.span

/-- The nodes right below a node. -/
def parts (n : Node) : List Node :=
  n.attributes ++ n.value.getD [] ++ n.children ++ n.elseBlock.toList ++ n.pendingBlock.toList
    ++ n.thenBlock.toList ++ n.catchBlock.toList

end Node

theorem walkAll_eq (ns : List Node) : walkAll ns = ns.flatMap Node.walk := by
  induction ns with
  | nil => rfl
  | cons n ns ih => rw [walkAll, ih, List.flatMap_cons]

theorem walkValue_eq (value : Option (List Node)) :
    walkValue value = (value.getD []).flatMap Node.walk := by
  cases value with
  | none => rfl
  | some ns => exact walkAll_eq ns

theorem walkBranch_eq (branch : Option Node) :
    walkBranch branch = branch.toList.flatMap Node.walk := by
  cases branch with
  | none => rfl
  | some n => simp [walkBranch]

/-- The nodes of a tree are its root and the nodes of the trees right below it. -/
theorem walk_eq (n : Node) : n.walk = n :: n.parts.flatMap Node.walk := by
  cases n
  simp only [Node.walk, Node.parts, walkAll_eq, walkValue_eq, walkBranch_eq, List.flatMap_append]

/-- A node of a tree is its root or in a tree right below it. -/
theorem mem_walk {m n : Node} : m ∈ n.walk ↔ m = n ∨ ∃ p ∈ n.parts, m ∈ p.walk := by
  rw [walk_eq, List.mem_cons, List.mem_flatMap]

/-- What holds of all nodes of a tree holds of its root and of all nodes right below it. -/
theorem forall_mem_walk {P : Node → Prop} {n : Node} :
    (∀ m ∈ n.walk, P m) ↔ P n ∧ ∀ p ∈ n.parts, ∀ m ∈ p.walk, P m := by
  constructor
  · intro h
    exact ⟨h n (mem_walk.2 (Or.inl rfl)), fun p hp m hm => h m (mem_walk.2 (Or.inr ⟨p, hp, hm⟩))⟩
  · rintro ⟨hn, hparts⟩ m hm
    rcases mem_walk.1 hm with rfl | ⟨p, hp, hm⟩
    · exact hn
    · exact hparts p hp m hm

/-! ## Placed nodes -/

/-- The node is written in the text, and its parts are in a row inside it. -/
structure Node.Placed (source : Text) (n : Node) : Prop where
  written : n.label.unwritten = false
  nonneg : 0 ≤ n.start
  row : Row n.start n.stop n.spans
  stop_le : n.stop ≤ source.length
  tile : ∃ lo hi, Tile lo hi (n.children.map Node.span)
  exact : ∀ e ∈ n.label.embedded, e.Exact source
  else_written : ∀ b ∈ n.elseBlock, b.label.unwritten = false

/-- All nodes of the tree are placed, but for branches that are not written. -/
def Node.Sound (source : Text) (n : Node) : Prop :=
  ∀ m ∈ n.walk, (∃ b, b ≠ .elseBlock ∧ m = .unwritten b) ∨ m.Placed source

section

variable {source : Text}

/-- A tree is sound if its root is placed and the trees right below it are sound. -/
theorem Node.Placed.sound {n : Node} (hn : n.Placed source)
    (hparts : ∀ p ∈ n.parts, p.Sound source) : n.Sound source := by
  intro m hm
  rcases mem_walk.1 hm with rfl | ⟨p, hp, hm⟩
  · exact Or.inr hn
  · exact hparts p hp m hm

/-- The trees right below a sound one are sound. -/
theorem Node.Sound.part {n p : Node} (hn : n.Sound source) (hp : p ∈ n.parts) :
    p.Sound source :=
  fun m hm => hn m (mem_walk.2 (Or.inr ⟨p, hp, hm⟩))

/-- A sound tree whose root has a place is placed. -/
theorem Node.Sound.placed {n : Node} (hn : n.Sound source) (hstart : 0 ≤ n.start) :
    n.Placed source := by
  rcases hn n (mem_walk.2 (Or.inl rfl)) with ⟨b, -, rfl⟩ | h
  · cases hstart
  · exact h

/-- A branch that is not written is sound. -/
theorem sound_unwritten {b : BranchKind} (hb : b ≠ .elseBlock) :
    (Node.unwritten b).Sound source := by
  intro m hm
  rcases mem_walk.1 hm with rfl | ⟨p, hp, -⟩
  · exact Or.inl ⟨b, hb, rfl⟩
  · cases hp

/-! ## Nodes that were read -/

variable {grammar : Grammar} {c d : Cursor}

/-- The expression stands between two offsets and knows its line. -/
structure Expression.Between (source : Text) (lo hi : Int) (e : Expression) : Prop where
  le_start : lo ≤ e.start
  stop_le : e.stop ≤ hi
  exact : e.Exact source

theorem Embedded.between {e : Expression} (h : Embedded ⟨grammar, source.lineStarts⟩ c d e)
    (hd : d.On source) : e.Between source c.pos d.pos := by
  obtain ⟨hstart, -, hstop⟩ := h.bounds
  exact ⟨hstart, hstop, h.exact hd⟩

/-- The row of an expression, if there is one. -/
theorem row_expression {lo hi : Int} {expression : Option Expression} (hle : lo ≤ hi)
    (hexpr : ∀ e ∈ expression, e.Between source lo hi) :
    Row lo hi (expression.toList.map Expression.span) := by
  cases expression with
  | none => exact hle
  | some e =>
    obtain ⟨hstart, hstop, hexact⟩ := hexpr e rfl
    exact ⟨hstart, Int.le_of_lt hexact.start_lt_stop, hstop⟩

/-- A node without parts is sound. -/
theorem sound_leaf {label : Label} (hnonneg : 0 ≤ label.start) (hle : label.start ≤ label.stop)
    (hstop : label.stop ≤ source.length) (hwritten : label.unwritten = false)
    (hkey : label.key = none)
    (hexpr : ∀ e ∈ label.expression, e.Between source label.start label.stop) :
    (Node.leaf label).Sound source := by
  have hembedded : label.embedded = label.expression.toList := by
    rw [Label.embedded, hkey, Option.toList_none, List.append_nil]
  refine Node.Placed.sound ⟨hwritten, hnonneg, ?_, hstop, ⟨0, 0, rfl⟩, fun e he => ?_, nofun⟩ nofun
  · show Row label.start label.stop (label.embedded.map Expression.span ++ [])
    rw [List.append_nil, hembedded]
    exact row_expression hle hexpr
  · have he : e ∈ label.embedded := he
    rw [hembedded, Option.mem_toList] at he
    exact (hexpr e he).exact

/-- A node without parts that was read from one place to another is sound. -/
theorem sound_read {label : Label} (hcd : c.Reaches d) (hd : d.On source)
    (hstart : label.start = c.pos) (hstop : label.stop = d.pos)
    (hwritten : label.unwritten = false) (hkey : label.key = none)
    (hexpr : ∀ e ∈ label.expression, e.Between source c.pos d.pos) :
    (Node.leaf label).Sound source := by
  have hle := hcd.pos_le
  have hlen := hd.pos_le
  rw [← hstart, ← hstop] at hexpr
  exact sound_leaf (by omega) (by omega) (by omega) hwritten hkey hexpr

/-- A run of text is sound. -/
theorem sound_ofText {data : Text} (hcd : c.Reaches d) (hd : d.On source)
    (hdata : d.pos = c.pos + data.length) : (Node.ofText c.pos data).Sound source := by
  refine sound_read hcd hd rfl ?_ rfl rfl nofun
  show (c.pos : Int) + data.length = d.pos
  omega

/-- The trees are sound and stand in a row between two offsets. -/
structure Listed (source : Text) (lo hi : Int) (ns : List Node) : Prop where
  row : Row lo hi (ns.map Node.span)
  sound : ∀ n ∈ ns, n.Sound source

theorem Listed.nil {lo hi : Int} (h : lo ≤ hi) : Listed source lo hi [] :=
  ⟨h, nofun⟩

theorem Listed.single {n : Node} (hn : n.Sound source) (hle : n.start ≤ n.stop) :
    Listed source n.start n.stop [n] := by
  refine ⟨⟨Int.le_refl _, hle, Int.le_refl _⟩, fun m hm => ?_⟩
  rw [List.mem_singleton.1 hm]
  exact hn

theorem Listed.append {lo mid hi : Int} {ms ns : List Node} (hms : Listed source lo mid ms)
    (hns : Listed source mid hi ns) : Listed source lo hi (ms ++ ns) := by
  refine ⟨?_, fun n hn => ?_⟩
  · rw [List.map_append]
    exact row_append.2 ⟨mid, hms.row, hns.row⟩
  · rcases List.mem_append.1 hn with hn | hn
    · exact hms.sound n hn
    · exact hns.sound n hn

theorem Listed.mono {lo hi lo' hi' : Int} {ns : List Node} (h : Listed source lo hi ns)
    (hlo : lo' ≤ lo) (hhi : hi ≤ hi') : Listed source lo' hi' ns :=
  ⟨h.row.mono hlo hhi, h.sound⟩

/-- One tree that was read from one place to another. -/
theorem Listed.read {n : Node} (hn : n.Sound source) (hstart : n.start = c.pos)
    (hstop : n.stop = d.pos) (hcd : c.Reaches d) : Listed source c.pos d.pos [n] := by
  have hle := hcd.pos_le
  rw [← hstart, ← hstop]
  exact .single hn (by omega)

/-! ## Values -/

open Reader

/-- An expression in the braces of a value is sound. -/
theorem listed_of_valueMustache {c₀ : Cursor} {chunk : Node} (hc : c.On source)
    (hc₀ : c.Reaches c₀)
    (h : valueMustache ⟨grammar, source.lineStarts⟩ c.pos c₀ = .ok (chunk, d)) :
    Listed source c.pos d.pos [chunk] := by
  have hcd := hc₀.trans (forward_valueMustache _ _ h)
  simp only [valueMustache, bind_eq_ok, position_eq_ok, pure_eq_ok] at h
  obtain ⟨_, c₁, h₁, _, c₂, h₂, e, c₃, he, _, _, h₄, _, _, ⟨rfl, rfl⟩, rfl, rfl⟩ := h
  have hembedded := (embedded_of_readExpressionAt rfl he).widen
    ((hc₀.trans (forward_skipBlank h₁)).trans (forward_refuseTag h₂)) (forward_expect _ h₄)
  refine .read (sound_read hcd (hcd.on hc) rfl rfl rfl rfl ?_) rfl rfl hcd
  rintro _ ⟨⟩
  exact hembedded.between (hcd.on hc)

/-- The text before the first braces of a value is sound. -/
theorem listed_valueText (quote : Option Char) (hc : c.On source) :
    Listed source c.pos (c.advance (valueTextLength quote c.rest)).pos
      (if valueTextLength quote c.rest = 0 then []
      else [.ofText c.pos (c.rest.take (valueTextLength quote c.rest))]) := by
  have hle := valueTextLength_le quote c.rest
  have hreach := Cursor.reaches_advance hle
  have hlength : (c.rest.take (valueTextLength quote c.rest)).length
      = valueTextLength quote c.rest := by
    rw [List.length_take, Nat.min_eq_left hle]
  split
  · exact .nil (Int.ofNat_le.2 hreach.pos_le)
  · refine .read (sound_ofText hreach (hreach.on hc) ?_) rfl ?_ hreach
    · rw [hlength]
      rfl
    · show (c.pos : Int) + _ = _
      rw [hlength]
      rfl

/-- The chunks of a value are placed in a row. -/
theorem listed_of_valueChunks {quote : Option Char} {chunks : List Node} (hc : c.On source)
    (h : valueChunks ⟨grammar, source.lineStarts⟩ quote c = .ok (chunks, d)) :
    Listed source c.pos d.pos chunks := by
  fun_induction valueChunks ⟨grammar, source.lineStarts⟩ quote c generalizing chunks d with
  | case1 => cases h
  | case2 c =>
    cases h
    exact listed_valueText quote hc
  | case3 => cases h
  | case4 => cases h
  | case5 =>
    rename_i c n c₁ text ch cs hrest _ chunk c₂ hchunk chunks' c₃ _ ih
    cases h
    have htext := listed_valueText quote hc
    have hc₁ := (Cursor.reaches_advance (valueTextLength_le quote c.rest)).on hc
    have hnext : c₁.Reaches (c₁.advance 1) := Cursor.reaches_advance (by simp [hrest])
    have hc₂ := (hnext.trans (forward_valueMustache _ _ hchunk)).on hc₁
    have htail := (listed_of_valueMustache hc₁ hnext hchunk).append (ih hc₂ ‹_›)
    exact htext.append htail

/-- The value of an attribute is placed in a row. -/
theorem listed_of_attributeValue {chunks : List Node} (hc : c.On source)
    (h : attributeValue ⟨grammar, source.lineStarts⟩ c = .ok (chunks, d)) :
    Listed source c.pos d.pos chunks := by
  obtain ⟨q, c₁, h₁, h⟩ := bind_eq_ok.1 h
  cases h₁
  cases hq : c.rest.head? with
  | none =>
    rw [hq] at h
    cases h
  | some q =>
    rw [hq] at h
    rcases ite_eq_ok.1 h with ⟨-, h⟩ | ⟨-, h⟩
    · obtain ⟨_, c₂, h₂, h⟩ := bind_eq_ok.1 h
      obtain ⟨chunks', c₃, h₃, h⟩ := bind_eq_ok.1 h
      obtain ⟨_, c₄, h₄, h⟩ := bind_eq_ok.1 h
      obtain ⟨rfl, rfl⟩ := pure_eq_ok.1 h
      have hc₂ := forward_eat _ h₂
      exact (listed_of_valueChunks (hc₂.on hc) h₃).mono (Int.ofNat_le.2 hc₂.pos_le)
        (Int.ofNat_le.2 (forward_eat _ h₄).pos_le)
    · obtain ⟨chunks', c₂, h₂, h⟩ := bind_eq_ok.1 h
      rcases ite_eq_ok.1 h with ⟨-, h⟩ | ⟨-, h⟩
      · cases h
      · obtain ⟨rfl, rfl⟩ := pure_eq_ok.1 h
        exact listed_of_valueChunks hc h₂

/-! ## Attributes -/

/-- The expressions of a placed node are inside it. -/
theorem Node.Placed.le_of_mem_embedded {n : Node} {e : Expression} (hn : n.Placed source)
    (he : e ∈ n.label.embedded) : n.start ≤ e.start ∧ e.stop ≤ n.stop := by
  have hmem : e.span ∈ n.spans := List.mem_append_left _ (List.mem_map_of_mem he)
  obtain ⟨hstart, -, hstop⟩ := hn.row.mem hmem
  exact ⟨hstart, hstop⟩

/-- A node whose only parts are the chunks of its value is sound. -/
theorem sound_valued {label : Label} {value : Option (List Node)} (hd : d.On source)
    (hstart : label.start = c.pos) (hstop : label.stop = d.pos)
    (hwritten : label.unwritten = false) (hembedded : label.embedded = [])
    (hvalue : Listed source c.pos d.pos (value.getD [])) :
    Node.Sound source { label, value } := by
  have hlen := hd.pos_le
  have hparts : Node.parts { label, value } = value.getD [] := by
    simp [Node.parts]
  have hspans : Node.spans { label, value } = (value.getD []).map Node.span := by
    simp [Node.spans, Node.branches, hembedded]
  refine Node.Placed.sound ⟨hwritten, ?_, ?_, ?_, ⟨0, 0, rfl⟩, ?_, nofun⟩ (hparts ▸ hvalue.sound)
  · show 0 ≤ label.start
    omega
  · show Row label.start label.stop _
    rw [hspans, hstart, hstop]
    exact hvalue.row
  · show label.stop ≤ source.length
    omega
  · show ∀ e ∈ label.embedded, _
    rw [hembedded]
    exact nofun

/-- An attribute without braces keeps its value, or the expression that is its value. -/
theorem namedAttribute_eq_ok {name : Text} {start stop : Nat} {value : Option (List Node)}
    {a : Node} (h : namedAttribute name start stop value = .ok a) :
    ∃ label : Label, label.start = start ∧ label.stop = stop ∧ label.unwritten = false ∧
      label.key = none ∧ (label.expression = none ∧ a = { label, value } ∨
        ∃ chunk, value = some [chunk] ∧ a = .leaf label ∧
          label.expression = chunk.label.expression) := by
  simp only [namedAttribute] at h
  split at h
  · split at h
    · cases h
      exact ⟨_, rfl, rfl, rfl, rfl, Or.inl ⟨rfl, rfl⟩⟩
    · cases h
      exact ⟨_, rfl, rfl, rfl, rfl, Or.inl ⟨rfl, rfl⟩⟩
    · cases h
    · split at h
      · rename_i hone
        rw [Bool.and_eq_true, List.isEmpty_iff] at hone
        obtain ⟨rfl, -⟩ := hone
        cases h
        exact ⟨_, rfl, rfl, rfl, rfl, Or.inr ⟨_, rfl, rfl, rfl⟩⟩
      · cases h
  · cases h
    exact ⟨_, rfl, rfl, rfl, rfl, Or.inl ⟨rfl, rfl⟩⟩

/-- An attribute without braces is sound if its value is. -/
theorem listed_of_namedAttribute {name : Text} {value : Option (List Node)} {a : Node}
    (hcd : c.Reaches d) (hd : d.On source) (hvalue : Listed source c.pos d.pos (value.getD []))
    (h : namedAttribute name c.pos d.pos value = .ok a) : Listed source c.pos d.pos [a] := by
  obtain ⟨label, hstart, hstop, hwritten, hkey, ⟨hnone, rfl⟩ | ⟨chunk, rfl, rfl, hexpr⟩⟩ :=
    namedAttribute_eq_ok h
  · have hembedded : label.embedded = [] := by
      rw [Label.embedded, hnone, hkey]
      rfl
    exact .read (sound_valued hd hstart hstop hwritten hembedded hvalue) hstart hstop hcd
  · refine .read (sound_read hcd hd hstart hstop hwritten hkey fun e he => ?_) hstart hstop hcd
    obtain ⟨hlo, -, hhi⟩ := hvalue.row
    have hchunk := (hvalue.sound chunk (List.mem_singleton_self _)).placed
      (Int.le_trans (Int.natCast_nonneg _) hlo)
    have hmem : e ∈ chunk.label.embedded :=
      List.mem_append_left _ (Option.mem_toList.2 (hexpr ▸ he))
    obtain ⟨hestart, hestop⟩ := hchunk.le_of_mem_embedded hmem
    exact ⟨Int.le_trans hlo hestart, Int.le_trans hestop hhi, hchunk.exact e hmem⟩

variable {c₀ : Cursor}

/-- The name in the braces of a shorthand is sound. -/
theorem listed_shorthand {options : ScanOptions} {x : Delimited} (hd : d.On source)
    (hoptions : options.allowEmpty = false) (hx : delimited options c = .ok (x, d))
    (hacc : grammar.expression x.text = .accepted) :
    Listed source c.pos d.pos [.leaf
      { kind := .shorthand, start := x.scan.start, stop := x.scan.stop
        expression := some (Context.place ⟨grammar, source.lineStarts⟩ x.scan.start
          x.scan.stop) }] := by
  obtain ⟨hstart, hordered, hnext⟩ := delimited_bounds hx
  have hlt := hordered.start_lt hoptions
  have hstop := hordered.stop_le
  have hlen := hd.pos_le
  have hembedded : Embedded ⟨grammar, source.lineStarts⟩ c d (Context.place _ _ _) :=
    ⟨options, c, d, x, .refl c, hx, .refl d, hlt, hacc, rfl⟩
  refine Listed.mono (Listed.single (sound_leaf ?_ ?_ ?_ rfl rfl ?_) ?_) ?_ ?_
  · show (0 : Int) ≤ x.scan.start
    omega
  · show (x.scan.start : Int) ≤ x.scan.stop
    omega
  · show (x.scan.stop : Int) ≤ source.length
    omega
  · rintro _ ⟨⟩
    exact ⟨Int.le_refl _, Int.le_refl _, hembedded.exact hd⟩
  · show (x.scan.start : Int) ≤ x.scan.stop
    omega
  · show (c.pos : Int) ≤ x.scan.start
    omega
  · show (x.scan.stop : Int) ≤ d.pos
    omega

/-- An attribute in braces is sound. -/
theorem listed_of_bracedAttribute {a : Node} (hc : c.On source) (hc₀ : c.Reaches c₀)
    (h : bracedAttribute ⟨grammar, source.lineStarts⟩ c.pos c₀ = .ok (a, d)) :
    Listed source c.pos d.pos [a] := by
  have hcd := hc₀.trans (forward_bracedAttribute _ _ h)
  have hd := hcd.on hc
  simp only [bracedAttribute, bind_eq_ok] at h
  obtain ⟨_, c₁, h₁, _, c₂, h₂, h⟩ := h
  have hc₂ := (hc₀.trans (forward_skipBlank h₁)).trans (forward_eat _ h₂)
  rcases ite_eq_ok.1 h with ⟨-, h⟩ | ⟨-, h⟩
  · simp only [bind_eq_ok, position_eq_ok, pure_eq_ok] at h
    obtain ⟨e, c₃, he, _, _, h₄, _, _, ⟨rfl, rfl⟩, rfl, rfl⟩ := h
    have hembedded := (embedded_of_readExpressionAt rfl he).widen hc₂ (forward_expect _ h₄)
    refine .read (sound_read hcd hd rfl rfl rfl rfl ?_) rfl rfl hcd
    rintro _ ⟨⟩
    exact hembedded.between hd
  · obtain ⟨x, c₃, hx, h⟩ := bind_eq_ok.1 h
    rcases ite_eq_ok.1 h with ⟨-, h⟩ | ⟨-, h⟩
    · simp only [bind_eq_ok, position_eq_ok, pure_eq_ok, checked_eq_ok] at h
      obtain ⟨_, _, h₄, e, _, ⟨hacc, he, rfl⟩, _, _, ⟨rfl, rfl⟩, rfl, rfl⟩ := h
      have hname := listed_shorthand ((hc₂.trans (forward_delimited _ hx)).on hc) rfl hx hacc
      rw [he] at hname
      have hle₂ := hc₂.pos_le
      have hle₄ := (forward_expect _ h₄).pos_le
      exact .read (sound_valued hd rfl rfl rfl rfl (hname.mono (by omega) (by omega))) rfl rfl hcd
    · cases h

/-- An attribute without braces is sound. -/
theorem listed_of_unbracedAttribute {first : Char} {a : Node} (hc : c.On source)
    (hc₀ : c.Reaches c₀)
    (h : unbracedAttribute ⟨grammar, source.lineStarts⟩ c.pos first c₀ = .ok (a, d)) :
    Listed source c.pos d.pos [a] := by
  have hcd := hc₀.trans (forward_unbracedAttribute _ _ _ h)
  have hd := hcd.on hc
  simp only [unbracedAttribute, bind_eq_ok] at h
  obtain ⟨more, c₁, h₁, _, c₂, h₂, h⟩ := h
  have hc₂ := (hc₀.trans (forward_takeWhile _ h₁)).trans (forward_valueFollows h₂)
  rcases ite_eq_ok.1 h with ⟨-, h⟩ | ⟨-, h⟩
  · simp only [bind_eq_ok, position_eq_ok, ofExcept_eq_ok] at h
    obtain ⟨_, c₃, h₃, _, c₄, h₄, _, c₅, h₅, value, _, h₆, _, _, ⟨rfl, rfl⟩, hnamed, rfl⟩ := h
    have hc₅ := (hc₂.trans (forward_skipBlank h₃)).trans
      ((forward_eat _ h₄).trans (forward_skipBlank h₅))
    have hvalue : Listed source c.pos _ ((some value).getD []) :=
      (listed_of_attributeValue (hc₅.on hc) h₆).mono (Int.ofNat_le.2 hc₅.pos_le) (Int.le_refl _)
    exact listed_of_namedAttribute hcd hd hvalue hnamed
  · simp only [bind_eq_ok, position_eq_ok, ofExcept_eq_ok] at h
    obtain ⟨_, _, ⟨rfl, rfl⟩, hnamed, rfl⟩ := h
    exact listed_of_namedAttribute hcd hd (.nil (Int.ofNat_le.2 hcd.pos_le)) hnamed

/-- An attribute is sound. -/
theorem listed_of_oneAttribute {first : Char} {a : Node} (hc : c.On source)
    (hc₀ : c.Reaches c₀)
    (h : oneAttribute ⟨grammar, source.lineStarts⟩ c.pos first c₀ = .ok (a, d)) :
    Listed source c.pos d.pos [a] := by
  rcases ite_eq_ok.1 h with ⟨-, h⟩ | ⟨-, h⟩
  · exact listed_of_bracedAttribute hc hc₀ h
  rcases ite_eq_ok.1 h with ⟨-, h⟩ | ⟨-, h⟩
  · cases h
  · exact listed_of_unbracedAttribute hc hc₀ h

/-- **The attributes of a start tag are sound and stand in a row.** -/
theorem listed_of_attributes {seen : List Text} {as : List Node} (hc : c.On source)
    (h : attributes ⟨grammar, source.lineStarts⟩ seen c = .ok (as, d)) :
    Listed source c.pos d.pos as := by
  fun_induction attributes ⟨grammar, source.lineStarts⟩ seen c generalizing as d with
  | case1 => cases h
  | case2 seen c =>
    cases h
    exact .nil (Int.ofNat_le.2 (Nat.le_add_right _ _))
  | case3 => cases h
  | case4 => cases h
  | case5 => cases h
  | case6 =>
    rename_i seen c c₁ ch cs hrest _ a c₂ ha seen' _ as c₃ has ih
    cases h
    have hblank : c.Reaches c₁ := Cursor.reaches_advance (List.takeWhile_prefix _).length_le
    have hnext : c₁.Reaches (c₁.advance 1) := Cursor.reaches_advance (by simp [hrest])
    have hc₁ := hblank.on hc
    have hc₂ := (hnext.trans (forward_oneAttribute _ _ _ ha)).on hc₁
    have hfirst := (listed_of_oneAttribute hc₁ hnext ha).mono
      (Int.ofNat_le.2 hblank.pos_le) (Int.le_refl _)
    exact hfirst.append (ih hc₂ has)

end

end ComponentDivision
