/-
# Texts that end once

A block ends at its end tag and has no end tag before that. Since an end tag opens
once, two copies of such a text do not overlap: the end tag of the first copy would
begin inside the second one, or the second copy would begin inside an end tag. Both
texts that a block can be given by are of this kind, its normal form and its extent
in the document up to its end tag.

* `EndsOnce` : a text that ends once;
* `EndsOnce.add_length_le` : two copies of it do not overlap;
* `IsNormalForm` : a block in normal form, which ends once;
* `endsOnce_take` : what stands up to the first mark ends once;
* `Placed.WellRead`, `TreeReader.Accurate` : what can be assumed of a reader.
-/
import ComponentDivision.Proofs.Markup.Extent

namespace ComponentDivision.Markup

/-! ## Ending once -/

/-- The text has one of these endings at its end, and none begins before that. -/
def EndsOnce (isEnding : Text → Prop) (t : Text) : Prop :=
  ∃ front ending, t = front ++ ending ∧ isEnding ending ∧
    ∀ j < front.length, ∀ v, isEnding v → ¬ v <+: t.drop j

/-- **Two copies of a text that ends once do not overlap.** -/
theorem EndsOnce.add_length_le {isEnding : Text → Prop} {t document : Text} {i k : Nat}
    (h : EndsOnce isEnding t) (hopens : ∀ v, isEnding v → OpensOnce v)
    (hhead : t.head? = some '<') (hi : t <+: document.drop i) (hk : t <+: document.drop k)
    (hik : i < k) : i + t.length ≤ k := by
  obtain ⟨front, ending, rfl, hending, hnone⟩ := h
  obtain ⟨p, hp⟩ : ∃ p, front ++ ending = '<' :: p := ⟨_, List.eq_cons_of_mem_head? hhead⟩
  have hend : ending <+: document.drop (i + front.length) := by
    obtain ⟨rest, hrest⟩ := hi
    exact ⟨rest, by rw [← List.drop_drop, ← hrest, List.append_assoc, List.drop_left]⟩
  rw [List.length_append]
  by_contra hoverlap
  by_cases hbefore : k ≤ i + front.length
  · refine hnone (i + front.length - k) (by omega) ending hending ?_
    have hinside := hk.drop (i + front.length - k)
    rw [List.drop_drop, show k + (i + front.length - k) = i + front.length by omega] at hinside
    refine List.prefix_of_prefix_length_le hend hinside ?_
    rw [List.length_drop, List.length_append]
    omega
  · have hstart : '<' :: p
        <+: (document.drop (i + front.length)).drop (k - (i + front.length)) := by
      rw [List.drop_drop, show i + front.length + (k - (i + front.length)) = k by omega, ← hp]
      exact hk
    have := (hopens ending hending).eq_zero hend (by omega) hstart
    omega

/-! ## Normal forms -/

/-- The end tag of an element in normal form. -/
def endTag (name : Text) : Text :=
  '<' :: '/' :: name ++ ['>']

/-- A block in normal form: a start tag with its attributes in quotes, a content without end tags,
and an end tag. -/
inductive IsNormalForm (name : Text) : Text → Prop
  | intro {inner content : Text} (hgt : '>' ∉ inner)
      (hquoted : ∀ q ∈ inner.getLast?, q = '"' ∨ q = '\'')
      (hcontent : ¬ endTag name <:+: content) :
      IsNormalForm name ('<' :: (name ++ inner) ++ '>' :: (content ++ endTag name))

/-- The end tag in normal form opens once. -/
theorem opensOnce_endTag (block : Block) : OpensOnce (endTag block.label) := by
  refine ⟨'/' :: block.label ++ ['>'], rfl, ?_⟩
  cases block <;> decide

/-- Two texts up to their first closing brackets. -/
theorem eq_of_prefix_gt {s t rest : Text} (h : s ++ ['>'] <+: t ++ '>' :: rest)
    (hs : '>' ∉ s) (ht : '>' ∉ t) : s = t := by
  obtain ⟨more, heq⟩ := h
  have htake := congrArg (List.takeWhile (· != '>')) heq
  have hpos : ∀ {u : Text}, '>' ∉ u → ∀ c ∈ u, (c != '>') = true := by
    intro u hu c hc
    rw [bne_iff_ne]
    rintro rfl
    exact hu hc
  rw [List.append_assoc, List.takeWhile_append_of_pos (hpos hs),
    List.takeWhile_append_of_pos (hpos ht)] at htake
  simpa using htake

/-- No end tag begins in a start tag. -/
theorem not_endTag_startTag {block : Block} {inner rest : Text} {j : Nat} (hgt : '>' ∉ inner)
    (hquoted : ∀ q ∈ inner.getLast?, q = '"' ∨ q = '\'')
    (hj : j ≤ ('<' :: (block.label ++ inner)).length) :
    ¬ endTag block.label <+: ('<' :: (block.label ++ inner) ++ '>' :: rest).drop j := by
  intro h
  have hname : '>' ∉ '<' :: block.label := by cases block <;> decide
  rw [List.drop_append_of_le_length hj] at h
  -- both go on to the first closing bracket, so the end tag would be the end of the start tag
  have heq : '<' :: '/' :: block.label = ('<' :: (block.label ++ inner)).drop j := by
    apply eq_of_prefix_gt h
    · cases block <;> decide
    · intro hmem
      rw [← List.cons_append] at hmem
      rcases List.mem_append.1 (List.mem_of_mem_drop hmem) with hmem | hmem
      · exact hname hmem
      · exact hgt hmem
  have hlength := congrArg List.length heq
  rcases List.eq_nil_or_concat' inner with rfl | ⟨u, q, rfl⟩
  · simp only [List.length_drop, List.length_cons, List.append_nil] at hlength
    omega
  · -- one with attributes has a quote before its closing bracket
    simp only [List.length_drop, List.length_cons, List.length_append, List.length_nil] at hlength
    have hmem : q ∈ '<' :: '/' :: block.label := by
      rw [heq, ← List.append_assoc, ← List.cons_append, List.drop_append_of_le_length]
      · simp
      · simp only [List.length_cons, List.length_append]
        omega
    rcases hquoted q (by simp) with rfl | rfl
    · exact absurd hmem (by cases block <;> decide)
    · exact absurd hmem (by cases block <;> decide)

/-- No end tag begins in a content without one. -/
theorem not_endTag_content {block : Block} {content : Text} {j : Nat}
    (hcontent : ¬ endTag block.label <:+: content) (hj : j < content.length) :
    ¬ endTag block.label <+: (content ++ endTag block.label).drop j := by
  intro h
  rw [List.drop_append_of_le_length (by omega)] at h
  by_cases hfits : (endTag block.label).length ≤ (content.drop j).length
  · have hfront := List.prefix_of_prefix_length_le h (List.prefix_append _ _) hfits
    exact hcontent (hfront.isInfix.trans (List.drop_suffix j content).isInfix)
  · have hstart : endTag block.label
        <+: (content.drop j ++ endTag block.label).drop (content.drop j).length := by
      rw [List.drop_left]
    have := (opensOnce_endTag block).eq_zero h (by omega) hstart
    rw [List.length_drop] at this
    omega

/-- **The normal form of a block ends once.** -/
theorem IsNormalForm.endsOnce {block : Block} {t : Text} (h : IsNormalForm block.label t) :
    EndsOnce (· = endTag block.label) t := by
  obtain ⟨hgt, hquoted, hcontent⟩ := h
  rename_i inner content
  refine ⟨'<' :: (block.label ++ inner) ++ '>' :: content, endTag block.label, ?_, rfl, ?_⟩
  · rw [List.append_assoc]
    rfl
  rintro j hj _ rfl
  by_cases hstart : j ≤ ('<' :: (block.label ++ inner)).length
  · exact not_endTag_startTag hgt hquoted hstart
  · rw [List.length_append, show ('>' :: content).length = content.length + 1 from rfl] at hj
    obtain ⟨k, rfl⟩ : ∃ k, j = ('<' :: (block.label ++ inner)).length + (k + 1) :=
      ⟨j - ('<' :: (block.label ++ inner)).length - 1, by omega⟩
    rw [← List.drop_drop, List.drop_left, List.drop_succ_cons]
    exact not_endTag_content hcontent (by omega)

theorem IsNormalForm.head? {name t : Text} (h : IsNormalForm name t) : t.head? = some '<' := by
  cases h
  rfl

/-! ## Extents -/

/-- What stands up to the end of the first mark ends once. -/
theorem endsOnce_take {pieces : List Text} (hne : ∀ p ∈ pieces, p ≠ []) {t : Text} {n : Nat}
    (h : throughMark? pieces t = some n) : EndsOnce (IsMark pieces) (t.take n) := by
  obtain ⟨⟨i, m⟩, hfirst, rfl⟩ := Option.map_eq_some_iff.1 h
  obtain ⟨hmark, hbefore⟩ := firstMark?_eq_some hfirst
  obtain ⟨u, hu, hfront, rfl⟩ := (markLength?_eq_some_iff hne).1 hmark
  refine ⟨t.take i, u, ?_, hu, fun j hj v hv hvj => ?_⟩
  · rw [List.take_add, ← List.prefix_iff_eq_take.1 hfront]
  · rw [List.length_take] at hj
    have hfound := (markLength?_eq_some_iff hne).2
      ⟨v, hv, hvj.trans ((List.take_prefix _ t).drop j), rfl⟩
    rw [hbefore j (by omega)] at hfound
    cases hfound

/-! ## Readers -/

/-- What can be assumed of an element that is a block: it knows its place, a bracket stands there,
and it is given in normal form. -/
structure Placed.WellRead (document : Text) (p : Placed) (offset : Nat) : Prop
    extends p.KnowsPlace document offset where
  opening : document[offset]? = some '<'
  normal : IsNormalForm p.name p.rendered

/-- The reader says rightly where the blocks of a document stand, and gives them in normal form. -/
def TreeReader.Accurate {ε : Type} (reader : TreeReader ε) (features document : Text) : Prop :=
  ∀ tags, reader features document = .ok tags → ∀ t ∈ tags, ∀ block : Block,
    t.name = block.label → ∃ offset, t.WellRead document offset

/-- The blocks that are found are elements that the reader gives. -/
theorem exists_tag_of_findBlocks {ε : Type} {reader : TreeReader ε} {features document : Text}
    {blocks : Blocks} {block : Block} {index : Nat} {p : Placed}
    (h : findBlocks reader features document = .ok blocks)
    (hp : block.pick? blocks.scripts blocks.style index = some p) :
    ∃ tags, reader features document = .ok tags ∧ ∃ t ∈ tags, t.name = block.label ∧
      t.toPlaced = p := by
  unfold findBlocks at h
  split at h
  · cases h
    cases block <;> cases index <;> cases hp
  · obtain ⟨tags, htags, rfl⟩ := Except.map_eq_ok_iff.1 h
    have hmem : p ∈ componentTags block tags := by
      cases block with
      | script => exact List.mem_of_getElem? hp
      | style =>
        cases index with
        | zero => exact List.mem_of_mem_head? hp
        | succ index => cases hp
    obtain ⟨t, ht, rfl⟩ := List.mem_map.1 hmem
    obtain ⟨ht, hname⟩ := List.mem_filter.1 ht
    rw [Bool.and_eq_true, beq_iff_eq] at hname
    exact ⟨tags, htags, t, ht, hname.1, rfl⟩

end ComponentDivision.Markup
