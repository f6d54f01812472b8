/-
# Texts that overlap their copies

Occurrences are counted one after the other, so a text that is counted once may still
stand at several places, each of them inside its block. Such a text fits on itself when
it is moved by fewer characters than it has. For every other text a layout means that
the text stands at one place only; for every text that fits on itself there is a
document that is laid out although the text stands there twice.

* `Text.HasCopyAt` : the text is the slice of the document at an offset;
* `Text.Unbordered` : the text does not fit on itself;
* `TaggedRegion.Locates.copies_inside` : the copies of a text all begin inside its block;
* `resolve_unique_copy_iff` : the texts for which a layout means that there is one copy.
-/
import Mathlib
import ComponentDivision.Proofs.Markup.OwnPlace
import ComponentDivision.Proofs.Resolution

namespace ComponentDivision

/-! ## Copies -/

/-- The text is the slice of the document at the offset `i`. -/
def Text.HasCopyAt (document text : Text) (i : Nat) : Prop :=
  document.slice i (i + text.length : Nat) = text

/-- No end of the text, but the whole of it, is also its beginning. -/
def Text.Unbordered (text : Text) : Prop :=
  ∀ k < text.length, 0 < k → ¬ text.drop k <+: text

section

variable {document text : Text}

/-- Past the end of a document there is nothing but the empty text. -/
theorem Text.slice_of_length_lt {i : Nat} (n : Nat) (h : document.length < i) :
    document.slice i (i + n : Nat) = [] := by
  have hbound (m : Nat) (hm : document.length < m) :
      Text.bound document.length m = document.length := by
    unfold Text.bound
    rw [if_neg (by omega)]
    omega
  unfold Text.slice
  rw [hbound i h, hbound (i + n) (by omega), List.take_length, List.drop_length]

/-- A text stands where what is left begins with it. -/
theorem Text.hasCopyAt_iff {i : Nat} :
    document.HasCopyAt text i ↔ text <+: document.drop i := by
  unfold Text.HasCopyAt
  by_cases hi : i ≤ document.length
  · rw [Text.slice_natCast_add _ hi, List.prefix_iff_eq_take, eq_comm]
  · rw [Text.slice_of_length_lt _ (by omega), List.drop_eq_nil_of_le (by omega),
      List.prefix_nil, eq_comm]

/-- Two copies of a text that overlap show that the text fits on itself. -/
theorem Text.drop_prefix_of_copies {i k : Nat} (hi : text <+: document.drop i)
    (hk : text <+: document.drop (i + k)) : text.drop k <+: text := by
  have hinside := hi.drop k
  rw [List.drop_drop] at hinside
  apply List.prefix_of_prefix_length_le hinside hk
  rw [List.length_drop]
  omega

/-! ## A document with two copies -/

/-- A text with so many of its characters once more in front of it. -/
def Text.doubled (text : Text) (k : Nat) : Text :=
  text.take k ++ text

/-- There the text stands at its old place. -/
theorem Text.prefix_drop_doubled {k : Nat} (hk : k < text.length) :
    text <+: (text.doubled k).drop k := by
  have hlen : (text.take k).length = k := by
    rw [List.length_take]
    omega
  unfold Text.doubled
  rw [List.drop_left' hlen]

/-- If it fits on itself it stands at the beginning as well. -/
theorem Text.prefix_doubled {k : Nat} (h : text.drop k <+: text) : text <+: text.doubled k := by
  have hprefix : text.take k ++ text.drop k <+: text.take k ++ text :=
    (List.prefix_append_right_inj _).2 h
  rw [List.take_append_drop] at hprefix
  exact hprefix

/-- The two copies are counted as one, since they overlap. -/
theorem Text.occurrences_doubled {k : Nat} (hk : k < text.length) (h : text.drop k <+: text) :
    (text.doubled k).occurrences text = 1 := by
  have hne : text ≠ [] := List.ne_nil_of_length_pos (by omega)
  have hfirst : Text.find? text (text.doubled k) = some 0 :=
    Text.find?_eq_some_iff.2 ⟨Text.prefix_doubled h, fun i hi => absurd hi (Nat.not_lt_zero i)⟩
  have hnone : Text.find? text ((text.doubled k).drop (0 + text.length)) = none := by
    cases hm : Text.find? text ((text.doubled k).drop (0 + text.length)) with
    | none => rfl
    | some m =>
      have hle := Text.find?_add_length_le hm
      simp only [Text.doubled, List.length_drop, List.length_append, List.length_take] at hle
      omega
  rw [Text.occurrences_eq hne, hfirst]
  show 1 + Text.occurrences _ text = 1
  rw [Text.occurrences_eq hne, hnone]
  rfl

end

/-! ## Layouts -/

section

variable {document : Text} {located : Located} {fileName : Option Text} {layout : Layout}
  {text : Text}

/-- Each text of a layout has its block. -/
theorem exists_locates_of_mem_texts
    (h : Layout.resolve document located fileName = .ok layout) (htext : text ∈ located.texts) :
    ∃ r ∈ layout.tagged, r.Locates document text := by
  obtain ⟨scripts, styles, hscripts, hstyles, htagged, -, -⟩ := resolve_eq_ok_iff.1 h
  obtain ⟨r, hr, hlocates⟩ := exists_mem_of_forall₂ (forall₂_locates hscripts hstyles).flip htext
  refine ⟨r, ?_, hlocates⟩
  rw [htagged, List.mem_mergeSort]
  exact hr

/-- **The copies of a text all begin inside its block**, and the first of them is the block. -/
theorem TaggedRegion.Locates.copies_inside {r : TaggedRegion} (h : r.Locates document text) :
    document.HasCopyAt text r.start.toNat ∧
      ∀ i, document.HasCopyAt text i → r.start ≤ i ∧ i < r.stop := by
  have hnonneg := h.nonneg
  obtain ⟨hfirst, hmin⟩ := Text.find?_eq_some_iff.1 h.first
  refine ⟨Text.hasCopyAt_iff.2 hfirst, fun i hi => ?_⟩
  rw [Text.hasCopyAt_iff] at hi
  constructor
  · by_contra hlt
    exact hmin i (by omega) hi
  · by_contra hge
    rw [h.stop_eq] at hge
    exact Text.not_prefix_drop_of_occurrences h.ne_nil h.once h.first i (by omega) hi

/-- A text that does not fit on itself has no copy but its block. -/
theorem TaggedRegion.Locates.existsUnique_copy {r : TaggedRegion} (h : r.Locates document text)
    (hunbordered : text.Unbordered) : ∃! i, document.HasCopyAt text i := by
  obtain ⟨hfirst, hinside⟩ := h.copies_inside
  refine ⟨r.start.toNat, hfirst, fun i hi => ?_⟩
  -- another copy would begin inside the block, behind its first character
  by_contra hother
  obtain ⟨hle, hlt⟩ := hinside i hi
  have hnonneg := h.nonneg
  have hstop := h.stop_eq
  obtain ⟨k, rfl⟩ : ∃ k, i = r.start.toNat + k := ⟨i - r.start.toNat, by omega⟩
  exact hunbordered k (by omega) (by omega)
    (Text.drop_prefix_of_copies (Text.hasCopyAt_iff.1 hfirst) (Text.hasCopyAt_iff.1 hi))

/-- A document with two copies of a text that fits on itself is laid out. -/
theorem exists_resolve_doubled {k : Nat} (fileName : Option Text) (hk : k < text.length)
    (h : text.drop k <+: text) :
    ∃ layout, Layout.resolve (text.doubled k) { scripts := [text] } fileName = .ok layout := by
  refine exists_resolve_iff.2 ⟨fun t ht => ?_, fun t ht => ?_, List.pairwise_singleton _ _⟩
  · rw [List.mem_singleton.1 ht]
    exact List.ne_nil_of_length_pos (by omega)
  · rw [List.mem_singleton.1 ht]
    exact Text.occurrences_doubled hk h

end

/-! ## An unclosed script -/

/-- A script that is not closed and holds a copy of its start tag, after a comment that ends
with another copy. -/
def unclosedScript : Text :=
  "<!--<script>--><script>--><script>-->".toList

namespace Markup

/-- The element of the script, which has no content. -/
def openScript : Element :=
  ⟨"script".toList, [], [], 15, []⟩

/-- The script goes on to the end of the document. -/
theorem locate_unclosedScript :
    locate lenient "html.parser".toList unclosedScript
      = .ok { scripts := ["<script>--><script>-->".toList] } := by
  have hrun : run false none 0 0 unclosedScript = .ok
      ⟨[(15, .startTag "script".toList [] false)], some "script".toList, 23,
        "--><script>-->".toList⟩ := by
    cbv
  have helements : elements unclosedScript = .ok [openScript] := by
    rw [elements, tokens, hrun]
    rfl
  have hread : openScript.WellRead unclosedScript :=
    wellRead_of_elements helements _ (List.mem_singleton_self _)
  have hrender : openScript.render = "<script></script>".toList := by
    have hnormal : Attribute.normal [] = [] := by simp [Attribute.normal]
    unfold openScript
    rw [Element.render, hnormal]
    rfl
  have htext : (openScript.placed unclosedScript).text unclosedScript
      = "<script>--><script>-->".toList := by
    rw [Placed.text_eq_take (by rw [Element.placed, hrender]; decide +kernel)
      hread.placed.offset?_eq (by decide +kernel)]
    decide +kernel
  have hblocks : findBlocks lenient "html.parser".toList unclosedScript
      = .ok ⟨[openScript.placed unclosedScript], none⟩ := by
    unfold findBlocks lenient
    rw [helements]
    rfl
  rw [locate, hblocks]
  show Except.ok (Located.mk [Placed.text unclosedScript _] none) = _
  rw [htext]

end Markup

/-- The document is laid out with the script at the copy in the comment. -/
theorem resolve_unclosedScript :
    Layout.resolve unclosedScript { scripts := ["<script>--><script>-->".toList] } none
      = .ok ⟨[⟨⟨4, 26⟩, .script, 0⟩], [⟨0, 4⟩, ⟨26, 37⟩]⟩ := by
  refine resolve_eq_ok_iff.2 ⟨_, _, rfl, rfl, ?_, rfl, rfl⟩
  rw [List.append_nil, List.mergeSort_singleton]
  rfl

/-! ## Unique copies -/

/-- **A layout means that a text has one copy, and two copies mean that there is no layout,
exactly if the text does not fit on itself.** Of any text, all copies in a document that is
laid out begin inside one block. -/
theorem resolve_unique_copy_iff (text : Text) :
    (text.Unbordered ↔ ∀ document located fileName, text ∈ Located.texts located →
      (∀ layout, Layout.resolve document located fileName = .ok layout →
        ∃! i, document.HasCopyAt text i) ∧
      ∀ i j, i ≠ j → document.HasCopyAt text i → document.HasCopyAt text j →
        ∃ ambiguity, Layout.resolve document located fileName = .error ambiguity) ∧
    ∀ document located fileName layout,
      Layout.resolve document located fileName = .ok layout → text ∈ located.texts →
        ∃ r ∈ layout.tagged, document.HasCopyAt text r.start.toNat ∧
          ∀ i, document.HasCopyAt text i → r.start ≤ i ∧ i < r.stop := by
  refine ⟨⟨fun hunbordered document located fileName htext => ?_, fun hall k hk hpos hfits => ?_⟩,
    fun document located fileName layout h htext => ?_⟩
  · have hunique {layout : Layout} (h : Layout.resolve document located fileName = .ok layout) :
        ∃! i, document.HasCopyAt text i := by
      obtain ⟨r, -, hlocates⟩ := exists_locates_of_mem_texts h htext
      exact hlocates.existsUnique_copy hunbordered
    refine ⟨fun layout h => hunique h, fun i j hij hi hj => ?_⟩
    cases hresolve : Layout.resolve document located fileName with
    | error ambiguity => exact ⟨ambiguity, rfl⟩
    | ok layout => exact absurd ((hunique hresolve).unique hi hj) hij
  · -- the text with its beginning once more in front of it has two copies
    obtain ⟨layout, hlayout⟩ := exists_resolve_doubled none hk hfits
    have hunique := (hall (text.doubled k) { scripts := [text] } none
      (List.mem_singleton_self text)).1 layout hlayout
    have hzero : (text.doubled k).HasCopyAt text 0 :=
      Text.hasCopyAt_iff.2 (Text.prefix_doubled hfits)
    have hmoved : (text.doubled k).HasCopyAt text k :=
      Text.hasCopyAt_iff.2 (Text.prefix_drop_doubled hk)
    have := hunique.unique hzero hmoved
    omega
  · obtain ⟨r, hr, hlocates⟩ := exists_locates_of_mem_texts h htext
    exact ⟨r, hr, hlocates.copies_inside⟩

/-- A tag does not fit on itself, so it has one copy in a document that is laid out. -/
theorem resolve_unique_copy_tag :
    Text.Unbordered "<a>".toList ∧
      (∃ layout, Layout.resolve "x<a>y".toList { scripts := ["<a>".toList] } none = .ok layout) ∧
      ∃! i, Text.HasCopyAt "x<a>y".toList "<a>".toList i := by
  have hunbordered : Text.Unbordered "<a>".toList := by
    unfold Text.Unbordered
    decide
  have h : Layout.resolve "x<a>y".toList { scripts := ["<a>".toList] } none
      = .ok ⟨[⟨⟨1, 4⟩, .script, 0⟩], [⟨0, 1⟩, ⟨4, 5⟩]⟩ := by
    refine resolve_eq_ok_iff.2 ⟨_, _, rfl, rfl, ?_, rfl, rfl⟩
    rw [List.append_nil, List.mergeSort_singleton]
    rfl
  have hunique := ((resolve_unique_copy_iff "<a>".toList).1.1 hunbordered _ _ none
    (List.mem_singleton_self _)).1 _ h
  exact ⟨hunbordered, ⟨_, h⟩, hunique⟩

/-- The text of the unclosed script stands at two places, and the document is laid out. -/
theorem resolve_two_copies_unclosed :
    ∃ located layout,
      Markup.locate Markup.lenient "html.parser".toList unclosedScript = .ok located ∧
      Layout.resolve unclosedScript located none = .ok layout ∧
      ∃ text ∈ located.texts, unclosedScript.HasCopyAt text 4 ∧
        unclosedScript.HasCopyAt text 15 := by
  refine ⟨_, _, Markup.locate_unclosedScript, resolve_unclosedScript, _,
    List.mem_singleton_self _, ?_, ?_⟩
  · show Text.slice _ _ _ = _
    decide +kernel
  · show Text.slice _ _ _ = _
    decide +kernel

end ComponentDivision
