/-
# Layouts in order

The blocks of a layout are occurrences of the given texts, one for each text, and
they follow one another; the markup regions fill the document between them.

* `locateOnce_eq_ok_iff` : when a text is located, and where;
* `resolve_eq_ok_iff` : a layout by its parts;
* `row_tagged`, `row_gaps` : blocks and markup regions are in order;
* `covers_or_gap_covers` : every offset is in a block or in a markup region.
-/
import Mathlib.Data.List.Forall2
import ComponentDivision.Proofs.Sequence
import ComponentDivision.Proofs.Span
import ComponentDivision.Proofs.Text.Search
import ComponentDivision.Proofs.Text.Slice

namespace ComponentDivision

/-! ## Located texts -/

/-- The region is the first occurrence of `text`, and no other one is counted. -/
structure TaggedRegion.Locates (document text : Text) (r : TaggedRegion) : Prop where
  ne_nil : text ≠ []
  once : document.occurrences text = 1
  first : Text.find? text document = some r.start.toNat
  nonneg : 0 ≤ r.start
  stop_eq : r.stop = r.start + text.length

/-- A text is located if it is counted once, and then where it stands first. -/
theorem locateOnce_eq_ok_iff {document text : Text} {block : Block} {index : Nat}
    {fileName : Option Text} {r : TaggedRegion} :
    locateOnce document text block index fileName = .ok r ↔
      r.Locates document text ∧ r.block = block ∧ r.index = index := by
  unfold locateOnce
  constructor
  · intro h
    dsimp only at h
    split at h
    · rename_i start hone hfind
      cases h
      split at hone
      · cases hone
      · rename_i hne
        refine ⟨⟨?_, hone, hfind, Int.natCast_nonneg _, rfl⟩, rfl, rfl⟩
        simpa using hne
    · cases h
  · rintro ⟨⟨hne, hone, hfind, hnonneg, hstop⟩, hblock, hindex⟩
    have hempty : text.isEmpty = false := by simpa using hne
    simp only [hempty, hone, hfind, Bool.false_eq_true, if_false]
    obtain ⟨⟨start, stop⟩, b, i⟩ := r
    simp only at hnonneg hstop hblock hindex ⊢
    rw [hstop, hblock, hindex, Int.toNat_of_nonneg hnonneg]

namespace TaggedRegion.Locates

variable {document text : Text} {r : TaggedRegion}

/-- A located region ends inside the document. -/
theorem stop_le (h : r.Locates document text) : r.stop ≤ document.length := by
  have hle := Text.find?_add_length_le h.first
  have := h.nonneg
  rw [h.stop_eq]
  omega

/-- A located region is not empty. -/
theorem start_lt_stop (h : r.Locates document text) : r.start < r.stop := by
  have := List.length_pos_iff.2 h.ne_nil
  rw [h.stop_eq]
  omega

/-- The text of a located region. -/
theorem slice_eq (h : r.Locates document text) : document.slice r.start r.stop = text := by
  have hprefix := Text.prefix_drop_of_find? h.first
  have hle := Text.find?_add_length_le h.first
  have hslice := Text.slice_of_prefix_drop hprefix hle
  rw [Int.toNat_of_nonneg h.nonneg] at hslice
  rw [h.stop_eq]
  exact hslice

/-- A text whose copies do not overlap is located wherever it stands. -/
theorem start_eq {k : Nat} (h : r.Locates document text) (hk : text <+: document.drop k)
    (hapart : ∀ i < k, text <+: document.drop i → i + text.length ≤ k) : r.start = k := by
  obtain ⟨hfirst, hmin⟩ := Text.find?_eq_some_iff.1 h.first
  have hnonneg := h.nonneg
  rcases Nat.lt_trichotomy r.start.toNat k with hlt | heq | hgt
  · exact absurd hk (Text.not_prefix_drop_of_occurrences h.ne_nil h.once h.first k
      (hapart _ hlt hfirst))
  · omega
  · exact absurd hk (hmin k hgt)

end TaggedRegion.Locates

/-- Scripts are located one by one and numbered. -/
theorem locateScripts_eq_ok_iff {document : Text} {fileName : Option Text} {index : Nat}
    {texts : List Text} {rs : List TaggedRegion} :
    locateScripts document fileName index texts = .ok rs ↔
      List.Forall₂ (fun t r => TaggedRegion.Locates document t.1 r ∧ r.block = .script ∧
        r.index = t.2) (texts.zipIdx index) rs := by
  induction texts generalizing index rs with
  | nil =>
    rw [locateScripts, List.zipIdx_nil, List.forall₂_nil_left_iff]
    constructor
    · rintro ⟨⟩
      rfl
    · rintro rfl
      rfl
  | cons text texts ih =>
    rw [locateScripts, List.zipIdx_cons, List.forall₂_cons_left_iff, Except.bind_eq_ok_iff]
    constructor
    · rintro ⟨r, hr, h⟩
      obtain ⟨rs', hrs, h⟩ := Except.bind_eq_ok_iff.1 h
      cases h
      exact ⟨r, rs', locateOnce_eq_ok_iff.1 hr, ih.1 hrs, rfl⟩
    · rintro ⟨r, rs', hr, hrs, rfl⟩
      exact ⟨r, locateOnce_eq_ok_iff.2 hr, Except.bind_eq_ok_iff.2 ⟨rs', ih.2 hrs, rfl⟩⟩

/-- The style block is located by itself. -/
theorem locateStyle_eq_ok_iff {document : Text} {fileName : Option Text} {style : Option Text}
    {rs : List TaggedRegion} :
    locateStyle document fileName style = .ok rs ↔
      List.Forall₂ (fun t r => TaggedRegion.Locates document t r ∧ r.block = .style ∧ r.index = 0)
        style.toList rs := by
  cases style with
  | none =>
    rw [locateStyle, Option.toList_none, List.forall₂_nil_left_iff]
    constructor
    · rintro ⟨⟩
      rfl
    · rintro rfl
      rfl
  | some text =>
    rw [locateStyle, Option.toList_some, List.forall₂_cons_left_iff, Except.bind_eq_ok_iff]
    constructor
    · rintro ⟨r, hr, h⟩
      cases h
      exact ⟨r, [], locateOnce_eq_ok_iff.1 hr, .nil, rfl⟩
    · rintro ⟨r, rs', hr, hrs, rfl⟩
      cases hrs
      exact ⟨r, locateOnce_eq_ok_iff.2 hr, rfl⟩

/-- The texts of located scripts. -/
theorem map_slice_of_locateScripts {document : Text} {fileName : Option Text} {index : Nat}
    {texts : List Text} {rs : List TaggedRegion}
    (h : locateScripts document fileName index texts = .ok rs) :
    rs.map (fun r => document.slice r.start r.stop) = texts := by
  have heq : List.Forall₂ (· = ·) ((texts.zipIdx index).map Prod.fst)
      (rs.map fun r => document.slice r.start r.stop) := by
    rw [List.forall₂_map_left_iff, List.forall₂_map_right_iff]
    exact (locateScripts_eq_ok_iff.1 h).imp fun t r ht => ht.1.slice_eq.symm
  rw [List.forall₂_eq_eq_eq, List.zipIdx_map_fst] at heq
  exact heq.symm

/-! ## Blocks in order -/

/-- A layout: the located blocks in the order of their starts, none of which overlaps the
one before it, and the gaps between them. -/
theorem resolve_eq_ok_iff {document : Text} {located : Located} {fileName : Option Text}
    {layout : Layout} :
    Layout.resolve document located fileName = .ok layout ↔
      ∃ scripts styles, locateScripts document fileName 0 located.scripts = .ok scripts ∧
        locateStyle document fileName located.style = .ok styles ∧
        layout.tagged = (scripts ++ styles).mergeSort (fun a b => a.start ≤ b.start) ∧
        firstOverlap layout.tagged = none ∧
        layout.markup = gaps document.length 0 layout.tagged := by
  unfold Layout.resolve
  rw [Except.bind_eq_ok_iff]
  constructor
  · rintro ⟨scripts, hscripts, h⟩
    obtain ⟨styles, hstyles, h⟩ := Except.bind_eq_ok_iff.1 h
    dsimp only at h
    split at h
    · cases h
    · rename_i hnone
      cases h
      exact ⟨scripts, styles, hscripts, hstyles, rfl, hnone, rfl⟩
  · rintro ⟨scripts, styles, hscripts, hstyles, htagged, hnone, hmarkup⟩
    refine ⟨scripts, hscripts, Except.bind_eq_ok_iff.2 ⟨styles, hstyles, ?_⟩⟩
    dsimp only
    rw [← htagged, hnone, ← hmarkup]
    rfl

/-- Regions without an overlap follow one another. -/
theorem row_of_firstOverlap_eq_none {rs : List TaggedRegion} {lo hi : Int}
    (h : firstOverlap rs = none) (hlo : ∀ r ∈ rs.head?, lo ≤ r.start) (hle : lo ≤ hi)
    (hrs : ∀ r ∈ rs, r.start ≤ r.stop ∧ r.stop ≤ hi) :
    Row lo hi (rs.map (·.toSpan)) := by
  fun_induction firstOverlap rs generalizing lo with
  | case1 a b rest hlt => cases h
  | case2 a b rest hnlt ih =>
    obtain ⟨ha, hahi⟩ := hrs a (by simp)
    refine ⟨hlo a rfl, ha, ?_⟩
    apply ih h
    · rintro r ⟨⟩
      exact Int.not_lt.1 hnlt
    · exact hahi
    · exact fun r hr => hrs r (List.mem_cons_of_mem _ hr)
  | case3 rs hshort =>
    rcases rs with _ | ⟨a, _ | ⟨b, rest⟩⟩
    · exact hle
    · exact ⟨hlo a rfl, hrs a (by simp)⟩
    · exact absurd rfl (hshort a b rest)

/-- Each member of the second of two related lists is related to a member of the first. -/
theorem exists_mem_of_forall₂ {α β : Type} {R : α → β → Prop} {as : List α} {bs : List β}
    (h : List.Forall₂ R as bs) {b : β} (hb : b ∈ bs) : ∃ a ∈ as, R a b := by
  induction h with
  | nil => cases hb
  | cons hab _ ih =>
    rcases List.mem_cons.1 hb with rfl | hb
    · exact ⟨_, List.mem_cons_self, hab⟩
    · obtain ⟨a, ha, hR⟩ := ih hb
      exact ⟨a, List.mem_cons_of_mem _ ha, hR⟩

/-- What belongs to a block, by its number among the blocks of its sort. -/
def Block.pick? {α : Type} (scripts : List α) (style : Option α) : Block → Nat → Option α
  | .script, index => scripts[index]?
  | .style, 0 => style
  | .style, _ + 1 => none

/-- What is made of each block. -/
theorem Block.pick?_map {α β : Type} (f : α → β) (scripts : List α) (style : Option α)
    (block : Block) (index : Nat) :
    block.pick? (scripts.map f) (style.map f) index = (block.pick? scripts style index).map f := by
  cases block with
  | script => exact List.getElem?_map
  | style => cases index <;> rfl

/-- Each block of a layout is an occurrence of its text. -/
theorem exists_locates_of_mem_tagged {document : Text} {located : Located}
    {fileName : Option Text} {layout : Layout} {r : TaggedRegion}
    (h : Layout.resolve document located fileName = .ok layout) (hr : r ∈ layout.tagged) :
    ∃ text, r.block.pick? located.scripts located.style r.index = some text ∧
      r.Locates document text := by
  obtain ⟨scripts, styles, hscripts, hstyles, htagged, -, -⟩ := resolve_eq_ok_iff.1 h
  rw [htagged, List.mem_mergeSort, List.mem_append] at hr
  rcases hr with hr | hr
  · obtain ⟨⟨text, k⟩, hmem, hlocates, hblock, rfl⟩ :=
      exists_mem_of_forall₂ (locateScripts_eq_ok_iff.1 hscripts) hr
    rw [hblock]
    exact ⟨text, List.mk_mem_zipIdx_iff_getElem?.1 hmem, hlocates⟩
  · obtain ⟨text, hmem, hlocates, hblock, hindex⟩ :=
      exists_mem_of_forall₂ (locateStyle_eq_ok_iff.1 hstyles) hr
    rw [hblock, hindex]
    exact ⟨text, Option.mem_toList.1 hmem, hlocates⟩

/-- Each text has its block in a layout. -/
theorem exists_mem_tagged_of_pick? {document : Text} {located : Located}
    {fileName : Option Text} {layout : Layout} {block : Block} {index : Nat} {text : Text}
    (h : Layout.resolve document located fileName = .ok layout)
    (htext : block.pick? located.scripts located.style index = some text) :
    ∃ r ∈ layout.tagged, r.block = block ∧ r.index = index := by
  obtain ⟨scripts, styles, hscripts, hstyles, htagged, -, -⟩ := resolve_eq_ok_iff.1 h
  rw [htagged]
  simp only [List.mem_mergeSort, List.mem_append]
  cases block with
  | script =>
    have hmem : (text, index) ∈ located.scripts.zipIdx := List.mk_mem_zipIdx_iff_getElem?.2 htext
    obtain ⟨r, hr, -, hblock, hindex⟩ :=
      exists_mem_of_forall₂ (locateScripts_eq_ok_iff.1 hscripts).flip hmem
    exact ⟨r, Or.inl hr, hblock, hindex⟩
  | style =>
    cases index with
    | zero =>
      obtain ⟨r, hr, -, hblock, hindex⟩ :=
        exists_mem_of_forall₂ (locateStyle_eq_ok_iff.1 hstyles).flip (Option.mem_toList.2 htext)
      exact ⟨r, Or.inr hr, hblock, hindex⟩
    | succ index => cases htext

/-- The blocks of a layout follow one another in the document. -/
theorem row_tagged {document : Text} {located : Located} {fileName : Option Text}
    {layout : Layout} (h : Layout.resolve document located fileName = .ok layout) :
    Row 0 document.length (layout.tagged.map (·.toSpan)) := by
  obtain ⟨-, -, -, -, -, hnone, -⟩ := resolve_eq_ok_iff.1 h
  apply row_of_firstOverlap_eq_none hnone
  · intro r hr
    obtain ⟨text, -, ht⟩ := exists_locates_of_mem_tagged h (List.mem_of_mem_head? hr)
    exact ht.nonneg
  · omega
  · intro r hr
    obtain ⟨text, -, ht⟩ := exists_locates_of_mem_tagged h hr
    exact ⟨Int.le_of_lt ht.start_lt_stop, ht.stop_le⟩

/-! ## Gaps -/

/-- The gaps between regions follow one another. -/
theorem row_gaps {length cursor : Int} {rs : List TaggedRegion}
    (h : Row cursor length (rs.map (·.toSpan))) : Row cursor length (gaps length cursor rs) := by
  induction rs generalizing cursor with
  | nil =>
    rw [gaps]
    split
    · rename_i hlt
      exact ⟨Int.le_refl _, Int.le_of_lt hlt, Int.le_refl _⟩
    · exact h
  | cons r rs ih =>
    obtain ⟨hcursor, hr, hrest⟩ := h
    have htail := ih hrest
    rw [gaps]
    split
    · exact ⟨Int.le_refl _, hcursor, htail.mono hr (Int.le_refl _)⟩
    · exact htail.mono (by omega) (Int.le_refl _)

/-- No gap is empty. -/
theorem start_lt_stop_of_mem_gaps {length cursor : Int} {rs : List TaggedRegion} {g : Span}
    (hg : g ∈ gaps length cursor rs) : g.start < g.stop := by
  induction rs generalizing cursor with
  | nil =>
    rw [gaps] at hg
    split at hg
    · rename_i hlt
      rw [List.mem_singleton.1 hg]
      exact hlt
    · cases hg
  | cons r rs ih =>
    rw [gaps] at hg
    split at hg
    · rename_i hlt
      rcases List.mem_cons.1 hg with rfl | hg
      · exact hlt
      · exact ih hg
    · exact ih hg

/-- A gap does not overlap any region. -/
theorem apart_of_mem_gaps {length cursor : Int} {rs : List TaggedRegion}
    (h : Row cursor length (rs.map (·.toSpan))) :
    ∀ r ∈ rs, ∀ g ∈ gaps length cursor rs, r.toSpan.Apart g := by
  induction rs generalizing cursor with
  | nil =>
    intro r hr
    cases hr
  | cons r₀ rs ih =>
    obtain ⟨hcursor, hr₀, hrest⟩ := h
    have hgap : ∀ g ∈ gaps length cursor (r₀ :: rs),
        g = ⟨cursor, r₀.start⟩ ∨ g ∈ gaps length r₀.stop rs := by
      intro g hg
      rw [gaps] at hg
      split at hg
      · exact List.mem_cons.1 hg
      · exact Or.inr hg
    intro r hr g hg
    rcases hgap g hg with rfl | hg
    · right
      rcases List.mem_cons.1 hr with rfl | hr
      · exact Int.le_refl _
      · have := (hrest.mem (List.mem_map_of_mem hr)).1
        show r₀.start ≤ r.start
        exact Int.le_trans hr₀ this
    · rcases List.mem_cons.1 hr with rfl | hr
      · exact Or.inl ((row_gaps hrest).mem hg).1
      · exact ih hrest r hr g hg

/-- Every offset is in a region or in a gap. -/
theorem covers_or_gap_covers (rs : List TaggedRegion) {length cursor i : Int}
    (hi : cursor ≤ i) (hlen : i < length) :
    (∃ r ∈ rs, r.toSpan.Covers i) ∨ ∃ g ∈ gaps length cursor rs, g.Covers i := by
  induction rs generalizing cursor with
  | nil =>
    right
    rw [gaps, if_pos (by omega)]
    exact ⟨_, List.mem_singleton_self _, hi, hlen⟩
  | cons r rs ih =>
    rw [gaps]
    by_cases hbefore : i < r.start
    · right
      rw [if_pos (by omega)]
      exact ⟨_, List.mem_cons_self, hi, hbefore⟩
    · by_cases hinside : i < r.stop
      · exact Or.inl ⟨r, List.mem_cons_self, by omega, hinside⟩
      · rcases ih (by omega : r.stop ≤ i) with ⟨r', hr', hc⟩ | ⟨g, hg, hc⟩
        · exact Or.inl ⟨r', List.mem_cons_of_mem _ hr', hc⟩
        · right
          refine ⟨g, ?_, hc⟩
          split
          · exact List.mem_cons_of_mem _ hg
          · exact hg

end ComponentDivision
