/-
# When a document can be laid out

A document has a layout exactly if each text is counted once and no two of the
texts overlap where they stand first. Overlaps are looked for between neighbours
only, after the blocks have been put in order; for blocks that are not empty this
finds every overlap. The markup regions are the largest ranges that no block
covers, and the order in which the scripts are given shows in their numbers alone.

* `Located.Placeable` : the texts are counted once and stand apart;
* `exists_resolve_iff` : a layout exists exactly then;
* `Span.IsGap` : a largest range that no block covers;
* `mem_gaps_iff` : the gaps between blocks are these ranges;
* `resolve_of_perm` : the scripts in another order;
* `resolve_exact` : all of this about one layout.
-/
import ComponentDivision.Proofs.Layout

namespace ComponentDivision

/-! ## First occurrences -/

/-- The range of the first occurrence of a text. -/
def Text.firstSpan? (document text : Text) : Option Span :=
  (Text.find? text document).map fun i : Nat => ⟨i, i + text.length⟩

/-- The texts of all blocks. -/
def Located.texts (located : Located) : List Text :=
  located.scripts ++ located.style.toList

theorem Located.mem_texts_iff {located : Located} {text : Text} :
    text ∈ located.texts ↔
      ∃ block index, Block.pick? located.scripts located.style block index = some text := by
  unfold Located.texts
  rw [List.mem_append, List.mem_iff_getElem?, Option.mem_toList]
  constructor
  · rintro (⟨index, h⟩ | h)
    · exact ⟨.script, index, h⟩
    · exact ⟨.style, 0, h⟩
  · rintro ⟨block, index, h⟩
    cases block with
    | script => exact .inl ⟨index, h⟩
    | style =>
      cases index with
      | zero => exact .inr h
      | succ index => cases h

/-- Each text is counted once, and where they stand first they do not overlap. -/
structure Located.Placeable (document : Text) (located : Located) : Prop where
  ne_nil : ∀ t ∈ located.texts, t ≠ []
  once : ∀ t ∈ located.texts, document.occurrences t = 1
  apart : located.texts.Pairwise fun s t =>
    ∀ a ∈ document.firstSpan? s, ∀ b ∈ document.firstSpan? t, a.Apart b

/-- The block of a text, where the text stands first. -/
def Text.region (document text : Text) (block : Block) (index : Nat) : TaggedRegion where
  start := ((Text.find? text document).getD 0 : Nat)
  stop := ((Text.find? text document).getD 0 : Nat) + text.length
  block := block
  index := index

/-- A block without its number, if it is one of the scripts. -/
def TaggedRegion.unnumbered (r : TaggedRegion) : TaggedRegion :=
  if r.block = .script then { r with index := 0 } else r

section

variable {document text : Text} {r : TaggedRegion}

/-- A located region is the first occurrence of its text. -/
theorem TaggedRegion.Locates.firstSpan?_eq (h : r.Locates document text) :
    document.firstSpan? text = some r.toSpan := by
  have hstart : ((r.start.toNat : Nat) : Int) = r.start := Int.toNat_of_nonneg h.nonneg
  unfold Text.firstSpan?
  rw [h.first, Option.map_some, hstart, ← h.stop_eq]

/-- A located region is determined by its text, its block and its number. -/
theorem TaggedRegion.Locates.eq_region (h : r.Locates document text) :
    r = document.region text r.block r.index := by
  have hstart : ((r.start.toNat : Nat) : Int) = r.start := Int.toNat_of_nonneg h.nonneg
  have hstop := h.stop_eq
  unfold Text.region
  rw [h.first, Option.getD_some, hstart, ← hstop]

/-- A text that is counted once is located where it stands first. -/
theorem Text.locates_region (hne : text ≠ []) (hone : document.occurrences text = 1)
    (block : Block) (index : Nat) : (document.region text block index).Locates document text := by
  have hfind : ∃ n, Text.find? text document = some n := by
    cases hn : Text.find? text document with
    | none =>
      rw [Text.occurrences_eq hne, hn] at hone
      cases hone
    | some n => exact ⟨n, rfl⟩
  obtain ⟨n, hn⟩ := hfind
  have hregion : document.region text block index = ⟨⟨n, n + text.length⟩, block, index⟩ := by
    unfold Text.region
    rw [hn, Option.getD_some]
  rw [hregion]
  exact ⟨hne, hone, hn, Int.natCast_nonneg n, rfl⟩

end

/-! ## Success -/

section

variable {document : Text} {located : Located} {fileName : Option Text}

/-- The located blocks, one for each text. -/
theorem forall₂_locates {scripts styles : List TaggedRegion}
    (hscripts : locateScripts document fileName 0 located.scripts = .ok scripts)
    (hstyles : locateStyle document fileName located.style = .ok styles) :
    List.Forall₂ (fun t r => TaggedRegion.Locates document t r) located.texts
      (scripts ++ styles) := by
  have hfirst : List.Forall₂ (fun t r => TaggedRegion.Locates document t r)
      ((located.scripts.zipIdx 0).map Prod.fst) scripts := by
    rw [List.forall₂_map_left_iff]
    exact (locateScripts_eq_ok_iff.1 hscripts).imp fun t r h => h.1
  rw [List.zipIdx_map_fst] at hfirst
  exact List.rel_append hfirst ((locateStyle_eq_ok_iff.1 hstyles).imp fun t r h => h.1)

/-- Located blocks overlap exactly if their texts do. -/
theorem pairwise_apart_iff {texts : List Text} {rs : List TaggedRegion}
    (h : List.Forall₂ (fun t r => TaggedRegion.Locates document t r) texts rs) :
    (texts.Pairwise fun s t =>
      ∀ a ∈ document.firstSpan? s, ∀ b ∈ document.firstSpan? t, a.Apart b) ↔
      rs.Pairwise fun a b => a.toSpan.Apart b.toSpan := by
  induction h with
  | nil => exact ⟨fun _ => .nil, fun _ => .nil⟩
  | @cons t r texts rs ht hts ih =>
    rw [List.pairwise_cons, List.pairwise_cons, ih]
    refine and_congr_left fun _ => ?_
    constructor
    · intro hall r' hr'
      obtain ⟨t', ht', hlocates⟩ := exists_mem_of_forall₂ hts hr'
      exact hall t' ht' _ ht.firstSpan?_eq _ hlocates.firstSpan?_eq
    · intro hall t' ht' a ha b hb
      obtain ⟨r', hr', hlocates⟩ := exists_mem_of_forall₂ hts.flip ht'
      rw [ht.firstSpan?_eq] at ha
      rw [hlocates.firstSpan?_eq] at hb
      cases ha
      cases hb
      exact hall r' hr'

/-- Blocks that follow one another have no overlap between neighbours. -/
theorem firstOverlap_eq_none {rs : List TaggedRegion}
    (h : rs.Pairwise fun a b => a.toSpan.Before b.toSpan) : firstOverlap rs = none := by
  fun_induction firstOverlap rs with
  | case1 a b rest hlt =>
    have hbefore : a.stop ≤ b.start := (List.pairwise_cons.1 h).1 b List.mem_cons_self
    omega
  | case2 a b rest hnlt ih => exact ih (List.pairwise_cons.1 h).2
  | case3 => rfl

/-- The blocks of a layout follow one another and are not empty. -/
theorem pairwise_before_tagged {layout : Layout}
    (h : Layout.resolve document located fileName = .ok layout) :
    (layout.tagged.Pairwise fun a b => a.toSpan.Before b.toSpan) ∧
      ∀ r ∈ layout.tagged, r.start < r.stop := by
  refine ⟨List.pairwise_map.1 (row_tagged h).pairwise, fun r hr => ?_⟩
  obtain ⟨text, -, hlocates⟩ := exists_locates_of_mem_tagged h hr
  exact hlocates.start_lt_stop

/-- The blocks of a layout are in the order of their starts. -/
theorem pairwise_start_lt_tagged {layout : Layout}
    (h : Layout.resolve document located fileName = .ok layout) :
    layout.tagged.Pairwise fun a b => a.start < b.start := by
  obtain ⟨hbefore, hne⟩ := pairwise_before_tagged h
  refine hbefore.imp_of_mem fun {a b} ha _ hab => ?_
  have hle : a.stop ≤ b.start := hab
  have := hne a ha
  omega

/-- In a layout each text is counted once and no two of them overlap. -/
theorem placeable_of_resolve {layout : Layout}
    (h : Layout.resolve document located fileName = .ok layout) : located.Placeable document := by
  obtain ⟨scripts, styles, hscripts, hstyles, htagged, -, -⟩ := resolve_eq_ok_iff.1 h
  have hall := forall₂_locates hscripts hstyles
  have hlocates (t : Text) (ht : t ∈ located.texts) : ∃ r, TaggedRegion.Locates document t r := by
    obtain ⟨r, -, hr⟩ := exists_mem_of_forall₂ hall.flip ht
    exact ⟨r, hr⟩
  refine ⟨fun t ht => ?_, fun t ht => ?_, (pairwise_apart_iff hall).2 ?_⟩
  · obtain ⟨r, hr⟩ := hlocates t ht
    exact hr.ne_nil
  · obtain ⟨r, hr⟩ := hlocates t ht
    exact hr.once
  · have hperm : layout.tagged.Perm (scripts ++ styles) := by
      rw [htagged]
      exact List.mergeSort_perm _ _
    have hsorted := (pairwise_before_tagged h).1.imp
      fun {a b} hab => (Or.inl hab : a.toSpan.Apart _)
    exact (hperm.pairwise_iff fun {_ _} hab => Span.Apart.symm hab).1 hsorted

/-- Texts that are counted once are located one by one. -/
theorem exists_located (fileName : Option Text) (h : located.Placeable document) :
    ∃ scripts styles, locateScripts document fileName 0 located.scripts = .ok scripts ∧
      locateStyle document fileName located.style = .ok styles := by
  have hmem (t : Text) (ht : t ∈ located.texts) (block : Block) (index : Nat) :
      (document.region t block index).Locates document t :=
    Text.locates_region (h.ne_nil t ht) (h.once t ht) block index
  refine ⟨(located.scripts.zipIdx 0).map fun t => document.region t.1 .script t.2,
    located.style.toList.map fun t => document.region t .style 0,
    locateScripts_eq_ok_iff.2 ?_, locateStyle_eq_ok_iff.2 ?_⟩
  · rw [List.forall₂_map_right_iff, List.forall₂_same]
    rintro ⟨t, k⟩ ht
    have ht : t ∈ located.scripts := List.fst_mem_of_mem_zipIdx ht
    exact ⟨hmem t (List.mem_append_left _ ht) .script k, rfl, rfl⟩
  · rw [List.forall₂_map_right_iff, List.forall₂_same]
    intro t ht
    exact ⟨hmem t (List.mem_append_right _ ht) .style 0, rfl, rfl⟩

/-- **A layout exists exactly if each text is counted once and no two overlap.** -/
theorem exists_resolve_iff :
    (∃ layout, Layout.resolve document located fileName = .ok layout) ↔
      located.Placeable document := by
  constructor
  · rintro ⟨layout, h⟩
    exact placeable_of_resolve h
  · intro h
    obtain ⟨scripts, styles, hscripts, hstyles⟩ := exists_located fileName h
    have hall := forall₂_locates hscripts hstyles
    have hne : ∀ r ∈ scripts ++ styles, r.start < r.stop := by
      intro r hr
      obtain ⟨t, -, hlocates⟩ := exists_mem_of_forall₂ hall hr
      exact hlocates.start_lt_stop
    have hbefore := pairwise_before_mergeSort ((pairwise_apart_iff hall).1 h.apart) hne
    exact ⟨⟨_, gaps document.length 0 _⟩, resolve_eq_ok_iff.2
      ⟨scripts, styles, hscripts, hstyles, rfl, firstOverlap_eq_none hbefore, rfl⟩⟩

end

/-! ## Gaps -/

/-- The range is not empty, lies between two offsets, and no region covers any of it. -/
structure Span.Free (lo hi : Int) (rs : List TaggedRegion) (g : Span) : Prop where
  le_start : lo ≤ g.start
  start_lt_stop : g.start < g.stop
  stop_le : g.stop ≤ hi
  uncovered : ∀ i, g.Covers i → ∀ r ∈ rs, ¬ r.toSpan.Covers i

/-- The range is free, and no other free range holds it. -/
structure Span.IsGap (lo hi : Int) (rs : List TaggedRegion) (g : Span) : Prop where
  free : g.Free lo hi rs
  maximal : ∀ g' : Span, g'.Free lo hi rs → g.Within g' → g' = g

section

variable {lo hi : Int} {rs : List TaggedRegion} {g g' : Span}

/-- A gap begins at the lower bound or where a region ends. -/
theorem start_of_mem_gaps (hg : g ∈ gaps hi lo rs) : g.start = lo ∨ ∃ r ∈ rs, r.stop = g.start := by
  induction rs generalizing lo with
  | nil =>
    rw [gaps] at hg
    split at hg
    · rw [List.mem_singleton.1 hg]
      exact Or.inl rfl
    · cases hg
  | cons r rs ih =>
    have hlater (hg : g ∈ gaps hi r.stop rs) : ∃ r' ∈ r :: rs, r'.stop = g.start := by
      rcases ih hg with hstart | ⟨r', hr', hstop⟩
      · exact ⟨r, List.mem_cons_self, hstart.symm⟩
      · exact ⟨r', List.mem_cons_of_mem r hr', hstop⟩
    rw [gaps] at hg
    split at hg
    · rcases List.mem_cons.1 hg with rfl | hg
      · exact Or.inl rfl
      · exact Or.inr (hlater hg)
    · exact Or.inr (hlater hg)

/-- A gap ends at the upper bound or where a region begins. -/
theorem stop_of_mem_gaps (hg : g ∈ gaps hi lo rs) : g.stop = hi ∨ ∃ r ∈ rs, r.start = g.stop := by
  induction rs generalizing lo with
  | nil =>
    rw [gaps] at hg
    split at hg
    · rw [List.mem_singleton.1 hg]
      exact Or.inl rfl
    · cases hg
  | cons r rs ih =>
    have hlater (hg : g ∈ gaps hi r.stop rs) :
        g.stop = hi ∨ ∃ r' ∈ r :: rs, r'.start = g.stop := by
      rcases ih hg with hstop | ⟨r', hr', hstart⟩
      · exact Or.inl hstop
      · exact Or.inr ⟨r', List.mem_cons_of_mem r hr', hstart⟩
    rw [gaps] at hg
    split at hg
    · rcases List.mem_cons.1 hg with rfl | hg
      · exact Or.inr ⟨r, List.mem_cons_self, rfl⟩
      · exact hlater hg
    · exact hlater hg

/-- No region covers anything of a gap. -/
theorem free_of_mem_gaps (hrow : Row lo hi (rs.map (·.toSpan))) (hg : g ∈ gaps hi lo rs) :
    g.Free lo hi rs := by
  obtain ⟨hlo, -, hhi⟩ := (row_gaps hrow).mem hg
  refine ⟨hlo, start_lt_stop_of_mem_gaps hg, hhi, ?_⟩
  rintro i ⟨hstart, hstop⟩ r hr ⟨hrstart, hrstop⟩
  have hapart : r.stop ≤ g.start ∨ g.stop ≤ r.start := apart_of_mem_gaps hrow r hr g hg
  omega

/-- A gap cannot be made larger: before and after it there is a region or nothing. -/
theorem isGap_of_mem_gaps (hrow : Row lo hi (rs.map (·.toSpan)))
    (hne : ∀ r ∈ rs, r.start < r.stop) (hg : g ∈ gaps hi lo rs) : g.IsGap lo hi rs := by
  refine ⟨free_of_mem_gaps hrow hg, fun g' hfree hwithin => ?_⟩
  obtain ⟨hstart, hlt, hstop⟩ := hwithin
  have hlt := start_lt_stop_of_mem_gaps hg
  have hlo := hfree.le_start
  have hhi := hfree.stop_le
  have hstart' : g'.start = g.start := by
    rcases start_of_mem_gaps hg with hbound | ⟨r, hr, hend⟩
    · omega
    · by_contra hne'
      have hr' := hne r hr
      exact hfree.uncovered (g.start - 1) ⟨by omega, by omega⟩ r hr ⟨by omega, by omega⟩
  have hstop' : g'.stop = g.stop := by
    rcases stop_of_mem_gaps hg with hbound | ⟨r, hr, hbegin⟩
    · omega
    · by_contra hne'
      have hr' := hne r hr
      exact hfree.uncovered g.stop ⟨by omega, by omega⟩ r hr ⟨by omega, by omega⟩
  cases g
  cases g'
  simp_all

/-- Two free ranges that share an offset are parts of one free range. -/
theorem Span.Free.union {i : Int} (hg : g.Free lo hi rs) (hg' : g'.Free lo hi rs)
    (hcovers : g.Covers i) (hcovers' : g'.Covers i) :
    Span.Free lo hi rs ⟨min g.start g'.start, max g.stop g'.stop⟩ := by
  obtain ⟨hi₁, hi₂⟩ := hcovers
  obtain ⟨hi₁', hi₂'⟩ := hcovers'
  have hlo := hg.le_start
  have hlo' := hg'.le_start
  have hhi := hg.stop_le
  have hhi' := hg'.stop_le
  refine ⟨?_, ?_, ?_, ?_⟩
  · show lo ≤ min g.start g'.start
    omega
  · show min g.start g'.start < max g.stop g'.stop
    omega
  · show max g.stop g'.stop ≤ hi
    omega
  · rintro j ⟨hj₁, hj₂⟩
    have hj₁ : min g.start g'.start ≤ j := hj₁
    have hj₂ : j < max g.stop g'.stop := hj₂
    by_cases hj : g.Covers j
    · exact hg.uncovered j hj
    · have hj : ¬ (g.start ≤ j ∧ j < g.stop) := hj
      exact hg'.uncovered j ⟨by omega, by omega⟩

/-- **The gaps between regions are the largest ranges that no region covers.** -/
theorem mem_gaps_iff (hrow : Row lo hi (rs.map (·.toSpan))) (hne : ∀ r ∈ rs, r.start < r.stop) :
    g ∈ gaps hi lo rs ↔ g.IsGap lo hi rs := by
  constructor
  · exact isGap_of_mem_gaps hrow hne
  · rintro ⟨hfree, hmax⟩
    have hlt := hfree.start_lt_stop
    have hstart : g.Covers g.start := ⟨Int.le_refl _, hlt⟩
    rcases covers_or_gap_covers rs hfree.le_start (Int.lt_of_lt_of_le hlt hfree.stop_le) with
      ⟨r, hr, hcovers⟩ | ⟨g', hg', hcovers⟩
    · exact absurd hcovers (hfree.uncovered _ hstart r hr)
    · obtain ⟨hfree', hmax'⟩ := isGap_of_mem_gaps hrow hne hg'
      have hunion := hfree.union hfree' hstart hcovers
      have hlt' := hfree'.start_lt_stop
      have h₁ := hmax _ hunion
        ⟨Int.min_le_left _ _, Int.le_of_lt hlt, Int.le_max_left _ _⟩
      have h₂ := hmax' _ hunion
        ⟨Int.min_le_right _ _, Int.le_of_lt hlt', Int.le_max_right _ _⟩
      rw [← h₁, h₂]
      exact hg'

/-- Gaps depend on the ranges of the regions alone. -/
theorem gaps_congr {rs rs' : List TaggedRegion} (h : rs.map (·.toSpan) = rs'.map (·.toSpan)) :
    gaps hi lo rs = gaps hi lo rs' := by
  induction rs generalizing lo rs' with
  | nil =>
    rw [List.map_nil, eq_comm, List.map_eq_nil_iff] at h
    rw [h]
  | cons r rs ih =>
    rw [List.map_cons, eq_comm, List.map_eq_cons_iff] at h
    obtain ⟨r', rs'', rfl, hspan, hrest⟩ := h
    rw [gaps, gaps, ih hrest.symm, hspan]

end

/-! ## Scripts in another order -/

section

variable {document : Text} {located : Located} {fileName : Option Text}

@[simp] theorem TaggedRegion.toSpan_unnumbered (r : TaggedRegion) :
    r.unnumbered.toSpan = r.toSpan := by
  unfold TaggedRegion.unnumbered
  split <;> rfl

/-- The blocks of a layout, without the numbers of the scripts, come from the texts. -/
theorem tagged_unnumbered_perm {layout : Layout}
    (h : Layout.resolve document located fileName = .ok layout) :
    (layout.tagged.map TaggedRegion.unnumbered).Perm
      (located.scripts.map (document.region · .script 0)
        ++ located.style.toList.map (document.region · .style 0)) := by
  obtain ⟨scripts, styles, hscripts, hstyles, htagged, -, -⟩ := resolve_eq_ok_iff.1 h
  have hfirst : List.Forall₂ (· = ·) (located.scripts.map (document.region · .script 0))
      (scripts.map TaggedRegion.unnumbered) := by
    rw [← List.zipIdx_map_fst 0 located.scripts, List.map_map, List.forall₂_map_left_iff,
      List.forall₂_map_right_iff]
    refine (locateScripts_eq_ok_iff.1 hscripts).imp fun t r ⟨hlocates, hblock, _⟩ => ?_
    rw [hlocates.eq_region, hblock]
    rfl
  have hsecond : List.Forall₂ (· = ·) (located.style.toList.map (document.region · .style 0))
      (styles.map TaggedRegion.unnumbered) := by
    rw [List.forall₂_map_left_iff, List.forall₂_map_right_iff]
    refine (locateStyle_eq_ok_iff.1 hstyles).imp fun t r ⟨hlocates, hblock, hindex⟩ => ?_
    rw [hlocates.eq_region, hblock, hindex]
    rfl
  rw [List.forall₂_eq_eq_eq] at hfirst hsecond
  rw [hfirst, hsecond, ← List.map_append, htagged]
  exact (List.mergeSort_perm _ _).map _

/-- The scripts may be given in any order. -/
theorem Located.Placeable.perm {scripts : List Text} (h : located.Placeable document)
    (hperm : scripts.Perm located.scripts) :
    Located.Placeable document { located with scripts } := by
  have htexts : ({ located with scripts } : Located).texts.Perm located.texts :=
    hperm.append_right _
  refine ⟨fun t ht => h.ne_nil t (htexts.mem_iff.1 ht), fun t ht => h.once t (htexts.mem_iff.1 ht),
    (htexts.pairwise_iff ?_).2 h.apart⟩
  intro s t hst a ha b hb
  exact (hst b hb a ha).symm

/-- **The order of the scripts shows in their numbers alone.** -/
theorem resolve_of_perm {layout : Layout} {scripts : List Text}
    (h : Layout.resolve document located fileName = .ok layout)
    (hperm : scripts.Perm located.scripts) :
    ∃ layout', Layout.resolve document { located with scripts } fileName = .ok layout' ∧
      layout'.tagged.map TaggedRegion.unnumbered = layout.tagged.map TaggedRegion.unnumbered ∧
      layout'.markup = layout.markup := by
  obtain ⟨layout', h'⟩ := exists_resolve_iff.2 ((placeable_of_resolve h).perm hperm)
  have hsorted {located : Located} {layout : Layout}
      (h : Layout.resolve document located fileName = .ok layout) :
      (layout.tagged.map TaggedRegion.unnumbered).Pairwise fun a b => a.start < b.start := by
    rw [List.pairwise_map]
    refine (pairwise_start_lt_tagged h).imp fun {a b} hab => ?_
    rw [a.toSpan_unnumbered, b.toSpan_unnumbered]
    exact hab
  have htagged : layout'.tagged.map TaggedRegion.unnumbered
      = layout.tagged.map TaggedRegion.unnumbered := by
    refine List.Perm.eq_of_pairwise (fun a b _ _ hab hba => ?_) (hsorted h') (hsorted h) ?_
    · exact absurd hab (by omega)
    · refine (tagged_unnumbered_perm h').trans (.trans ?_ (tagged_unnumbered_perm h).symm)
      exact (hperm.map _).append_right _
  refine ⟨layout', h', htagged, ?_⟩
  obtain ⟨-, -, -, -, -, -, hmarkup⟩ := resolve_eq_ok_iff.1 h
  obtain ⟨-, -, -, -, -, -, hmarkup'⟩ := resolve_eq_ok_iff.1 h'
  have hspans := congrArg (List.map (·.toSpan)) htagged
  simp only [List.map_map, Function.comp_def, TaggedRegion.toSpan_unnumbered] at hspans
  rw [hmarkup, hmarkup', gaps_congr hspans]

end

/-! ## Layouts -/

/-- **A layout is determined by the document and the texts.** There is one exactly if each
text is counted once and no two of them overlap where they stand first. Its blocks are in
order and are the given texts; its markup regions, in order, are the largest ranges that no
block covers; and with the scripts in another order nothing changes but their numbers. -/
theorem resolve_exact (document : Text) (located : Located) (fileName : Option Text) :
    ((∃ layout, Layout.resolve document located fileName = .ok layout) ↔
      located.Placeable document) ∧
    ∀ layout, Layout.resolve document located fileName = .ok layout →
      (layout.tagged.Pairwise fun a b => a.start < b.start) ∧
      (∀ block index text, block.pick? located.scripts located.style index = some text ↔
        ∃ r ∈ layout.tagged, r.block = block ∧ r.index = index ∧
          document.slice r.start r.stop = text) ∧
      (layout.markup.Pairwise fun a b => a.start < b.start) ∧
      (∀ g, g ∈ layout.markup ↔ g.IsGap 0 document.length layout.tagged) ∧
      ∀ scripts, scripts.Perm located.scripts →
        ∃ layout', Layout.resolve document { located with scripts } fileName = .ok layout' ∧
          layout'.tagged.map TaggedRegion.unnumbered
            = layout.tagged.map TaggedRegion.unnumbered ∧
          layout'.markup = layout.markup := by
  refine ⟨exists_resolve_iff, fun layout h => ?_⟩
  obtain ⟨-, -, -, -, -, -, hmarkup⟩ := resolve_eq_ok_iff.1 h
  have hrow := row_tagged h
  refine ⟨pairwise_start_lt_tagged h, fun block index text => ?_, ?_, fun g => ?_,
    fun scripts hperm => resolve_of_perm h hperm⟩
  · have hslice (r : TaggedRegion) (hr : r ∈ layout.tagged) :
        r.block.pick? located.scripts located.style r.index
          = some (document.slice r.start r.stop) := by
      obtain ⟨text, hpick, hlocates⟩ := exists_locates_of_mem_tagged h hr
      rw [hpick, hlocates.slice_eq]
    constructor
    · intro hpick
      obtain ⟨r, hr, rfl, rfl⟩ := exists_mem_tagged_of_pick? h hpick
      exact ⟨r, hr, rfl, rfl, Option.some.inj ((hslice r hr).symm.trans hpick)⟩
    · rintro ⟨r, hr, rfl, rfl, rfl⟩
      exact hslice r hr
  · rw [hmarkup]
    refine (row_gaps hrow).pairwise.imp_of_mem fun {a b} ha _ hab => ?_
    have hlt := start_lt_stop_of_mem_gaps ha
    have hle : a.stop ≤ b.start := hab
    omega
  · rw [hmarkup]
    exact mem_gaps_iff hrow (pairwise_before_tagged h).2

/-- Two scripts that are given out of order, and a style block between them. -/
theorem resolve_exact_out_of_order :
    ∃ layout,
      Layout.resolve "x<b>y<s><a>".toList ⟨["<a>".toList, "<b>".toList], some "<s>".toList⟩ none
        = .ok layout ∧
      layout.tagged = [⟨⟨1, 4⟩, .script, 1⟩, ⟨⟨5, 8⟩, .style, 0⟩, ⟨⟨8, 11⟩, .script, 0⟩] ∧
      Located.Placeable "x<b>y<s><a>".toList
        ⟨["<a>".toList, "<b>".toList], some "<s>".toList⟩ ∧
      (∀ g, g ∈ layout.markup ↔ g.IsGap 0 11 layout.tagged) ∧
      ∃ layout',
        Layout.resolve "x<b>y<s><a>".toList ⟨["<b>".toList, "<a>".toList], some "<s>".toList⟩ none
          = .ok layout' ∧
        layout'.tagged.map TaggedRegion.unnumbered = layout.tagged.map TaggedRegion.unnumbered ∧
        layout'.markup = layout.markup := by
  have h : Layout.resolve "x<b>y<s><a>".toList
      ⟨["<a>".toList, "<b>".toList], some "<s>".toList⟩ none
        = .ok ⟨[⟨⟨1, 4⟩, .script, 1⟩, ⟨⟨5, 8⟩, .style, 0⟩, ⟨⟨8, 11⟩, .script, 0⟩],
          [⟨0, 1⟩, ⟨4, 5⟩]⟩ := by
    refine resolve_eq_ok_iff.2 ⟨_, _, rfl, rfl, ?_, rfl, rfl⟩
    simp [List.mergeSort]
  obtain ⟨hexists, hlayout⟩ := resolve_exact "x<b>y<s><a>".toList
    ⟨["<a>".toList, "<b>".toList], some "<s>".toList⟩ none
  obtain ⟨-, -, -, hgaps, hperm⟩ := hlayout _ h
  exact ⟨_, h, rfl, hexists.1 ⟨_, h⟩, hgaps, hperm _ (List.Perm.swap _ _ [])⟩

end ComponentDivision
