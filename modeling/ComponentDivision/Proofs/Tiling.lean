/-
# Reports tile the document

The scripts, the style block and the markup of a report, put in order, cover the
document: they do not overlap, each is an exact copy of its range, and what they
leave out is blank. This holds for any texts of blocks, wherever they come from.

* `Report.Tiles` : what it means for a report to cover a document;
* `pieces_assemble_perm` : the pieces of a report are the regions of its layout;
* `divideLocated_tiles` : every report covers its document.
-/
import Mathlib
import ComponentDivision.Division
import ComponentDivision.Proofs.Layout

namespace ComponentDivision

/-! ## Pieces of a report -/

/-- The range of a fragment. -/
def Fragment.span (f : Fragment) : Span :=
  ⟨f.startChar, f.endChar⟩

/-- The fragment is what stands in its range, and its line is the line of its first
character. -/
structure Fragment.Exact (document : Text) (f : Fragment) : Prop where
  text_eq : document.slice f.startChar f.endChar = f.text
  line_eq : f.startLine = 1 + Text.newlines (document.take f.startChar.toNat)

/-- The scripts, the style block and the markup of a report. -/
def Report.pieces (r : Report) : List Fragment :=
  r.scripts.toList ++ r.style.toList ++ r.markup

/-- The pieces of the report cover the document. -/
structure Report.Tiles (document : Text) (r : Report) : Prop where
  /-- No piece is empty or leaves the document. -/
  inside : ∀ f ∈ r.pieces, 0 ≤ f.startChar ∧ f.startChar < f.endChar ∧ f.endChar ≤ document.length
  /-- In the order of their starts, each piece ends before the ones after it begin. -/
  disjoint : (r.pieces.mergeSort fun a b => a.startChar ≤ b.startChar).Pairwise
    fun a b => a.endChar ≤ b.startChar
  /-- What is in no piece is blank. -/
  covering : ∀ (i : Nat) (hi : i < document.length),
    (∀ f ∈ r.pieces, ¬ (f.startChar ≤ i ∧ i < f.endChar)) → isBlank document[i]
  exact : ∀ f ∈ r.pieces, f.Exact document
  scripts_increasing : r.scripts.toList.Pairwise fun a b => a.startChar < b.startChar
  markup_increasing : r.markup.Pairwise fun a b => a.startChar < b.startChar

/-- The fragment between two offsets of the document is exact. -/
theorem exact_of {document : Text} {start stop : Int} (h₀ : 0 ≤ start)
    (h : start ≤ document.length) : (Fragment.of document start stop).Exact document := by
  refine ⟨rfl, ?_⟩
  show (document.lineNumber start : Int) = 1 + Text.newlines (document.take start.toNat)
  rw [Text.lineNumber_eq h₀ h]
  omega

theorem Scripts.toList_ofList (fs : List Fragment) : (Scripts.ofList fs).toList = fs := by
  rcases fs with _ | ⟨f, _ | ⟨g, fs⟩⟩ <;> rfl

/-! ## Regions of a layout -/

/-- The ranges that a report shows: all blocks, and the markup that is not blank. -/
def Layout.shown (document : Text) (layout : Layout) : List Span :=
  layout.tagged.map (·.toSpan)
    ++ layout.markup.filter fun s => !(document.slice s.start s.stop).blank

section Resolved

variable {document : Text} {located : Located} {fileName : Option Text} {layout : Layout}

/-- What is shown lies in the document and is not empty. -/
theorem inside_of_mem_shown (h : Layout.resolve document located fileName = .ok layout)
    {s : Span} (hs : s ∈ layout.shown document) :
    0 ≤ s.start ∧ s.start < s.stop ∧ s.stop ≤ document.length := by
  rw [Layout.shown, List.mem_append] at hs
  rcases hs with hs | hs
  · obtain ⟨r, hr, rfl⟩ := List.mem_map.1 hs
    obtain ⟨text, -, ht⟩ := exists_locates_of_mem_tagged h hr
    exact ⟨ht.nonneg, ht.start_lt_stop, ht.stop_le⟩
  · obtain ⟨-, -, -, -, -, -, hmarkup⟩ := resolve_eq_ok_iff.1 h
    have hs := List.mem_of_mem_filter hs
    rw [hmarkup] at hs
    obtain ⟨h₀, -, hlen⟩ := (row_gaps (row_tagged h)).mem hs
    exact ⟨h₀, start_lt_stop_of_mem_gaps hs, hlen⟩

/-- What is shown does not overlap. -/
theorem pairwise_apart_shown (h : Layout.resolve document located fileName = .ok layout) :
    (layout.shown document).Pairwise Span.Apart := by
  obtain ⟨-, -, -, -, -, -, hmarkup⟩ := resolve_eq_ok_iff.1 h
  have hrow := row_tagged h
  rw [Layout.shown, List.pairwise_append]
  refine ⟨hrow.pairwise.imp Or.inl, ?_, ?_⟩
  · rw [hmarkup]
    exact ((row_gaps hrow).pairwise.imp Or.inl).filter _
  · intro s hs g hg
    obtain ⟨r, hr, rfl⟩ := List.mem_map.1 hs
    have hg := List.mem_of_mem_filter hg
    rw [hmarkup] at hg
    exact apart_of_mem_gaps hrow r hr g hg

/-- An offset that is not shown is blank. -/
theorem isBlank_of_not_shown (h : Layout.resolve document located fileName = .ok layout)
    {i : Nat} (hi : i < document.length) (hnot : ∀ s ∈ layout.shown document, ¬ s.Covers i) :
    isBlank document[i] := by
  obtain ⟨-, -, -, -, -, -, hmarkup⟩ := resolve_eq_ok_iff.1 h
  rcases covers_or_gap_covers layout.tagged (by omega : (0 : Int) ≤ i)
    (by omega : (i : Int) < document.length) with ⟨r, hr, hc⟩ | ⟨g, hg, hc⟩
  · exact absurd hc (hnot _ (List.mem_append_left _ (List.mem_map_of_mem hr)))
  · -- the gap that covers the offset is left out, so all of it is blank
    have hbound := (row_gaps (row_tagged h)).mem hg
    rw [← hmarkup] at hg
    by_cases hb : (document.slice g.start g.stop).blank
    · unfold Text.blank at hb
      rw [List.all_eq_true] at hb
      exact hb _ (Text.mem_slice_of_getElem hbound.1 hbound.2.2 hc.1 hc.2 hi)
    · refine absurd hc (hnot g (List.mem_append_right _ ?_))
      rw [List.mem_filter]
      exact ⟨hg, by simpa using hb⟩

end Resolved

/-! ## From the layout to the report -/

/-- The fragment of a range. -/
def Span.fragment (document : Text) (s : Span) : Fragment :=
  .of document s.start s.stop

/-- The blocks of one sort, taken from blocks of that sort and others in any order. -/
theorem filter_block_perm {rs as bs : List TaggedRegion} {block : Block}
    (hperm : rs.Perm (as ++ bs)) (has : ∀ r ∈ as, r.block = block)
    (hbs : ∀ r ∈ bs, r.block ≠ block) : (rs.filter (·.block == block)).Perm as := by
  have hall : as.filter (·.block == block) = as := by
    rw [List.filter_eq_self]
    simpa using has
  have hnone : bs.filter (·.block == block) = [] := by
    rw [List.filter_eq_nil_iff]
    simpa using hbs
  have h := hperm.filter (·.block == block)
  rwa [List.filter_append, hall, hnone, List.append_nil] at h

/-- The scripts and the style block of a layout are the located ones. -/
theorem filter_tagged_perm {document : Text} {located : Located} {fileName : Option Text}
    {layout : Layout} (h : Layout.resolve document located fileName = .ok layout) :
    ∃ scripts styles, locateScripts document fileName 0 located.scripts = .ok scripts ∧
      locateStyle document fileName located.style = .ok styles ∧
      (layout.tagged.filter (·.block == .script)).Perm scripts ∧
      (layout.tagged.filter (·.block == .style)).Perm styles := by
  obtain ⟨scripts, styles, hscripts, hstyles, htagged, -, -⟩ := resolve_eq_ok_iff.1 h
  have hscript : ∀ r ∈ scripts, r.block = .script := by
    intro r hr
    obtain ⟨t, -, -, hblock, -⟩ := exists_mem_of_forall₂ (locateScripts_eq_ok_iff.1 hscripts) hr
    exact hblock
  have hstyle : ∀ r ∈ styles, r.block = .style := by
    intro r hr
    obtain ⟨t, -, -, hblock, -⟩ := exists_mem_of_forall₂ (locateStyle_eq_ok_iff.1 hstyles) hr
    exact hblock
  have hperm : layout.tagged.Perm (scripts ++ styles) := by
    rw [htagged]
    exact List.mergeSort_perm _ _
  refine ⟨scripts, styles, hscripts, hstyles, ?_, ?_⟩
  · apply filter_block_perm hperm hscript
    intro r hr
    rw [hstyle r hr]
    decide
  · apply filter_block_perm (hperm.trans List.perm_append_comm) hstyle
    intro r hr
    rw [hscript r hr]
    decide

/-- A layout has the style block that was given, if one was, and no other one. -/
theorem filter_style_eq {document : Text} {located : Located} {fileName : Option Text}
    {layout : Layout} (h : Layout.resolve document located fileName = .ok layout) :
    match located.style with
    | none => layout.tagged.filter (·.block == .style) = []
    | some text =>
      ∃ r, layout.tagged.filter (·.block == .style) = [r] ∧ r.Locates document text := by
  obtain ⟨-, styles, -, hstyles, -, hperm⟩ := filter_tagged_perm h
  have hrel := locateStyle_eq_ok_iff.1 hstyles
  cases hstyle : located.style with
  | none =>
    rw [hstyle, Option.toList_none, List.forall₂_nil_left_iff] at hrel
    rw [hrel, List.perm_nil] at hperm
    exact hperm
  | some text =>
    rw [hstyle, Option.toList_some, List.forall₂_cons_left_iff] at hrel
    obtain ⟨r, rs, hr, hrs, rfl⟩ := hrel
    rw [List.forall₂_nil_left_iff.1 hrs, List.perm_singleton] at hperm
    exact ⟨r, hperm, hr.1⟩

/-- The last style block of a layout is the only one. -/
theorem getLast?_filter_style {document : Text} {located : Located} {fileName : Option Text}
    {layout : Layout} (h : Layout.resolve document located fileName = .ok layout) :
    (layout.tagged.filter (·.block == .style)).getLast?.toList
      = layout.tagged.filter (·.block == .style) := by
  have hstyle := filter_style_eq h
  split at hstyle
  · rw [hstyle]
    rfl
  · obtain ⟨r, hr, -⟩ := hstyle
    rw [hr]
    rfl

/-- A report that is assembled has the pieces of its layout. -/
theorem pieces_assemble_perm {document : Text} {located : Located} {fileName : Option Text}
    {layout : Layout} (h : Layout.resolve document located fileName = .ok layout) :
    (Report.assemble document layout fileName).pieces.Perm
      ((layout.shown document).map (Span.fragment document)) := by
  have hnot : (fun r : TaggedRegion => r.block == .style)
      = fun r => !(r.block == .script) := by
    funext r
    cases r.block <;> rfl
  have hsplit := List.filter_append_perm (·.block == .script) layout.tagged
  rw [← hnot] at hsplit
  have hpieces : (Report.assemble document layout fileName).pieces
      = ((layout.tagged.filter (·.block == .script)
          ++ layout.tagged.filter (·.block == .style)).map (·.toSpan)
        ++ layout.markup.filter fun s => !(document.slice s.start s.stop).blank).map
          (Span.fragment document) := by
    rw [Report.pieces, Report.assemble, Scripts.toList_ofList, Option.toList_map,
      getLast?_filter_style h, List.map_append, List.map_append, List.map_append, List.map_map,
      List.map_map]
    rfl
  rw [hpieces, Layout.shown]
  exact ((hsplit.map _).append_right _).map _

/-- The texts of the blocks in a report are the located ones. -/
theorem texts_assemble {document : Text} {located : Located} {fileName : Option Text}
    {layout : Layout} (h : Layout.resolve document located fileName = .ok layout) :
    ((Report.assemble document layout fileName).scripts.toList.map (·.text)).Perm
        located.scripts ∧
      (Report.assemble document layout fileName).style.map (·.text) = located.style := by
  obtain ⟨scripts, -, hscripts, -, hscript, -⟩ := filter_tagged_perm h
  constructor
  · rw [Report.assemble, Scripts.toList_ofList, List.map_map,
      ← map_slice_of_locateScripts hscripts]
    exact hscript.map _
  · have hstyle := filter_style_eq h
    rw [Report.assemble, Option.map_map]
    split at hstyle
    · rename_i hnone
      rw [hstyle, hnone]
      rfl
    · rename_i text hsome
      obtain ⟨r, hr, ht⟩ := hstyle
      rw [hr, hsome]
      exact congrArg some ht.slice_eq

/-- The scripts of a report are in the order of the document. -/
theorem scripts_assemble_increasing {document : Text} {located : Located}
    {fileName : Option Text} {layout : Layout}
    (h : Layout.resolve document located fileName = .ok layout) :
    (Report.assemble document layout fileName).scripts.toList.Pairwise
      fun a b => a.startChar < b.startChar := by
  rw [Report.assemble, Scripts.toList_ofList, List.pairwise_map]
  have hbefore := List.pairwise_map.1 (row_tagged h).pairwise
  refine (hbefore.filter _).imp_of_mem fun {a b} ha _ hab => ?_
  obtain ⟨text, -, ht⟩ := exists_locates_of_mem_tagged h (List.mem_of_mem_filter ha)
  exact Int.lt_of_lt_of_le ht.start_lt_stop hab

/-- The markup of a report stands in a row. -/
theorem row_markup_assemble {document : Text} {located : Located} {fileName : Option Text}
    {layout : Layout} (h : Layout.resolve document located fileName = .ok layout) :
    Row 0 document.length ((Report.assemble document layout fileName).markup.map
      Fragment.span) := by
  obtain ⟨-, -, -, -, -, -, hmarkup⟩ := resolve_eq_ok_iff.1 h
  have hrow := row_gaps (row_tagged h)
  rw [← hmarkup] at hrow
  rw [Report.assemble, List.map_map]
  refine hrow.sublist ?_
  have hspan : (Fragment.span ∘ fun s : Span => Fragment.of document s.start s.stop) = id := rfl
  rw [hspan, List.map_id]
  exact List.filter_sublist

/-- The markup of a report is in the order of the document, and no piece of it overlaps
another one. -/
theorem markup_assemble_before {document : Text} {located : Located} {fileName : Option Text}
    {layout : Layout} (h : Layout.resolve document located fileName = .ok layout) :
    (Report.assemble document layout fileName).markup.Pairwise
      fun a b => a.startChar < b.startChar ∧ a.endChar ≤ b.startChar := by
  obtain ⟨-, -, -, -, -, -, hmarkup⟩ := resolve_eq_ok_iff.1 h
  have hbefore := List.pairwise_map.1 (row_markup_assemble h).pairwise
  refine hbefore.imp_of_mem fun {a b} ha _ hab => ?_
  obtain ⟨s, hs, rfl⟩ := List.mem_map.1 ha
  have hs := List.mem_of_mem_filter hs
  rw [hmarkup] at hs
  exact ⟨Int.lt_of_lt_of_le (start_lt_stop_of_mem_gaps hs) hab, hab⟩

/-- A report that is assembled covers the document. -/
theorem tiles_assemble {document : Text} {located : Located} {fileName : Option Text}
    {layout : Layout} (h : Layout.resolve document located fileName = .ok layout) :
    (Report.assemble document layout fileName).Tiles document := by
  have hperm := pieces_assemble_perm h
  have hpiece : ∀ f ∈ (Report.assemble document layout fileName).pieces,
      ∃ s ∈ layout.shown document, s.fragment document = f := by
    intro f hf
    exact List.mem_map.1 (hperm.mem_iff.1 hf)
  have hinside : ∀ f ∈ (Report.assemble document layout fileName).pieces,
      0 ≤ f.startChar ∧ f.startChar < f.endChar ∧ f.endChar ≤ document.length := by
    intro f hf
    obtain ⟨s, hs, rfl⟩ := hpiece f hf
    exact inside_of_mem_shown h hs
  refine ⟨hinside, ?_, ?_, ?_, scripts_assemble_increasing h,
    (markup_assemble_before h).imp And.left⟩
  · have hapart : ((layout.shown document).map (Span.fragment document)).Pairwise
        fun a b => a.span.Apart b.span := by
      rw [List.pairwise_map]
      exact pairwise_apart_shown h
    have hpieces : (Report.assemble document layout fileName).pieces.Pairwise
        fun a b => a.span.Apart b.span :=
      hapart.perm hperm.symm fun {_ _} hab => Span.Apart.symm hab
    have hne : ∀ f ∈ (Report.assemble document layout fileName).pieces,
        f.span.start < f.span.stop :=
      fun f hf => (hinside f hf).2.1
    exact pairwise_before_mergeSort hpieces hne
  · intro i hi hnot
    apply isBlank_of_not_shown h hi
    intro s hs
    exact hnot (s.fragment document) (hperm.mem_iff.2 (List.mem_map_of_mem hs))
  · intro f hf
    obtain ⟨s, hs, rfl⟩ := hpiece f hf
    obtain ⟨h₀, hlt, hlen⟩ := inside_of_mem_shown h hs
    exact exact_of h₀ (by omega)

/-! ## Reports -/

/-- A report is assembled from a layout, and the expressions of its markup are added. -/
theorem divideLocated_eq_ok_iff {grammar : Grammar} {extract : Bool} {document : Text}
    {located : Located} {fileName : Option Text} {report : Report} :
    divideLocated grammar extract document located fileName = .ok report ↔
      ∃ layout found, Layout.resolve document located fileName = .ok layout ∧
        report = { Report.assemble document layout fileName with expressions := found } ∧
        if extract then
          markupExpressions grammar fileName (Report.assemble document layout fileName).markup
            = .ok found
        else found = [] := by
  unfold divideLocated
  rw [Except.bind_eq_ok_iff]
  cases extract with
  | false =>
    constructor
    · rintro ⟨layout, hlayout, h⟩
      cases h
      exact ⟨layout, [], Except.mapError_eq_ok_iff.1 hlayout, rfl, rfl⟩
    · rintro ⟨layout, found, hlayout, rfl, hfound⟩
      cases hfound
      exact ⟨layout, Except.mapError_eq_ok_iff.2 hlayout, rfl⟩
  | true =>
    constructor
    · rintro ⟨layout, hlayout, h⟩
      obtain ⟨found, hfound, h⟩ := Except.bind_eq_ok_iff.1 h
      cases h
      exact ⟨layout, found, Except.mapError_eq_ok_iff.1 hlayout, rfl, hfound⟩
    · rintro ⟨layout, found, hlayout, rfl, hfound⟩
      exact ⟨layout, Except.mapError_eq_ok_iff.2 hlayout,
        Except.bind_eq_ok_iff.2 ⟨found, hfound, rfl⟩⟩

/-- **Reports cover their documents.** Whatever texts of blocks a document is divided by, the
pieces of the report cover the document, and the texts of its blocks are the given ones. -/
theorem divideLocated_tiles {grammar : Grammar} {extract : Bool} {document : Text}
    {located : Located} {fileName : Option Text} {report : Report}
    (h : divideLocated grammar extract document located fileName = .ok report) :
    report.Tiles document ∧ (report.scripts.toList.map (·.text)).Perm located.scripts ∧
      report.style.map (·.text) = located.style := by
  obtain ⟨layout, found, hlayout, rfl, -⟩ := divideLocated_eq_ok_iff.1 h
  obtain ⟨hinside, hdisjoint, hcovering, hexact, hscripts, hmarkup⟩ := tiles_assemble hlayout
  exact ⟨⟨hinside, hdisjoint, hcovering, hexact, hscripts, hmarkup⟩, texts_assemble hlayout⟩

/-- Two scripts that are given out of order, with blank text between them and a style block
after the markup. -/
theorem divideLocated_tiles_two_scripts :
    ∃ report, divideLocated .permissive false
        "<script>b</script> <script>a</script>\n<p>x<style>c</style>".toList
        ⟨["<script>a</script>".toList, "<script>b</script>".toList],
          some "<style>c</style>".toList⟩ none = .ok report ∧
      report.Tiles "<script>b</script> <script>a</script>\n<p>x<style>c</style>".toList := by
  have h : divideLocated .permissive false
      "<script>b</script> <script>a</script>\n<p>x<style>c</style>".toList
      ⟨["<script>a</script>".toList, "<script>b</script>".toList],
        some "<style>c</style>".toList⟩ none = .ok {
        scripts := .several [⟨"<script>b</script>".toList, 1, 0, 18⟩,
          ⟨"<script>a</script>".toList, 1, 19, 37⟩]
        style := some ⟨"<style>c</style>".toList, 2, 42, 58⟩
        markup := [⟨"\n<p>x".toList, 1, 37, 42⟩] } := by
    cbv
  exact ⟨_, h, (divideLocated_tiles h).1⟩

end ComponentDivision
