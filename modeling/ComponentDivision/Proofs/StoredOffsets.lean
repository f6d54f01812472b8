/-
# Offsets in stored files

The command line reads a file with every line end as a line feed and reports offsets in the text
that it reads. They are offsets in the stored text as well exactly if no fragment has a carriage
return in its range or a pair of a carriage return and a line feed before it. All that is asked of
the reader is that the text of a block does not begin with a blank.

* `Report.fragments` : all fragments of a report;
* `Markup.TreeReader.Visible` : what is asked of the reader;
* `exists_block_of_uncovered` : what is left out is followed by blanks up to a block;
* `slices_eq_iff` : when the fragments of a report are ranges of the stored text;
* `run_slices_iff` : the same about a run of the command line.
-/
import ComponentDivision.Command.Run
import ComponentDivision.Proofs.DocumentOrder
import ComponentDivision.Proofs.Markup.OwnPlace
import ComponentDivision.Proofs.Resolution
import ComponentDivision.Proofs.Text.LineEnds
import ComponentDivision.Standard

namespace ComponentDivision

/-! ## Fragments -/

/-- All fragments of a report. -/
def Report.fragments (r : Report) : List Fragment :=
  r.pieces ++ r.expressions

/-- The fragment is a range of the document that lies in one of the pieces. -/
structure Fragment.Grounded (document : Text) (pieces : List Fragment) (f : Fragment) : Prop where
  nonneg : 0 ≤ f.startChar
  start_le : f.startChar ≤ f.endChar
  stop_le : f.endChar ≤ document.length
  text_eq : document.slice f.startChar f.endChar = f.text
  inside : ∃ p ∈ pieces, p.startChar ≤ f.startChar ∧ f.endChar ≤ p.endChar

section

variable {grammar : Grammar} {extract : Bool} {document : Text} {located : Located}
  {fileName : Option Text} {report : Report} {layout : Layout}

/-- All fragments of a report are ranges of the document, and expressions lie in pieces of
markup. -/
theorem grounded_of_divideLocated
    (h : divideLocated grammar extract document located fileName = .ok report) :
    ∃ layout, Layout.resolve document located fileName = .ok layout ∧
      report.pieces.Perm ((layout.shown document).map (Span.fragment document)) ∧
      ∀ f ∈ report.fragments, f.Grounded document report.pieces := by
  obtain ⟨layout, found, hlayout, rfl, hfound⟩ := divideLocated_eq_ok_iff.1 h
  have htiles := tiles_assemble hlayout
  refine ⟨layout, hlayout, pieces_assemble_perm hlayout, fun f hf => ?_⟩
  rcases List.mem_append.1 hf with hf | hf
  · obtain ⟨h₀, hlt, hstop⟩ := htiles.inside f hf
    exact ⟨h₀, Int.le_of_lt hlt, hstop, (htiles.exact f hf).text_eq, f, hf, Int.le_refl _,
      Int.le_refl _⟩
  · cases extract with
    | false =>
      cases hfound
      cases hf
    | true =>
      rw [if_pos rfl] at hfound
      have hrange : ∀ f ∈ (Report.assemble document layout fileName).markup,
          f = .of document f.startChar f.endChar := by
        intro f hf
        obtain ⟨s, -, rfl⟩ := List.mem_map.1 hf
        rfl
      have hextracted := extracted_of_markupExpressions (Int.le_refl 0) hrange
        (row_markup_assemble hlayout) hfound
      obtain ⟨p, hp, hstart, hend⟩ := hextracted.inside f hf
      have hpiece : p ∈ (Report.assemble document layout fileName).pieces :=
        List.mem_append_right _ hp
      obtain ⟨h₀, -, hstop⟩ := htiles.inside p hpiece
      exact ⟨by omega, Int.le_of_lt (hextracted.nonempty f hf), by omega,
        (hextracted.exact f hf).text_eq, p, hpiece, hstart, hend⟩

/-! ## What is left out -/

/-- A place before something that is shown, and in nothing that is shown, is followed by blanks up
to a block. -/
theorem exists_block_of_uncovered (h : Layout.resolve document located fileName = .ok layout)
    {i : Nat} (hnot : ∀ s ∈ layout.shown document, ¬ s.Covers i) {s : Span}
    (hs : s ∈ layout.shown document) (hi : i < s.start) :
    ∃ r ∈ layout.tagged, i < r.start ∧ (document.slice i r.start).blank = true := by
  obtain ⟨-, -, -, -, -, -, hmarkup⟩ := resolve_eq_ok_iff.1 h
  have hrow := row_tagged h
  have hshown {r : TaggedRegion} (hr : r ∈ layout.tagged) : r.toSpan ∈ layout.shown document :=
    List.mem_append_left _ (List.mem_map_of_mem hr)
  have hinside := inside_of_mem_shown h hs
  have hblock : ∃ r ∈ layout.tagged, i < r.start := by
    rcases List.mem_append.1 hs with hs | hs
    · obtain ⟨r, hr, rfl⟩ := List.mem_map.1 hs
      exact ⟨r, hr, hi⟩
    · have hs := List.mem_of_mem_filter hs
      rw [hmarkup] at hs
      rcases start_of_mem_gaps hs with hzero | ⟨r, hr, hstop⟩
      · omega
      · refine ⟨r, hr, ?_⟩
        by_contra hle
        exact hnot _ (hshown hr) ⟨by omega, by omega⟩
  obtain ⟨r, hr, hir⟩ := hblock
  rcases covers_or_gap_covers layout.tagged (by omega : (0 : Int) ≤ i)
    (by omega : (i : Int) < document.length) with ⟨r', hr', hcovers⟩ | ⟨g, hg, hcovers⟩
  · exact absurd hcovers (hnot _ (hshown hr'))
  · have hbound := (row_gaps hrow).mem hg
    have hblank : (document.slice g.start g.stop).blank = true := by
      by_contra hb
      refine hnot g (List.mem_append_right _ (List.mem_filter.2 ⟨hmarkup ▸ hg, ?_⟩)) hcovers
      simpa using hb
    have hrinside := inside_of_mem_shown h (hshown hr)
    have hapart : r.stop ≤ g.start ∨ g.stop ≤ r.start := apart_of_mem_gaps hrow r hr g hg
    have hstart : g.start ≤ i := hcovers.1
    have hstop : (i : Int) < g.stop := hcovers.2
    rcases stop_of_mem_gaps hg with hend | ⟨r', hr', hend⟩
    · omega
    · exact ⟨r', hr', by omega, Text.blank_slice_of_le hbound.1 hstart (by omega) (by omega)
        hbound.2.2 hblank⟩

end

/-! ## Blocks do not begin with a blank -/

namespace Markup

/-- The texts of the blocks that the reader finds in the document do not begin with a blank. -/
def TreeReader.Visible {ε : Type} (reader : TreeReader ε) (document : Text) : Prop :=
  ∀ features located, locate reader features document = .ok located →
    ∀ text ∈ located.texts, ∀ c ∈ text.head?, isBlank c = false

/-- The text of a block begins with the bracket of its start tag. -/
theorem Placed.WellRead.eq_of_mem_head? {document : Text} {p : Placed} {offset : Nat} {c : Char}
    (h : p.WellRead document offset) (hc : c ∈ (p.text document).head?) : c = '<' := by
  cases hoccurs : Text.occursIn p.rendered document with
  | true =>
    rw [Placed.text_eq_rendered hoccurs, h.normal.head?] at hc
    exact (Option.mem_some.1 hc).symm
  | false =>
    rw [Placed.text_eq_take hoccurs h.offset?_eq (Nat.le_of_lt h.offset_lt), List.head?_take] at hc
    split at hc
    · cases hc
    · rw [List.head?_drop, h.opening] at hc
      exact (Option.mem_some.1 hc).symm

/-- A reader that says rightly where the blocks stand meets what is asked. -/
theorem visible_of_accurate {ε : Type} {reader : TreeReader ε} {document : Text}
    (h : ∀ features, reader.Accurate features document) : reader.Visible document := by
  intro features located hlocated text htext c hc
  obtain ⟨blocks, hblocks, rfl⟩ := Except.map_eq_ok_iff.1 hlocated
  obtain ⟨block, index, hpick⟩ := Located.mem_texts_iff.1 htext
  have hmap := block.pick?_map (·.text document) blocks.scripts blocks.style index
  obtain ⟨p, hp, rfl⟩ := Option.map_eq_some_iff.1 (hmap.symm.trans hpick)
  obtain ⟨tags, htags, t, ht, hname, rfl⟩ := exists_tag_of_findBlocks hblocks hp
  obtain ⟨offset, hread⟩ := h features tags htags t ht block hname
  rw [hread.eq_of_mem_head? hc]
  decide

end Markup

/-! ## Reports -/

section

variable {stored : Text} {fileName : Option Text}

/-- **If the blocks and the markup are ranges of the stored text, no pair stands before them.** A
pair in a range is a difference in that range. A pair that is left out is followed by blanks up to
a block, so that a blank of the stored text stands where the block begins. -/
theorem not_pairAt_of_slices {located : Located} {layout : Layout}
    (hlayout : Layout.resolve (unifyNewlines stored) located fileName = .ok layout)
    (hvisible : ∀ text ∈ located.texts, ∀ c ∈ text.head?, isBlank c = false)
    (hslices : ∀ s ∈ layout.shown (unifyNewlines stored),
      stored.slice s.start s.stop = (unifyNewlines stored).slice s.start s.stop)
    {s : Span} (hs : s ∈ layout.shown (unifyNewlines stored)) {i : Nat} (hi : i < s.stop) :
    ¬ stored.PairAt i := by
  have hlength := length_unifyNewlines_le stored
  have hsinside := inside_of_mem_shown hlayout hs
  induction i using Nat.strong_induction_on with
  | _ i ih =>
    intro hpair
    have hread := drop_unifyNewlines fun j hj => ih j hj (by omega)
    have hzero : Text.PairAt (stored.drop i) 0 := hpair
    obtain ⟨cs, hcs⟩ := Text.eq_of_pairAt_zero hzero
    have hget : stored[i]? = some '\r' := by
      rw [← List.head?_drop, hcs]
      rfl
    by_cases hcovered : ∃ s ∈ layout.shown (unifyNewlines stored), s.Covers i
    · obtain ⟨s', hs', hcovers⟩ := hcovered
      obtain ⟨h₀, -, hstop⟩ := inside_of_mem_shown hlayout hs'
      obtain ⟨hlt, heq⟩ := List.getElem?_eq_some_iff.1 hget
      have hmem := Text.mem_slice_of_getElem h₀ (by omega) hcovers.1 hcovers.2 hlt
      rw [heq, hslices s' hs'] at hmem
      exact return_notMem_unifyNewlines stored (Text.mem_of_mem_slice hmem)
    · have hnot : ∀ s ∈ layout.shown (unifyNewlines stored), ¬ s.Covers i :=
        fun s hs hcovers => hcovered ⟨s, hs, hcovers⟩
      have his : i < s.start := by
        by_contra hle
        exact hnot s hs ⟨by omega, hi⟩
      obtain ⟨r, hr, hir, hblank⟩ := exists_block_of_uncovered hlayout hnot hs his
      have hrshown : r.toSpan ∈ layout.shown (unifyNewlines stored) :=
        List.mem_append_left _ (List.mem_map_of_mem hr)
      obtain ⟨h₀, hlt, hstop⟩ := inside_of_mem_shown hlayout hrshown
      -- the block begins with no blank, but a blank of the stored text stands there
      obtain ⟨text, hpick, hlocates⟩ := exists_locates_of_mem_tagged hlayout hr
      have htext := Located.mem_texts_iff.2 ⟨_, _, hpick⟩
      obtain ⟨c, hc⟩ := Option.ne_none_iff_exists'.1 (mt List.head?_eq_none_iff.1 hlocates.ne_nil)
      have hvisible := hvisible text htext c hc
      rw [← hlocates.slice_eq, ← hslices _ hrshown] at hc
      have hc := Text.getElem?_of_head?_slice h₀ hlt (by omega) hc
      obtain ⟨k, hk⟩ := Int.le.dest (Int.le_of_lt hir)
      have hstart : r.start = ((i + k : Nat) : Int) := by omega
      rw [hstart, Text.slice_natCast_add k (by omega), hread] at hblank
      rw [hstart, Int.toNat_natCast, ← List.getElem?_drop] at hc
      have hspace := isBlank_of_pair hzero (by omega) hblank hc
      rw [hvisible] at hspace
      cases hspace

variable {ε : Type} {tools : Tools ε} {settings : Settings} {report : Report}

/-- A report is that of the blocks that are located. -/
theorem exists_located_of_divide {document : Text}
    (h : divide tools settings document fileName = .ok report) :
    ∃ located, Markup.locate tools.reader settings.features document = .ok located ∧
      divideLocated tools.grammar settings.extract document located fileName = .ok report := by
  obtain ⟨located, hlocated, h⟩ := Except.bind_eq_ok_iff.1 h
  obtain ⟨bare, -, h⟩ := Except.bind_eq_ok_iff.1 h
  split at h
  · cases h
  · exact ⟨located, Except.mapError_eq_ok_iff.1 hlocated, Except.mapError_eq_ok_iff.1 h⟩

/-- **When the fragments of a report are ranges of the stored text.** -/
theorem slices_eq_iff (hvisible : tools.reader.Visible (unifyNewlines stored))
    (h : divide tools settings (unifyNewlines stored) fileName = .ok report) :
    (∀ f ∈ report.fragments, (unifyNewlines stored).slice f.startChar f.endChar = f.text) ∧
    ((∀ f ∈ report.fragments, stored.slice f.startChar f.endChar = f.text) ↔
      ∀ f ∈ report.fragments, '\r' ∉ stored.slice f.startChar f.endChar ∧
        ∀ i : Nat, i < f.startChar → ¬ stored.PairAt i) := by
  obtain ⟨located, hlocated, hreport⟩ := exists_located_of_divide h
  obtain ⟨layout, hlayout, hperm, hgrounded⟩ := grounded_of_divideLocated hreport
  refine ⟨fun f hf => (hgrounded f hf).text_eq, fun hslices f hf => ⟨?_, ?_⟩, fun hfree f hf => ?_⟩
  · rw [hslices f hf, ← (hgrounded f hf).text_eq]
    exact fun hmem => return_notMem_unifyNewlines stored (Text.mem_of_mem_slice hmem)
  · have hshown : ∀ s ∈ layout.shown (unifyNewlines stored),
        stored.slice s.start s.stop = (unifyNewlines stored).slice s.start s.stop := by
      intro s hs
      have hpiece := hperm.mem_iff.2 (List.mem_map_of_mem hs)
      exact hslices _ (List.mem_append_left _ hpiece)
    obtain ⟨p, hp, hstart, hend⟩ := (hgrounded f hf).inside
    obtain ⟨s, hs, rfl⟩ := List.mem_map.1 (hperm.mem_iff.1 hp)
    have hstop : f.endChar ≤ s.stop := hend
    have hle := (hgrounded f hf).start_le
    exact fun i hi => not_pairAt_of_slices hlayout (hvisible _ _ hlocated) hshown hs (by omega)
  · obtain ⟨hreturn, hpair⟩ := hfree f hf
    obtain ⟨h₀, hle, hstop, htext, -⟩ := hgrounded f hf
    obtain ⟨i, hi⟩ := Int.eq_ofNat_of_zero_le h₀
    obtain ⟨j, hj⟩ := Int.eq_ofNat_of_zero_le (Int.le_trans h₀ hle)
    rw [← htext, hi, hj]
    rw [hi, hj] at hreturn
    refine (slice_unifyNewlines (by omega) (by omega) (fun k hk => hpair k ?_) hreturn).symm
    omega

end

/-! ## Runs -/

namespace Command

variable {ε ν : Type}

/-- A run that ends well has printed a report of the file. -/
theorem exists_report_of_exit_zero {tools : Tools ε} {formats : Formats ν} {files : Files}
    {args : List Text} {o : Options} (hargs : Options.read args = .ok (.divide o))
    (hexit : (run tools formats files args).ending = .exit 0) :
    ∃ settings document report, o.settings formats files = .ok settings ∧
      files.readText o.path = .ok document ∧
      divide tools settings document (some o.displayName) = .ok report ∧
      (run tools formats files args).stdout = (Run.succeeded o report : Run ε).stdout := by
  have hrun : run tools formats files args = divideFile tools formats files o := by
    unfold run
    rw [hargs]
  have hfailed (message : Text) : (Run.failed o message : Run ε).ending ≠ .exit 0 := by
    unfold Run.failed
    split <;> exact fun h => by cases h
  rw [hrun] at hexit ⊢
  unfold divideFile at hexit ⊢
  cases hsettings : o.settings formats files with
  | error e =>
    rw [hsettings] at hexit
    exact absurd hexit (hfailed _)
  | ok settings =>
    rw [hsettings] at hexit
    cases hread : files.readText o.path with
    | error e =>
      rw [hread] at hexit
      cases e with
      | unopened path p => exact absurd hexit (hfailed _)
      | nullCharacter => cases hexit
      | undecodable e => cases hexit
    | ok document =>
      rw [hread] at hexit
      have hending (r : Run ε) (ns : List Note) :
          (if o.verbose then r.withNotes ns else r).ending = r.ending := by
        split <;> rfl
      have hstdout (r : Run ε) (ns : List Note) :
          (if o.verbose then r.withNotes ns else r).stdout = r.stdout := by
        split <;> rfl
      simp only [divideDocument, hending] at hexit
      simp only [divideDocument, hstdout]
      cases hdivide : divide tools settings document (some o.displayName) with
      | error e =>
        rw [hdivide] at hexit
        cases e with
        | refused r => exact absurd hexit (hfailed _)
        | unlocated e => cases hexit
        | exhausted => cases hexit
      | ok report => exact ⟨settings, document, report, rfl, rfl, hdivide, rfl⟩

/-- A file that is read is decoded, and its line ends are unified. -/
theorem readText_eq {files : Files} {path : Text} {bytes : List UInt8} {stored document : Text}
    (hfile : files (Path.of path) = .ok bytes) (hstored : decode bytes = .ok stored)
    (hread : files.readText path = .ok document) : document = unifyNewlines stored := by
  unfold Files.readText at hread
  split at hread
  · cases hread
  · rw [hfile] at hread
    simp only [hstored] at hread
    cases hread
    rfl

/-- **When the offsets that a run prints are offsets in the stored file.** If the run ends well, the
fragments of its report are the ranges that they say of the text with unified line ends. They are
the same ranges of the stored text exactly if no carriage return stands in the range of a fragment
and no pair of a carriage return and a line feed before it. The settings may be read by anything,
and the blocks by any reader that finds no text of a block that begins with a blank. -/
theorem run_slices_iff {tools : Tools ε} {formats : Formats ν} {files : Files} {args : List Text}
    {o : Options} {bytes : List UInt8} {stored : Text}
    (hargs : Options.read args = .ok (.divide o))
    (hfile : files (Path.of o.path) = .ok bytes) (hstored : decode bytes = .ok stored)
    (hvisible : tools.reader.Visible (unifyNewlines stored))
    (hexit : (run tools formats files args).ending = .exit 0) :
    ∃ settings report, o.settings formats files = .ok settings ∧
      divide tools settings (unifyNewlines stored) (some o.displayName) = .ok report ∧
      (run tools formats files args).stdout = (Run.succeeded o report : Run ε).stdout ∧
      (∀ f ∈ report.fragments, (unifyNewlines stored).slice f.startChar f.endChar = f.text) ∧
      ((∀ f ∈ report.fragments, stored.slice f.startChar f.endChar = f.text) ↔
        ∀ f ∈ report.fragments, '\r' ∉ stored.slice f.startChar f.endChar ∧
          ∀ i : Nat, i < f.startChar → ¬ stored.PairAt i) := by
  obtain ⟨settings, document, report, hsettings, hread, hdivide, hstdout⟩ :=
    exists_report_of_exit_zero hargs hexit
  obtain rfl := readText_eq hfile hstored hread
  obtain ⟨hunified, hiff⟩ := slices_eq_iff hvisible hdivide
  exact ⟨settings, report, hsettings, hdivide, hstdout, hunified, hiff⟩

/-- The built-in reader, with a grammar that accepts every expression. -/
def plainTools : Tools Markup.LocateError :=
  { grammar := .permissive, reader := Markup.lenient }

/-- A directory with one file, which is called `c`. -/
def oneFile (t : Text) : Files :=
  .ofEntries [(['c'], .file (encode t))]

/-- A pair after a script. -/
def scriptAndPair : Text :=
  "<script></script>\r\n".toList

theorem run_slices_script :
    plainTools.reader.Visible (unifyNewlines scriptAndPair) ∧
    ∃ f : Fragment, ∃ report : Report, report.fragments = [f] ∧
      (run plainTools .standard (oneFile scriptAndPair) [['c']]).stdout
        = (Run.succeeded { path := ['c'] } report : Run Markup.LocateError).stdout ∧
      scriptAndPair.slice f.startChar f.endChar = f.text := by
  have hargs : Options.read [['c']] = .ok (.divide { path := ['c'] }) := by decide +kernel
  have hfile : oneFile scriptAndPair (Path.of ['c']) = .ok (encode scriptAndPair) := by
    decide +kernel
  have hstored : decode (encode scriptAndPair) = .ok scriptAndPair := by decide +kernel
  have hvisible : plainTools.reader.Visible (unifyNewlines scriptAndPair) :=
    Markup.visible_of_accurate fun features => Markup.accurate_lenient features _
  have hexit : (run plainTools .standard (oneFile scriptAndPair) [['c']]).ending = .exit 0 := by
    decide +kernel
  obtain ⟨settings, report, hsettings, hdivide, hstdout, -, hiff⟩ :=
    run_slices_iff hargs hfile hstored hvisible hexit
  have hreport : divide plainTools {} (unifyNewlines scriptAndPair) (some ['c'])
      = .ok { fileName := some ['c']
              scripts := .single ⟨"<script></script>".toList, 1, 0, 17⟩ } := by
    decide +kernel
  cases hsettings
  cases hdivide.symm.trans hreport
  refine ⟨hvisible, _, _, rfl, hstdout, hiff.2 ?_ _ List.mem_cons_self⟩
  intro f hf
  rw [List.mem_singleton.1 hf]
  refine ⟨by decide +kernel, fun i hi => ?_⟩
  have hi : (i : Int) < 0 := hi
  omega

/-- A pair before an expression. -/
def pairAndExpression : Text :=
  "<p>\r\n\x7ba\x7d</p>".toList

/-- The ranges that are printed are those of a text that is one character shorter. -/
theorem run_slices_pair :
    decode (encode pairAndExpression) = .ok pairAndExpression ∧
    ∃ (report : Report) (f g : Fragment),
      run plainTools .standard (oneFile pairAndExpression) ["--json".toList, ['c']]
        = Run.succeeded { path := ['c'], json := true } report ∧
      report.fragments = [f, g] ∧
      pairAndExpression.slice f.startChar f.endChar ≠ f.text ∧
      pairAndExpression.slice g.startChar g.endChar ≠ g.text := by
  refine ⟨by decide +kernel,
    { fileName := some ['c']
      markup := [⟨"<p>\n\x7ba\x7d</p>".toList, 1, 0, 11⟩]
      expressions := [⟨['a'], 2, 5, 6⟩] }, _, _, ?_, rfl, ?_, ?_⟩
  · decide +kernel
  · decide +kernel
  · decide +kernel

end Command

end ComponentDivision
