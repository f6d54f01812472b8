/-
# Blocks at their own places

A block is given by its text, and its region is where that text stands in the
document. Normal forms and closed extents end once, so the region begins at the
block's own start tag if its text stands there. The normal form of a block need not
stand there: it may stand somewhere else, as in a comment, and then that place is
taken for the block. This holds for every reader that is accurate.

* `Placed.Faithful` : when the text of a block stands first at its own place;
* `Placed.WellRead.start_eq_iff` : exactly then a region begins there;
* `start_eq_offset_iff_faithful` : the same about the blocks of a document.
-/
import ComponentDivision.Proofs.Layout
import ComponentDivision.Proofs.Markup.Content

namespace ComponentDivision.Markup

/-! ## The place of a block -/

/-- The text of an element stands first at its own offset. Its normal form, if the document
has it, has to stand there; otherwise its extent has to end at an end tag, or not to have a
copy before. -/
def Placed.Faithful (document : Text) (p : Placed) (offset : Nat) : Prop :=
  if Text.occursIn p.rendered document then p.rendered <+: document.drop offset
  else (throughMark? [['<', '/'] ++ p.name, ['>']] (document.drop offset)).isSome ∨
    ∀ i < offset, ¬ document.drop offset <+: document.drop i

/-- The region of a text that goes on to the end of the document: the first copy counts. -/
theorem start_eq_iff_of_unclosed {document : Text} {r : TaggedRegion} {k : Nat}
    (hr : r.Locates document (document.drop k)) :
    r.start = k ↔ ∀ i < k, ¬ document.drop k <+: document.drop i := by
  have hnonneg := hr.nonneg
  constructor
  · intro hstart
    have hmin := (Text.find?_eq_some_iff.1 hr.first).2
    rwa [hstart, Int.toNat_natCast] at hmin
  · intro hnone
    have hfound := Text.find?_eq_some_iff.2 ⟨List.prefix_rfl, hnone⟩
    rw [hr.first, Option.some.injEq] at hfound
    omega

namespace Placed.WellRead

variable {document : Text} {p : Placed} {offset : Nat} {block : Block} {r : TaggedRegion}
  (h : p.WellRead document offset) (hname : p.name = block.label)
include h hname

/-- The region of a normal form: wherever it stands, since its copies do not overlap. -/
theorem start_eq_iff_of_rendered (hr : r.Locates document p.rendered) :
    r.start = offset ↔ p.rendered <+: document.drop offset := by
  constructor
  · intro hstart
    have hat := (Text.find?_eq_some_iff.1 hr.first).1
    rwa [hstart, Int.toNat_natCast] at hat
  · intro hat
    have hnormal := h.normal
    rw [hname] at hnormal
    apply hr.start_eq hat
    intro i hi hcopy
    apply hnormal.endsOnce.add_length_le _ hnormal.head? hcopy hat hi
    rintro _ rfl
    exact opensOnce_endTag block

/-- The region of an extent with an end tag: its own place, since its copies do not overlap
either. -/
theorem start_eq_of_closed {n : Nat}
    (hn : throughMark? [['<', '/'] ++ p.name, ['>']] (document.drop offset) = some n)
    (hr : r.Locates document ((document.drop offset).take n)) : r.start = offset := by
  have hopens : ∀ v, IsMark [['<', '/'] ++ p.name, ['>']] v → OpensOnce v := by
    intro v hv
    apply hv.opensOnce
    rw [hname]
    cases block <;> decide
  have hhead : ((document.drop offset).take n).head? = some '<' := by
    rw [List.head?_take, if_neg, List.head?_drop, h.opening]
    rintro rfl
    exact hr.ne_nil List.take_zero
  apply hr.start_eq (List.take_prefix n _)
  intro i hi hcopy
  exact (endsOnce_take (by simp) hn).add_length_le hopens hhead hcopy (List.take_prefix n _) hi

/-- **A region begins at the start tag of its block exactly if the text of the block stands
first there.** -/
theorem start_eq_iff (hr : r.Locates document (p.text document)) :
    r.start = offset ↔ p.Faithful document offset := by
  unfold Placed.Faithful
  split
  · rename_i hoccurs
    rw [Placed.text_eq_rendered hoccurs] at hr
    exact h.start_eq_iff_of_rendered hname hr
  · rename_i hnot
    rw [Placed.text_eq_take (by simpa using hnot) h.offset?_eq (Nat.le_of_lt h.offset_lt)] at hr
    cases hmark : throughMark? [['<', '/'] ++ p.name, ['>']] (document.drop offset) with
    | some n =>
      rw [hmark, Option.getD_some] at hr
      exact iff_of_true (h.start_eq_of_closed hname hmark hr) (Or.inl rfl)
    | none =>
      rw [hmark, Option.getD_none, List.take_of_length_le (by rw [List.length_drop])] at hr
      rw [start_eq_iff_of_unclosed hr]
      simp

end Placed.WellRead

/-! ## A script and a copy of it -/

/-- A script whose attribute is in single quotes. -/
def quotedScript (offset : Nat) : Element :=
  ⟨"script".toList, [⟨['a'], ['1']⟩], ['x'], offset, []⟩

/-- One attribute is in normal form. -/
theorem normal_singleton (a : Attribute) : Attribute.normal [a] = [a] := by
  simp [Attribute.normal]

/-- In normal form its attribute is in double quotes. -/
theorem render_quotedScript (offset : Nat) :
    (quotedScript offset).render = "<script a=\"1\">x</script>".toList := by
  have hnormal : Attribute.normal (quotedScript offset).attributes
      = (quotedScript offset).attributes := normal_singleton _
  rw [Element.render, hnormal]
  rfl

/-- The blocks and the layout of a document whose only block is this script. -/
theorem layout_quotedScript {document : Text} {offset : Nat} {r : TaggedRegion}
    (hblank : document.blank = false) (helements : elements document = .ok [quotedScript offset])
    (hr : locateOnce document (((quotedScript offset).placed document).text document) .script 0
      none = .ok r) :
    let blocks : Blocks := ⟨[(quotedScript offset).placed document], none⟩
    findBlocks lenient "html.parser".toList document = .ok blocks ∧
      Layout.resolve document (blocks.located document) none
        = .ok ⟨[r], gaps document.length 0 [r]⟩ := by
  constructor
  · unfold findBlocks lenient
    rw [hblank, helements]
    rfl
  · refine resolve_eq_ok_iff.2 ⟨[r], [], ?_, rfl, ?_, rfl, rfl⟩
    · show locateScripts document none 0 [_] = _
      rw [locateScripts, hr]
      rfl
    · rw [List.append_nil, List.mergeSort_singleton]

/-- The script in a document of its own. -/
def singleQuoted : Text :=
  "a\n<script a='1'>x</script>".toList

/-- The script after a comment that holds its normal form. -/
def commentedCopy : Text :=
  "<!-- <script a=\"1\">x</script> --><script a='1'>x</script>".toList

/-! ## Regions and start tags -/

/-- **The region of a block begins at the block's own start tag, as its line and its column
give it, exactly if the text of the block stands first there.** The elements may come from any
reader that says rightly where the blocks stand and gives them in normal form. Every block has a
region. -/
theorem start_eq_offset_iff_faithful {ε : Type} {reader : TreeReader ε} {features document : Text}
    {blocks : Blocks} {fileName : Option Text} {layout : Layout} {block : Block} {index : Nat}
    {p : Placed} (hreader : reader.Accurate features document)
    (hblocks : findBlocks reader features document = .ok blocks)
    (hlayout : Layout.resolve document (blocks.located document) fileName = .ok layout)
    (hp : block.pick? blocks.scripts blocks.style index = some p) :
    ∃ offset : Nat, p.WellRead document offset ∧ p.offset? document = some (offset : Int) ∧
      (∃ r ∈ layout.tagged, r.block = block ∧ r.index = index) ∧
      ∀ r ∈ layout.tagged, r.block = block → r.index = index →
        (r.start = offset ↔ p.Faithful document offset) := by
  obtain ⟨tags, htags, t, ht, hname, rfl⟩ := exists_tag_of_findBlocks hblocks hp
  obtain ⟨offset, hread⟩ := hreader tags htags t ht block hname
  have htext := block.pick?_map (·.text document) blocks.scripts blocks.style index
  rw [hp, Option.map_some] at htext
  refine ⟨offset, hread, hread.offset?_eq, exists_mem_tagged_of_pick? hlayout htext, ?_⟩
  rintro r hr rfl rfl
  obtain ⟨text, hpick, hlocates⟩ := exists_locates_of_mem_tagged hlayout hr
  cases htext.symm.trans hpick
  exact hread.start_eq_iff hname hlocates

/-- The script by itself, whose text is its extent in the document. -/
theorem start_eq_offset_single_quoted :
    ∃ blocks layout, lenient.Accurate "html.parser".toList singleQuoted ∧
      findBlocks lenient "html.parser".toList singleQuoted = .ok blocks ∧
      Layout.resolve singleQuoted (blocks.located singleQuoted) none = .ok layout ∧
      ∃ p, Block.script.pick? blocks.scripts blocks.style 0 = some p ∧
        ∃ offset : Nat, p.WellRead singleQuoted offset ∧
          p.offset? singleQuoted = some (offset : Int) ∧
          (∃ r ∈ layout.tagged, r.block = .script ∧ r.index = 0) ∧
          ∀ r ∈ layout.tagged, r.block = .script → r.index = 0 →
            (r.start = offset ↔ p.Faithful singleQuoted offset) := by
  have hrun : run false none 0 0 singleQuoted = .ok
      ⟨[(2, .startTag "script".toList [⟨['a'], ['1']⟩] false), (16, .raw ['x']),
        (17, .endTag "script".toList)], none, 26, []⟩ := by
    cbv
  have helements : elements singleQuoted = .ok [quotedScript 2] := by
    rw [elements, tokens, hrun]
    rfl
  have hread : (quotedScript 2).WellRead singleQuoted :=
    wellRead_of_elements helements _ (List.mem_singleton_self _)
  have hnot : Text.occursIn (quotedScript 2).render singleQuoted = false := by
    rw [render_quotedScript]
    decide +kernel
  have htext : ((quotedScript 2).placed singleQuoted).text singleQuoted
      = "<script a='1'>x</script>".toList := by
    rw [Placed.text_eq_take hnot hread.placed.offset?_eq (by decide +kernel)]
    decide +kernel
  obtain ⟨hblocks, hlayout⟩ := layout_quotedScript (r := ⟨⟨2, 26⟩, .script, 0⟩)
    (by decide +kernel) helements (by rw [htext]; rfl)
  have hreader := accurate_lenient "html.parser".toList singleQuoted
  exact ⟨_, _, hreader, hblocks, hlayout, _, rfl,
    start_eq_offset_iff_faithful hreader hblocks hlayout rfl⟩

/-- The copy in the comment is taken for the script, and no ambiguity is reported. -/
theorem start_ne_offset_commented_copy :
    ∃ blocks layout p r, findBlocks lenient "html.parser".toList commentedCopy = .ok blocks ∧
      Layout.resolve commentedCopy (blocks.located commentedCopy) none = .ok layout ∧
      Block.script.pick? blocks.scripts blocks.style 0 = some p ∧
      p.WellRead commentedCopy 33 ∧ p.offset? commentedCopy = some 33 ∧
      r ∈ layout.tagged ∧ r.block = .script ∧ r.index = 0 ∧ r.start = 5 := by
  have hrun : run false none 0 0 commentedCopy = .ok
      ⟨[(33, .startTag "script".toList [⟨['a'], ['1']⟩] false), (47, .raw ['x']),
        (48, .endTag "script".toList)], none, 57, []⟩ := by
    cbv
  have helements : elements commentedCopy = .ok [quotedScript 33] := by
    rw [elements, tokens, hrun]
    rfl
  have hread : (quotedScript 33).WellRead commentedCopy :=
    wellRead_of_elements helements _ (List.mem_singleton_self _)
  have hoccurs : Text.occursIn (quotedScript 33).render commentedCopy = true := by
    rw [render_quotedScript]
    decide +kernel
  have htext : ((quotedScript 33).placed commentedCopy).text commentedCopy
      = "<script a=\"1\">x</script>".toList := by
    rw [Placed.text_eq_rendered hoccurs]
    exact render_quotedScript 33
  obtain ⟨hblocks, hlayout⟩ := layout_quotedScript (r := ⟨⟨5, 29⟩, .script, 0⟩)
    (by decide +kernel) helements (by rw [htext]; rfl)
  exact ⟨_, _, _, _, hblocks, hlayout, rfl, hread.placed, hread.placed.offset?_eq,
    List.mem_singleton_self _, rfl, rfl, rfl⟩

end ComponentDivision.Markup
