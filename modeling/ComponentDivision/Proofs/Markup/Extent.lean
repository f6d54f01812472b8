/-
# The extent of an element

An element whose place in the document is known is given by a text of the document: its
normal form if the document has it, and otherwise what stands from its own start tag on up
to its end tag, or up to the end of the document. So its text is never missing, and no
layout is refused for that reason.

* `IsEndTag`, `EndsAt` : end tags of a name, and where an element ends;
* `Placed.KnowsPlace` : the line and the column of an element are those of an offset;
* `Placed.text_of_knowsPlace` : the text of such an element.
-/
import ComponentDivision.Markup.Locate
import ComponentDivision.Proofs.Markup.Mark
import ComponentDivision.Proofs.Resolution
import ComponentDivision.Proofs.Text.Line

namespace ComponentDivision

/-! ## Lines and columns -/

namespace Text

/-- A character is found where it stands first. -/
theorem find?_append_singleton {s t : Text} {c : Char} (h : c ∉ s) :
    find? [c] (s ++ c :: t) = some s.length := by
  induction s with
  | nil => simp [find?]
  | cons d s ih =>
    rw [List.mem_cons, not_or] at h
    have hd : List.isPrefixOf [c] (d :: (s ++ c :: t)) = false := by
      simp [List.isPrefixOf, h.1]
    rw [List.cons_append, find?, hd, ih h.2]
    rfl

end Text

/-- The line feeds of a text lead to the start of its last line. -/
theorem Markup.throughNewlines?_newlines (s rest : Text) :
    throughNewlines? (Text.newlines s) (s ++ rest) =
      some (s.length - Text.lastLineLength s) := by
  generalize hn : Text.newlines s = n
  induction n generalizing s with
  | zero =>
    rw [throughNewlines?, Text.lastLineLength_of_notMem (List.count_eq_zero.1 hn), Nat.sub_self]
  | succ n ih =>
    have hmem : '\n' ∈ s := List.count_pos_iff.1 (by rw [Text.newlines] at hn; omega)
    obtain ⟨line, more, rfl, hline⟩ := List.eq_append_cons_of_mem hmem
    have hcount : Text.newlines more = n := by
      have hzero : Text.newlines line = 0 := List.count_eq_zero.2 hline
      have hcons : Text.newlines ('\n' :: more) = Text.newlines more + 1 := List.count_cons_self
      rw [Text.newlines_append] at hn
      omega
    have hle := Text.lastLineLength_le more
    rw [throughNewlines?, through?, List.append_assoc, List.cons_append,
      Text.find?_append_singleton hline, Option.map_some]
    dsimp only
    rw [show (line ++ '\n' :: (more ++ rest)).drop (line.length + 1) = more ++ rest by
      rw [← List.drop_drop, List.drop_left]; rfl, ih more hcount, Option.map_some,
      Text.lastLineLength_append_newline, List.length_append, List.length_cons]
    congr 1
    omega

/-! ## Texts that are not missing -/

/-- A text occurs in another one if it is a part of it. -/
theorem Text.occursIn_iff {p t : Text} : Text.occursIn p t = true ↔ p <:+: t := by
  rw [Text.occursIn, Option.isSome_iff_exists]
  constructor
  · rintro ⟨n, hn⟩
    exact (Text.prefix_drop_of_find? hn).isInfix.trans (List.drop_suffix n t).isInfix
  · rintro ⟨s, u, rfl⟩
    have hat : p <+: (s ++ p ++ u).drop s.length := by
      rw [List.append_assoc, List.drop_left]
      exact List.prefix_append p u
    obtain ⟨m, -, hm⟩ := Text.exists_find?_of_prefix_drop hat
    exact ⟨m, hm⟩

section

variable {document text : Text} {located : Located} {fileName : Option Text} {a : Ambiguity}

/-- A part of a text is counted at least once. -/
theorem occurrences_ne_zero (hne : text ≠ []) (h : text <:+: document) :
    document.occurrences text ≠ 0 := by
  obtain ⟨n, hn⟩ := Option.isSome_iff_exists.1 (Text.occursIn_iff.2 h)
  rw [Text.occurrences_eq hne, hn]
  exact Nat.ne_of_gt (Nat.lt_add_right _ Nat.one_pos)

/-- A refused text is reported with the number of its occurrences. -/
theorem occurrences_of_locateOnce {block : Block} {index : Nat} (hne : text ≠ [])
    (h : locateOnce document text block index fileName = .error a) :
    a.occurrences = document.occurrences text := by
  have hempty : text.isEmpty = false := by simpa using hne
  simp only [locateOnce, hempty, Bool.false_eq_true, if_false] at h
  split at h
  · cases h
  · cases h
    rfl

/-- Scripts are refused for one of them. -/
theorem exists_of_locateScripts_error {index : Nat} {texts : List Text}
    (h : locateScripts document fileName index texts = .error a) :
    ∃ text ∈ texts, ∃ k, locateOnce document text .script k fileName = .error a := by
  induction texts generalizing index with
  | nil => cases h
  | cons text texts ih =>
    rw [locateScripts, Except.bind_eq_error_iff] at h
    rcases h with hfirst | ⟨r, -, h⟩
    · exact ⟨text, List.mem_cons_self, index, hfirst⟩
    · rcases Except.bind_eq_error_iff.1 h with hrest | ⟨rs, -, h⟩
      · obtain ⟨text', hmem, herror⟩ := ih hrest
        exact ⟨text', List.mem_cons_of_mem text hmem, herror⟩
      · cases h

/-- **A layout is refused for a missing text only if one of its texts is missing.** -/
theorem occurrences_ne_zero_of_resolve
    (htexts : ∀ text ∈ located.texts, text ≠ [] ∧ text <:+: document)
    (h : Layout.resolve document located fileName = .error a) : a.occurrences ≠ 0 := by
  have hfound {text : Text} {block : Block} {k : Nat} (hmem : text ∈ located.texts)
      (herror : locateOnce document text block k fileName = .error a) : a.occurrences ≠ 0 := by
    obtain ⟨hne, hinfix⟩ := htexts text hmem
    have := occurrences_ne_zero hne hinfix
    rw [occurrences_of_locateOnce hne herror]
    omega
  unfold Layout.resolve at h
  rcases Except.bind_eq_error_iff.1 h with hscripts | ⟨scripts, -, h⟩
  · obtain ⟨text, hmem, k, herror⟩ := exists_of_locateScripts_error hscripts
    exact hfound (List.mem_append_left _ hmem) herror
  rcases Except.bind_eq_error_iff.1 h with hstyle | ⟨styles, -, h⟩
  · cases hgiven : located.style with
    | none =>
      rw [hgiven] at hstyle
      cases hstyle
    | some text =>
      rw [hgiven, locateStyle] at hstyle
      rcases Except.bind_eq_error_iff.1 hstyle with herror | ⟨r, -, h⟩
      · exact hfound (List.mem_append_right _ (by simp [hgiven])) herror
      · cases h
  -- all texts are located, so that two of them overlap
  dsimp only at h
  split at h
  · cases h
    exact Int.one_ne_zero
  · cases h

end

namespace Markup

/-! ## End tags -/

/-- An end tag of this name in any letter case; blanks may stand after the name. -/
def IsEndTag (name tag : Text) : Prop :=
  ∃ written blanks : Text, Alike name written ∧ (∀ b ∈ blanks, isBlank b = true) ∧
    tag = '<' :: '/' :: (written ++ (blanks ++ ['>']))

/-- A mark of one piece is alike the piece. -/
theorem IsMark.alike {piece t : Text} (h : IsMark [piece] t) : Alike piece t := by
  cases h with
  | last hu => exact hu
  | cons _ _ _ hrest => cases hrest

/-- The marks that end an element are its end tags. -/
theorem isMark_iff_isEndTag {name tag : Text} :
    IsMark [['<', '/'] ++ name, ['>']] tag ↔ IsEndTag name tag := by
  constructor
  · intro h
    cases h with
    | cons hopening hblanks _ hclosing =>
      obtain ⟨_, _, hlt, hrest, rfl⟩ := List.forall₂_cons_left_iff.1 hopening
      obtain ⟨_, written, hslash, hname, rfl⟩ := List.forall₂_cons_left_iff.1 hrest
      rw [sameLetter_iff_eq (by decide) (by decide)] at hlt hslash
      subst hlt hslash
      obtain ⟨hgt, hnil⟩ := List.forall₂_cons.1 hclosing.alike
      rw [sameLetter_iff_eq (by decide) (by decide)] at hgt
      obtain rfl := List.forall₂_nil_left_iff.1 hnil
      exact ⟨written, _, hname, hblanks, by rw [hgt]; rfl⟩
  · rintro ⟨written, blanks, hname, hblanks, rfl⟩
    exact .cons (u := '<' :: '/' :: written)
      (.cons (sameLetter_self '<') (.cons (sameLetter_self '/') hname)) hblanks (by decide)
      (.last (alike_refl ['>']))

/-- Where an element of this name that begins at `start` ends: after the first end tag from there
on, or with the document if there is none. -/
inductive EndsAt (document name : Text) (start : Nat) : Nat → Prop
  | closed {i : Nat} {tag : Text} (hi : start ≤ i) (htag : IsEndTag name tag)
      (hat : tag <+: document.drop i)
      (hfirst : ∀ j, start ≤ j → j < i → ∀ u, IsEndTag name u → ¬ u <+: document.drop j) :
      EndsAt document name start (i + tag.length)
  | unclosed (hnone : ∀ j, start ≤ j → ∀ u, IsEndTag name u → ¬ u <+: document.drop j) :
      EndsAt document name start document.length

/-- No mark is found if there is none. -/
theorem markLength?_of_firstMark?_none {pieces : List Text} (hnil : markLength? pieces [] = none)
    {t : Text} (h : firstMark? pieces t = none) (j : Nat) :
    markLength? pieces (t.drop j) = none := by
  induction t generalizing j with
  | nil => rwa [List.drop_nil]
  | cons c cs ih =>
    unfold firstMark? at h
    split at h
    · cases h
    · rename_i hfront
      cases j with
      | zero => exact hfront
      | succ j => exact ih (Option.map_eq_none_iff.1 h) j

/-- **The search for an end tag finds where an element ends.** -/
theorem endsAt_endOffset (document name : Text) (start : Nat) :
    EndsAt document name start (Placed.endOffset document start name) := by
  have hne : ∀ p ∈ [['<', '/'] ++ name, ['>']], p ≠ [] := by simp
  have htags {j : Nat} (hj : start ≤ j)
      (hnone : markLength? [['<', '/'] ++ name, ['>']] ((document.drop start).drop (j - start))
        = none) : ∀ u, IsEndTag name u → ¬ u <+: document.drop j := by
    intro u hu hat
    rw [List.drop_drop, Nat.add_sub_cancel' hj] at hnone
    have hfound := (markLength?_eq_some_iff hne).2 ⟨u, isMark_iff_isEndTag.2 hu, hat, rfl⟩
    cases hnone.symm.trans hfound
  unfold Placed.endOffset throughMark?
  rw [Int.toNat_natCast]
  cases hfirst : firstMark? [['<', '/'] ++ name, ['>']] (document.drop start) with
  | none =>
    exact .unclosed fun j hj => htags hj (markLength?_of_firstMark?_none rfl hfirst (j - start))
  | some found =>
    obtain ⟨i, n⟩ := found
    obtain ⟨hmark, hbefore⟩ := firstMark?_eq_some hfirst
    obtain ⟨tag, htag, hat, rfl⟩ := (markLength?_eq_some_iff hne).1 hmark
    rw [List.drop_drop] at hat
    show EndsAt document name start (start + (i + tag.length))
    rw [← Nat.add_assoc]
    exact .closed (Nat.le_add_right _ _) (isMark_iff_isEndTag.1 htag) hat fun j hj hlt =>
      htags hj (hbefore (j - start) (by omega))

/-- An element ends after it begins, and not after the document. -/
theorem EndsAt.bounds {document name : Text} {start stop : Nat}
    (h : EndsAt document name start stop) (hstart : start < document.length) :
    start < stop ∧ stop ≤ document.length := by
  cases h with
  | @closed i tag hi htag hat _ =>
    obtain ⟨written, blanks, -, -, rfl⟩ := htag
    have hlen := hat.length_le
    rw [List.length_drop] at hlen
    simp only [List.length_cons] at hlen ⊢
    omega
  | unclosed => exact ⟨hstart, Nat.le_refl _⟩

/-! ## Elements that know their place -/

namespace Placed

/-- The line and the column of the element are those of an offset of the document, and its normal
form is not empty. -/
structure KnowsPlace (document : Text) (p : Placed) (offset : Nat) : Prop where
  offset_lt : offset < document.length
  place : ∃ line column : Nat, document.IsAt offset line column ∧ p.line = some (line : Int) ∧
    p.column = some (column : Int)
  rendered_ne_nil : p.rendered ≠ []

variable {document : Text} {p : Placed} {offset : Nat}

/-- The text of an element whose normal form is in the document. -/
theorem text_eq_rendered
    (h : Text.occursIn p.rendered document = true) : p.text document = p.rendered := by
  rw [Placed.text, Placed.extent?, if_pos h]

/-- The text of an element whose normal form is not in the document: it goes on to its end tag,
or to the end of the document. -/
theorem text_eq_take
    (hnot : Text.occursIn p.rendered document = false)
    (hoffset : p.offset? document = some (offset : Int)) (hle : offset ≤ document.length) :
    p.text document = (document.drop offset).take
      ((throughMark? [['<', '/'] ++ p.name, ['>']] (document.drop offset)).getD
        (document.length - offset)) := by
  have hextent : p.extent? document = some (offset : Int) := by
    rw [Placed.extent?, hnot, hoffset]
    rfl
  have hend : endOffset document offset p.name = offset +
      (throughMark? [['<', '/'] ++ p.name, ['>']] (document.drop offset)).getD
        (document.length - offset) := by
    unfold endOffset
    rw [Int.toNat_natCast]
    cases throughMark? [['<', '/'] ++ p.name, ['>']] (document.drop offset) with
    | some n => rfl
    | none =>
      show document.length = offset + (document.length - offset)
      omega
  rw [← Text.slice_natCast_add _ hle, Placed.text, hextent, ← hend]

/-- The line and the column lead back to the offset. -/
theorem KnowsPlace.offset?_eq (h : p.KnowsPlace document offset) :
    p.offset? document = some (offset : Int) := by
  obtain ⟨line, column, ⟨before, content, after, hline, rfl, -, rfl⟩, hl, hc⟩ := h.place
  have hthrough := throughNewlines?_newlines before (content ++ after)
  have hlast := Text.lastLineLength_append hline.begins List.not_mem_nil
  rw [List.append_nil] at hlast
  rw [hlast, List.length_nil, Nat.sub_zero, ← hline.text_eq] at hthrough
  simp only [offset?, hl, hc]
  rw [show (((Text.newlines before + 1 : Nat) : Int) - 1).toNat = Text.newlines before by omega,
    hthrough]
  simp

/-- The text of an element whose normal form is not in the document. -/
theorem KnowsPlace.text_of_not_infix (h : p.KnowsPlace document offset)
    (hnot : ¬ p.rendered <:+: document) :
    p.text document = document.slice offset (endOffset document offset p.name) := by
  rw [← Text.occursIn_iff] at hnot
  rw [text, extent?, if_neg hnot, h.offset?_eq]

/-- **The text of an element that knows its place is a part of the document.** -/
theorem KnowsPlace.text_infix (h : p.KnowsPlace document offset) :
    p.text document ≠ [] ∧ p.text document <:+: document := by
  by_cases hinfix : p.rendered <:+: document
  · rw [text_eq_rendered (Text.occursIn_iff.2 hinfix)]
    exact ⟨h.rendered_ne_nil, hinfix⟩
  · obtain ⟨hlt, hle⟩ := (endsAt_endOffset document p.name offset).bounds h.offset_lt
    have hslice := Text.slice_eq (t := document) (i := offset)
      (j := endOffset document offset p.name) (by omega) (by omega) (by omega)
    rw [h.text_of_not_infix hinfix, hslice]
    constructor
    · apply List.ne_nil_of_length_pos
      rw [List.length_drop, List.length_take]
      omega
    · exact (List.drop_suffix _ _).isInfix.trans (List.take_prefix _ _).isInfix

/-- **The text of an element that knows its place.** The place leads back to the element's offset;
the text is the normal form if the document has it, and what stands from the offset on up to the
end of the element otherwise. It is a part of the document that is not empty, so that it is never
reported as missing, and a layout of such elements is never refused for a missing text. -/
theorem text_of_knowsPlace (h : p.KnowsPlace document offset) :
    p.offset? document = some (offset : Int) ∧
    (p.rendered <:+: document → p.text document = p.rendered) ∧
    (¬ p.rendered <:+: document → ∃ stop, EndsAt document p.name offset stop ∧
      p.text document = document.slice offset stop) ∧
    p.text document ≠ [] ∧ p.text document <:+: document ∧
    (∀ block index fileName a,
      locateOnce document (p.text document) block index fileName = .error a →
        a.occurrences ≠ 0) ∧
    ∀ (blocks : Blocks) (fileName : Option Text) (a : Ambiguity),
      (∀ q ∈ blocks.scripts ++ blocks.style.toList, ∃ i, q.KnowsPlace document i) →
      Layout.resolve document (blocks.located document) fileName = .error a →
        a.occurrences ≠ 0 := by
  obtain ⟨hne, hinfix⟩ := h.text_infix
  refine ⟨h.offset?_eq, fun hin => text_eq_rendered (Text.occursIn_iff.2 hin),
    fun hnot => ⟨_, endsAt_endOffset document p.name offset, h.text_of_not_infix hnot⟩,
    hne, hinfix, fun block index fileName a herror => ?_,
    fun blocks fileName a hblocks herror => ?_⟩
  · have := occurrences_ne_zero hne hinfix
    rw [occurrences_of_locateOnce hne herror]
    omega
  · refine occurrences_ne_zero_of_resolve (fun text htext => ?_) herror
    have htexts : (blocks.located document).texts
        = (blocks.scripts ++ blocks.style.toList).map (·.text document) := by
      rw [Located.texts, Blocks.located, List.map_append, Option.toList_map]
    rw [htexts] at htext
    obtain ⟨q, hq, rfl⟩ := List.mem_map.1 htext
    obtain ⟨i, hi⟩ := hblocks q hq
    exact hi.text_infix

/-- A script on the second line, whose attribute is in single quotes and whose end tag is in
capitals with a blank in it. -/
def capitalEnd : Text :=
  "a\n<script a='1'>x</SCRIPT >b".toList

/-- Its text goes on to that end tag. -/
theorem text_of_knowsPlace_capitals :
    ∃ p : Placed, p.KnowsPlace capitalEnd 2 ∧ p.offset? capitalEnd = some 2 ∧
      (∃ stop, EndsAt capitalEnd p.name 2 stop ∧
        p.text capitalEnd = capitalEnd.slice 2 stop) ∧
      p.text capitalEnd = "<script a='1'>x</SCRIPT >".toList ∧
      p.text capitalEnd <:+: capitalEnd := by
  let p : Placed := ⟨"script".toList, "<script a=\"1\">x</script>".toList, some 2, some 0⟩
  have hplace : p.KnowsPlace capitalEnd 2 :=
    ⟨by decide, ⟨2, 0, Text.isAt_iff.2 (by decide), rfl, rfl⟩, by decide⟩
  have hnot : ¬ p.rendered <:+: capitalEnd := by
    rw [← Text.occursIn_iff]
    decide +kernel
  obtain ⟨hoffset, -, hextent, -, hinfix, -⟩ := text_of_knowsPlace hplace
  exact ⟨p, hplace, hoffset, hextent hnot, by decide +kernel, hinfix⟩

end Placed

end Markup

end ComponentDivision
