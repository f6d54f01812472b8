/-
# The blocks of the built-in reader

What the built-in reader knows of a script or a style block. Its two runs are one
reading of the document, in which a token stands where it was read; raw text goes on
up to the first end tag of its element, so that the end tag in normal form does not
occur in it. So the reader says rightly where blocks stand, and gives them in normal
form.

* `Reads` : the readings of a document;
* `reads_of_tokens` : the tokens of a text are a reading of it;
* `Reads.rawContent` : raw text has no end tag of its element;
* `wellRead_of_elements` : what holds of every block that is read;
* `accurate_lenient` : the reader is accurate.
-/
import ComponentDivision.Markup.Lenient
import ComponentDivision.Proofs.Markup.Ending

namespace ComponentDivision.Markup

/-! ## End tags -/

/-- The elements with raw text are scripts and styles. -/
theorem holdsRawText_iff {name : Text} :
    holdsRawText name = true ↔ name = "script".toList ∨ name = "style".toList := by
  unfold holdsRawText
  rw [Bool.or_eq_true, beq_iff_eq, beq_iff_eq]

/-- The end tag in normal form is one of the marks that can end raw text. -/
theorem isMark_endTag {name : Text} (h : holdsRawText name = true) :
    IsMark [['<', '/'], name, ['>']] (endTag name) := by
  have hlast : IsMark [['>']] ['>'] := .last (alike_refl _)
  have hname : IsMark [name, ['>']] (name ++ ([] ++ ['>'])) :=
    .cons (alike_refl name) nofun (by decide) hlast
  show IsMark _ (['<', '/'] ++ ([] ++ (name ++ ['>'])))
  rcases holdsRawText_iff.1 h with rfl | rfl
  · exact .cons (alike_refl _) nofun (by decide) hname
  · exact .cons (alike_refl _) nofun (by decide) hname

/-- The end tag in normal form has the name of its element. -/
theorem endTagName?_append {name : Text} (h : holdsRawText name = true) (rest : Text) :
    endTagName? (name ++ '>' :: rest) = some name := by
  rcases holdsRawText_iff.1 h with rfl | rfl <;> rfl

/-! ## Steps -/

/-- In raw text the reader halts where it is, or it takes the end tag of the element, or raw
text in which no end tag begins. -/
theorem rawStep_cases {name t : Text} (h : holdsRawText name = true) :
    rawStep name t = .halt 0 ∨ (∃ length, rawStep name t = .take (some (.endTag name)) length) ∨
      ∃ length, rawStep name t = .take (some (.raw (t.take length))) length ∧ 0 < length ∧
        length ≤ t.length ∧ ∀ j < length, ¬ endTag name <+: t.drop j := by
  have hne : ∀ p ∈ [['<', '/'], name, ['>']], p ≠ [] := by
    rcases holdsRawText_iff.1 h with rfl | rfl <;> decide
  have hlt : '<' ∉ ['/'] ++ [name, ['>']].flatten := by
    rcases holdsRawText_iff.1 h with rfl | rfl <;> decide
  unfold rawStep
  split
  · exact Or.inl rfl
  · rename_i n hfirst
    obtain ⟨u, hu, hfront, rfl⟩ :=
      (markLength?_eq_some_iff hne).1 (firstMark?_eq_some hfirst).1
    rw [List.drop_zero] at hfront
    right
    split
    · exact Or.inl ⟨u.length, rfl⟩
    · rename_i hother
      refine Or.inr ⟨u.length, rfl, List.length_pos_iff.2 (hu.ne_nil (by simp) hne),
        hfront.length_le, fun j hj hend => hother ?_⟩
      -- an end tag in this mark stands at its front, and then the mark has the right name
      obtain rfl := (hu.opensOnce hlt).eq_zero hfront hj hend
      obtain ⟨rest, rfl⟩ := hend
      rw [beq_iff_eq]
      show endTagName? (name ++ ['>'] ++ rest) = some name
      rw [List.append_assoc]
      exact endTagName?_append h rest
  · rename_i length n hzero hfirst
    obtain ⟨hmark, hbefore⟩ := firstMark?_eq_some hfirst
    obtain ⟨u, hu, hfront, -⟩ := (markLength?_eq_some_iff hne).1 hmark
    have hpos := List.length_pos_iff.2 (hu.ne_nil (by simp) hne)
    have hle := hfront.length_le
    rw [List.length_drop] at hle
    refine Or.inr (Or.inr ⟨length, rfl, ?_, by omega, fun j hj hend => ?_⟩)
    · exact Nat.pos_of_ne_zero hzero
    · have hfound := (markLength?_eq_some_iff hne).2 ⟨_, isMark_endTag h, hend, rfl⟩
      rw [hbefore j hj] at hfound
      cases hfound

/-- Raw text is never passed over. -/
theorem mode_eq_none_of_take_none {last : Bool} {mode : Option Text} {t : Text} {length : Nat}
    (h : step last mode t = .take none length) : mode = none := by
  cases mode with
  | none => rfl
  | some name =>
    rw [step, rawStep] at h
    split at h <;> cases h

/-- Where raw text is not complete, nothing of it is read. -/
theorem eq_zero_of_halt {last : Bool} {name t : Text} {length : Nat}
    (h : step last (some name) t = .halt length) : length = 0 := by
  rw [step, rawStep] at h
  split at h <;> cases h
  rfl

/-! ## Start tags -/

/-- The name of an attribute has no closing bracket. -/
theorem gt_notMem_of_attribute? {separated : Bool} {t : Text} {r : AttributeRead}
    (h : attribute? separated t = some r) : '>' ∉ r.attr.name := by
  unfold attribute? at h
  split at h
  · cases h
  · rename_i c cs
    split at h
    · cases h
    · rename_i hc
      cases h
      intro hmem
      have hname := mem_of_mem_lowercase (by decide) (by decide) hmem
      rcases List.mem_cons.1 hname with rfl | hname
      · simp at hc
      · exact absurd (List.all_eq_true.1 List.all_takeWhile _ hname) (by decide)

/-- None of the attributes at the front has a closing bracket in its name. -/
theorem gt_notMem_of_attributes (separated : Bool) (t : Text) :
    ∀ a ∈ (attributes separated t).1, '>' ∉ a.name := by
  fun_induction attributes separated t with
  | case1 => nofun
  | case2 separated t r hr more length hmore ih =>
    intro a ha
    rcases List.mem_cons.1 ha with rfl | ha
    · exact gt_notMem_of_attribute? hr
    · exact ih a (by rw [hmore]; exact ha)

/-- No attribute of a start tag has a closing bracket in its name. -/
theorem gt_notMem_of_read {t name : Text} {attributes : List Attribute} {selfClosed : Bool}
    {length : Nat} (h : StartTag.read t = .tag name attributes selfClosed length) :
    ∀ a ∈ attributes, '>' ∉ a.name := by
  unfold StartTag.read at h
  dsimp only at h
  split at h
  · cases h
  · cases h
    exact gt_notMem_of_attributes _ _
  · cases h
    exact gt_notMem_of_attributes _ _
  · split at h <;> cases h

/-- The references in the values do not matter for the names. -/
theorem map_name_of_unescapeAll {as bs : List Attribute} (h : unescapeAll as = .ok bs) :
    bs.map (·.name) = as.map (·.name) := by
  induction as generalizing bs with
  | nil =>
    cases h
    rfl
  | cons a as ih =>
    obtain ⟨value, -, h⟩ := Except.bind_eq_ok_iff.1 h
    obtain ⟨more, hmore, h⟩ := Except.bind_eq_ok_iff.1 h
    cases h
    rw [List.map_cons, List.map_cons, ih hmore]

/-- Whether a step takes a start tag. -/
def Step.takesStartTag : Step → Bool
  | .take (some (.startTag _ _ _)) _ => true
  | _ => false

/-- What is not complete is no start tag. -/
theorem takesStartTag_incomplete (last : Bool) (t : Text) :
    (incomplete last t).takesStartTag = false := by
  cases last <;> rfl

/-- What is passed over is no start tag. -/
theorem takesStartTag_passOver (last : Bool) (t : Text) (length? : Option Nat) :
    (passOver last t length?).takesStartTag = false := by
  cases length? with
  | none => exact takesStartTag_incomplete last t
  | some length => rfl

theorem takesStartTag_passRead {α : Type} (length : Nat) (r : Except LongNumber α) :
    (passRead length r).takesStartTag = false := by
  cases r <;> rfl

/-- An end tag is no start tag. -/
theorem takesStartTag_endTagStep (last : Bool) (t : Text) :
    (endTagStep last t).takesStartTag = false := by
  unfold endTagStep
  split
  · exact takesStartTag_incomplete last t
  · dsimp only
    split
    · rfl
    · split <;> rfl
    · exact takesStartTag_incomplete last t

/-- A section is no start tag. -/
theorem takesStartTag_sectionStep (last : Bool) (t : Text) :
    (sectionStep last t).takesStartTag = false := by
  unfold sectionStep
  dsimp only
  split
  · exact takesStartTag_incomplete last t
  · split_ifs
    · rfl
    · exact takesStartTag_incomplete last t
    · exact takesStartTag_passOver last t _
    · exact takesStartTag_passOver last t _
    · rfl

/-- A reference is no start tag. -/
theorem takesStartTag_referenceStep (t : Text) : (referenceStep t).takesStartTag = false := by
  unfold referenceStep
  split
  · rfl
  · dsimp only
    split
    · rfl
    · rw [apply_ite Step.takesStartTag, takesStartTag_passRead]
      exact ite_self false
  · split
    · rfl
    · dsimp only
      split <;> rfl

/-- Raw text is no start tag. -/
theorem takesStartTag_rawStep (name t : Text) : (rawStep name t).takesStartTag = false := by
  unfold rawStep
  split
  · rfl
  · split <;> rfl
  · rfl

/-- A start tag is read at an opening bracket. -/
theorem step_of_takesStartTag {last : Bool} {mode : Option Text} {t : Text}
    (h : (step last mode t).takesStartTag = true) :
    t.head? = some '<' ∧ step last mode t = startTagStep last t := by
  unfold step at h ⊢
  split at h
  · rw [takesStartTag_rawStep] at h
    cases h
  · rename_i hhead
    refine ⟨hhead, ?_⟩
    unfold bracketStep at h ⊢
    split at h
    · cases h
    · rw [takesStartTag_endTagStep] at h
      cases h
    · rw [takesStartTag_passOver] at h
      cases h
    · rw [takesStartTag_passOver] at h
      cases h
    · rw [takesStartTag_sectionStep] at h
      cases h
    · rw [takesStartTag_passOver] at h
      cases h
    · split at h
      · rename_i halpha
        rw [if_pos halpha]
      · cases h
  · rw [takesStartTag_referenceStep] at h
    cases h
  · cases h

/-- A start tag stands at an opening bracket, and its attributes have names without closing
brackets. -/
theorem step_eq_startTag {last : Bool} {mode : Option Text} {t name : Text}
    {attributes : List Attribute} {selfClosed : Bool} {length : Nat}
    (h : step last mode t = .take (some (.startTag name attributes selfClosed)) length) :
    t.head? = some '<' ∧ ∀ a ∈ attributes, '>' ∉ a.name := by
  obtain ⟨hhead, hstep⟩ := step_of_takesStartTag (by rw [h]; rfl : (step last mode t).takesStartTag)
  refine ⟨hhead, ?_⟩
  rw [hstep, startTagStep] at h
  split at h
  · rename_i attrs _ _ hread
    split at h
    · rename_i hattributes
      cases h
      intro a ha hgt
      have hname := List.mem_map_of_mem (f := Attribute.name) ha
      rw [map_name_of_unescapeAll hattributes] at hname
      obtain ⟨b, hb, heq⟩ := List.mem_map.1 hname
      exact gt_notMem_of_read hread b hb (heq ▸ hgt)
    · cases h
  · unfold passRead at h
    split at h <;> cases h
  · rw [incomplete] at h
    split at h <;> cases h

/-! ## Readings -/

/-- A reading of a document from an offset on, in a mode: tokens where they stand, with other
things passed over between them unless raw text is read. -/
inductive Reads (document : Text) : Option Text → Nat → List (Nat × Token) → Prop where
  | stop {mode : Option Text} {offset : Nat} : Reads document mode offset []
  | pass {offset : Nat} (length : Nat) {tokens : List (Nat × Token)} :
      Reads document none (offset + length) tokens → Reads document none offset tokens
  | token {last : Bool} {mode : Option Text} {offset length : Nat} {token : Token}
      {tokens : List (Nat × Token)} :
      step last mode (document.drop offset) = .take (some token) length →
      Reads document (modeAfter mode (some token)) (offset + 1 + (length - 1)) tokens →
      Reads document mode offset ((offset, token) :: tokens)

/-- What a run has left is what stands from its offset on. -/
theorem drop_offset_of_run {document : Text} {last : Bool} {mode : Option Text}
    {skip offset : Nat} {t : Text} {r : Run} (h : run last mode skip offset t = .ok r)
    (ht : document.drop offset = t) : document.drop r.offset = r.rest := by
  fun_induction run last mode skip offset t generalizing r with
  | case1 =>
    cases h
    exact ht
  | case2 mode skip offset c cs ih => exact ih h (by rw [← List.tail_drop, ht, List.tail_cons])
  | case3 mode offset c cs token length hstep ih =>
    obtain ⟨r, hrun, rfl⟩ := Except.map_eq_ok_iff.1 h
    have hr := ih hrun (by rw [← List.tail_drop, ht, List.tail_cons])
    cases token <;> exact hr
  | case4 =>
    cases h
    rw [← List.drop_drop, ht]
  | case5 => cases h

/-- A run goes before any reading of what it has left. -/
theorem reads_of_run {document : Text} {last : Bool} {mode : Option Text} {skip offset : Nat}
    {t : Text} {r : Run} {tokens : List (Nat × Token)}
    (h : run last mode skip offset t = .ok r) (ht : document.drop offset = t)
    (hrest : r.rest = [] → tokens = []) (hr : Reads document r.mode r.offset tokens) :
    Reads document mode (offset + skip) (r.tokens ++ tokens) := by
  fun_induction run last mode skip offset t generalizing r with
  | case1 mode skip offset =>
    cases h
    rw [hrest rfl]
    exact .stop
  | case2 mode skip offset c cs ih =>
    have htail : document.drop (offset + 1) = cs := by rw [← List.tail_drop, ht, List.tail_cons]
    rw [show offset + (skip + 1) = offset + 1 + skip by omega]
    exact ih h htail hrest hr
  | case3 mode offset c cs token length hstep ih =>
    have htail : document.drop (offset + 1) = cs := by rw [← List.tail_drop, ht, List.tail_cons]
    obtain ⟨r, hrun, rfl⟩ := Except.map_eq_ok_iff.1 h
    cases token with
    | none =>
      obtain rfl := mode_eq_none_of_take_none hstep
      have hmore := ih hrun htail hrest hr
      rw [Nat.add_assoc] at hmore
      exact .pass _ hmore
    | some token =>
      rw [← ht] at hstep
      exact .token hstep (ih hrun htail hrest hr)
  | case4 mode offset c cs length hstep =>
    cases h
    cases mode with
    | none => exact .pass length hr
    | some name =>
      -- raw text that is not complete is left to the next run as a whole
      obtain rfl := eq_zero_of_halt hstep
      exact hr
  | case5 => cases h

/-- **The tokens of a text are one reading of it.** -/
theorem reads_of_tokens {document : Text} {ts : List (Nat × Token)}
    (h : tokens document = .ok ts) : Reads document none 0 ts := by
  unfold tokens at h
  obtain ⟨first, hfirst, h⟩ := Except.bind_eq_ok_iff.1 h
  obtain ⟨second, hsecond, h⟩ := Except.bind_eq_ok_iff.1 h
  cases h
  apply reads_of_run hfirst rfl
  · intro hrest
    rw [hrest] at hsecond
    cases hsecond
    rfl
  · have hmore := reads_of_run hsecond (drop_offset_of_run hfirst rfl) (fun _ => rfl) .stop
    rwa [List.append_nil] at hmore

/-- Raw text stands where it is read, and no end tag of its element begins in it. -/
theorem Reads.rawContent {document name : Text} {offset : Nat} {tokens : List (Nat × Token)}
    (hname : holdsRawText name = true) (h : Reads document (some name) offset tokens) :
    rawContent tokens <+: document.drop offset ∧
      ∀ j < (rawContent tokens).length, ¬ endTag name <+: document.drop (offset + j) := by
  generalize hmode : some name = mode at h
  induction h with
  | stop => exact ⟨List.nil_prefix, nofun⟩
  | pass => cases hmode
  | @token last mode offset length token tokens hstep hrest ih =>
    subst hmode
    rw [step] at hstep
    rcases rawStep_cases (t := document.drop offset) hname with
      hhalt | ⟨n, hend⟩ | ⟨n, hraw, hpos, hle, hnone⟩
    · rw [hhalt] at hstep
      cases hstep
    · rw [hend] at hstep
      cases hstep
      exact ⟨List.nil_prefix, nofun⟩
    · rw [hraw] at hstep
      cases hstep
      obtain ⟨⟨rest, hfront⟩, hafter⟩ := ih rfl
      rw [show offset + 1 + (length - 1) = offset + length by omega] at hfront hafter
      show List.take length _ ++ _ <+: _ ∧ ∀ j < (List.take length _ ++ _).length, _
      refine ⟨⟨rest, ?_⟩, fun j hj => ?_⟩
      · rw [List.append_assoc, hfront, ← List.drop_drop, List.take_append_drop]
      · rw [List.length_append, List.length_take, Nat.min_eq_left hle] at hj
        by_cases hinside : j < length
        · rw [← List.drop_drop]
          exact hnone j hinside
        · have hlater := hafter (j - length) (by omega)
          rwa [show offset + length + (j - length) = offset + j by omega] at hlater

/-! ## Blocks -/

/-- What the reader knows of a block: where its start tag stands, and which brackets are not in
its attributes and in its content. -/
structure Element.WellRead (document : Text) (e : Element) : Prop where
  raw : holdsRawText e.name = true
  opening : (document.drop e.offset).head? = some '<'
  names : ∀ a ∈ e.attributes, '>' ∉ a.name
  content : ¬ endTag e.name <:+: e.content

/-- The end tag of an element does not occur in its raw text. -/
theorem Reads.not_infix_rawContent {document name : Text} {offset : Nat}
    {tokens : List (Nat × Token)} (hname : holdsRawText name = true)
    (h : Reads document (some name) offset tokens) :
    ¬ endTag name <:+: Markup.rawContent tokens := by
  rintro ⟨before, after, heq⟩
  obtain ⟨⟨rest, hfront⟩, hnone⟩ := h.rawContent hname
  rw [← heq] at hfront hnone
  refine hnone before.length ?_ ⟨after ++ rest, ?_⟩
  · simp only [List.length_append, endTag, List.length_cons]
    omega
  · rw [← List.drop_drop, ← hfront, List.append_assoc, List.append_assoc, List.drop_left]

/-- The blocks of a reading are well read. -/
theorem wellRead_of_mem_elementsFrom {document : Text} {mode : Option Text} {offset : Nat}
    {tokens : List (Nat × Token)} (h : Reads document mode offset tokens) {o : OpenElements}
    {e : Element} (he : e ∈ elementsFrom o tokens) : e.WellRead document := by
  induction h generalizing o with
  | stop => cases he
  | pass _ _ ih => exact ih he
  | @token last mode offset length token tokens hstep hrest ih =>
    cases token with
    | endTag name => exact ih he
    | raw content => exact ih he
    | startTag name attributes selfClosed =>
      rw [elementsFrom] at he
      split at he
      · rename_i hname
        rcases List.mem_cons.1 he with rfl | he
        · obtain ⟨hopening, hnames⟩ := step_eq_startTag hstep
          refine ⟨hname, hopening, hnames, ?_⟩
          cases selfClosed with
          | true =>
            intro hwithin
            exact absurd (List.eq_nil_of_infix_nil hwithin) (by simp [endTag])
          | false =>
            have hmode : modeAfter mode (some (.startTag name attributes false)) = some name := by
              simp [modeAfter, hname]
            rw [hmode] at hrest
            exact hrest.not_infix_rawContent hname
        · exact ih he
      · exact ih he

/-- **Every block that is read is well read.** -/
theorem wellRead_of_elements {document : Text} {es : List Element}
    (h : elements document = .ok es) : ∀ e ∈ es, e.WellRead document := by
  obtain ⟨tokens, htokens, rfl⟩ := Except.map_eq_ok_iff.1 h
  exact fun e he => wellRead_of_mem_elementsFrom (reads_of_tokens htokens) he

/-! ## Normal forms -/

/-- The attributes in normal form are some of the attributes. -/
theorem Attribute.mem_of_mem_normal {as : List Attribute} {a : Attribute}
    (h : a ∈ Attribute.normal as) : a ∈ as := by
  have hkept : ∀ (bs kept : List Attribute),
      a ∈ bs.foldl (fun kept b => if kept.any (·.name == b.name) then kept else b :: kept) kept →
        a ∈ bs ∨ a ∈ kept := by
    intro bs
    induction bs with
    | nil => exact fun kept ha => Or.inr ha
    | cons b bs ih =>
      intro kept ha
      rcases ih _ ha with ha | ha
      · exact Or.inl (List.mem_cons_of_mem b ha)
      · dsimp only at ha
        split at ha
        · exact Or.inr ha
        · rcases List.mem_cons.1 ha with rfl | ha
          · exact Or.inl List.mem_cons_self
          · exact Or.inr ha
  unfold Attribute.normal at h
  rw [List.mem_mergeSort] at h
  rcases hkept _ _ h with h | h
  · exact List.mem_reverse.1 h
  · cases h

/-- A value has no closing bracket once it is escaped. -/
theorem gt_notMem_escape (t : Text) : '>' ∉ escape t := by
  intro h
  obtain ⟨c, -, hc⟩ := List.mem_flatMap.1 h
  split at hc
  · exact absurd hc (by decide)
  · exact absurd hc (by decide)
  · exact absurd hc (by decide)
  · rename_i hgt
    exact hgt (List.mem_singleton.1 hc).symm

/-- A value in quotes ends in a quote, and the quotes bring in no closing bracket. -/
theorem quote_eq (t : Text) (h : '>' ∉ t) :
    ∃ u q, quote t = u ++ [q] ∧ (q = '"' ∨ q = '\'') ∧ '>' ∉ u := by
  unfold quote
  split
  · split
    · refine ⟨_, '"', rfl, .inl rfl, ?_⟩
      intro hmem
      rcases List.mem_cons.1 hmem with hmem | hmem
      · cases hmem
      · obtain ⟨c, hc, hmem⟩ := List.mem_flatMap.1 hmem
        split at hmem
        · exact absurd hmem (by decide)
        · exact h (List.mem_singleton.1 hmem ▸ hc)
    · exact ⟨_, '\'', rfl, .inr rfl, by simpa using h⟩
  · exact ⟨_, '"', rfl, .inl rfl, by simpa using h⟩

/-- An attribute in a tag ends in a quote and has no closing bracket. -/
theorem Attribute.render_eq {a : Attribute} (h : '>' ∉ a.name) :
    ∃ u q, a.render = u ++ [q] ∧ (q = '"' ∨ q = '\'') ∧ '>' ∉ u := by
  obtain ⟨u, q, hquote, hq, hu⟩ := quote_eq _
    (gt_notMem_escape (if wordLists.contains a.name then joinWords a.value else a.value))
  refine ⟨' ' :: a.name ++ '=' :: u, q, ?_, hq, ?_⟩
  · unfold Attribute.render
    dsimp only
    rw [hquote, ← List.cons_append, ← List.append_assoc]
  · simp [h, hu]

/-- The attributes in a tag have no closing bracket, and the last of them ends in a quote. -/
theorem flatMap_render_eq {as : List Attribute} (h : ∀ a ∈ as, '>' ∉ a.name) :
    '>' ∉ as.flatMap Attribute.render ∧
      ∀ q ∈ (as.flatMap Attribute.render).getLast?, q = '"' ∨ q = '\'' := by
  constructor
  · intro hmem
    obtain ⟨a, ha, hmem⟩ := List.mem_flatMap.1 hmem
    obtain ⟨u, q, hrender, hq, hu⟩ := Attribute.render_eq (h a ha)
    rw [hrender, List.mem_append, List.mem_singleton] at hmem
    rcases hmem with hmem | rfl
    · exact hu hmem
    · rcases hq with hq | hq <;> cases hq
  · rcases List.eq_nil_or_concat' as with rfl | ⟨bs, a, rfl⟩
    · intro q hlast
      cases hlast
    · obtain ⟨u, q, hrender, hq, -⟩ := Attribute.render_eq (h a (by simp))
      rw [List.flatMap_append, List.flatMap_singleton, hrender, ← List.append_assoc,
        List.getLast?_concat]
      rintro _ ⟨⟩
      exact hq

/-- Raw text of white space is written without an end tag as well. -/
theorem not_infix_collapse {name content : Text} (h : ¬ endTag name <:+: content) :
    ¬ endTag name <:+: collapse content := by
  have hblank : ∀ t : Text, '<' ∉ t → ¬ endTag name <:+: t :=
    fun t ht hwithin => ht (hwithin.subset List.mem_cons_self)
  unfold collapse
  split_ifs
  · exact hblank _ (by decide)
  · exact hblank _ (by decide)
  · exact hblank _ (by decide)
  · exact h

/-- **The blocks are given in normal form.** -/
theorem Element.WellRead.isNormalForm {document : Text} {e : Element} (h : e.WellRead document) :
    IsNormalForm e.name e.render := by
  obtain ⟨hgt, hquoted⟩ := flatMap_render_eq fun a ha => h.names a (Attribute.mem_of_mem_normal ha)
  have hcontent :
      ¬ endTag e.name <:+: if e.keepsBlanks then e.content else collapse e.content := by
    split
    · exact h.content
    · exact not_infix_collapse h.content
  have hform := IsNormalForm.intro hgt hquoted hcontent
  unfold Element.render
  simpa [endTag] using hform

/-! ## Places -/

/-- A start tag stands in the document. -/
theorem Element.WellRead.offset_lt {document : Text} {e : Element} (h : e.WellRead document) :
    e.offset < document.length := by
  by_contra hge
  have hopening := h.opening
  rw [List.drop_eq_nil_of_le (by omega)] at hopening
  cases hopening

/-- A block that is read knows its place. -/
theorem Element.WellRead.placed {document : Text} {e : Element} (h : e.WellRead document) :
    (e.placed document).WellRead document e.offset where
  offset_lt := h.offset_lt
  place := by
    obtain ⟨line, column, hat⟩ := Text.exists_isAt (Nat.le_of_lt h.offset_lt)
    obtain ⟨-, hline, hcolumn⟩ := Text.isAt_iff.1 hat
    refine ⟨line, column, hat, congrArg (some ∘ Int.ofNat) hline.symm, congrArg some ?_⟩
    omega
  rendered_ne_nil := List.cons_ne_nil _ _
  opening := List.head?_drop ▸ h.opening
  normal := h.isNormalForm

/-- **The built-in reader is accurate.** -/
theorem accurate_lenient (features document : Text) : lenient.Accurate features document := by
  intro tags htags t ht block _
  unfold lenient at htags
  split at htags
  · cases htags
  · split at htags
    · cases htags
    · rename_i es hes
      cases htags
      obtain ⟨e, he, rfl⟩ := List.mem_map.1 ht
      exact ⟨e.offset, (wellRead_of_elements hes e he).placed⟩

end ComponentDivision.Markup
