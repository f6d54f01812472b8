/-
# What one item does

Everything that one item of a template can do to the open nodes, case by case, with
what was read on the way. Properties of parsed templates are proved from these
cases: a property that no item breaks holds at the end of the text.

* `Item` : the cases;
* `item_of_reader` : an item that is read is one of them;
* `run_invariant` : what every item keeps holds at the end.
-/
import ComponentDivision.Proofs.Sequence
import ComponentDivision.Proofs.Template.Reading
import ComponentDivision.Template.Parser

namespace ComponentDivision

/-! ## What readers pass over -/

/-- The whole text is read as the name of a tag. -/
structure IsTagName (name : Text) : Prop where
  valid : isTagName name = true
  unended : (name.all fun c => !endsTagName c) = true

namespace Reader

variable {c d : Cursor} {t : Text}

theorem rest_of_takeWhile {p : Char → Bool} (h : takeWhile p c = .ok (t, d)) :
    c.rest = t ++ d.rest := by
  cases h
  exact (List.prefix_iff_eq_append.1 (List.takeWhile_prefix p)).symm

theorem rest_of_skipBlank {u : Unit} (h : skipBlank c = .ok (u, d)) :
    ∃ t : Text, t.all isBlank = true ∧ c.rest = t ++ d.rest := by
  obtain ⟨t, _, ht, h⟩ := bind_eq_ok.1 h
  obtain ⟨-, rfl⟩ := pure_eq_ok.1 h
  refine ⟨t, ?_, rest_of_takeWhile ht⟩
  cases ht
  exact List.all_takeWhile

theorem rest_of_eat (h : eat t c = .ok (true, d)) : c.rest = t ++ d.rest := by
  unfold eat at h
  split at h
  · rename_i hp
    cases h
    exact (List.prefix_iff_eq_append.1 (List.isPrefixOf_iff_prefix.1 hp)).symm
  · cases h

theorem eq_of_eat_false (h : eat t c = .ok (false, d)) : d = c := by
  unfold eat at h
  split at h <;> cases h
  rfl

theorem rest_of_expect {u : Unit} (h : expect t c = .ok (u, d)) : c.rest = t ++ d.rest := by
  obtain ⟨b, e, heat, h⟩ := bind_eq_ok.1 h
  cases b with
  | true =>
    obtain ⟨-, rfl⟩ := pure_eq_ok.1 h
    exact rest_of_eat heat
  | false =>
    obtain ⟨atEnd, e', -, h⟩ := bind_eq_ok.1 h
    cases atEnd <;> cases h

theorem rest_of_tagName (h : tagName c = .ok (t, d)) : c.rest = t ++ d.rest := by
  simp only [tagName] at h
  split at h
  · cases h
    exact (List.prefix_iff_eq_append.1 (List.takeWhile_prefix _)).symm
  · cases h

/-- What is read as a name is one. -/
theorem isTagName_of_tagName (h : tagName c = .ok (t, d)) : IsTagName t := by
  simp only [tagName] at h
  split at h
  · rename_i hvalid
    obtain ⟨rfl, -⟩ := Prod.mk.inj (Except.ok.inj h)
    exact ⟨hvalid, List.all_takeWhile⟩
  · cases h

/-- A start tag that closes its element ends with a slash. -/
theorem rest_of_tagEnd (h : tagEnd c = .ok (true, d)) : c.rest = "/>".toList ++ d.rest := by
  obtain ⟨b, e, heat, h⟩ := bind_eq_ok.1 h
  cases b with
  | true =>
    obtain ⟨-, rfl⟩ := pure_eq_ok.1 h
    exact rest_of_eat heat
  | false =>
    obtain ⟨_, e', -, h⟩ := bind_eq_ok.1 h
    cases h

end Reader

/-! ## Texts without opening braces -/

/-- What stands between two places has no opening brace. -/
def Cursor.Unbraced (c d : Cursor) : Prop :=
  ∃ t, c.rest = t ++ d.rest ∧ '{' ∉ t

theorem Cursor.Unbraced.trans {c d e : Cursor} (h₁ : c.Unbraced d) (h₂ : d.Unbraced e) :
    c.Unbraced e := by
  obtain ⟨t, ht, htfree⟩ := h₁
  obtain ⟨u, hu, hufree⟩ := h₂
  refine ⟨t ++ u, by rw [ht, hu, List.append_assoc], fun hmem => ?_⟩
  rcases List.mem_append.1 hmem with hmem | hmem
  · exact htfree hmem
  · exact hufree hmem

namespace Reader

variable {c d : Cursor}

theorem unbraced_takeWhile {p : Char → Bool} {t : Text} (hp : p '{' = false)
    (h : takeWhile p c = .ok (t, d)) : c.Unbraced d := by
  refine ⟨t, rest_of_takeWhile h, fun hmem => ?_⟩
  cases h
  cases hp.symm.trans (List.all_eq_true.1 List.all_takeWhile _ hmem)

theorem unbraced_skipBlank {u : Unit} (h : skipBlank c = .ok (u, d)) : c.Unbraced d := by
  obtain ⟨t, _, ht, h⟩ := bind_eq_ok.1 h
  obtain ⟨-, rfl⟩ := pure_eq_ok.1 h
  exact unbraced_takeWhile rfl ht

theorem unbraced_eat {t : Text} {b : Bool} (ht : '{' ∉ t) (h : eat t c = .ok (b, d)) :
    c.Unbraced d := by
  cases b with
  | true => exact ⟨t, rest_of_eat h, ht⟩
  | false => exact ⟨[], congrArg Cursor.rest (eq_of_eat_false h).symm, List.not_mem_nil⟩

theorem unbraced_expect {t : Text} {u : Unit} (ht : '{' ∉ t) (h : expect t c = .ok (u, d)) :
    c.Unbraced d :=
  ⟨t, rest_of_expect h, ht⟩

end Reader

/-! ## Closers -/

/-- The closer of a block; blanks may stand after its brace and after its keyword. -/
def IsBlockCloser (keyword t : Text) : Prop :=
  ∃ u v : Text, u.all isBlank = true ∧ v.all isBlank = true ∧
    t = '{' :: (u ++ '/' :: (keyword ++ (v ++ ['}'])))

/-- The closing tag of an element; blanks may stand after its name. -/
def IsClosingTag (name t : Text) : Prop :=
  ∃ v : Text, v.all isBlank = true ∧ t = '<' :: '/' :: (name ++ (v ++ ['>']))

/-! ## The cases -/

/-- An item from the place `c` to the place `d` turns the open nodes `st` into others. -/
inductive Item (ctx : Context) (st : Stack) (c : Cursor) : Stack → Cursor → Prop
  /-- A run of text. -/
  | text (first : Char) (more : Text) :
      Item ctx st c (st.receive (.ofText c.pos (first :: more))) (c.advance (more.length + 1))
  /-- A comment. -/
  | comment (data : Text) (d : Cursor) :
      Item ctx st c (st.receive (.leaf
        { kind := .comment, start := c.pos, stop := d.pos, data := some data })) d
  /-- An expression in braces, or a special tag, which may be without one. -/
  | braces (kind : Kind) (expression : Option Expression) (d : Cursor)
      (hkind : kind ∈ [.mustache, .rawMustache, .debugTag, .constTag])
      (hexpr : ∀ e ∈ expression, Embedded ctx c d e) :
      Item ctx st c (st.receive (.leaf { kind, start := c.pos, stop := d.pos, expression })) d
  /-- A start tag that closes its element. -/
  | closedElement (name : Text) (kind : ElementKind) (as : List Node) (c₁ c₂ d : Cursor)
      (hkind : elementKind name c.pos (st.closeBefore name c.pos) = .ok kind)
      (hc₁ : c.Reaches c₁) (has : attributes ctx [] c₁ = .ok (as, c₂)) (hd : c₂.Reaches d)
      (hend : kind = .element ∨ c₂.rest = "/>".toList ++ d.rest) :
      Item ctx st c ((st.closeBefore name c.pos).receive
        { label := { kind := .element kind, start := c.pos, stop := d.pos, name := some name }
          attributes := as }) d
  /-- An element with raw text, up to its closing tag. -/
  | rawElement (name : Text) (as : List Node) (c₁ c₂ c₃ : Cursor) (i n : Nat)
      (hkind : elementKind name c.pos (st.closeBefore name c.pos) = .ok .element)
      (hraw : isRawText name) (hvoid : ¬ isVoid name) (hc₁ : c.Reaches c₁)
      (has : attributes ctx [] c₁ = .ok (as, c₂)) (hc₃ : c₂.Reaches c₃)
      (hclosing : findClosingTag? name c₃.rest = some (i, n)) :
      Item ctx st c ((st.closeBefore name c.pos).receive
        { label := { kind := .element .element, start := c.pos, stop := c₃.pos + i + n
                     name := some name }
          attributes := as
          children := [.ofText c₃.pos (c₃.rest.take i)] }) (c₃.advance (i + n))
  /-- A start tag that opens an element. -/
  | openElement (name : Text) (kind : ElementKind) (as : List Node) (c₁ c₂ d : Cursor)
      (hkind : elementKind name c.pos (st.closeBefore name c.pos) = .ok kind)
      (hvoid : ¬ (kind = .element ∧ isVoid name)) (hc₁ : c.Reaches c₁)
      (has : attributes ctx [] c₁ = .ok (as, c₂)) (hd : c₂.Reaches d)
      (hname : isTagName name = true) :
      Item ctx st c ((st.closeBefore name c.pos).push
        { label := { kind := .element kind, start := c.pos, name := some name }
          attributes := as }) d
  /-- A closing tag. -/
  | closeElement (name : Text) (st' : Stack) (d : Cursor)
      (h : st.closeElement name c.pos d.pos = .ok st')
      (hcloser : ∃ t, IsClosingTag name t ∧ c.rest = t ++ d.rest) : Item ctx st c st' d
  /-- The opener of a block with a guard, and a key after it. -/
  | openGuarded (b : GuardedKind) (label : Label) (e : Expression) (m d : Cursor)
      (hkind : label.kind = .guarded b) (hstart : label.start = c.pos)
      (hwritten : label.unwritten = false) (helseif : label.elseif = false)
      (hexpr : label.expression = some e) (he : Embedded ctx c m e) (hd : m.Reaches d)
      (hkey : ∀ k ∈ label.key, Embedded ctx m d k) (hbrace : c.rest.head? = some '{') :
      Item ctx st c (st.push { label }) d
  /-- The opener of an await block, which opens one of its branches at the place `m`. -/
  | openAwait (b : BranchKind) (e : Expression) (thenPattern catchPattern : Option Text)
      (m d : Cursor) (hb : b ∈ [.pendingBlock, .thenBlock, .catchBlock])
      (hthen : thenPattern.isSome → b = .thenBlock)
      (hcatch : catchPattern.isSome → b = .catchBlock)
      (he : Embedded ctx c m e) (hd : m.Reaches d) (hbrace : c.rest.head? = some '{') :
      Item ctx st c ((st.push
        { label := { kind := .awaitBlock, start := c.pos, expression := some e
                     thenPattern, catchPattern }
          pendingBlock := some (.unwritten .pendingBlock)
          thenBlock := some (.unwritten .thenBlock)
          catchBlock := some (.unwritten .catchBlock) }).push (.branch b m.pos)) d
  /-- An else branch that is an if block of its own. -/
  | elseIf (e : Expression) (d : Cursor)
      (hkind : (st.closeOmitted c.pos).current.kind = .guarded .ifBlock)
      (helse : (st.closeOmitted c.pos).current.elseBlock = none) (he : Embedded ctx c d e) :
      Item ctx st c (((st.closeOmitted c.pos).push (.branch .elseBlock c.pos)).push
        { label := { kind := .guarded .ifBlock, start := c.pos, expression := some e
                     elseif := true } }) d
  /-- An else branch. -/
  | elseBranch (b : GuardedKind) (d : Cursor) (hb : b = .ifBlock ∨ b = .eachBlock)
      (hkind : (st.closeOmitted c.pos).current.kind = .guarded b)
      (helse : (st.closeOmitted c.pos).current.elseBlock = none) :
      Item ctx st c ((st.closeOmitted c.pos).push (.branch .elseBlock c.pos)) d
  /-- A later branch `b` of an await block, after the branch `a`. -/
  | awaitBranch (a b : BranchKind) (pattern : Option Text) (d : Cursor)
      (hab : (a, b) ∈ [(.pendingBlock, .thenBlock), (.pendingBlock, .catchBlock),
        (.thenBlock, .catchBlock)])
      (hkind : (st.closeOmitted c.pos).current.kind = .branch a) :
      Item ctx st c ((((st.closeOmitted c.pos).pop c.pos).modifyCurrent fun n =>
        if b = .thenBlock then { n with label := { n.label with thenPattern := pattern } }
        else { n with label := { n.label with catchPattern := pattern } }).push
          (.branch b c.pos)) d
  /-- The closer of a block. -/
  | closeBlock (kind : Kind) (keyword : Text) (st' : Stack) (d : Cursor)
      (hkind : block? keyword = some kind)
      (h : st.closeBlock kind keyword c.pos d.pos = .ok st')
      (htext : ∃ m : Cursor, c.rest = '{' :: m.rest ∧ m.Unbraced d)
      (hcloser : ∃ t, IsBlockCloser keyword t ∧ c.rest = t ++ d.rest) : Item ctx st c st' d

/-! ## Tags of elements -/

section Readers

open Reader

variable {ctx : Context} {st st' : Stack} {c c₀ d : Cursor}

/-- A comment is an item. -/
theorem item_of_comment (h : comment c.pos st c₀ = .ok (st', d)) : Item ctx st c st' d := by
  unfold Reader.comment at h
  split at h
  · cases h
  · rename_i n hn
    cases h
    have hstop : ((c₀.pos : Int) + n + 3) = (c₀.advance (n + 3)).pos := by
      simp only [Cursor.advance]
      omega
    rw [hstop]
    exact .comment _ _

/-- A start tag is an item. -/
theorem item_of_startTag {name : Text} (hname : isTagName name = true) (hc : c.Reaches c₀)
    (h : startTag ctx c.pos name st c₀ = .ok (st', d)) : Item ctx st c st' d := by
  obtain ⟨kind, _, hk, h⟩ := bind_eq_ok.1 h
  obtain ⟨hkind, rfl⟩ := ofExcept_eq_ok.1 hk
  obtain ⟨as, c₂, has, h⟩ := bind_eq_ok.1 h
  simp only [bind_eq_ok, position_eq_ok] at h
  obtain ⟨closed, c₃, hend, _, _, ⟨rfl, rfl⟩, h⟩ := h
  have hc₃ := forward_tagEnd hend
  rcases ite_eq_ok.1 h with ⟨hclosed, h⟩ | ⟨hopen, h⟩
  · obtain ⟨rfl, rfl⟩ := pure_eq_ok.1 h
    simp only [Bool.or_eq_true, Bool.and_eq_true, beq_iff_eq] at hclosed
    refine .closedElement name kind as c₀ c₂ c₃ hkind hc has hc₃ ?_
    rcases hclosed with rfl | ⟨hplain, -⟩
    · exact Or.inr (rest_of_tagEnd hend)
    · exact Or.inl hplain
  · simp only [Bool.or_eq_true, Bool.and_eq_true, beq_iff_eq, not_or] at hopen
    rcases ite_eq_ok.1 h with ⟨hraw, htext⟩ | ⟨-, h⟩
    · simp only [Bool.and_eq_true, beq_iff_eq] at hraw
      obtain ⟨rfl, hraw⟩ := hraw
      unfold rawText at htext
      split at htext
      · cases htext
      · rename_i i n hclosing
        cases htext
        exact .rawElement name as c₀ c₂ c₃ i n hkind hraw (fun hv => hopen.2 ⟨rfl, hv⟩) hc has
          hc₃ hclosing
    · obtain ⟨rfl, rfl⟩ := pure_eq_ok.1 h
      exact .openElement name kind as c₀ c₂ c₃ hkind hopen.2 hc has hc₃ hname

/-- A tag is an item. -/
theorem item_of_tag (hc : c.Reaches c₀) (hrest : c.rest = '<' :: c₀.rest)
    (h : tag ctx c.pos st c₀ = .ok (st', d)) : Item ctx st c st' d := by
  simp only [tag, bind_eq_ok] at h
  obtain ⟨isComment, c₁, hcomment, h⟩ := h
  have hc₁ := hc.trans (forward_eat _ hcomment)
  rcases ite_eq_ok.1 h with ⟨-, h⟩ | ⟨hno, h⟩
  · exact item_of_comment h
  · obtain rfl : c₁ = c₀ := eq_of_eat_false (Bool.eq_false_iff.2 hno ▸ hcomment)
    simp only [bind_eq_ok] at h
    obtain ⟨closing, c₂, hslash, name, c₃, hname, h⟩ := h
    have hc₃ := (hc₁.trans (forward_eat _ hslash)).trans (forward_tagName hname)
    rcases ite_eq_ok.1 h with ⟨hclosing, h⟩ | ⟨-, h⟩
    · simp only [closingTag, bind_eq_ok, position_eq_ok, ofExcept_eq_ok] at h
      obtain ⟨_, _, hblank, _, _, hend, _, _, ⟨rfl, rfl⟩, hclose, rfl⟩ := h
      obtain ⟨v, hv, hv'⟩ := rest_of_skipBlank hblank
      refine .closeElement name st' _ hclose ⟨_, ⟨v, hv, rfl⟩, ?_⟩
      rw [hrest, rest_of_eat (hclosing ▸ hslash), rest_of_tagName hname, hv', rest_of_expect hend]
      simp only [List.cons_append, List.append_assoc, List.nil_append]
    · exact item_of_startTag (isTagName_of_tagName hname).valid hc₃ h

/-! ## Tags and blocks in braces -/

/-- The key of an each block is embedded. -/
theorem embedded_of_eachKey {key : Option Expression}
    (h : eachBlock.eachKey ctx c = .ok (key, d)) : ∀ k ∈ key, Embedded ctx c d k := by
  obtain ⟨_, c₁, hc₁, h⟩ := bind_eq_ok.1 h
  have hc₁ := forward_eat _ hc₁
  rcases ite_eq_ok.1 h with ⟨-, h⟩ | ⟨-, h⟩
  · obtain ⟨e, c₂, he, h⟩ := bind_eq_ok.1 h
    obtain ⟨_, c₃, hc₃, h⟩ := bind_eq_ok.1 h
    obtain ⟨_, c₄, hc₄, h⟩ := bind_eq_ok.1 h
    obtain ⟨rfl, rfl⟩ := pure_eq_ok.1 h
    rintro k ⟨⟩
    have hd := (forward_expect _ hc₃).trans (forward_skipBlank hc₄)
    exact (embedded_of_readExpressionAt rfl he).widen hc₁ hd
  · obtain ⟨rfl, rfl⟩ := pure_eq_ok.1 h
    rintro k ⟨⟩

/-- The opener of an each block is an item. -/
theorem item_of_eachBlock {label : Label} (hc : c.Reaches c₀) (hbrace : c.rest.head? = some '{')
    (h : eachBlock ctx c.pos c₀ = .ok (label, d)) : Item ctx st c (st.push { label }) d := by
  unfold eachBlock at h
  obtain ⟨e, c₁, he, h⟩ := bind_eq_ok.1 h
  obtain ⟨_, c₂, h₂, h⟩ := bind_eq_ok.1 h
  rcases ite_eq_ok.1 h with ⟨-, h⟩ | ⟨-, h⟩
  · obtain ⟨_, c₃, h₃, h⟩ := bind_eq_ok.1 h
    obtain ⟨context, c₄, h₄, h⟩ := bind_eq_ok.1 h
    cases context with
    | none => cases h
    | some context =>
      obtain ⟨_, c₅, h₅, h⟩ := bind_eq_ok.1 h
      obtain ⟨index, c₆, h₆, h⟩ := bind_eq_ok.1 h
      obtain ⟨key, c₇, h₇, h⟩ := bind_eq_ok.1 h
      obtain ⟨_, c₈, h₈, h⟩ := bind_eq_ok.1 h
      obtain ⟨rfl, rfl⟩ := pure_eq_ok.1 h
      have hc₃ := (forward_eat _ h₂).trans (forward_requireBlank h₃)
      have hc₅ := (forward_readPattern ctx _ h₄).trans (forward_skipBlank h₅)
      have hc₆ := (hc₃.trans hc₅).trans (forward_eachIndex ctx h₆)
      have hc₈ := forward_expect _ h₈
      exact .openGuarded .eachBlock _ e c₆ c₈ rfl rfl rfl rfl rfl
        ((embedded_of_readExpressionAt rfl he).widen hc hc₆)
        ((forward_eachKey ctx h₇).trans hc₈)
        (fun k hk => (embedded_of_eachKey h₇ k hk).widen (.refl c₆) hc₈) hbrace
  · cases h

/-- The opener of an await block is an item. -/
theorem item_of_awaitBlock (hc : c.Reaches c₀) (hbrace : c.rest.head? = some '{')
    (h : awaitBlock ctx c.pos st c₀ = .ok (st', d)) : Item ctx st c st' d := by
  unfold awaitBlock at h
  obtain ⟨e, m, he, h⟩ := bind_eq_ok.1 h
  have he := (embedded_of_readExpressionAt rfl he).widen hc (.refl m)
  simp only [bind_eq_ok, position_eq_ok] at h
  obtain ⟨_, _, ⟨rfl, rfl⟩, _, c₁, h₁, h⟩ := h
  have hc₁ := forward_eat _ h₁
  rcases ite_eq_ok.1 h with ⟨-, h⟩ | ⟨-, h⟩
  · simp only [bind_eq_ok, pure_eq_ok] at h
    obtain ⟨pattern, c₂, h₂, _, c₃, h₃, rfl, rfl⟩ := h
    have hc₃ := (forward_readPattern ctx _ h₂).trans (forward_expect _ h₃)
    exact .openAwait .thenBlock e pattern none m c₃ (by decide) (fun _ => rfl) nofun he
      (hc₁.trans hc₃) hbrace
  · simp only [bind_eq_ok] at h
    obtain ⟨_, c₂, h₂, h⟩ := h
    have hc₂ := hc₁.trans (forward_eat _ h₂)
    rcases ite_eq_ok.1 h with ⟨-, h⟩ | ⟨-, h⟩
    · simp only [bind_eq_ok, pure_eq_ok] at h
      obtain ⟨pattern, c₃, h₃, _, c₄, h₄, rfl, rfl⟩ := h
      have hc₄ := (forward_readPattern ctx _ h₃).trans (forward_expect _ h₄)
      exact .openAwait .catchBlock e none pattern m c₄ (by decide) nofun (fun _ => rfl) he
        (hc₂.trans hc₄) hbrace
    · simp only [bind_eq_ok, pure_eq_ok] at h
      obtain ⟨_, c₃, h₃, rfl, rfl⟩ := h
      exact .openAwait .pendingBlock e none none m c₃ (by decide) nofun nofun he
        (hc₂.trans (forward_expect _ h₃)) hbrace

/-- The blocks that keywords open. -/
theorem block?_eq_some {keyword : Text} {kind : Kind} (h : block? keyword = some kind) :
    (∃ b, kind = .guarded b) ∨ kind = .awaitBlock := by
  obtain ⟨entry, hentry, rfl⟩ := Option.map_eq_some_iff.1 h
  have hmem := List.mem_of_find?_eq_some hentry
  simp only [blockKeywords, List.mem_cons, List.not_mem_nil, or_false] at hmem
  rcases hmem with rfl | rfl | rfl | rfl
  · exact Or.inl ⟨_, rfl⟩
  · exact Or.inl ⟨_, rfl⟩
  · exact Or.inl ⟨_, rfl⟩
  · exact Or.inr rfl

/-- The opener of a block with nothing but a guard is an item. -/
theorem item_of_guard {b : GuardedKind} (hc : c.Reaches c₀) (hbrace : c.rest.head? = some '{')
    (h : (do
      let expression ← readExpressionAt ctx {}
      expect ['}']
      return st.push { label := { kind := .guarded b, start := c.pos
                                  expression := some expression } } : Reader Stack) c₀
        = .ok (st', d)) : Item ctx st c st' d := by
  simp only [bind_eq_ok, pure_eq_ok] at h
  obtain ⟨e, c₁, he, _, c₂, h₂, rfl, rfl⟩ := h
  exact .openGuarded b _ e c₁ c₂ rfl rfl rfl rfl rfl
    ((embedded_of_readExpressionAt rfl he).widen hc (.refl c₁)) (forward_expect _ h₂) nofun hbrace

/-- The opener of a block is an item. -/
theorem item_of_openBlock (hc : c.Reaches c₀) (hbrace : c.rest.head? = some '{')
    (h : openBlock ctx c.pos st c₀ = .ok (st', d)) : Item ctx st c st' d := by
  simp only [openBlock, bind_eq_ok] at h
  obtain ⟨keyword, c₁, h₁, h⟩ := h
  have hc₁ := hc.trans (forward_word h₁)
  cases hkind : block? keyword with
  | none =>
    rw [hkind] at h
    cases h
  | some kind =>
    rw [hkind] at h
    obtain ⟨_, c₂, h₂, h⟩ := bind_eq_ok.1 h
    have hc₂ := hc₁.trans (forward_requireBlank h₂)
    rcases block?_eq_some hkind with ⟨b, rfl⟩ | rfl
    · cases b with
      | ifBlock => exact item_of_guard hc₂ hbrace h
      | eachBlock =>
        obtain ⟨label, c₃, h₃, h⟩ := bind_eq_ok.1 h
        obtain ⟨rfl, rfl⟩ := pure_eq_ok.1 h
        exact item_of_eachBlock hc₂ hbrace h₃
      | keyBlock => exact item_of_guard hc₂ hbrace h
    · exact item_of_awaitBlock hc₂ hbrace h

/-- An else branch is an item. -/
theorem item_of_elseBranch (hc : c.Reaches c₀)
    (h : elseBranch ctx c.pos (st.closeOmitted c.pos) c₀ = .ok (st', d)) :
    Item ctx st c st' d := by
  simp only [elseBranch, bind_eq_ok] at h
  obtain ⟨_, c₁, h₁, _, c₂, h₂, h⟩ := h
  have hc₂ := (hc.trans (forward_skipBlank h₁)).trans (forward_eat _ h₂)
  rcases ite_eq_ok.1 h with ⟨-, h⟩ | ⟨-, h⟩
  · obtain ⟨_, c₃, h₃, h⟩ := bind_eq_ok.1 h
    have hc₃ := hc₂.trans (forward_requireBlank h₃)
    rcases ite_eq_ok.1 h with ⟨hif, h⟩ | ⟨-, h⟩
    · simp only [Bool.and_eq_true, beq_iff_eq, Option.isNone_iff_eq_none] at hif
      simp only [bind_eq_ok, pure_eq_ok] at h
      obtain ⟨e, c₄, he, _, c₅, h₅, rfl, rfl⟩ := h
      exact .elseIf e c₅ hif.1 hif.2
        ((embedded_of_readExpressionAt rfl he).widen hc₃ (forward_expect _ h₅))
    · cases h
  · rcases ite_eq_ok.1 h with ⟨hopen, h⟩ | ⟨-, h⟩
    · simp only [Bool.and_eq_true, Bool.or_eq_true, beq_iff_eq,
        Option.isNone_iff_eq_none] at hopen
      simp only [bind_eq_ok, pure_eq_ok] at h
      obtain ⟨_, c₃, -, rfl, rfl⟩ := h
      obtain ⟨hkind | hkind, helse⟩ := hopen
      · exact .elseBranch .ifBlock c₃ (Or.inl rfl) hkind helse
      · exact .elseBranch .eachBlock c₃ (Or.inr rfl) hkind helse
    · cases h

/-- A later branch of an await block is an item. -/
theorem item_of_awaitBranch {a b : BranchKind}
    (hab : (a, b) ∈ [(BranchKind.pendingBlock, BranchKind.thenBlock),
      (.pendingBlock, .catchBlock), (.thenBlock, .catchBlock)])
    (hkind : (st.closeOmitted c.pos).current.kind = .branch a)
    (h : awaitBranch ctx c.pos b (st.closeOmitted c.pos) c₀ = .ok (st', d)) :
    Item ctx st c st' d := by
  simp only [awaitBranch, bind_eq_ok, pure_eq_ok] at h
  obtain ⟨pattern, _, -, _, _, -, rfl, rfl⟩ := h
  exact .awaitBranch a b pattern _ hab hkind

/-- The continuation of a block is an item. -/
theorem item_of_continueBlock (hc : c.Reaches c₀)
    (h : continueBlock ctx c.pos st c₀ = .ok (st', d)) : Item ctx st c st' d := by
  obtain ⟨keyword, c₁, h₁, h⟩ := bind_eq_ok.1 h
  have hc₁ := hc.trans (forward_word h₁)
  rcases ite_eq_ok.1 h with ⟨-, h⟩ | ⟨-, h⟩
  · exact item_of_elseBranch hc₁ h
  rcases ite_eq_ok.1 h with ⟨-, h⟩ | ⟨-, h⟩
  · rcases ite_eq_ok.1 h with ⟨hkind, h⟩ | ⟨-, h⟩
    · exact item_of_awaitBranch (by decide) (beq_iff_eq.1 hkind) h
    · cases h
  rcases ite_eq_ok.1 h with ⟨-, h⟩ | ⟨-, h⟩
  · rcases ite_eq_ok.1 h with ⟨hkind, h⟩ | ⟨-, h⟩
    · rw [Bool.or_eq_true, beq_iff_eq, beq_iff_eq] at hkind
      rcases hkind with hkind | hkind
      · exact item_of_awaitBranch (by decide) hkind h
      · exact item_of_awaitBranch (by decide) hkind h
    · cases h
  · cases h

/-- The closer of a block is an item. -/
theorem item_of_closeBlock {m : Cursor} {u : Text} (hrest : c.rest = '{' :: m.rest)
    (hc : m.Unbraced c₀) (hu : u.all isBlank = true) (hslash : m.rest = u ++ '/' :: c₀.rest)
    (h : closeBlock c.pos st c₀ = .ok (st', d)) : Item ctx st c st' d := by
  simp only [closeBlock, bind_eq_ok] at h
  obtain ⟨keyword, c₁, h₁, h⟩ := h
  have hc₁ := hc.trans (unbraced_takeWhile rfl h₁)
  cases hkind : block? keyword with
  | none =>
    rw [hkind] at h
    cases h
  | some kind =>
    rw [hkind] at h
    simp only [bind_eq_ok, position_eq_ok, ofExcept_eq_ok] at h
    obtain ⟨_, c₂, h₂, _, c₃, h₃, _, _, ⟨rfl, rfl⟩, hclose, rfl⟩ := h
    have hc₃ := (unbraced_skipBlank h₂).trans (unbraced_expect (by decide) h₃)
    obtain ⟨v, hv, hv'⟩ := rest_of_skipBlank h₂
    refine .closeBlock kind keyword st' _ hkind hclose ⟨m, hrest, hc₁.trans hc₃⟩
      ⟨_, ⟨u, v, hu, hv, rfl⟩, ?_⟩
    rw [hrest, hslash, rest_of_takeWhile h₁, hv', rest_of_expect h₃]
    simp only [List.cons_append, List.append_assoc, List.nil_append]

/-- The end of a special tag is an item. -/
theorem item_of_finish {kind : Kind} {expression : Option Expression}
    (hkind : kind ∈ [.rawMustache, .debugTag, .constTag])
    (hexpr : ∀ e ∈ expression, Embedded ctx c c₀ e)
    (h : specialTag.finish c.pos st kind expression c₀ = .ok (st', d)) :
    Item ctx st c st' d := by
  simp only [specialTag.finish, bind_eq_ok, position_eq_ok, pure_eq_ok] at h
  obtain ⟨_, _, h₁, _, _, ⟨rfl, rfl⟩, rfl, rfl⟩ := h
  exact .braces kind expression _ (List.mem_cons_of_mem _ hkind)
    fun e he => (hexpr e he).widen (.refl c) (forward_expect _ h₁)

/-- A special tag is an item. -/
theorem item_of_specialTag (hc : c.Reaches c₀) (h : specialTag ctx c.pos st c₀ = .ok (st', d)) :
    Item ctx st c st' d := by
  obtain ⟨keyword, c₁, h₁, h⟩ := bind_eq_ok.1 h
  have hc₁ := hc.trans (forward_word h₁)
  have hread {c₂ c₃ e} (h₂ : requireBlank c₁ = .ok ((), c₂))
      (he : readExpressionAt ctx {} c₂ = .ok (e, c₃)) : Embedded ctx c c₃ e :=
    (embedded_of_readExpressionAt rfl he).widen (hc₁.trans (forward_requireBlank h₂)) (.refl c₃)
  rcases ite_eq_ok.1 h with ⟨-, h⟩ | ⟨-, h⟩
  · simp only [bind_eq_ok] at h
    obtain ⟨_, _, h₂, e, _, he, h⟩ := h
    exact item_of_finish (by decide) (by rintro _ ⟨⟩; exact hread h₂ he) h
  rcases ite_eq_ok.1 h with ⟨-, h⟩ | ⟨-, h⟩
  · obtain ⟨x, c₂, hx, h⟩ := bind_eq_ok.1 h
    rcases ite_eq_ok.1 h with ⟨-, h⟩ | ⟨hempty, h⟩
    · exact item_of_finish (by decide) (by rintro _ ⟨⟩) h
    · obtain ⟨e, c₃, he, h⟩ := bind_eq_ok.1 h
      obtain ⟨hacc, rfl, rfl⟩ := checked_eq_ok.1 he
      refine item_of_finish (by decide) ?_ h
      rintro _ ⟨⟩
      obtain ⟨-, hordered, -⟩ := delimited_bounds hx
      have hlt : x.scan.start < x.scan.stop := by
        have := hordered.start_le
        simp only [Scan.empty, beq_iff_eq] at hempty
        omega
      exact ⟨_, c₁, c₂, x, hc₁, hx, .refl c₂, hlt, hacc, rfl⟩
  rcases ite_eq_ok.1 h with ⟨-, h⟩ | ⟨-, h⟩
  · simp only [bind_eq_ok] at h
    obtain ⟨_, _, h₂, e, _, he, h⟩ := h
    exact item_of_finish (by decide) (by rintro _ ⟨⟩; exact hread h₂ he) h
  · cases h

/-- What is in braces is an item. -/
theorem item_of_mustache (hc : c.Reaches c₀) (hrest : c.rest = '{' :: c₀.rest)
    (h : mustache ctx c.pos st c₀ = .ok (st', d)) : Item ctx st c st' d := by
  simp only [mustache, bind_eq_ok] at h
  obtain ⟨_, c₁, h₁, opens, c₂, h₂, h⟩ := h
  have hc₂ := (hc.trans (forward_skipBlank h₁)).trans (forward_eat _ h₂)
  rcases ite_eq_ok.1 h with ⟨-, h⟩ | ⟨hopens, h⟩
  · exact item_of_openBlock hc₂ (by rw [hrest]; rfl) h
  obtain ⟨continues, c₃, h₃, h⟩ := bind_eq_ok.1 h
  have hc₃ := hc₂.trans (forward_eat _ h₃)
  rcases ite_eq_ok.1 h with ⟨-, h⟩ | ⟨hcontinues, h⟩
  · exact item_of_continueBlock hc₃ h
  obtain ⟨closes, c₄, h₄, h⟩ := bind_eq_ok.1 h
  have hc₄ := hc₃.trans (forward_eat _ h₄)
  rcases ite_eq_ok.1 h with ⟨hcloses, h⟩ | ⟨-, h⟩
  · have hplain₂ := (unbraced_skipBlank h₁).trans (unbraced_eat (by decide) h₂)
    have hplain₄ := (unbraced_eat (by decide) h₃).trans (unbraced_eat (by decide) h₄)
    have hsame₂ : c₂ = c₁ := eq_of_eat_false (Bool.eq_false_iff.2 hopens ▸ h₂)
    have hsame₃ : c₃ = c₂ := eq_of_eat_false (Bool.eq_false_iff.2 hcontinues ▸ h₃)
    obtain ⟨u, hu, hu'⟩ := rest_of_skipBlank h₁
    -- no other mark has been passed, so the slash is the first character after the blanks
    refine item_of_closeBlock hrest (hplain₂.trans hplain₄) hu ?_ h
    rw [hu', ← hsame₂, ← hsame₃, rest_of_eat (hcloses ▸ h₄)]
    rfl
  obtain ⟨_, c₅, h₅, h⟩ := bind_eq_ok.1 h
  have hc₅ := hc₄.trans (forward_eat _ h₅)
  rcases ite_eq_ok.1 h with ⟨-, h⟩ | ⟨-, h⟩
  · exact item_of_specialTag hc₅ h
  · simp only [interpolation, bind_eq_ok, position_eq_ok, pure_eq_ok] at h
    obtain ⟨e, _, he, _, _, h₇, _, _, ⟨rfl, rfl⟩, rfl, rfl⟩ := h
    refine .braces .mustache (some e) _ (by decide) ?_
    rintro _ ⟨⟩
    exact (embedded_of_readExpressionAt rfl he).widen hc₅ (forward_expect _ h₇)

/-! ## All items -/

/-- What is read as an item is one. -/
theorem item_of_reader {first : Char} {rest : Text} (hrest : c.rest = first :: rest)
    (h : item ctx c.pos first st (c.advance 1) = .ok (st', d)) : Item ctx st c st' d := by
  have hc : c.Reaches (c.advance 1) := Cursor.reaches_advance (by simp [hrest])
  have hadvance : c.rest = first :: (c.advance 1).rest := by
    rw [Cursor.advance, hrest]
    rfl
  rcases ite_eq_ok.1 h with ⟨hangle, h⟩ | ⟨-, h⟩
  · exact item_of_tag hc (hangle ▸ hadvance) h
  rcases ite_eq_ok.1 h with ⟨hbrace, h⟩ | ⟨-, h⟩
  · exact item_of_mustache hc (hbrace ▸ hadvance) h
  · simp only [Reader.text, bind_eq_ok, pure_eq_ok] at h
    obtain ⟨more, _, hmore, rfl, rfl⟩ := h
    cases hmore
    rw [Cursor.advance_advance, Nat.add_comm]
    exact .text first _

end Readers

/-! ## Runs -/

/-- A text may end where nothing is open but elements whose closing tags are left out. -/
theorem Stack.finish_eq_ok {st : Stack} {stop : Nat} {root : Node} :
    st.finish stop = .ok root ↔ st.closeOmitted stop = ⟨root, []⟩ := by
  unfold finish
  dsimp only
  split
  · rename_i hnil
    rw [Except.ok.injEq, Stack.mk.injEq, and_iff_left hnil]
  · rename_i hcons
    have hopen : st.closeOmitted stop ≠ ⟨root, []⟩ := by
      intro h
      rw [h] at hcons
      cases hcons
    refine iff_of_false (fun h => ?_) hopen
    split at h <;> cases h

namespace Template

variable {ctx : Context} {root : Node}

/-- Nothing is left. -/
theorem run_nil {st : Stack} {pos : Nat} :
    run ctx st ⟨pos, []⟩ = (st.finish pos).mapError .misread := by
  rw [run]

/-- One item, and then the others. -/
theorem run_cons {st : Stack} {pos : Nat} {first : Char} {rest : Text} :
    run ctx st ⟨pos, first :: rest⟩
      = Reader.item ctx pos first st ⟨pos + 1, rest⟩ >>= fun p => run ctx p.1 p.2 := by
  rw [run]
  split
  · rename_i hnil
    cases hnil
  · rename_i hcons
    cases hcons
    show _ = Reader.item ctx pos first st ((Cursor.mk pos (first :: rest)).advance 1) >>= _
    split
    · rename_i herror
      rw [herror]
      rfl
    · rename_i hok
      rw [hok]
      rfl

theorem run_of_item {st st' : Stack} {pos : Nat} {first : Char} {rest : Text} {d : Cursor}
    (hitem : Reader.item ctx pos first st ⟨pos + 1, rest⟩ = .ok (st', d)) :
    run ctx st ⟨pos, first :: rest⟩ = run ctx st' d := by
  rw [run_cons, hitem]
  rfl

/-- The first fault ends a run. -/
theorem run_of_error {st : Stack} {pos : Nat} {first : Char} {rest : Text}
    {f : Fault} (hitem : Reader.item ctx pos first st ⟨pos + 1, rest⟩ = .error f) :
    run ctx st ⟨pos, first :: rest⟩ = .error f := by
  rw [run_cons, hitem]
  rfl

/-- A run that succeeds reads an item first. -/
theorem run_cons_eq_ok {st : Stack} {pos : Nat} {first : Char} {rest : Text} :
    run ctx st ⟨pos, first :: rest⟩ = .ok root ↔
      ∃ st' d, Reader.item ctx pos first st ⟨pos + 1, rest⟩ = .ok (st', d) ∧
        run ctx st' d = .ok root := by
  rw [run_cons, Except.bind_eq_ok_iff]
  exact Prod.exists

/-- **What every item keeps holds at the end.** -/
theorem run_invariant {I : Stack → Cursor → Prop}
    (hstep : ∀ {st c st' d}, I st c → Item ctx st c st' d → c.Reaches d → I st' d)
    {st : Stack} {c : Cursor} (hinv : I st c) (h : run ctx st c = .ok root) :
    ∃ st' c', I st' c' ∧ c'.rest = [] ∧ st'.finish c'.pos = .ok root := by
  fun_induction run ctx st c with
  | case1 st c hnil => exact ⟨st, c, hinv, hnil, Except.mapError_eq_ok_iff.1 h⟩
  | case2 => cases h
  | case3 st c first rest hcons st' d hitem ih =>
    have hadvance : c.Reaches (c.advance 1) := Cursor.reaches_advance (by simp [hcons])
    have hreach := hadvance.trans (Reader.forward_item ctx _ _ _ hitem)
    exact ih (hstep hinv (item_of_reader hcons hitem) hreach) h

end Template

end ComponentDivision
