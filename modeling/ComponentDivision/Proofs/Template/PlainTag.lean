/-
# Plain tags

A tag that consists of a name between angle brackets. Such a start tag opens the element, if
the name is not that of an element without content or with raw text; the closing tag looks for
the open element. The two decide by different tests: a start tag asks for the kind of the
element and for its name, a closing tag for the name alone.

* `IsTagName.tagName` : a name is read as it stands;
* `item_startTag`, `item_closingTag` : the two plain tags of an element;
* `Template.LeavesOpen` : the start tag of an element alone leaves it open;
* `parseTemplate_closing_opened` : when the closing tag ends what the start tag opened.
-/
import ComponentDivision.Proofs.Template.Laminar
import ComponentDivision.Proofs.Template.Composition

namespace ComponentDivision

/-! ## Names -/

theorem IsTagName.tagName {name : Text} (h : IsTagName name) (pos : Nat) {x : Char}
    (hx : endsTagName x = true) (rest : Text) :
    Reader.tagName ⟨pos, name ++ x :: rest⟩ = .ok (name, ⟨pos + name.length, x :: rest⟩) := by
  have htake : (name ++ x :: rest).takeWhile (fun d => !endsTagName d) = name := by
    rw [List.takeWhile_append_of_pos (List.all_eq_true.1 h.unended),
      List.takeWhile_cons_of_neg (by rw [hx]; decide), List.append_nil]
  simp only [Reader.tagName, htake, if_pos h.valid, Cursor.advance, List.drop_left]

/-- A name begins with a letter. -/
theorem IsTagName.exists_cons {name : Text} (h : IsTagName name) :
    ∃ c cs, name = c :: cs ∧ c ≠ '!' ∧ c ≠ '/' := by
  obtain ⟨hvalid, -⟩ := h
  cases name with
  | nil => cases hvalid
  | cons c cs =>
    rw [isTagName, Bool.and_eq_true] at hvalid
    refine ⟨c, cs, rfl, ?_, ?_⟩
    · rintro rfl
      cases hvalid.1
    · rintro rfl
      cases hvalid.1

/-! ## The two tags of an element -/

section

open Reader

variable {ctx : Context} {name : Text} {pos : Nat} {st : Stack} {rest : Text}

/-- A text that begins with another character is left as it is. -/
theorem eat_of_head_ne {x y : Char} {t u : Text} (h : y ≠ x) :
    eat (x :: t) ⟨pos, y :: u⟩ = .ok (false, ⟨pos, y :: u⟩) := by
  refine if_neg fun hp => ?_
  obtain ⟨v, hv⟩ := List.isPrefixOf_iff_prefix.1 hp
  exact h (List.cons.inj hv).1.symm

/-- A start tag without attributes. -/
theorem item_startTag (hname : IsTagName name) {kind : ElementKind}
    (hkind : elementKind name pos (st.closeBefore name pos) = .ok kind)
    (hvoid : ¬ (kind = .element ∧ isVoid name = true))
    (hraw : ¬ (kind = .element ∧ isRawText name = true)) :
    item ctx pos '<' st ⟨pos + 1, name ++ '>' :: rest⟩
      = .ok ((st.closeBefore name pos).push
          { label := { kind := .element kind, start := pos, name := some name } },
        ⟨pos + 1 + name.length + 1, rest⟩) := by
  have hattributes : attributes ctx [] ⟨pos + 1 + name.length, '>' :: rest⟩
      = .ok ([], ⟨pos + 1 + name.length, '>' :: rest⟩) :=
    attributes_of_cons (d := ⟨pos + 1 + name.length, '>' :: rest⟩) rfl rfl
  have htag : startTag ctx pos name st ⟨pos + 1 + name.length, '>' :: rest⟩
      = .ok ((st.closeBefore name pos).push
          { label := { kind := .element kind, start := pos, name := some name } },
        ⟨pos + 1 + name.length + 1, rest⟩) := by
    refine bind_eq_ok.2 ⟨kind, _, ofExcept_eq_ok.2 ⟨hkind, rfl⟩, bind_eq_ok.2 ⟨[], _, hattributes,
      bind_eq_ok.2 ⟨false, _, rfl, bind_eq_ok.2 ⟨_, _, rfl, ?_⟩⟩⟩⟩
    refine ite_eq_ok.2 (.inr ⟨?_, ite_eq_ok.2 (.inr ⟨?_, rfl⟩)⟩)
    · simpa only [Bool.false_or, Bool.and_eq_true, beq_iff_eq] using hvoid
    · simpa only [Bool.and_eq_true, beq_iff_eq] using hraw
  obtain ⟨c, cs, hcons, hbang, hslash⟩ := hname.exists_cons
  have hbefore := hname.tagName (pos + 1) (x := '>') rfl rest
  rw [hcons] at htag hbefore ⊢
  exact (bind_of_ok (eat_of_head_ne hbang)).trans
    ((bind_of_ok (eat_of_head_ne hslash)).trans ((bind_of_ok hbefore).trans htag))

/-- A closing tag. -/
theorem item_closingTag (hname : IsTagName name) :
    item ctx pos '<' st ⟨pos + 1, '/' :: (name ++ '>' :: rest)⟩
      = ofExcept (st.closeElement name pos (pos + 1 + 1 + name.length + 1))
        ⟨pos + 1 + 1 + name.length + 1, rest⟩ :=
  (bind_of_ok (hname.tagName (pos + 1 + 1) (x := '>') rfl rest) :
    (tagName >>= fun name => closingTag pos name st) ⟨pos + 1 + 1, name ++ '>' :: rest⟩ = _)

end

/-! ## Elements that are left open -/

/-- Where only the root is open, no closing tag has an element to end. -/
theorem Stack.closeNamed_of_nil {st : Stack} {name : Text} {start stop : Nat}
    (h : st.inner = []) : st.closeNamed name start stop = .error ⟨.notOpen name, start⟩ := by
  rw [closeNamed]
  split
  · rfl
  · rename_i hcons
    cases hcons.symm.trans h

namespace Template

/-- The start tag of the element `name`, without attributes. -/
def openingTag (name : Text) : Text :=
  '<' :: (name ++ ['>'])

/-- The start tag of the element `name` alone leaves this element open. -/
def LeavesOpen (grammar : Grammar) (name : Text) : Prop :=
  ∃ n, Reader.item (.of grammar (openingTag name)) 0 '<' (start (openingTag name))
      ⟨1, name ++ ['>']⟩
        = .ok ((start (openingTag name)).push n, ⟨(openingTag name).length, []⟩) ∧
    n.name = some name

/-- The name of an element that is left open is read as it stands, and the element is neither one
without content nor one with raw text. -/
theorem LeavesOpen.exists_kind {grammar : Grammar} {name : Text} (h : LeavesOpen grammar name) :
    IsTagName name ∧ ∃ kind, elementKind name 0 (start []) = .ok kind ∧
      ¬ (kind = .element ∧ isVoid name = true) ∧ ¬ (kind = .element ∧ isRawText name = true) := by
  obtain ⟨n, hitem, hn⟩ := h
  have hreceive (m : Node) : ((start (openingTag name)).receive m).inner
      ≠ ((start (openingTag name)).push n).inner := by
    intro h
    cases h
  obtain ⟨comment, c₁, h₁, h⟩ := Reader.bind_eq_ok.1 hitem
  rcases Reader.ite_eq_ok.1 h with ⟨-, hcomment⟩ | ⟨-, h⟩
  · unfold Reader.comment at hcomment
    split at hcomment
    · cases hcomment
    · exact absurd (congrArg (·.1.inner) (Except.ok.inj hcomment)) (hreceive _)
  obtain ⟨closing, c₂, h₂, h⟩ := Reader.bind_eq_ok.1 h
  obtain ⟨name', c₃, hname, h⟩ := Reader.bind_eq_ok.1 h
  rcases Reader.ite_eq_ok.1 h with ⟨-, hclosing⟩ | ⟨-, h⟩
  · obtain ⟨_, _, -, h⟩ := Reader.bind_eq_ok.1 hclosing
    obtain ⟨_, _, -, h⟩ := Reader.bind_eq_ok.1 h
    obtain ⟨stop, _, -, h⟩ := Reader.bind_eq_ok.1 h
    have hclose := (Reader.ofExcept_eq_ok.1 h).1
    rw [Stack.closeElement, Stack.closeNamed_of_nil rfl] at hclose
    split at hclose <;> cases hclose
  obtain ⟨kind, _, hkind, h⟩ := Reader.bind_eq_ok.1 h
  obtain ⟨as, _, -, h⟩ := Reader.bind_eq_ok.1 h
  obtain ⟨closed, _, -, h⟩ := Reader.bind_eq_ok.1 h
  obtain ⟨stop, _, -, h⟩ := Reader.bind_eq_ok.1 h
  rcases Reader.ite_eq_ok.1 h with ⟨-, hclosed⟩ | ⟨hopen, h⟩
  · exact absurd (congrArg Stack.inner (Reader.pure_eq_ok.1 hclosed).1) (hreceive _)
  rcases Reader.ite_eq_ok.1 h with ⟨-, hraw⟩ | ⟨hraw, h⟩
  · unfold Reader.rawText at hraw
    split at hraw
    · cases hraw
    · exact absurd (congrArg (·.1.inner) (Except.ok.inj hraw)) (hreceive _)
  · obtain ⟨hpush, -⟩ := Reader.pure_eq_ok.1 h
    obtain rfl : _ = n := (List.cons.inj (congrArg Stack.inner hpush)).1
    obtain rfl : name' = name := Option.some.inj hn
    rw [Bool.or_eq_true, not_or, Bool.and_eq_true, beq_iff_eq] at hopen
    rw [Bool.and_eq_true, beq_iff_eq] at hraw
    exact ⟨Reader.isTagName_of_tagName hname, kind, (Reader.ofExcept_eq_ok.1 hkind).1, hopen.2,
      hraw⟩

/-- A text before a tag joins the innermost open node, which stays what it is. -/
theorem exists_run_text (ctx : Context) (st : Stack) (n : Node) (pos : Nat) {t : Text} (u : Text)
    (ht : ∀ c ∈ t, inText c = true) :
    ∃ m, m.label = n.label ∧
      run ctx (st.push n) ⟨pos, t ++ '<' :: u⟩
        = run ctx (st.push m) ⟨pos + t.length, '<' :: u⟩ := by
  cases t with
  | nil => exact ⟨n, rfl, rfl⟩
  | cons first more =>
    have hmore : (more ++ '<' :: u).takeWhile inText = more := by
      rw [List.takeWhile_append_of_pos fun c hc => ht c (List.mem_cons_of_mem _ hc),
        List.takeWhile_cons_of_neg (by decide), List.append_nil]
    have hitem : Reader.item ctx pos first (st.push n) ⟨pos + 1, more ++ '<' :: u⟩ = _ :=
      item_text (ht first List.mem_cons_self) pos _ _
    rw [hmore, Cursor.advance, List.drop_left] at hitem
    refine ⟨n.attach (.ofText pos (first :: more)), n.label_attach _, ?_⟩
    rw [List.length_cons, Nat.add_comm more.length, ← Nat.add_assoc]
    exact run_of_item hitem

/-- The start tag of an element and a text after it. -/
theorem exists_run_opened (ctx : Context) {source name t : Text} (u : Text) {kind : ElementKind}
    (hname : IsTagName name) (hkind : elementKind name 0 (start source) = .ok kind)
    (hvoid : ¬ (kind = .element ∧ isVoid name = true))
    (hraw : ¬ (kind = .element ∧ isRawText name = true)) (ht : ∀ c ∈ t, inText c = true) :
    ∃ m : Node, m.kind = .element kind ∧ m.name = some name ∧
      run ctx (start source) ⟨0, '<' :: (name ++ '>' :: (t ++ '<' :: u))⟩
        = run ctx ((start source).push m) ⟨0 + 1 + name.length + 1 + t.length, '<' :: u⟩ := by
  have hitem : Reader.item ctx 0 '<' (start source) ⟨0 + 1, name ++ '>' :: (t ++ '<' :: u)⟩ = _ :=
    item_startTag hname hkind hvoid hraw
  obtain ⟨m, hlabel, hrun⟩ := exists_run_text ctx (start source)
    { label := { kind := .element kind, start := (0 : Nat), name := some name } }
    (0 + 1 + name.length + 1) u ht
  exact ⟨m, congrArg Label.kind hlabel, congrArg Label.name hlabel,
    (run_of_item hitem).trans hrun⟩

/-- The closing tag of the element `name`. -/
def closingTag (name : Text) : Text :=
  '<' :: '/' :: (name ++ ['>'])

/-- The start tag of an element that is left open, and a text after it, up to its closing tag. -/
theorem LeavesOpen.exists_run {grammar : Grammar} {name t : Text} (h : LeavesOpen grammar name)
    (ht : ∀ c ∈ t, inText c = true) :
    ∃ (kind : ElementKind) (m : Node), m.kind = .element kind ∧ m.name = some name ∧
      parseTemplate grammar (openingTag name ++ t ++ closingTag name)
        = run (.of grammar (openingTag name ++ t ++ closingTag name))
          ((start (openingTag name ++ t ++ closingTag name)).push m)
          ⟨(openingTag name ++ t).length, closingTag name⟩ := by
  obtain ⟨hname, kind, hkind, hvoid, hraw⟩ := h.exists_kind
  have hsource : openingTag name ++ t ++ closingTag name
      = '<' :: (name ++ '>' :: (t ++ closingTag name)) := by
    simp [openingTag]
  have hpos : (openingTag name ++ t).length = 0 + 1 + name.length + 1 + t.length := by
    rw [openingTag, List.length_append, List.length_cons, List.length_append,
      List.length_singleton]
    omega
  rw [hpos, hsource]
  have hstart : elementKind name 0 (start ('<' :: (name ++ '>' :: (t ++ closingTag name))))
      = .ok kind := hkind
  obtain ⟨m, hm⟩ := exists_run_opened
    (.of grammar ('<' :: (name ++ '>' :: (t ++ closingTag name)))) ('/' :: (name ++ ['>'])) hname
    hstart hvoid hraw ht
  exact ⟨kind, m, hm⟩

/-- A closing tag for an element that never has content is refused, whatever is open. -/
theorem run_closingTag_of_isVoid {ctx : Context} {st : Stack} {name : Text} (pos : Nat)
    (hname : IsTagName name) (hvoid : isVoid name = true) :
    run ctx st ⟨pos, closingTag name⟩ = .error (.misread ⟨.voidClosingTag name, pos⟩) := by
  apply run_of_error
  rw [item_closingTag hname, Stack.closeElement, if_pos hvoid]
  rfl

/-- Any other closing tag ends the element of its name that is innermost. -/
theorem exists_run_closingTag {ctx : Context} {source name : Text} {m : Node} {kind : ElementKind}
    (pos : Nat) (hname : IsTagName name) (hvoid : isVoid name = false)
    (hkind : m.kind = .element kind) (hm : m.name = some name) :
    ∃ root n, run ctx ((start source).push m) ⟨pos, closingTag name⟩ = .ok root ∧
      root.children = [n] ∧ n.kind = .element kind ∧ n.name = some name := by
  have hclose (stop : Nat) : ((start source).push m).closeElement name pos stop
      = .ok (((start source).push m).pop stop) := by
    rw [Stack.closeElement, if_neg (by rw [hvoid]; decide), Stack.closeNamed_of_cons _ _ _ rfl,
      if_pos]
    rw [hkind, hm]
    simp [Kind.isElement]
  have hitem : Reader.item ctx pos '<' ((start source).push m)
      ⟨pos + 1, '/' :: (name ++ '>' :: [])⟩ = _ := item_closingTag hname
  rw [hclose] at hitem
  generalize pos + 1 + 1 + name.length + 1 = stop at hitem
  have hbranch : (m.endAt stop).kind.isBranch = false := by
    show m.kind.isBranch = false
    rw [hkind]
    rfl
  refine ⟨(start source).root.attach (m.endAt stop), m.endAt stop, (run_of_item hitem).trans ?_,
    ?_, hkind, hm⟩
  · rw [run_nil, Stack.finish, Stack.closeOmitted_of_nil _ rfl]
    rfl
  · rw [Node.attach_of_not_branch hbranch]
    rfl

end Template

open Template in
/-- **What a start tag opens its closing tag ends**, with any text between them, unless the name is
that of an element without content: then the closing tag is refused, although the element was
left open. -/
theorem parseTemplate_closing_opened {grammar : Grammar} {name t : Text}
    (hopen : LeavesOpen grammar name) (hbracket : '<' ∉ t) (hbrace : '{' ∉ t) :
    (isVoid name = false → ∃ root n,
      parseTemplate grammar (openingTag name ++ t ++ closingTag name) = .ok root ∧
        root.children = [n] ∧ n.kind.isElement = true ∧ n.name = some name) ∧
    (isVoid name = true →
      parseTemplate grammar (openingTag name ++ t ++ closingTag name)
        = .error (.misread ⟨.voidClosingTag name, (openingTag name ++ t).length⟩)) := by
  have hname := hopen.exists_kind.1
  have ht : ∀ c ∈ t, inText c = true := by
    intro c hc
    rw [inText, Bool.and_eq_true, bne_iff_ne, bne_iff_ne]
    exact ⟨fun h => hbracket (h ▸ hc), fun h => hbrace (h ▸ hc)⟩
  obtain ⟨kind, m, hm, hmname, hrun⟩ := hopen.exists_run ht
  rw [hrun]
  constructor
  · intro hcontent
    obtain ⟨root, n, hclosed, hchildren, hn, hnname⟩ :=
      exists_run_closingTag _ hname hcontent hm hmname
    exact ⟨root, n, hclosed, hchildren, by rw [hn]; rfl, hnname⟩
  · intro hempty
    exact run_closingTag_of_isVoid _ hname hempty

namespace Template

/-- A component is left open by its start tag. -/
theorem leavesOpen_of_component {name : Text} (hname : IsTagName name)
    (hkind : elementKind name 0 (start []) = .ok .component) : LeavesOpen .permissive name := by
  have hplace : (⟨0 + 1 + name.length + 1, []⟩ : Cursor) = ⟨(openingTag name).length, []⟩ := by
    rw [openingTag, List.length_cons, List.length_append, List.length_singleton, Nat.zero_add,
      Nat.add_comm 1, Nat.add_right_comm]
  have hitem : Reader.item (.of .permissive (openingTag name)) 0 '<' (start (openingTag name))
      ⟨0 + 1, name ++ '>' :: []⟩ = _ :=
    item_startTag hname hkind (fun h => nomatch h.1) fun h => nomatch h.1
  rw [hplace] at hitem
  exact ⟨_, hitem, rfl⟩

end Template

open Template in
theorem parseTemplate_closing_opened_dotted :
    LeavesOpen .permissive "Nav.Link".toList ∧ '<' ∉ "all >".toList ∧ '{' ∉ "all >".toList ∧
      isVoid "Nav.Link".toList = false ∧
      ∃ root n,
        parseTemplate .permissive
            (openingTag "Nav.Link".toList ++ "all >".toList ++ closingTag "Nav.Link".toList)
          = .ok root ∧
        root.children = [n] ∧ n.kind.isElement = true ∧ n.name = some "Nav.Link".toList := by
  have hopen : LeavesOpen .permissive "Nav.Link".toList :=
    leavesOpen_of_component ⟨by decide +kernel, rfl⟩ (by decide)
  exact ⟨hopen, by decide, by decide, by decide,
    (parseTemplate_closing_opened hopen (by decide) (by decide)).1 (by decide)⟩

open Template in
/-- The closing tag of a component named `Link` is refused as that of an element without content,
although its start tag leaves it open. -/
theorem parseTemplate_closing_link :
    LeavesOpen .permissive "Link".toList ∧
      parseTemplate .permissive "<Link>a</Link>".toList
        = .error (.misread ⟨.voidClosingTag "Link".toList, 7⟩) := by
  have hopen : LeavesOpen .permissive "Link".toList :=
    leavesOpen_of_component ⟨by decide +kernel, rfl⟩ (by decide)
  obtain ⟨kind, m, -, -, hrun⟩ := hopen.exists_run (t := ['a']) (List.forall_mem_singleton.2 rfl)
  exact ⟨hopen, hrun.trans (run_closingTag_of_isVoid _ hopen.exists_kind.1 (by decide +kernel))⟩

end ComponentDivision
