/-
# A reading ends

Every loop of a reading ends after at most one turn more than the text has characters. The loops
over the text move forward with each turn. The loops over the open nodes end because there are
never more nodes above the root than characters that have been read.

* `Reader.Onward` : a reader takes a character;
* `length_inner_of_item` : an item opens no more nodes than it has characters;
* `Template.Goes.keepsRoot` : the open nodes at every place of a reading;
* `parseTemplate_loops_end` : all loops of a reading.
-/
import ComponentDivision.Proofs.Template.Loops
import ComponentDivision.Proofs.Template.Unwind

namespace ComponentDivision

/-! ## How many nodes are open -/

theorem Stack.length_inner_push (n : Node) (st : Stack) :
    (st.push n).inner.length = st.inner.length + 1 :=
  List.length_cons

/-- No item opens more than two nodes. -/
theorem Item.length_inner_le {ctx : Context} {st st' : Stack} {c d : Cursor}
    (h : Item ctx st c st' d) : st'.inner.length ≤ st.inner.length + 2 := by
  -- elements whose closing tags are left out are ended first, and that opens nothing
  have hbefore (name : Text) := Stack.length_inner_of_pops (st.pops_closeBefore name c.pos)
  have homitted := Stack.length_inner_of_pops (st.pops_closeOmitted c.pos)
  cases h with
  | text | comment | braces => rw [Stack.length_inner_receive]; omega
  | closedElement name | rawElement name =>
    have := hbefore name
    rw [Stack.length_inner_receive]
    omega
  | openElement name =>
    have := hbefore name
    rw [Stack.length_inner_push]
    omega
  | closeElement name st' d h =>
    unfold Stack.closeElement at h
    split at h
    · cases h
    · have := Stack.length_inner_of_pops (Stack.pops_closeNamed h)
      omega
  | openGuarded =>
    rw [Stack.length_inner_push]
    omega
  | openAwait => rw [Stack.length_inner_push, Stack.length_inner_push]
  | elseIf =>
    rw [Stack.length_inner_push, Stack.length_inner_push]
    omega
  | elseBranch =>
    rw [Stack.length_inner_push]
    omega
  | awaitBranch =>
    rw [Stack.length_inner_push, Stack.length_inner_modifyCurrent, Stack.length_inner_pop]
    omega
  | closeBlock kind keyword st' d hkind h =>
    have := Stack.length_inner_of_pops (Stack.pops_closeBlock h)
    omega

/-! ## Readers that take a character -/

/-- Less is left only further on. -/
theorem Cursor.Reaches.pos_lt {c d : Cursor} (h : c.Reaches d)
    (hlt : d.rest.length < c.rest.length) : c.pos < d.pos := by
  obtain ⟨n, -, rfl⟩ := h
  simp only [Cursor.advance, List.length_drop] at hlt ⊢
  omega

namespace Reader

variable {α β : Type}

/-- A reader takes one character at least. -/
def Onward (r : Reader α) : Prop :=
  ∀ ⦃c a d⦄, r c = .ok (a, d) → c.pos < d.pos

theorem Onward.bind {r : Reader α} {f : α → Reader β} (hr : Onward r) (hf : ∀ a, Forward (f a)) :
    Onward (r >>= f) := by
  intro c b e h
  obtain ⟨a, d, hd, h⟩ := bind_eq_ok.1 h
  exact Nat.lt_of_lt_of_le (hr hd) (hf a h).pos_le

theorem Forward.bind_onward {r : Reader α} {f : α → Reader β} (hr : Forward r)
    (hf : ∀ a, Onward (f a)) : Onward (r >>= f) := by
  intro c b e h
  obtain ⟨a, d, hd, h⟩ := bind_eq_ok.1 h
  exact Nat.lt_of_le_of_lt (hr hd).pos_le (hf a h)

/-- What follows a mark need not take a character, what stands in for it must. -/
theorem onward_marked {mark : Text} (hmark : mark ≠ []) {r s : Reader α} (hr : Forward r)
    (hs : Onward s) : Onward (do if ← eat mark then r else s) := by
  intro c a e h
  obtain ⟨eaten, d, hd, hnext⟩ := bind_eq_ok.1 h
  cases eaten with
  | false =>
    obtain rfl := eq_of_eat_false hd
    exact hs hnext
  | true =>
    have hrest := congrArg List.length (rest_of_eat hd)
    have hpos := List.length_pos_of_ne_nil hmark
    rw [List.length_append] at hrest
    exact Nat.lt_of_lt_of_le ((forward_eat mark hd).pos_lt (by omega)) (hr hnext).pos_le

theorem onward_expect {mark : Text} (hmark : mark ≠ []) : Onward (expect mark) := by
  intro c a d h
  have hrest := congrArg List.length (rest_of_expect h)
  have hpos := List.length_pos_of_ne_nil hmark
  rw [List.length_append] at hrest
  exact (forward_expect mark h).pos_lt (by omega)

theorem onward_tagName : Onward tagName := by
  intro c name d h
  simp only [tagName] at h
  split at h
  · rename_i hname
    cases h
    refine Nat.lt_add_of_pos_right (List.length_pos_of_ne_nil ?_)
    intro hnil
    rw [hnil] at hname
    cases hname
  · cases h

variable (ctx : Context) (start : Nat) (st : Stack)

/-- After the angle bracket of a tag comes the mark of a comment or a name. -/
theorem onward_tag : Onward (tag ctx start st) :=
  onward_marked (by decide) (forward_comment start st) <|
    (forward_eat _).bind_onward fun _ => onward_tagName.bind fun _ =>
      (forward_closingTag start _ st).ite (forward_startTag ctx start _ st)

theorem onward_interpolation : Onward (interpolation ctx start st) :=
  (forward_readExpressionAt ctx _).bind_onward fun _ =>
    (onward_expect (List.cons_ne_nil _ _)).bind fun _ =>
      forward_position.bind fun _ => Forward.pure _

/-- After the opening brace comes a mark or, at last, the closing brace. -/
theorem onward_mustache : Onward (mustache ctx start st) :=
  forward_skipBlank.bind_onward fun _ =>
    onward_marked (List.cons_ne_nil _ _) (forward_openBlock ctx start st) <|
      onward_marked (List.cons_ne_nil _ _) (forward_continueBlock ctx start st) <|
        onward_marked (List.cons_ne_nil _ _) (forward_closeBlock start st) <|
          onward_marked (List.cons_ne_nil _ _) (forward_specialTag ctx start st) <|
            onward_interpolation ctx start st

end Reader

/-- **An item opens no more nodes than it has characters.** -/
theorem length_inner_of_item {ctx : Context} {st st' : Stack} {c d : Cursor} {first : Char}
    {rest : Text} (hrest : c.rest = first :: rest)
    (h : Reader.item ctx c.pos first st (c.advance 1) = .ok (st', d)) :
    st'.inner.length + c.pos ≤ st.inner.length + d.pos := by
  have hopened := (item_of_reader hrest h).length_inner_le
  -- markup has two characters, and text opens no node
  obtain ⟨-, h⟩ | ⟨-, h⟩ := Reader.ite_eq_ok.1 h
  · have hlt : c.pos + 1 < d.pos := Reader.onward_tag ctx c.pos st h
    omega
  obtain ⟨-, h⟩ | ⟨-, h⟩ := Reader.ite_eq_ok.1 h
  · have hlt : c.pos + 1 < d.pos := Reader.onward_mustache ctx c.pos st h
    omega
  · obtain ⟨more, e, hmore, h⟩ := Reader.bind_eq_ok.1 h
    obtain ⟨rfl, rfl⟩ := Reader.pure_eq_ok.1 h
    have hle : c.pos + 1 ≤ e.pos := (Reader.forward_takeWhile _ hmore).pos_le
    rw [Stack.length_inner_receive]
    omega

/-! ## Runs -/

namespace Template

variable {grammar : Grammar} {source : Text} {st st' : Stack} {c d : Cursor}

theorem Goes.length_inner_le {ctx : Context} (h : Goes ctx st c st' d) :
    st'.inner.length + c.pos ≤ st.inner.length + d.pos := by
  induction h with
  | refl => exact Nat.le_refl _
  | item hrest hitem _ ih =>
    have := length_inner_of_item hrest hitem
    omega

/-- A run leaves the open nodes nested. -/
theorem Goes.ready (h : Goes (.of grammar source) st c st' d) (hc : c.On source)
    (hst : st.Ready source c.pos) : st'.Ready source d.pos := by
  induction h with
  | refl => exact hst
  | @item st st' st'' c d e first rest hrest hitem _ ih =>
    have hnext : c.Reaches (c.advance 1) := Cursor.reaches_advance (by simp [hrest])
    have hcd := hnext.trans (Reader.forward_item _ _ _ _ hitem)
    exact ih (hcd.on hc) (ready_of_item hc hst (item_of_reader hrest hitem) hcd)

/-- Nested open nodes stand on the root that a reading begins with. -/
theorem rooted_of_nested {r : Int} (h : st.Nested source r) : st.Rooted source := by
  obtain ⟨root, inner⟩ := st
  induction inner generalizing r with
  | nil => exact h.2.1
  | cons n ns ih => exact ih h.2.2

/-- At every place of a reading there are no more open nodes than characters before it. -/
theorem Goes.keepsRoot (h : Goes (.of grammar source) (start source) ⟨0, source⟩ st c) :
    c.On source ∧ st.inner.length ≤ c.pos ∧ st.KeepsRoot source (source.length + 1) := by
  have hon : Cursor.On source ⟨0, source⟩ := ⟨Nat.zero_le _, rfl⟩
  have hc := h.reaches.on hon
  have hlength : st.inner.length ≤ c.pos := by
    have hle : st.inner.length + 0 ≤ 0 + c.pos := h.length_inner_le
    omega
  have hrooted := rooted_of_nested (h.ready hon (ready_start source)).nested
  have hle := hc.pos_le
  exact ⟨hc, hlength, hrooted.keepsRoot (by omega)⟩

end Template

/-- **All loops of a reading end.** For every grammar and every text: each turn that goes on, of the
loop over the items, over the attributes of a tag, over the characters of a value and of the scan
for the end of an expression, moves forward in the text and not past its end, and each of these
loops takes at most one turn more than there are characters left. So the reading of the text takes
no more turns than the text has characters, and one. At every place of the reading there are no more
open nodes than characters before it, the loops that end open nodes take no more turns than that,
and one, and they leave the root at the bottom, so that there always is an innermost open node. -/
theorem parseTemplate_loops_end (grammar : Grammar) (source : Text) :
    (∃ n ≤ source.length + 1, (Template.itemLoop (.of grammar source)).Takes n
      (Template.start source, ⟨0, source⟩) (parseTemplate grammar source)) ∧
    (Template.itemLoop (.of grammar source)).Ends (·.2.On source) (·.2.pos)
      (fun _ => source.length) source.length (fun s => Template.run (.of grammar source) s.1 s.2) ∧
    (attributeLoop (.of grammar source)).Ends (·.here.On source) (·.here.pos) (·.2.pos)
      source.length (attributesFrom (.of grammar source)) ∧
    (∀ quote, (valueLoop (.of grammar source) quote).Ends (·.On source quote) (·.here.pos)
      (·.2.pos) source.length (valueFrom (.of grammar source) quote)) ∧
    (∀ options start, (scanLoop options).Ends (ScanState.On source start) (start + ·.1.offset)
      (start + ·.next) source.length (fun s => scanFrom options s.1 s.2)) ∧
    ∀ st c, Template.Goes (.of grammar source) (Template.start source) ⟨0, source⟩ st c →
      c.On source ∧ st.inner.length ≤ c.pos ∧ st.KeepsRoot source (source.length + 1) := by
  have hitems := Loop.ends_of_moves fun s hs =>
    @Template.moves_itemLoop (.of grammar source) source s hs
  refine ⟨?_, hitems, Loop.ends_of_moves fun s hs => moves_attributeLoop hs,
    fun quote => Loop.ends_of_moves fun s hs => moves_valueLoop hs,
    fun options start => Loop.ends_of_moves fun s hs => moves_scanLoop hs,
    fun st c h => h.keepsRoot⟩
  have hon : Cursor.On source ⟨0, source⟩ := ⟨Nat.zero_le _, rfl⟩
  obtain ⟨n, htakes, hn, -⟩ := @Loop.Ends.takes _ _ _ _ _ _ _ _ _ hitems
    (Template.start source, ⟨0, source⟩) hon
  exact ⟨n, hn, htakes⟩

end ComponentDivision
