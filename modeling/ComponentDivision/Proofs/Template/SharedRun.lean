/-
# Runs over a text that two longer texts share

Reading a template is a run from one item to the next. A run over a text goes through the same
items wherever the text stands, and open nodes that are alike stay alike, as long as the node on
which the run stands is not ended.

* `Template.Goes` : a run from some open nodes at one place to others at another place;
* `Template.exists_goes` : a template that is accepted has a run to its end;
* `Template.Goes.share` : a run over a text, in two longer texts.
-/
import ComponentDivision.Proofs.Template.Locality

namespace ComponentDivision

namespace Template

variable {ctx : Context} {st st' st'' : Stack} {c d e : Cursor} {root : Node}

/-! ## Parts of a run -/

/-- A run goes on, item by item, from open nodes at one place to open nodes at another. -/
inductive Goes (ctx : Context) : Stack → Cursor → Stack → Cursor → Prop
  | refl (st : Stack) (c : Cursor) : Goes ctx st c st c
  | item {st st' st'' : Stack} {c d e : Cursor} {first : Char} {rest : Text}
      (hrest : c.rest = first :: rest)
      (hitem : Reader.item ctx c.pos first st (c.advance 1) = .ok (st', d))
      (h : Goes ctx st' d st'' e) : Goes ctx st c st'' e

theorem Goes.reaches (h : Goes ctx st c st' d) : c.Reaches d := by
  induction h with
  | refl st c => exact .refl c
  | @item st st' st'' c d e first rest hrest hitem _ ih =>
    have hnext : c.Reaches (c.advance 1) := Cursor.reaches_advance (by simp [hrest])
    exact (hnext.trans (Reader.forward_item _ _ _ _ hitem)).trans ih

theorem Goes.trans (h₁ : Goes ctx st c st' d) (h₂ : Goes ctx st' d st'' e) :
    Goes ctx st c st'' e := by
  induction h₁ with
  | refl => exact h₂
  | item hrest hitem _ ih => exact .item hrest hitem (ih h₂)

/-- No run comes back to where an item began. -/
theorem Goes.not_item {first : Char} {rest : Text} (h : Goes ctx st' d st'' c)
    (hrest : c.rest = first :: rest)
    (hitem : Reader.item ctx c.pos first st (c.advance 1) = .ok (st', d)) : False := by
  have hlength := (Reader.forward_item _ _ _ _ hitem).length_le
  have hback := h.reaches.length_le
  simp only [Cursor.advance, List.length_drop, hrest, List.length_cons] at hlength hback
  omega

/-- A run that comes back to its place has read nothing. -/
theorem Goes.eq_of_same_place (h : Goes ctx st c st' c) : st' = st := by
  cases h with
  | refl => rfl
  | item hrest hitem hgoes => exact (hgoes.not_item hrest hitem).elim

/-- The rest of a run is a run. -/
theorem Goes.run_eq (h : Goes ctx st c st' d) : run ctx st c = run ctx st' d := by
  induction h with
  | refl => rfl
  | @item st st' st'' c d e first rest hrest hitem _ ih =>
    obtain ⟨pos, text⟩ := c
    cases hrest
    exact (run_of_item hitem).trans ih

/-- A run that succeeds goes on to the end of the text. -/
theorem exists_goes (h : run ctx st c = .ok root) :
    ∃ st' d, Goes ctx st c st' d ∧ d.rest = [] ∧ st'.finish d.pos = .ok root := by
  fun_induction run ctx st c with
  | case1 st c hnil => exact ⟨st, c, .refl st c, hnil, Except.mapError_eq_ok_iff.1 h⟩
  | case2 => cases h
  | case3 st c first rest hcons st' d hitem ih =>
    obtain ⟨st'', e, hgoes, hend⟩ := ih h
    exact ⟨st'', e, .item hcons hitem hgoes, hend⟩

/-! ## Text -/

/-- A character that goes on with a text. -/
def inText (c : Char) : Bool :=
  c != '<' && c != '{'

/-- A text that goes on as far as it can. -/
theorem item_text {first : Char} (hfirst : inText first = true) (pos : Nat) (st : Stack)
    (c : Cursor) :
    Reader.item ctx pos first st c
      = .ok (st.receive (.ofText pos (first :: c.rest.takeWhile inText)),
        c.advance (c.rest.takeWhile inText).length) := by
  simp only [inText, Bool.and_eq_true, bne_iff_ne] at hfirst
  rw [Reader.item, if_neg hfirst.1, if_neg hfirst.2]
  rfl

theorem eq_of_not_inText {first : Char} (hfirst : ¬ inText first = true) :
    first = '<' ∨ first = '{' := by
  simp only [inText, Bool.and_eq_true, bne_iff_ne] at hfirst
  by_contra hnot
  exact hfirst (not_or.1 hnot)

end Template

namespace Template

variable {S : Shared} {G : Ground S.move} {st st₁ st₂ st' : Stack} {c d : Cursor}

/-! ## Runs in two longer texts -/

/-- A text, which goes on in the second text if it ends where the shared text ends. -/
theorem item_text_right {first : Char} (hfirst : inText first = true) (hst : G.Alike st st')
    {pos : Nat} (hitem : Reader.item S.leftContext pos first st (S.left.cursor c)
      = .ok (st₁, S.left.cursor d)) (pos' : Nat) :
    ∃ st₁' k, (k = 0 ∨ d.rest = [] ∧ k = (S.right.after.takeWhile inText).length) ∧
      G.Alike st₁ st₁' ∧
      Reader.item S.rightContext pos' first st' (S.right.cursor c)
        = .ok (st₁', (S.right.cursor d).advance k) := by
  rw [item_text hfirst] at hitem
  obtain ⟨rfl, hcursor⟩ := Prod.mk.inj (Except.ok.inj hitem)
  rw [item_text hfirst]
  by_cases hend : S.left.after = S.right.after ∨ d.rest ≠ []
  · obtain ⟨htake, hplace⟩ := Reader.takeWhile_right hcursor hend
    have hplace' : (S.right.cursor c).advance ((S.right.cursor c).rest.takeWhile inText).length
        = (S.right.cursor d).advance 0 := by rw [htake, hplace, Cursor.advance_zero]
    rw [hplace']
    exact ⟨_, 0, .inl rfl, hst.receive (Node.like_ofText _ pos' _ _), rfl⟩
  · rw [not_or, not_not] at hend
    obtain ⟨hle, rfl⟩ := Surround.advance_of_cursor (List.takeWhile_prefix inText).length_le hcursor
    have hall : (c.rest.takeWhile inText).length = c.rest.length := by
      have hge := List.drop_eq_nil_iff.1 hend.2
      by_contra hne
      have htake : (S.left.cursor c).rest.takeWhile inText = c.rest.takeWhile inText := by
        rw [Surround.cursor, List.takeWhile_append, if_neg hne]
      have hlt := (List.takeWhile_prefix inText (l := c.rest)).length_le
      rw [htake] at hge
      omega
    have hlength : ((S.left.cursor c).rest.takeWhile inText).length = c.rest.length := by
      have hge := List.drop_eq_nil_iff.1 hend.2
      omega
    have htext : (S.right.cursor c).rest.takeWhile inText
        = c.rest ++ S.right.after.takeWhile inText := by
      rw [Surround.cursor, List.takeWhile_append, if_pos hall]
    have hplace' : (S.right.cursor c).advance ((S.right.cursor c).rest.takeWhile inText).length
        = (S.right.cursor (c.advance ((S.left.cursor c).rest.takeWhile inText).length)).advance
          (S.right.after.takeWhile inText).length := by
      rw [htext, S.right.cursor_advance hle, Cursor.advance_advance, List.length_append, hlength]
    rw [hplace']
    exact ⟨_, _, .inr ⟨hend.2, rfl⟩, hst.receive (Node.like_ofText _ pos' _ _), rfl⟩

/-- **A run over a text goes through the same items wherever the text stands**, as long as the node
on which it stands is not ended. Only a text at the end may go on. -/
theorem Goes.share (h : Goes S.leftContext st (S.left.cursor c) st₁ (S.left.cursor d))
    (hc : c.On S.text) (hst : G.Alike st st')
    (hkept : ∀ {st₂ e}, Goes S.leftContext st (S.left.cursor c) st₂ e →
      Goes S.leftContext st₂ e st₁ (S.left.cursor d) → G.Kept st₂) :
    ∃ st₁' k, (k = 0 ∨ d.rest = [] ∧ k = (S.right.after.takeWhile inText).length) ∧
      G.Alike st₁ st₁' ∧
      Goes S.rightContext st' (S.right.cursor c) st₁' ((S.right.cursor d).advance k) := by
  generalize hcursor : S.left.cursor c = c₀ at h hkept
  generalize hend : S.left.cursor d = d₀ at h hkept
  -- on the run, each of whose items begins and ends in the shared text
  induction h generalizing st' c with
  | refl st c₀ =>
    obtain rfl := Surround.eq_of_cursor (hcursor.trans hend.symm)
    refine ⟨st', 0, .inl rfl, hst, ?_⟩
    rw [Cursor.advance_zero]
    exact .refl _ _
  | @item st st₂ st₁ c₀ e d₀ first rest hrest hitem hgoes ih =>
    subst hcursor hend
    obtain ⟨m₁, m₂, h₁, hnext, rfl, -, hlength, hm₂, hlast⟩ := Surround.exists_part
      (.refl (S.left.cursor c)) hrest (Reader.forward_item _ _ _ _ hitem) hgoes.reaches
    obtain rfl := Surround.eq_of_cursor h₁
    have hon := (Cursor.reaches_advance hlength).on hc
    have hkept₂ {st₃ : Stack} {e : Cursor} (h₂ : Goes S.leftContext st₂ (S.left.cursor m₂) st₃ e)
        (h₃ : Goes S.leftContext st₃ e st₁ (S.left.cursor d)) : G.Kept st₃ :=
      hkept (.item hrest hitem h₂) h₃
    obtain ⟨y, ys, hcons⟩ := List.exists_cons_of_length_pos hlength
    have hfirst : y = first := by
      rw [Surround.cursor, hcons] at hrest
      exact (List.cons.inj hrest).1
    have hrest' : (S.right.cursor c).rest = first :: (ys ++ S.right.after) := by
      rw [Surround.cursor, hcons, hfirst, List.cons_append]
    rw [hnext] at hitem
    by_cases htext : inText first = true
    · obtain ⟨st₂', k, hk, hst₂, hitem'⟩ :=
        item_text_right htext hst hitem (S.right.cursor c).pos
      rw [S.right.cursor_advance hlength] at hitem'
      rcases hk with rfl | ⟨hnil, hk⟩
      · rw [Cursor.advance_zero] at hitem'
        obtain ⟨st₁', k, hk, hst₁, hgoes'⟩ := ih (hm₂.on hon) hst₂ rfl rfl hkept₂
        exact ⟨st₁', k, hk, hst₁, .item hrest' hitem' hgoes'⟩
      · obtain ⟨n, hn, rfl⟩ := hlast
        obtain rfl : n = 0 := by
          rw [hnil, List.length_nil] at hn
          omega
        rw [Cursor.advance_zero] at hgoes ⊢
        obtain rfl := hgoes.eq_of_same_place
        exact ⟨st₂', k, .inr ⟨hnil, hk⟩, hst₂, .item hrest' hitem' (.refl _ _)⟩
    · obtain ⟨st₂', hitem', hst₂⟩ := (Reader.settled_item hst _ (S.right.cursor c).pos
        (eq_of_not_inText htext)).move hon hitem
      rw [S.right.cursor_advance hlength] at hitem'
      obtain ⟨st₁', k, hk, hst₁, hgoes'⟩ :=
        ih (hm₂.on hon) (hst₂ (hkept₂ (.refl _ _) hgoes)) rfl rfl hkept₂
      exact ⟨st₁', k, hk, hst₁, .item hrest' hitem' hgoes'⟩

end Template

end ComponentDivision
