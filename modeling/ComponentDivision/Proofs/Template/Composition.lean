/-
# One template after another

A template at whose end nothing but the root is open may be followed by another one: the two
are read one after the other, and the expressions of the second one follow those of the first
one. Where the first template ends with text and the second one begins with text, the two texts
become one item; it has no expressions.

* `Template.ClosesAll` : only the root is open at the end of a template;
* `Shared.embed` : a template in a longer text;
* `Template.Goes.carry` : a run inside a longer text;
* `parseTemplate_append` : the expressions of two templates, one after the other.
-/
import ComponentDivision.Proofs.Template.Transfer

namespace ComponentDivision

/-- Reading the template ends with only the root open: no element is left that would be closed
because the text ends. -/
def Template.ClosesAll (grammar : Grammar) (source : Text) : Prop :=
  ∃ st d, Goes (.of grammar source) (start source) ⟨0, source⟩ st d ∧ d.rest = [] ∧ st.inner = []

/-! ## A template in a longer text -/

/-- Every node is like the one that is moved. -/
theorem Surround.like_node (w : Surround) (n : Node) : n.Like (·.after w.before) (w.node n) := by
  have hlabel : Label.gist id ∘ w.label = Label.gist (·.after w.before) := by
    funext l
    simp [Label.gist, Surround.label]
  rw [Node.Like, Node.gist, Node.gist, Surround.node, Node.map_map, hlabel]

/-- A template as it is, and in a longer text. -/
def Shared.embed (grammar : Grammar) (text : Text) (w : Surround) : Shared where
  grammar := grammar
  text := text
  left := ⟨[], []⟩
  right := w
  move := (·.after w.before)
  place {i j} hij hj := by
    have htext : (Surround.mk [] []).text text = text := List.append_nil text
    rw [w.place_text grammar j (by omega), htext]
    rfl

namespace Template

variable {w : Surround} {source : Text} {grammar : Grammar} {found : List Expression}
  {st st₁ st' : Stack} {c d : Cursor}

/-- Open nodes that are carried along are alike. -/
theorem alike_of_carries (h : w.Carries found st st') :
    (Ground.rooted (·.after w.before) found).Alike st st' := by
  refine ⟨st.root, st'.root, st.inner, st'.inner, rfl, rfl, ?_, h.kind, h.kind', h.expressions⟩
  rw [h.inner, List.forall₂_map_right_iff, List.forall₂_same]
  exact fun n _ => w.like_node n

/-- **A run inside a longer text.** -/
theorem Goes.carry (h : Goes (.of grammar source) st c st₁ d) (hc : c.On source)
    (hst : w.Carries found st st') :
    ∃ st₁' k, (k = 0 ∨ k = (w.after.takeWhile inText).length) ∧
      (Ground.rooted (·.after w.before) found).Alike st₁ st₁' ∧
      Goes (.of grammar (w.text source)) st' (w.cursor c) st₁' ((w.cursor d).advance k) := by
  have hgoes := Goes.whole (S := Shared.embed grammar source w) h rfl
  obtain ⟨st₁', k, hk, hst₁, hgoes'⟩ := hgoes.share hc (alike_of_carries hst)
    fun _ _ => Ground.kept_of_none rfl _
  exact ⟨st₁', k, hk.imp_right And.right, hst₁, hgoes'⟩

/-! ## Two templates -/

variable {s₁ s₂ : Text} {root root₁ root₂ : Node} {k : Nat}

/-- The first of two templates, at whose end the second one begins, perhaps after a text. -/
theorem ClosesAll.exists_goes (h : ClosesAll grammar s₁)
    (h₁ : parseTemplate grammar s₁ = .ok root₁) (s₂ : Text) :
    ∃ st k, (k = 0 ∨ k = (s₂.takeWhile inText).length) ∧
      Goes (.of grammar (s₁ ++ s₂)) (start (s₁ ++ s₂)) ⟨0, s₁ ++ s₂⟩ st
        ⟨s₁.length + k, s₂.drop k⟩ ∧
      st.inner = [] ∧ st.root.kind = .fragment ∧
      allExpressions st.root.children = allExpressions root₁.children := by
  obtain ⟨st₁, d, hgoes, hd, hst₁⟩ := h
  have hon : Cursor.On s₁ ⟨0, s₁⟩ := ⟨Nat.zero_le _, rfl⟩
  have hstart : (Surround.mk [] s₂).Carries [] (start s₁) (start (s₁ ++ s₂)) :=
    ⟨rfl, rfl, rfl, rfl⟩
  obtain ⟨st, k, hk, hst, hgoes'⟩ := hgoes.carry hon hstart
  have hpos : d.pos = s₁.length := by
    obtain ⟨hle, hdrop⟩ := hgoes.reaches.on hon
    have hge := List.drop_eq_nil_iff.1 (hdrop.symm.trans hd)
    omega
  have hplace : ((Surround.mk [] s₂).cursor d).advance k = ⟨s₁.length + k, s₂.drop k⟩ := by
    rw [Surround.cursor, Cursor.advance, hd, hpos]
    rfl
  rw [hplace] at hgoes'
  have hroot : st₁.root = root₁ := by
    have hfinish := Stack.finish_eq_ok.1 ((run_eq_ok_of_nil hd).1 (hgoes.run_eq.symm.trans h₁))
    rw [Stack.closeOmitted_of_nil _ hst₁] at hfinish
    rw [hfinish]
  have hafter : (allExpressions st₁.root.children).map (·.after [])
      = allExpressions root₁.children := by
    rw [hroot]
    exact List.map_id'' Expression.after_nil _
  obtain ⟨hinner, -, hkind, hexpressions⟩ := hst.root_of_nil (Ground.onRoots_rooted _ _) hst₁
  exact ⟨st, k, hk, hgoes', hinner, hkind, hexpressions.trans hafter⟩

/-- The text that a template begins with may be passed over. -/
theorem exists_run_after_text (h : parseTemplate grammar source = .ok root)
    (hk : k = 0 ∨ k = (source.takeWhile inText).length) :
    ∃ st, run (.of grammar source) st ⟨k, source.drop k⟩ = .ok root ∧ st.inner = [] ∧
      st.root.kind = .fragment ∧ allExpressions st.root.children = [] := by
  have hstart : ∃ st, run (.of grammar source) st ⟨0, source⟩ = .ok root ∧ st.inner = [] ∧
      st.root.kind = .fragment ∧ allExpressions st.root.children = [] :=
    ⟨start source, h, rfl, rfl, rfl⟩
  rcases hk with rfl | rfl
  · exact hstart
  cases source with
  | nil => exact hstart
  | cons first rest =>
    by_cases hfirst : inText first = true
    · rw [List.takeWhile_cons_of_pos hfirst, List.length_cons]
      have hplace : (Cursor.mk (0 + 1) rest).advance (rest.takeWhile inText).length
          = ⟨(rest.takeWhile inText).length + 1,
            (first :: rest).drop ((rest.takeWhile inText).length + 1)⟩ := by
        rw [Cursor.advance, Nat.zero_add, Nat.add_comm]
        rfl
      have hitem : Reader.item (.of grammar (first :: rest)) 0 first (start (first :: rest))
          ⟨0 + 1, rest⟩ = _ := item_text hfirst 0 _ _
      rw [hplace] at hitem
      exact ⟨_, (run_of_item hitem).symm.trans h, rfl, rfl, rfl⟩
    · rw [List.takeWhile_cons_of_neg hfirst]
      exact hstart

/-- The second of two templates. -/
theorem exists_run_append {st : Stack} (h : run (.of grammar s₂) st ⟨k, s₂.drop k⟩ = .ok root₂)
    (hk : k ≤ s₂.length) (hst : (Surround.mk s₁ []).Carries found st st') :
    ∃ root, run (.of grammar (s₁ ++ s₂)) st' ⟨s₁.length + k, s₂.drop k⟩ = .ok root ∧
      allExpressions root.children
        = found ++ (allExpressions root₂.children).map (·.after s₁) := by
  have hrun : run (Shared.embed grammar s₂ ⟨s₁, []⟩).leftContext st
      ((Shared.embed grammar s₂ ⟨s₁, []⟩).left.cursor ⟨k, s₂.drop k⟩) = .ok root₂ := by
    rw [Shared.leftContext_of_whole _ rfl, Shared.cursor_of_whole _ rfl]
    exact h
  obtain ⟨root, hrun', -, -, hexpressions⟩ :=
    run_share (Ground.onRoots_rooted _ _) rfl rfl ⟨hk, rfl⟩ (alike_of_carries hst) hrun
  have hcontext : (Shared.embed grammar s₂ ⟨s₁, []⟩).rightContext = .of grammar (s₁ ++ s₂) := by
    show Context.of grammar (s₁ ++ (s₂ ++ [])) = _
    rw [List.append_nil]
  have hplace : (Surround.mk s₁ []).cursor ⟨k, s₂.drop k⟩ = ⟨s₁.length + k, s₂.drop k⟩ := by
    rw [Surround.cursor, List.append_nil, Nat.add_comm]
  rw [hcontext, Shared.embed, hplace] at hrun'
  exact ⟨root, hrun', hexpressions⟩

/-- An expression and a line feed. -/
theorem parseTemplate_name_newline :
    parseTemplate .permissive "\x7bp\x7d\n".toList
      = .ok
        { label := { kind := .fragment, start := 0, stop := 4 }
          children := [
            .leaf { kind := .mustache, start := 0, stop := 3, expression := some ⟨1, 2, 1, 1⟩ },
            .ofText 3 ['\n']] } := by
  refine (run_of_item (item_name rfl 0 _ _)).trans ?_
  refine (run_of_item (item_text rfl 3 _ _)).trans ?_
  refine run_nil.trans ?_
  rw [Stack.finish, Stack.closeOmitted_of_nil _ rfl]
  rfl

theorem closesAll_name_newline : ClosesAll .permissive "\x7bp\x7d\n".toList :=
  ⟨_, _, .item rfl (item_name rfl 0 _ _) (.item rfl (item_text rfl 3 _ _) (.refl _ _)), rfl, rfl⟩

/-- Text, and an expression on the second line. -/
theorem parseTemplate_text_name :
    parseTemplate .permissive "b\n\x7bp\x7d".toList
      = .ok
        { label := { kind := .fragment, start := 0, stop := 5 }
          children := [
            .ofText 0 ['b', '\n'],
            .leaf { kind := .mustache, start := 2, stop := 5
                    expression := some ⟨3, 4, 2, 1⟩ }] } := by
  refine (run_of_item (item_text rfl 0 _ _)).trans ?_
  refine (run_of_item (item_name rfl 2 _ _)).trans ?_
  refine run_nil.trans ?_
  rw [Stack.finish, Stack.closeOmitted_of_nil _ rfl]
  rfl

end Template

/-- **One template after another.** If both are accepted and only the root is open at the end of
the first one, then the two together are accepted, and their expressions are those of the first
one and then those of the second one, moved by the first one: by its characters and its lines. -/
theorem parseTemplate_append {grammar : Grammar} {s₁ s₂ : Text} {root₁ root₂ : Node}
    (h₁ : parseTemplate grammar s₁ = .ok root₁) (hclosed : Template.ClosesAll grammar s₁)
    (h₂ : parseTemplate grammar s₂ = .ok root₂) :
    ∃ root, parseTemplate grammar (s₁ ++ s₂) = .ok root ∧
      allExpressions root.children
        = allExpressions root₁.children ++ (allExpressions root₂.children).map (·.after s₁) := by
  obtain ⟨st, k, hk, hgoes, hinner, hkind, hfound⟩ := hclosed.exists_goes h₁ s₂
  obtain ⟨st₂, hrun, hinner₂, hkind₂, hnone⟩ := Template.exists_run_after_text h₂ hk
  have hle : k ≤ s₂.length := by
    rcases hk with rfl | rfl
    · exact Nat.zero_le _
    · exact (List.takeWhile_prefix _).length_le
  have hst : (Surround.mk s₁ []).Carries (allExpressions root₁.children) st₂ st := by
    refine ⟨?_, hkind₂, hkind, ?_⟩
    · rw [hinner, hinner₂, List.map_nil]
    · rw [hfound, hnone, List.map_nil, List.append_nil]
  obtain ⟨root, hroot, hexpressions⟩ := Template.exists_run_append hrun hle hst
  exact ⟨root, hgoes.run_eq.trans hroot, hexpressions⟩

open Template in
/-- The text at the end of the first template goes on in the second one. -/
theorem parseTemplate_append_name_text :
    ∃ root₁ root₂,
      parseTemplate .permissive "\x7bp\x7d\n".toList = .ok root₁ ∧
      ClosesAll .permissive "\x7bp\x7d\n".toList ∧
      parseTemplate .permissive "b\n\x7bp\x7d".toList = .ok root₂ ∧
      ∃ root,
        parseTemplate .permissive "\x7bp\x7d\nb\n\x7bp\x7d".toList = .ok root ∧
        allExpressions root.children = [⟨1, 2, 1, 1⟩, ⟨7, 8, 3, 1⟩] :=
  ⟨_, _, parseTemplate_name_newline, closesAll_name_newline, parseTemplate_text_name,
    parseTemplate_append parseTemplate_name_newline closesAll_name_newline
      parseTemplate_text_name⟩

end ComponentDivision
