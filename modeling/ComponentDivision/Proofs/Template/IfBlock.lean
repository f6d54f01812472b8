/-
# Templates that are one if block

A template that consists of one if block: an opener, a body and a closer. The last thing that is
read is the closer, and it ends the block that the opener has opened. If the block has no else
branch, nothing but elements whose closing tags may be left out is open inside it when the closer
comes.

* `ifOpening`, `ifText` : the text of an if block;
* `Stack.Assembled.eq_of_closeBranches` : a block without an else branch is innermost at its closer;
* `Template.exists_body` : the run over the body of an if block.
-/
import ComponentDivision.Proofs.Template.FirstBlock
import ComponentDivision.Proofs.Template.Opener

namespace ComponentDivision

/-- The opener of an if block, with the guard `g`, and its body. -/
def ifOpening (g body : Text) : Text :=
  ['{', '#', 'i', 'f', ' '] ++ g ++ ['}'] ++ body

/-- The closer of an if block. -/
def ifCloser : Text :=
  ['{', '/', 'i', 'f', '}']

/-- An if block. -/
def ifText (g body : Text) : Text :=
  ifOpening g body ++ ifCloser

theorem length_ifOpening (g body : Text) :
    (ifOpening g body).length = 5 + g.length + 1 + body.length := by
  simp only [ifOpening, List.length_append, List.length_cons, List.length_nil]

/-! ## The closer -/

/-- A brace after which there is no other one is the last one. -/
theorem eq_of_append_brace {x y t u : Text} (h : x ++ '{' :: t = y ++ '{' :: u) (ht : '{' ∉ t)
    (hu : '{' ∉ u) : x = y ∧ t = u := by
  have hlength {x y t u v : Text} (hxy : y = x ++ v) (h : '{' :: t = v ++ '{' :: u)
      (ht : '{' ∉ t) : y = x ∧ t = u := by
    cases v with
    | nil =>
      cases h
      exact ⟨hxy.trans (List.append_nil x), rfl⟩
    | cons c cs =>
      cases h
      exact absurd (List.mem_append_right cs List.mem_cons_self) ht
  rcases List.append_eq_append_iff.1 h with ⟨v, hv, hrest⟩ | ⟨v, hv, hrest⟩
  · obtain ⟨hxy, htu⟩ := hlength hv hrest ht
    exact ⟨hxy.symm, htu⟩
  · obtain ⟨hxy, htu⟩ := hlength hv hrest hu
    exact ⟨hxy, htu.symm⟩

namespace Stack

variable {st : Stack} {below : List Node × Node} {f : Node} {r : Int}

/-- **If an if block has no else branch when its branches have ended, it was innermost before.** -/
theorem Assembled.eq_of_closeBranches (h : st.Assembled)
    (hst : st.closeBranches (.guarded .ifBlock) r = .upon (some below) f [])
    (hkind : f.kind = .guarded .ifBlock) (hnone : f.elseBlock = none) :
    st = .upon (some below) f [] := by
  fun_induction Stack.closeBranches (.guarded .ifBlock) r st with
  | case1 => exact hst
  | case2 st n ns hcons hn ih =>
    have hpop := ih (h.pop hcons) hst
    obtain ⟨hstands, -, -⟩ := h.tail hcons
    simp only [Bool.or_eq_true, Bool.and_eq_true, decide_eq_true_eq] at hn
    rw [Stack.pop, hcons] at hpop
    cases ns with
    | nil => cases congrArg Stack.inner hpop
    | cons m ms =>
      obtain ⟨rfl, -⟩ := List.cons.inj (congrArg Stack.inner hpop)
      rw [Node.kind_attach] at hkind
      cases hstands with
      | content hcontent hchain =>
        rcases hn with hn | hn
        · rw [Kind.isBranch_of_isContent hcontent] at hn
          cases hn
        · exact absurd ⟨hn.1.2, hn.2⟩ hchain
      | chain _ _ helse => cases hkind.symm.trans helse
      | elseBranch hbranch =>
        have hend : (n.endAt r).kind = .branch .elseBlock := hbranch
        unfold Node.attach at hnone
        rw [hend] at hnone
        cases hnone
      | awaitBranch b _ _ _ hawait => cases hkind.symm.trans hawait
  | case3 => exact hst

end Stack

/-! ## The body -/

namespace Template

open Reader

variable {ctx : Context} {grammar : Grammar} {root n : Node} {g body : Text}

/-- Open nodes stay settled. -/
theorem Goes.settled {st st' : Stack} {c d : Cursor} (h : Goes ctx st c st' d)
    (hst : st.Settled) : st'.Settled := by
  induction h with
  | refl => exact hst
  | item hrest hitem _ ih => exact ih (settled_of_item hst (item_of_reader hrest hitem))

/-- The guard of the if block with which a text begins. -/
def ifGuard (grammar : Grammar) (g body : Text) : Expression :=
  (Context.of grammar (ifText g body)).place 5 (5 + g.length)

/-- The open nodes after the opener of the if block with which a text begins. -/
def afterOpener (grammar : Grammar) (g body : Text) : Stack :=
  (start (ifText g body)).push
    { label := { kind := .guarded .ifBlock, start := 0
                 expression := some (ifGuard grammar g body) } }

/-- The opener of an if block that is a whole template. -/
theorem exists_opener (hg : ScannedWhole [] g)
    (h : parseTemplate grammar (ifText g body) = .ok root) :
    grammar.expression g = .accepted ∧
      item (.of grammar (ifText g body)) 0 '{' (start (ifText g body))
          ((Cursor.mk 0 (ifText g body)).advance 1)
        = .ok (afterOpener grammar g body, ⟨5 + g.length + 1, body ++ ifCloser⟩) ∧
      run (.of grammar (ifText g body)) (afterOpener grammar g body)
        ⟨5 + g.length + 1, body ++ ifCloser⟩ = .ok root := by
  have htext : ifText g body
      = '{' :: '#' :: 'i' :: 'f' :: ' ' :: (g ++ '}' :: (body ++ ifCloser)) := by
    simp only [ifText, ifOpening, List.append_assoc, List.cons_append, List.nil_append]
  have hrun : run (.of grammar (ifText g body)) (start (ifText g body))
      ⟨0, '{' :: '#' :: 'i' :: 'f' :: ' ' :: (g ++ '}' :: (body ++ ifCloser))⟩ = .ok root := by
    rw [← htext]
    exact h
  have hnext : (Cursor.mk 0 (ifText g body)).advance 1
      = ⟨0 + 1, '#' :: 'i' :: 'f' :: ' ' :: (g ++ '}' :: (body ++ ifCloser))⟩ := by
    rw [htext]
    rfl
  obtain ⟨st, d, hitem, hrun⟩ := run_cons_eq_ok.1 hrun
  obtain ⟨haccepted, rfl, rfl⟩ := (item_if_eq_ok hg 0 _).1 hitem
  rw [Nat.zero_add] at hitem hrun
  rw [hnext]
  exact ⟨haccepted, hitem, hrun⟩

/-- **The run over the body of an if block that is a whole template.** It goes up to the closer, and
all the time the open nodes stand on the block. -/
theorem exists_body (hg : ScannedWhole [] g)
    (h : parseTemplate grammar (ifText g body) = .ok root) (hroot : root.children = [n]) :
    ∃ f st, n = f.endAt (ifText g body).length ∧
      f.Heads (.guarded .ifBlock) (some (ifGuard grammar g body)) ∧
      Goes (.of grammar (ifText g body)) (afterOpener grammar g body)
        ⟨5 + g.length + 1, body ++ ifCloser⟩ st ⟨(ifOpening g body).length, ifCloser⟩ ∧
      (st.closeOmitted (ifOpening g body).length).closeBranches (.guarded .ifBlock)
          (ifOpening g body).length
        = .upon (some ([], (start (ifText g body)).root)) f [] ∧
      ∀ st₁ c₁, Goes (.of grammar (ifText g body)) (afterOpener grammar g body)
          ⟨5 + g.length + 1, body ++ ifCloser⟩ st₁ c₁ →
        Goes (.of grammar (ifText g body)) st₁ c₁ st ⟨(ifOpening g body).length, ifCloser⟩ →
        st₁.StandsOn ([], (start (ifText g body)).root) (.guarded .ifBlock)
          (some (ifGuard grammar g body)) := by
  obtain ⟨-, hitem, hrun⟩ := exists_opener hg h
  have hopened : (afterOpener grammar g body).StandsOn ([], (start (ifText g body)).root)
      (.guarded .ifBlock) (some (ifGuard grammar g body)) :=
    ⟨_, [], rfl, rfl, rfl, rfl, rfl⟩
  have hon : Cursor.On (ifText g body) ⟨5 + g.length + 1, body ++ ifCloser⟩ := by
    have hfirst : (Cursor.mk 0 (ifText g body)).Reaches ((Cursor.mk 0 (ifText g body)).advance 1) :=
      Cursor.reaches_advance (Nat.le_add_left 1 _)
    exact (hfirst.trans (forward_item _ _ _ _ hitem)).on ⟨Nat.zero_le _, rfl⟩
  obtain ⟨st', d, hgoes, -, hfinish⟩ := Template.exists_goes hrun
  obtain ⟨f, st₁, c₁, st₂, c₂, ns, hf, hbody, hcloser, hlast, hbetween, hchildren⟩ :=
    hgoes.exists_first_child hopened rfl hfinish
  obtain ⟨rfl, rfl⟩ := List.cons.inj (hroot.symm.trans hchildren)
  have hend : (c₂.pos : Int) = (ifText g body).length := by
    obtain ⟨-, -, htile⟩ := sound_of_parseTemplate h
    rw [hroot] at htile
    exact htile.getLast?_stop rfl
  have hon₁ := hbody.reaches.on hon
  have hon₂ := hcloser.goes.reaches.on hon₁
  have hnil : c₂.rest = [] := by
    rw [hon₂.rest_eq, List.drop_eq_nil_iff]
    omega
  obtain ⟨m, hbrace, t, ht, hfree⟩ := hcloser.text
  rw [hnil, List.append_nil] at ht
  have hsplit : (ifText g body).take c₁.pos ++ '{' :: t
      = ifOpening g body ++ '{' :: ['/', 'i', 'f', '}'] := by
    rw [← ht, ← hbrace, hon₁.rest_eq, List.take_append_drop]
    rfl
  obtain ⟨htake, rfl⟩ := eq_of_append_brace hsplit hfree (by decide)
  have hc₁ : c₁ = ⟨(ifOpening g body).length, ifCloser⟩ := by
    have hlength := congrArg List.length htake
    rw [List.length_take, Nat.min_eq_left hon₁.pos_le] at hlength
    rw [← hlength, ifCloser, ← ht, ← hbrace]
  subst hc₁
  refine ⟨f, st₁, by rw [← hend], hf, hbody, ?_, hbetween⟩
  rw [← hf.kind_eq]
  exact hcloser.ends

end Template

end ComponentDivision
