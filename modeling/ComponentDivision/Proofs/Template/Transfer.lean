/-
# Expressions of a text that two longer texts share

An expression that stands in a text stands in each of two longer texts that share it. Its place
there differs by what stands before the text, and its characters are the same.

* `Surround.slice_text`, `Surround.lineNumber_text` : slices and lines of a text in a longer one;
* `Shared.between` : a text in two longer texts, and where an expression of the first one stands in
  the second one;
* `Shared.between_exact` : the expressions that do stand in the text;
* `Ground.roots`, `Ground.found` : the nodes on which the runs over two texts stand;
* `Template.run_share` : the trees of two texts that end alike.
-/
import ComponentDivision.Proofs.DocumentOrder
import ComponentDivision.Proofs.Template.Acceptance
import ComponentDivision.Proofs.Template.SharedRun

namespace ComponentDivision

/-! ## A text in a longer text -/

namespace Surround

variable {t : Text} {i j : Nat}

theorem slice_text (w : Surround) (hij : i ≤ j) (hj : j ≤ t.length) :
    (w.text t).slice (i + w.before.length : Nat) (j + w.before.length : Nat) = t.slice i j := by
  have hlength : (w.text t).length = w.before.length + (t.length + w.after.length) := by
    rw [text, List.length_append, List.length_append]
  obtain ⟨n, rfl⟩ := Nat.exists_eq_add_of_le hij
  rw [Nat.add_right_comm, Text.slice_natCast_add n (by omega), Text.slice_natCast_add n (by omega),
    text, Nat.add_comm i, ← List.drop_drop, List.drop_left,
    List.drop_append_of_le_length (by omega),
    List.take_append_of_le_length (by rw [List.length_drop]; omega)]

theorem lineNumber_text (w : Surround) (hi : i ≤ t.length) :
    (w.text t).lineNumber (i + w.before.length : Nat)
      = w.before.newlines + t.lineNumber i := by
  have hlength : (w.text t).length = w.before.length + (t.length + w.after.length) := by
    rw [text, List.length_append, List.length_append]
  rw [Text.lineNumber_eq (by omega) (by omega), Text.lineNumber_eq (by omega) (by omega),
    Int.toNat_natCast, Int.toNat_natCast, text, Nat.add_comm i, List.take_length_add_append,
    List.take_append_of_le_length hi, Text.newlines_append]
  omega

end Surround

/-! ## Two longer texts -/

/-- Where an expression of a longer text stands in another one, if it stands in the text that both
share. -/
def Surround.transfer (grammar : Grammar) (t : Text) (w w' : Surround) (x : Expression) :
    Expression :=
  if w.before.length ≤ x.start ∧ x.start ≤ x.stop ∧ x.stop ≤ w.before.length + t.length then
    (Context.of grammar (w'.text t)).place (x.start - w.before.length + w'.before.length).toNat
      (x.stop - w.before.length + w'.before.length).toNat
  else ⟨-1, -1, 0, 0⟩

/-- A text in two longer texts. What begins before the offset `keep` of the first one, and so not in
the text, stays where it is. -/
def Shared.between (grammar : Grammar) (text : Text) (left right : Surround) (keep : Nat)
    (hkeep : keep ≤ left.before.length) : Shared where
  grammar := grammar
  text := text
  left := left
  right := right
  move x := if x.start < keep then x else left.transfer grammar text right x
  place {i j} hij hj := by
    have hstart : ((Context.of grammar (left.text text)).place (i + left.before.length)
        (j + left.before.length)).start = (i + left.before.length : Nat) := rfl
    have hstop : ((Context.of grammar (left.text text)).place (i + left.before.length)
        (j + left.before.length)).stop = (j + left.before.length : Nat) := rfl
    rw [if_neg (by omega), Surround.transfer, if_pos (by omega), hstart, hstop]
    congr 1 <;> omega

namespace Shared

/-- The first text may be the shared text itself. -/
theorem leftContext_of_whole (S : Shared) (hleft : S.left = ⟨[], []⟩) :
    S.leftContext = .of S.grammar S.text := by
  rw [leftContext, hleft]
  exact congrArg (Context.of S.grammar) (List.append_nil S.text)

theorem cursor_of_whole (S : Shared) (hleft : S.left = ⟨[], []⟩) (c : Cursor) :
    S.left.cursor c = c := by
  rw [hleft, Surround.cursor, List.append_nil]
  rfl

variable {grammar : Grammar} {text : Text} {left right : Surround} {keep : Nat}
  {hkeep : keep ≤ left.before.length} {x : Expression}

/-- **An expression that has a place in the second text stands in the text.** -/
theorem between_exact
    (hexact : ((between grammar text left right keep hkeep).move x).Exact (right.text text))
    (hx : keep ≤ x.start) :
    ∃ i j : Nat, i ≤ j ∧ j ≤ text.length ∧ x.start = (i + left.before.length : Nat) ∧
      x.stop = (j + left.before.length : Nat) ∧
      (between grammar text left right keep hkeep).move x
        = (Context.of grammar (right.text text)).place (i + right.before.length)
          (j + right.before.length) := by
  have hmove : (between grammar text left right keep hkeep).move x
      = left.transfer grammar text right x := if_neg (by omega)
  rw [hmove] at hexact ⊢
  unfold Surround.transfer at hexact ⊢
  -- what does not stand in the text is moved to a place before the second text
  split at hexact
  · rename_i hinside
    refine ⟨(x.start - left.before.length).toNat, (x.stop - left.before.length).toNat, by omega,
      by omega, by omega, by omega, ?_⟩
    rw [if_pos hinside]
    congr 1 <;> omega
  · cases hexact.nonneg

/-- It has the same characters in both texts. -/
theorem slice_between
    (hexact : ((between grammar text left right keep hkeep).move x).Exact (right.text text))
    (hx : keep ≤ x.start) :
    (right.text text).slice ((between grammar text left right keep hkeep).move x).start
        ((between grammar text left right keep hkeep).move x).stop
      = (left.text text).slice x.start x.stop := by
  obtain ⟨i, j, hij, hj, hstart, hstop, hmove⟩ := between_exact hexact hx
  rw [hmove, hstart, hstop, left.slice_text hij hj]
  exact right.slice_text hij hj

theorem map_slice_between {es : List Expression}
    (hexact : ∀ x ∈ es,
      ((between grammar text left right keep hkeep).move x).Exact (right.text text))
    (hes : ∀ x ∈ es, keep ≤ x.start) :
    (es.map (between grammar text left right keep hkeep).move).map
        (fun x => (right.text text).slice x.start x.stop)
      = es.map fun x => (left.text text).slice x.start x.stop := by
  rw [List.map_map]
  exact List.map_congr_left fun x hx => slice_between (hexact x hx) (hes x hx)

end Shared

/-! ## The trees of two texts -/

namespace Node

variable {move : Expression → Expression} {n n' : Node} {ns ns' : List Node}

theorem children_gist (move : Expression → Expression) (n : Node) :
    (n.gist move).children = n.children.map (gist move) := by
  cases n
  exact mapAll_eq _ _

theorem Like.children (h : Like move n n') : AllLike move n.children n'.children := by
  rw [AllLike, ← children_gist, ← children_gist, h]

theorem AllLike.expressions (h : AllLike move ns ns') :
    allExpressions ns' = (allExpressions ns).map move := by
  induction ns generalizing ns' with
  | nil =>
    cases ns' with
    | nil => rfl
    | cons => cases h
  | cons n ns ih =>
    obtain ⟨m, ms, rfl, hn, hns⟩ := h.exists_cons
    rw [allExpressions, allExpressions, List.map_append, hn.expressions, ih hns]

end Node

/-- Two roots that are alike. -/
def Ground.roots (move : Expression → Expression) : Ground move where
  base := none
  base' := none
  rel f f' := f.kind = .fragment ∧ f.Like move f'
  attach {f f' m m'} hf hm := ⟨(f.kind_attach m).trans hf.1, hf.2.attach hm⟩
  setPattern {f f'} b pattern hf :=
    ⟨(Label.setPattern_eq _ b pattern).1.trans hf.1, hf.2.setPattern b pattern⟩
  kind hf := .inl ⟨rfl, hf.1⟩
  kind' hf := by
    rw [hf.2.kind, hf.1]
    rfl
  plain := nofun
  plain' := nofun
  closes _ hbase := absurd rfl hbase

theorem Ground.onRoots_roots (move : Expression → Expression) : (roots move).OnRoots :=
  ⟨rfl, rfl⟩

/-- The root of a template, and a node of a longer text which has the expressions `es` before those
of the template. This is the root or stands in other nodes, none of them an element. -/
def Ground.found (move : Expression → Expression) (es : List Expression)
    (base' : Option (List Node × Node)) (kind' : Kind) (hkind' : kind'.isElement = false)
    (hbase' : ∀ o ∈ base', ∀ n ∈ o.1, n.kind.isElement = false) : Ground move where
  base := none
  base' := base'
  rel f f' := f.kind = .fragment ∧ f'.kind = kind' ∧
    allExpressions f'.children = es ++ (allExpressions f.children).map move
  attach {f f' m m'} hf hm := by
    obtain ⟨hkind, hkind', hexpressions⟩ := hf
    refine ⟨(Node.kind_attach f m).trans hkind, (Node.kind_attach f' m').trans hkind', ?_⟩
    rw [allExpressions_attach, allExpressions_attach, hexpressions, hm.kind, hm.expressions,
      List.map_append, List.append_assoc]
    split
    · rfl
    · rfl
  setPattern {f f'} b pattern hf := by
    obtain ⟨hkind, hkind', hexpressions⟩ := hf
    exact ⟨(Label.setPattern_eq _ b pattern).1.trans hkind,
      (Label.setPattern_eq _ b pattern).1.trans hkind', hexpressions⟩
  kind hf := .inl ⟨rfl, hf.1⟩
  kind' hf := by
    rw [hf.2.1]
    exact hkind'
  plain := nofun
  plain' := hbase'
  closes _ hbase := absurd rfl hbase

/-- Two roots, with other expressions before those of the first one. -/
abbrev Ground.rooted (move : Expression → Expression) (es : List Expression) : Ground move :=
  .found move es none .fragment rfl nofun

theorem Ground.onRoots_rooted (move : Expression → Expression) (es : List Expression) :
    (rooted move es).OnRoots :=
  ⟨rfl, rfl⟩

namespace Template

variable {S : Shared} {G : Ground S.move} {st st₁ st' : Stack} {c d : Cursor} {root : Node}

/-- No text goes on where an item in brackets or braces follows, or nothing. -/
theorem Goes.share_exact (h : Goes S.leftContext st (S.left.cursor c) st₁ (S.left.cursor d))
    (hright : S.right.after.takeWhile inText = []) (hc : c.On S.text) (hst : G.Alike st st')
    (hkept : ∀ {st₂ e}, Goes S.leftContext st (S.left.cursor c) st₂ e →
      Goes S.leftContext st₂ e st₁ (S.left.cursor d) → G.Kept st₂) :
    ∃ st₁', G.Alike st₁ st₁' ∧
      Goes S.rightContext st' (S.right.cursor c) st₁' (S.right.cursor d) := by
  obtain ⟨st₁', k, hk, hst₁, hgoes⟩ := h.share hc hst hkept
  obtain rfl : k = 0 := by
    rcases hk with hk | ⟨-, hk⟩
    · exact hk
    · rw [hk, hright]
      rfl
  rw [Cursor.advance_zero] at hgoes
  exact ⟨st₁', hst₁, hgoes⟩

/-- A run over a template is one over the first of two texts, if nothing stands around it there. -/
theorem Goes.whole (h : Goes (.of S.grammar S.text) st c st' d) (hleft : S.left = ⟨[], []⟩) :
    Goes S.leftContext st (S.left.cursor c) st' (S.left.cursor d) := by
  rw [S.leftContext_of_whole hleft, S.cursor_of_whole hleft, S.cursor_of_whole hleft]
  exact h

/-- **Two texts that end alike have trees that are alike.** -/
theorem run_share (hG : G.OnRoots) (hleft : S.left.after = []) (hright : S.right.after = [])
    (hc : c.On S.text) (hst : G.Alike st st')
    (h : run S.leftContext st (S.left.cursor c) = .ok root) :
    ∃ root', run S.rightContext st' (S.right.cursor c) = .ok root' ∧ G.rel root root' := by
  obtain ⟨st₁, e, hgoes, he, hfinish⟩ := Template.exists_goes h
  obtain ⟨n, hn, rfl⟩ := hgoes.reaches
  have hle : n ≤ c.rest.length := by
    rwa [Surround.cursor, hleft, List.append_nil] at hn
  rw [← S.left.cursor_advance hle] at hgoes he hfinish
  obtain ⟨st₁', hst₁, hgoes'⟩ := hgoes.share_exact (by rw [hright]; rfl) hc hst
    fun _ _ => Ground.kept_of_none hG.base _
  have hend : (S.right.cursor (c.advance n)).rest = [] := by
    rw [Surround.cursor, hleft, List.append_nil] at he
    rw [Surround.cursor, he, hright]
    rfl
  obtain ⟨root', hfinish', hroot⟩ := hst₁.finish hG hfinish (S.right.cursor (c.advance n)).pos
  exact ⟨root', hgoes'.run_eq.trans ((run_eq_ok_of_nil hend).2 hfinish'), hroot⟩

end Template

end ComponentDivision
