/-
# Rows of spans

Spans that follow one another between two offsets. A row may leave out offsets
between one span and the next, but no two of its spans overlap.

* `Row` : spans in order between two offsets;
* `Tile` : spans that leave out nothing between two offsets;
* `row_append` : a row in two parts;
* `Row.pairwise` : each span of a row ends before the ones after it;
* `pairwise_before_mergeSort` : spans that do not overlap, put in order.
-/
import ComponentDivision.Region
import Mathlib.Data.List.Chain

namespace ComponentDivision

/-! ## Single spans -/

namespace Span

/-- The offset `i` is in the span. -/
def Covers (s : Span) (i : Int) : Prop :=
  s.start ≤ i ∧ i < s.stop

/-- The span `s` lies in `t`. -/
def Within (s t : Span) : Prop :=
  t.start ≤ s.start ∧ s.start ≤ s.stop ∧ s.stop ≤ t.stop

/-- The span `a` ends before `b` begins. -/
def Before (a b : Span) : Prop :=
  a.stop ≤ b.start

/-- One of the two spans ends before the other one begins. -/
def Apart (a b : Span) : Prop :=
  a.Before b ∨ b.Before a

theorem Apart.symm {a b : Span} (h : a.Apart b) : b.Apart a :=
  Or.symm h

end Span

/-! ## Rows -/

/-- The spans follow one another between `lo` and `hi`. -/
def Row (lo hi : Int) : List Span → Prop
  | [] => lo ≤ hi
  | s :: ss => lo ≤ s.start ∧ s.start ≤ s.stop ∧ Row s.stop hi ss

theorem row_nil {lo hi : Int} : Row lo hi [] ↔ lo ≤ hi :=
  Iff.rfl

theorem row_cons {lo hi : Int} {s : Span} {ss : List Span} :
    Row lo hi (s :: ss) ↔ lo ≤ s.start ∧ s.start ≤ s.stop ∧ Row s.stop hi ss :=
  Iff.rfl

/-- The bounds of a row are in order. -/
theorem Row.le {lo hi : Int} {ss : List Span} (h : Row lo hi ss) : lo ≤ hi := by
  induction ss generalizing lo with
  | nil => exact h
  | cons s ss ih =>
    obtain ⟨hlo, hs, hrest⟩ := h
    have := ih hrest
    omega

/-- A row stays one between wider bounds. -/
theorem Row.mono {lo hi lo' hi' : Int} {ss : List Span} (h : Row lo hi ss) (hlo : lo' ≤ lo)
    (hhi : hi ≤ hi') : Row lo' hi' ss := by
  induction ss generalizing lo lo' with
  | nil =>
    rw [row_nil] at h ⊢
    omega
  | cons s ss ih =>
    obtain ⟨hs, hss, hrest⟩ := h
    exact ⟨by omega, hss, ih hrest (Int.le_refl _)⟩

/-- A row in two parts, with an offset between them. -/
theorem row_append {lo hi : Int} {ss ts : List Span} :
    Row lo hi (ss ++ ts) ↔ ∃ mid, Row lo mid ss ∧ Row mid hi ts := by
  induction ss generalizing lo with
  | nil =>
    constructor
    · intro h
      exact ⟨lo, Int.le_refl _, h⟩
    · rintro ⟨mid, hlo, h⟩
      exact h.mono hlo (Int.le_refl _)
  | cons s ss ih =>
    rw [List.cons_append, row_cons, ih]
    constructor
    · rintro ⟨hlo, hs, mid, h₁, h₂⟩
      exact ⟨mid, ⟨hlo, hs, h₁⟩, h₂⟩
    · rintro ⟨mid, ⟨hlo, hs, h₁⟩, h₂⟩
      exact ⟨hlo, hs, mid, h₁, h₂⟩

/-- A row with one more span at its end. -/
theorem Row.concat {lo hi : Int} {s : Span} {ss : List Span} (h : Row lo s.start ss)
    (hs : s.start ≤ s.stop) (hhi : s.stop ≤ hi) : Row lo hi (ss ++ [s]) :=
  row_append.2 ⟨s.start, h, Int.le_refl _, hs, hhi⟩

/-- The spans of a row lie between its bounds. -/
theorem Row.mem {lo hi : Int} {s : Span} {ss : List Span} (h : Row lo hi ss) (hs : s ∈ ss) :
    lo ≤ s.start ∧ s.start ≤ s.stop ∧ s.stop ≤ hi := by
  obtain ⟨before, after, rfl⟩ := List.append_of_mem hs
  obtain ⟨mid, h₁, hmid, hss, h₂⟩ := row_append.1 h
  have := h₁.le
  have := h₂.le
  exact ⟨by omega, hss, by omega⟩

/-- Each span of a row ends before the ones after it. -/
theorem Row.pairwise {lo hi : Int} {ss : List Span} (h : Row lo hi ss) :
    ss.Pairwise Span.Before := by
  induction ss generalizing lo with
  | nil => exact List.Pairwise.nil
  | cons s ss ih =>
    obtain ⟨-, -, hrest⟩ := h
    exact List.pairwise_cons.2 ⟨fun t ht => (hrest.mem ht).1, ih hrest⟩

/-- What is left of a row after some spans are taken out. -/
theorem Row.sublist {lo hi : Int} {ss ts : List Span} (h : Row lo hi ts) (hsub : ss.Sublist ts) :
    Row lo hi ss := by
  induction hsub generalizing lo with
  | slnil => exact h
  | cons s _ ih =>
    obtain ⟨hlo, hs, hrest⟩ := h
    exact ih (hrest.mono (by omega) (Int.le_refl _))
  | cons_cons s _ ih =>
    obtain ⟨hlo, hs, hrest⟩ := h
    exact ⟨hlo, hs, ih hrest⟩

/-! ## Tiles -/

/-- The spans follow one another from `lo` to `hi` and leave out nothing. -/
def Tile (lo hi : Int) : List Span → Prop
  | [] => lo = hi
  | s :: ss => lo = s.start ∧ Tile s.stop hi ss

/-- Tiles with one more span at their end. -/
theorem Tile.concat {lo : Int} {s : Span} {ss : List Span} (h : Tile lo s.start ss) :
    Tile lo s.stop (ss ++ [s]) := by
  induction ss generalizing lo with
  | nil => exact ⟨h, rfl⟩
  | cons t ts ih =>
    obtain ⟨hlo, hrest⟩ := h
    exact ⟨hlo, ih hrest⟩

/-- Each tile ends where the next one begins. -/
theorem Tile.isChain {lo hi : Int} {ss : List Span} (h : Tile lo hi ss) :
    ss.IsChain fun a b => a.stop = b.start := by
  induction ss generalizing lo with
  | nil => exact .nil
  | cons s ss ih =>
    obtain ⟨-, hrest⟩ := h
    cases ss with
    | nil => exact .singleton s
    | cons t ts => exact List.isChain_cons_cons.2 ⟨hrest.1, ih hrest⟩

/-- The first tile begins at the lower bound. -/
theorem Tile.head?_start {lo hi : Int} {s : Span} {ss : List Span} (h : Tile lo hi ss)
    (hs : s ∈ ss.head?) : s.start = lo := by
  cases ss with
  | nil => cases hs
  | cons t ts =>
    cases hs
    exact h.1.symm

/-- The last tile ends at the upper bound. -/
theorem Tile.getLast?_stop {lo hi : Int} {s : Span} {ss : List Span} (h : Tile lo hi ss)
    (hs : s ∈ ss.getLast?) : s.stop = hi := by
  induction ss generalizing lo with
  | nil => cases hs
  | cons t ts ih =>
    obtain ⟨-, hrest⟩ := h
    cases ts with
    | nil =>
      cases hs
      exact hrest
    | cons u us => exact ih hrest (by rwa [List.getLast?_cons_cons] at hs)

/-! ## Putting spans in order -/

/-- Things with spans that are apart, put in order by their starts, follow one another. -/
theorem pairwise_before_mergeSort {α : Type} {span : α → Span} {as : List α}
    (hapart : as.Pairwise fun a b => (span a).Apart (span b))
    (hne : ∀ a ∈ as, (span a).start < (span a).stop) :
    (as.mergeSort fun a b => (span a).start ≤ (span b).start).Pairwise
      fun a b => (span a).Before (span b) := by
  have hperm := List.mergeSort_perm as fun a b => decide ((span a).start ≤ (span b).start)
  have hsorted : (as.mergeSort fun a b => (span a).start ≤ (span b).start).Pairwise
      fun a b => decide ((span a).start ≤ (span b).start) := by
    apply List.pairwise_mergeSort
    · intro a b c
      simp only [decide_eq_true_eq]
      omega
    · intro a b
      simp only [Bool.or_eq_true, decide_eq_true_eq]
      omega
  have happart := (hperm.pairwise_iff fun {_ _} h => Span.Apart.symm h).2 hapart
  refine (hsorted.and happart).imp_of_mem fun {a b} ha hb hab => ?_
  obtain ⟨hle, hab | hba⟩ := hab
  · exact hab
  · -- `b` cannot end before `a` begins, since it does not begin before `a`
    have hb := hne b (hperm.mem_iff.1 hb)
    have hle := of_decide_eq_true hle
    unfold Span.Before at hba
    omega

end ComponentDivision
