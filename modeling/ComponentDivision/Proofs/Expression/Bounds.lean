/-
# The bounds of an expression

A scan halts behind the expression it delimits. The expression has at least one
character, unless the options allow that there is none.

* `ScanState.Ordered` : the bounds of what has been scanned so far;
* `scan_bounds` : the bounds of a whole scan.
-/
import ComponentDivision.Expression.Scan

namespace ComponentDivision

/-- What has been scanned is not empty, and it ends before the offset of the scan. -/
def ScanState.Ordered (s : ScanState) : Prop :=
  ∀ i, s.start = some i → i < s.stop ∧ s.stop ≤ s.offset

/-- The bounds of a scan: its expression stands before the place where it halted. -/
structure Scan.Ordered (options : ScanOptions) (r : Scan) : Prop where
  start_le : r.start ≤ r.stop
  stop_le : r.stop ≤ r.next
  start_lt : options.allowEmpty = false → r.start < r.stop

theorem ScanState.Ordered.pass {s : ScanState} (h : s.Ordered) (g : Gap) : (s.pass g).Ordered := by
  intro i hi
  cases g with
  | blank =>
    obtain ⟨hlt, hle⟩ := h i hi
    exact ⟨hlt, Nat.le_succ_of_le hle⟩
  | comment more =>
    obtain ⟨hlt, hle⟩ := h i hi
    exact ⟨hlt, Nat.le_add_right_of_le hle⟩

theorem ScanState.Ordered.take {s : ScanState} (h : s.Ordered) (t : ScanToken) :
    (s.take t).Ordered := by
  intro i hi
  refine ⟨?_, Nat.le_refl _⟩
  simp only [ScanState.take, Option.some.injEq] at hi ⊢
  cases hs : s.start with
  | none =>
    rw [hs, Option.getD_none] at hi
    omega
  | some j =>
    obtain ⟨hlt, hle⟩ := h j hs
    rw [hs, Option.getD_some] at hi
    omega

/-- A scan that halts in an ordered state is ordered. -/
theorem ScanState.Ordered.halt {s : ScanState} {options : ScanOptions} {w : Option Text} {r : Scan}
    (h : s.Ordered) (hr : s.halt options w = .ok r) : r.Ordered options := by
  unfold ScanState.halt at hr
  split at hr
  · rename_i i hi
    obtain ⟨hlt, hle⟩ := h i hi
    cases hr
    exact ⟨Nat.le_of_lt hlt, hle, fun _ => hlt⟩
  · split at hr
    · rename_i hempty
      cases hr
      refine ⟨Nat.le_refl _, Nat.le_refl _, fun hne => ?_⟩
      rw [hne] at hempty
      cases hempty
    · cases hr

/-- Going on from an ordered state gives an ordered scan. -/
theorem scanFrom_ordered {options : ScanOptions} {s : ScanState} {t : Text} {r : Scan}
    (hs : s.Ordered) (h : scanFrom options s t = .ok r) : r.Ordered options := by
  fun_induction scanFrom options s t with
  | case1 => cases h
  | case2 => cases h
  | case3 s c cs _ ih => exact ih (hs.pass .blank) h
  | case4 s c cs more _ ih => exact ih (hs.pass (.comment more)) h
  | case5 s c cs _ _ => exact hs.halt h
  | case6 s c cs _ _ w _ => exact hs.halt h
  | case7 => cases h
  | case8 s c cs _ _ _ token _ ih => exact ih (hs.take token) h

/-- **The bounds of a scan.** The expression stands before the place where the scan halted, and
that place is inside the text. -/
theorem scan_bounds {options : ScanOptions} {t : Text} {r : Scan} (h : scan options t = .ok r) :
    r.Ordered options ∧ r.next < t.length := by
  have hordered : ({} : ScanState).Ordered := by
    intro i hi
    cases hi
  refine ⟨scanFrom_ordered hordered h, ?_⟩
  have hnext := (scanFrom_next h).2
  simpa using hnext

end ComponentDivision
