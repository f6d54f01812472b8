/-
# Line ends

A text is read with every line end as a line feed. A carriage return alone keeps its place as a
line feed; one with a line feed after it is lost, and what follows moves up by one.

* `Text.PairAt` : a carriage return with a line feed after it;
* `drop_unifyNewlines` : up to the first pair all places are kept;
* `slice_unifyNewlines` : a range after no pair and without carriage returns is the same;
* `isBlank_of_pair` : after a pair, the character behind a blank range is blank in the stored text.
-/
import ComponentDivision.Proofs.Text.Slice
import ComponentDivision.Text.Blank
import ComponentDivision.Text.Encoding

namespace ComponentDivision

/-- A carriage return and a line feed stand at the offset. -/
def Text.PairAt (t : Text) (i : Nat) : Prop :=
  ['\r', '\n'] <+: t.drop i

/-! ## Reading on by one character -/

theorem unifyNewlines_pair (cs : Text) :
    unifyNewlines ('\r' :: '\n' :: cs) = '\n' :: unifyNewlines cs := by
  rw [unifyNewlines]

/-- A character that begins no pair keeps its place. -/
theorem unifyNewlines_cons {c : Char} {cs : Text} (h : ¬ Text.PairAt (c :: cs) 0) :
    unifyNewlines (c :: cs) = (if c = '\r' then '\n' else c) :: unifyNewlines cs := by
  by_cases hc : c = '\r'
  · subst hc
    rw [if_pos rfl, unifyNewlines.eq_3]
    rintro more rfl
    exact h ⟨more, rfl⟩
  · rw [if_neg hc, unifyNewlines.eq_4]
    · rintro more rfl
      exact absurd rfl hc
    · rintro rfl
      exact hc rfl

theorem Text.eq_of_pairAt_zero {t : Text} (h : t.PairAt 0) : ∃ cs, t = '\r' :: '\n' :: cs := by
  obtain ⟨cs, hcs⟩ := h
  exact ⟨cs, hcs.symm⟩

/-- No carriage return is left. -/
theorem return_notMem_unifyNewlines (t : Text) : '\r' ∉ unifyNewlines t := by
  fun_induction unifyNewlines t with
  | case1 => exact List.not_mem_nil
  | case2 cs ih => exact List.not_mem_cons_of_ne_of_not_mem (by decide) ih
  | case3 cs _ ih => exact List.not_mem_cons_of_ne_of_not_mem (by decide) ih
  | case4 c cs _ hc ih =>
    refine List.not_mem_cons_of_ne_of_not_mem ?_ ih
    rintro rfl
    exact hc rfl

theorem length_unifyNewlines_le (t : Text) : (unifyNewlines t).length ≤ t.length := by
  fun_induction unifyNewlines t with
  | case1 => exact Nat.le_refl 0
  | case2 cs ih =>
    simp only [List.length_cons]
    omega
  | case3 cs _ ih => exact Nat.succ_le_succ ih
  | case4 c cs _ _ ih => exact Nat.succ_le_succ ih

/-! ## Ranges -/

/-- **Up to the first pair all places are kept.** -/
theorem drop_unifyNewlines {t : Text} {k : Nat} (h : ∀ i < k, ¬ t.PairAt i) :
    (unifyNewlines t).drop k = unifyNewlines (t.drop k) := by
  induction k generalizing t with
  | zero => rfl
  | succ k ih =>
    cases t with
    | nil => rfl
    | cons c cs =>
      rw [unifyNewlines_cons (h 0 (Nat.succ_pos k)), List.drop_succ_cons, List.drop_succ_cons]
      exact ih fun i hi => h (i + 1) (Nat.succ_lt_succ hi)

/-- What has no carriage return is read as it is. -/
theorem take_unifyNewlines {t : Text} {k : Nat} (h : '\r' ∉ t.take k) :
    (unifyNewlines t).take k = t.take k := by
  induction k generalizing t with
  | zero => rfl
  | succ k ih =>
    cases t with
    | nil => rfl
    | cons c cs =>
      obtain ⟨hc, hcs⟩ := List.ne_and_not_mem_of_not_mem_cons h
      have hpair : ¬ Text.PairAt (c :: cs) 0 := by
        intro hpair
        obtain ⟨more, hmore⟩ := Text.eq_of_pairAt_zero hpair
        cases hmore
        exact hc rfl
      rw [unifyNewlines_cons hpair, if_neg (Ne.symm hc), List.take_succ_cons, List.take_succ_cons,
        ih hcs]

/-- **A range after no pair and without carriage returns is the same in the text that is read.** -/
theorem slice_unifyNewlines {t : Text} {i j : Nat} (hij : i ≤ j)
    (hj : j ≤ (unifyNewlines t).length) (hpair : ∀ k < i, ¬ t.PairAt k)
    (hreturn : '\r' ∉ t.slice i j) : (unifyNewlines t).slice i j = t.slice i j := by
  have hlength := length_unifyNewlines_le t
  obtain ⟨n, rfl⟩ := Nat.exists_eq_add_of_le hij
  rw [Text.slice_natCast_add n (by omega)] at hreturn
  rw [Text.slice_natCast_add n (by omega), Text.slice_natCast_add n (by omega),
    drop_unifyNewlines hpair, take_unifyNewlines hreturn]

/-! ## Blank ranges -/

/-- Where the text that is read is blank, the stored text is blank. -/
theorem blank_take_of_unifyNewlines {t : Text} {k : Nat}
    (h : Text.blank ((unifyNewlines t).take k) = true) : Text.blank (t.take k) = true := by
  induction k generalizing t with
  | zero => rfl
  | succ k ih =>
    cases t with
    | nil => rfl
    | cons c cs =>
      by_cases hpair : Text.PairAt (c :: cs) 0
      · obtain ⟨more, hmore⟩ := Text.eq_of_pairAt_zero hpair
        cases hmore
        rw [unifyNewlines_pair, List.take_succ_cons, Text.blank, List.all_cons,
          Bool.and_eq_true] at h
        have hmore := ih h.2
        -- one more character of the stored text is known to be blank than is asked for
        have hprefix : ('\r' :: '\n' :: more).take (k + 1)
            <+: '\r' :: '\n' :: more.take k :=
          List.take_prefix_take_left (l := '\r' :: '\n' :: more) (Nat.le_succ (k + 1))
        rw [Text.blank, List.all_eq_true]
        intro d hd
        have hd := hprefix.subset hd
        rcases List.mem_cons.1 hd with rfl | hd
        · decide
        · rcases List.mem_cons.1 hd with rfl | hd
          · decide
          · exact List.all_eq_true.1 hmore d hd
      · rw [unifyNewlines_cons hpair, List.take_succ_cons, Text.blank, List.all_cons,
          Bool.and_eq_true] at h
        rw [List.take_succ_cons, Text.blank, List.all_cons, Bool.and_eq_true]
        refine ⟨?_, ih h.2⟩
        by_cases hc : c = '\r'
        · subst hc
          decide
        · rw [if_neg hc] at h
          exact h.1

/-- **A pair moves a blank up**: if the text that is read is blank from a pair on for so many
characters, the stored text is blank for one more. -/
theorem isBlank_of_pair {t : Text} {k : Nat} (hpair : t.PairAt 0) (hk : 0 < k)
    (h : Text.blank ((unifyNewlines t).take k) = true) {c : Char} (hc : t[k]? = some c) :
    isBlank c = true := by
  obtain ⟨cs, rfl⟩ := Text.eq_of_pairAt_zero hpair
  obtain ⟨k, rfl⟩ := Nat.exists_eq_add_of_lt hk
  rw [Nat.zero_add] at h hc
  rw [unifyNewlines_pair, List.take_succ_cons, Text.blank, List.all_cons, Bool.and_eq_true] at h
  have hblank := blank_take_of_unifyNewlines h.2
  rw [List.getElem?_cons_succ] at hc
  cases k with
  | zero =>
    cases hc
    decide
  | succ k =>
    rw [List.getElem?_cons_succ] at hc
    refine List.all_eq_true.1 hblank c (List.mem_of_getElem? (i := k) ?_)
    rwa [List.getElem?_take_of_lt (Nat.lt_succ_self k)]

end ComponentDivision
