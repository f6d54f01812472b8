/-
# Occurrences of a text

Where a text stands in another one. A text stands at an offset if what follows the
offset begins with it; `find?` gives the least such offset, and `occurrences` counts
what `find?` gives again and again, each time after the end of the occurrence before.

* `find?_eq_some_iff` : the least offset;
* `occurrences_eq` : the count, by the first occurrence;
* `not_prefix_drop_of_occurrences` : a text that is counted once does not stand beyond
  the end of its first occurrence.
-/
import ComponentDivision.Text.Basic

namespace ComponentDivision.Text

/-! ## The first occurrence -/

/-- A first occurrence is an occurrence. -/
theorem prefix_drop_of_find? {p t : Text} {n : Nat} (h : find? p t = some n) :
    p <+: t.drop n := by
  induction t generalizing n with
  | nil =>
    unfold find? at h
    split at h
    · rename_i hp
      rw [List.isEmpty_iff] at hp
      rw [hp]
      exact List.nil_prefix
    · cases h
  | cons c cs ih =>
    unfold find? at h
    split at h
    · rename_i hp
      cases h
      exact List.isPrefixOf_iff_prefix.1 hp
    · obtain ⟨m, hm, rfl⟩ := Option.map_eq_some_iff.1 h
      exact ih hm

/-- Before a first occurrence there is none. -/
theorem not_prefix_drop_of_lt_find? {p t : Text} {n : Nat} (h : find? p t = some n) :
    ∀ i < n, ¬ p <+: t.drop i := by
  induction t generalizing n with
  | nil =>
    unfold find? at h
    split at h
    · cases h
      intro i hi
      omega
    · cases h
  | cons c cs ih =>
    unfold find? at h
    split at h
    · cases h
      intro i hi
      omega
    · rename_i hp
      obtain ⟨m, hm, rfl⟩ := Option.map_eq_some_iff.1 h
      intro i hi
      cases i with
      | zero => exact fun hpre => hp (List.isPrefixOf_iff_prefix.2 hpre)
      | succ i => exact ih hm i (by omega)

/-- A text that stands somewhere is found, there or before. -/
theorem exists_find?_of_prefix_drop {p t : Text} {n : Nat} (h : p <+: t.drop n) :
    ∃ m ≤ n, find? p t = some m := by
  induction t generalizing n with
  | nil =>
    rw [List.drop_nil, List.prefix_nil] at h
    exact ⟨0, by omega, by rw [h]; rfl⟩
  | cons c cs ih =>
    unfold find?
    by_cases hp : p.isPrefixOf (c :: cs)
    · exact ⟨0, by omega, by rw [if_pos hp]⟩
    · rw [if_neg hp]
      cases n with
      | zero => exact absurd (List.isPrefixOf_iff_prefix.2 h) hp
      | succ n =>
        obtain ⟨m, hmn, hm⟩ := ih h
        exact ⟨m + 1, by omega, by rw [hm]; rfl⟩

/-- The first occurrence is the least offset at which the text stands. -/
theorem find?_eq_some_iff {p t : Text} {n : Nat} :
    find? p t = some n ↔ p <+: t.drop n ∧ ∀ i < n, ¬ p <+: t.drop i := by
  constructor
  · intro h
    exact ⟨prefix_drop_of_find? h, not_prefix_drop_of_lt_find? h⟩
  · rintro ⟨hp, hmin⟩
    obtain ⟨m, hmn, hm⟩ := exists_find?_of_prefix_drop hp
    rcases Nat.lt_or_eq_of_le hmn with hlt | rfl
    · exact absurd (prefix_drop_of_find? hm) (hmin m hlt)
    · exact hm

/-- A first occurrence that ends inside a text does not depend on what follows the text. -/
theorem find?_append_iff {p u : Text} {n : Nat} (t : Text) (hn : n + p.length ≤ u.length) :
    find? p (u ++ t) = some n ↔ find? p u = some n := by
  have hpre {i : Nat} (hi : i ≤ n) : p <+: (u ++ t).drop i ↔ p <+: u.drop i := by
    rw [List.drop_append_of_le_length (by omega)]
    constructor
    · intro hp
      refine List.prefix_of_prefix_length_le hp (List.prefix_append _ _) ?_
      rw [List.length_drop]
      omega
    · intro hp
      exact hp.trans (List.prefix_append _ _)
  rw [find?_eq_some_iff, find?_eq_some_iff, hpre (Nat.le_refl n)]
  refine and_congr_right fun _ => forall_congr' fun i => forall_congr' fun hi => ?_
  rw [hpre (Nat.le_of_lt hi)]

/-! ## Counting occurrences -/

/-- Passing over characters is the same as dropping them. -/
theorem occurrencesFrom_eq_drop (p : Text) (skip : Nat) (t : Text) :
    occurrencesFrom p skip t = occurrences (t.drop skip) p := by
  unfold occurrences
  induction t generalizing skip with
  | nil => rw [List.drop_nil]; cases skip <;> rfl
  | cons c cs ih =>
    cases skip with
    | zero => rfl
    | succ skip => exact ih skip

/-- An occurrence at the front, or one later. -/
theorem occurrences_cons (p : Text) (c : Char) (cs : Text) :
    occurrences (c :: cs) p =
      if p.isPrefixOf (c :: cs) then 1 + occurrences (cs.drop (p.length - 1)) p
      else occurrences cs p := by
  rw [← occurrencesFrom_eq_drop]
  rfl

/-- The count of occurrences: none, or the first one and those after its end. -/
theorem occurrences_eq {p : Text} (hp : p ≠ []) (t : Text) :
    occurrences t p =
      match find? p t with
      | none => 0
      | some n => 1 + occurrences (t.drop (n + p.length)) p := by
  have hpos := List.length_pos_iff.2 hp
  induction t with
  | nil =>
    have hempty : p.isEmpty = false := by rw [List.isEmpty_eq_false_iff]; exact hp
    unfold find?
    rw [hempty]
    rfl
  | cons c cs ih =>
    unfold find?
    rw [occurrences_cons]
    by_cases hc : p.isPrefixOf (c :: cs)
    · rw [if_pos hc, if_pos hc]
      obtain ⟨k, hk⟩ : ∃ k, p.length = k + 1 := ⟨p.length - 1, by omega⟩
      simp only [hk, Nat.zero_add, Nat.add_sub_cancel, List.drop_succ_cons]
    · rw [if_neg hc, if_neg hc, ih]
      cases find? p cs with
      | none => rfl
      | some n =>
        simp only [Option.map_some]
        rw [show n + 1 + p.length = n + p.length + 1 by omega, List.drop_succ_cons]

/-- A text that is counted once does not stand beyond the end of its first occurrence. -/
theorem not_prefix_drop_of_occurrences {p t : Text} {n : Nat} (hp : p ≠ [])
    (hone : occurrences t p = 1) (hn : find? p t = some n) :
    ∀ i, n + p.length ≤ i → ¬ p <+: t.drop i := by
  intro i hi hpre
  rw [occurrences_eq hp, hn] at hone
  have hnone : occurrences (t.drop (n + p.length)) p = 0 := by simpa using hone
  have hlater : p <+: (t.drop (n + p.length)).drop (i - (n + p.length)) := by
    rw [List.drop_drop, show n + p.length + (i - (n + p.length)) = i by omega]
    exact hpre
  obtain ⟨m, -, hm⟩ := exists_find?_of_prefix_drop hlater
  rw [occurrences_eq hp, hm] at hnone
  simp at hnone

end ComponentDivision.Text
