/-
# Slices and lines

Slices whose bounds lie in the text, and the lines of offsets in it. With such
bounds a slice is what remains after a `take` and a `drop`, a slice of a slice is
a slice of the whole text, and the line of an offset in a slice is the line in the
whole text, counted from the line on which the slice begins.

* `slice_slice` : slices of slices;
* `lineNumber_slice` : lines in slices.
-/
import ComponentDivision.Text.Blank
import ComponentDivision.Text.Position

namespace ComponentDivision.Text

/-! ## Bounds -/

/-- A bound inside the text stands for itself. -/
theorem bound_of_le {n : Nat} {i : Int} (h₀ : 0 ≤ i) (h : i ≤ n) : bound n i = i.toNat := by
  unfold bound
  rw [if_neg (by omega)]
  omega

/-! ## Slices -/

/-- A slice with bounds inside the text. -/
theorem slice_eq {t : Text} {i j : Int} (hi : 0 ≤ i) (hij : i ≤ j) (hj : j ≤ t.length) :
    t.slice i j = (t.take j.toNat).drop i.toNat := by
  unfold slice
  rw [bound_of_le (by omega) hj, bound_of_le hi (by omega)]

/-- A slice of so many characters, or of all that are left. -/
theorem slice_natCast_add {t : Text} {i : Nat} (n : Nat) (hi : i ≤ t.length) :
    t.slice i (i + n : Nat) = (t.drop i).take n := by
  have hstop : bound t.length (i + n : Nat) = min t.length (i + n) := by
    unfold bound
    rw [if_neg (by omega), Int.toNat_natCast]
  unfold slice
  rw [hstop, bound_of_le (by omega) (by omega), Int.toNat_natCast, List.drop_take,
    List.take_eq_take_iff, List.length_drop]
  omega

/-- A slice and what comes after it. -/
theorem slice_append_drop {t : Text} {i j : Nat} (hij : i ≤ j) (hj : j ≤ t.length) :
    t.slice i j ++ t.drop j = t.drop i := by
  obtain ⟨n, rfl⟩ := Nat.exists_eq_add_of_le hij
  rw [slice_natCast_add n (by omega), ← List.drop_drop, List.take_append_drop]

/-- The text that stands at an offset is a slice. -/
theorem slice_of_drop_eq_append {t u v : Text} {i : Nat} (hi : i ≤ t.length)
    (h : t.drop i = u ++ v) : t.slice i (i + u.length : Nat) = u := by
  rw [slice_natCast_add _ hi, h, List.take_left]

/-- The length of a slice with bounds inside the text. -/
theorem length_slice {t : Text} {i j : Int} (hi : 0 ≤ i) (hij : i ≤ j) (hj : j ≤ t.length) :
    ((t.slice i j).length : Int) = j - i := by
  rw [slice_eq hi hij hj, List.length_drop, List.length_take]
  omega

/-- A slice of a slice is a slice of the whole text. -/
theorem slice_slice {t : Text} {a b i j : Int} (ha : 0 ≤ a) (hab : a ≤ b) (hb : b ≤ t.length)
    (hi : 0 ≤ i) (hij : i ≤ j) (hj : j ≤ b - a) :
    (t.slice a b).slice i j = t.slice (a + i) (a + j) := by
  have hlen := length_slice ha hab hb
  rw [slice_eq hi hij (by omega), slice_eq ha hab hb,
    slice_eq (by omega) (by omega) (by omega), List.take_drop, List.drop_drop, List.take_take]
  rw [show min (a.toNat + j.toNat) b.toNat = (a + j).toNat by omega,
    show a.toNat + i.toNat = (a + i).toNat by omega]

/-- The characters of a slice. -/
theorem mem_slice_of_getElem {t : Text} {i j : Int} {k : Nat} (hi : 0 ≤ i) (hj : j ≤ t.length)
    (hik : i ≤ k) (hkj : k < j) (hk : k < t.length) : t[k] ∈ t.slice i j := by
  rw [slice_eq hi (by omega) hj]
  apply List.mem_of_getElem? (i := k - i.toNat)
  rw [List.getElem?_drop, List.getElem?_take_of_lt (by omega),
    show i.toNat + (k - i.toNat) = k by omega, List.getElem?_eq_getElem hk]

/-- A slice has no characters but those of the text. -/
theorem mem_of_mem_slice {t : Text} {i j : Int} {c : Char} (h : c ∈ t.slice i j) : c ∈ t :=
  List.mem_of_mem_take (List.mem_of_mem_drop h)

/-- The first character of a slice. -/
theorem getElem?_of_head?_slice {t : Text} {i j : Int} {c : Char} (hi : 0 ≤ i) (hij : i < j)
    (hj : j ≤ t.length) (h : (t.slice i j).head? = some c) : t[i.toNat]? = some c := by
  rwa [slice_eq hi (Int.le_of_lt hij) hj, List.head?_drop, List.getElem?_take_of_lt (by omega)] at h

/-- What lies in a blank slice is blank. -/
theorem blank_slice_of_le {t : Text} {a b i j : Int} (ha : 0 ≤ a) (hai : a ≤ i) (hij : i ≤ j)
    (hjb : j ≤ b) (hb : b ≤ t.length) (h : (t.slice a b).blank = true) :
    (t.slice i j).blank = true := by
  have hinner := slice_slice (i := i - a) (j := j - a) ha (by omega) hb (by omega) (by omega)
    (by omega)
  rw [show a + (i - a) = i by omega, show a + (j - a) = j by omega] at hinner
  rw [blank, List.all_eq_true] at h ⊢
  intro c hc
  rw [← hinner] at hc
  exact h c (mem_of_mem_slice hc)

/-- A text that stands at an offset is the slice there. -/
theorem slice_of_prefix_drop {p t : Text} {n : Nat} (h : p <+: t.drop n)
    (hn : n + p.length ≤ t.length) : t.slice n (n + p.length) = p := by
  rw [slice_eq (by omega) (by omega) (by omega), List.drop_take]
  rw [show (n + p.length : Int).toNat - (n : Int).toNat = p.length by omega,
    show (n : Int).toNat = n by omega]
  exact (List.prefix_iff_eq_take.1 h).symm

/-- What remains after the first run of characters. -/
theorem drop_takeWhile_length (f : Char → Bool) (t : Text) :
    t.drop (t.takeWhile f).length = t.dropWhile f := by
  calc t.drop (t.takeWhile f).length
      = (t.takeWhile f ++ t.dropWhile f).drop (t.takeWhile f).length := by
        rw [List.takeWhile_append_dropWhile]
    _ = t.dropWhile f := List.drop_left

/-! ## Lines -/

/-- The line of an offset inside the text. -/
theorem lineNumber_eq {t : Text} {i : Int} (h₀ : 0 ≤ i) (h : i ≤ t.length) :
    t.lineNumber i = 1 + newlines (t.take i.toNat) := by
  unfold lineNumber
  rw [bound_of_le h₀ h, Nat.add_comm]

/-- Line feeds are counted piece by piece. -/
theorem newlines_append (s t : Text) : newlines (s ++ t) = newlines s + newlines t :=
  List.count_append

/-- The line of an offset in a slice, counted from the line on which the slice begins. -/
theorem lineNumber_slice {t : Text} {a b k : Int} (ha : 0 ≤ a) (hb : b ≤ t.length) (hk : 0 ≤ k)
    (hkb : a + k ≤ b) :
    t.lineNumber (a + k) + 1 = t.lineNumber a + (t.slice a b).lineNumber k := by
  have hlen := length_slice ha (by omega : a ≤ b) hb
  rw [lineNumber_eq (by omega) (by omega), lineNumber_eq ha (by omega),
    lineNumber_eq hk (by omega), slice_eq ha (by omega) hb, List.take_drop, List.take_take,
    show min (a.toNat + k.toNat) b.toNat = (a + k).toNat by omega]
  have hsplit : t.take (a + k).toNat
      = t.take a.toNat ++ (t.take (a + k).toNat).drop a.toNat := by
    rw [show t.take a.toNat = (t.take (a + k).toNat).take a.toNat by
      rw [List.take_take, Nat.min_eq_left (by omega)]]
    exact (List.take_append_drop _ _).symm
  have hcount := congrArg newlines hsplit
  rw [newlines_append] at hcount
  omega

end ComponentDivision.Text
