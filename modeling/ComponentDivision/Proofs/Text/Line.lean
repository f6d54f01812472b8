/-
# Whole lines

A line ends at a line feed, or at the end of the text. Every offset of a text stands in one
line, so many characters after the beginning of the line; the line feed that ends a line is
a place of that line, its last one.

* `IsLine` : a whole line, with what stands before it and after it;
* `IsAt` : the line and the column of an offset;
* `isAt_iff` : they are what counting line feeds and going back to the last one give.
-/
import Mathlib.Data.List.Basic
import Mathlib.Data.List.TakeWhile
import ComponentDivision.Proofs.Text.Slice

namespace ComponentDivision.Text

/-! ## The last line of a text -/

/-- A last line is no longer than its text. -/
theorem lastLineLength_le (t : Text) : lastLineLength t ≤ t.length := by
  have hle := (List.takeWhile_sublist (l := t.reverse) (· != '\n')).length_le
  rwa [List.length_reverse] at hle

/-- A text without a line feed is one line. -/
theorem lastLineLength_of_notMem {t : Text} (h : '\n' ∉ t) : lastLineLength t = t.length := by
  unfold lastLineLength
  rw [List.takeWhile_eq_self_iff.2, List.length_reverse]
  intro c hc
  rw [bne_iff_ne]
  rintro rfl
  exact h (List.mem_reverse.1 hc)

/-- What stands before a line feed does not count for the last line. -/
theorem lastLineLength_append_newline (s t : Text) :
    lastLineLength (s ++ '\n' :: t) = lastLineLength t := by
  unfold lastLineLength
  rw [List.reverse_append, List.reverse_cons, List.append_assoc, List.takeWhile_append]
  split
  · rename_i hall
    rw [hall]
    simp
  · rfl

/-! ## Lines and places -/

/-- The text is a whole line with something before it and something after it. -/
structure IsLine (t before line after : Text) : Prop where
  text_eq : t = before ++ (line ++ after)
  begins : ∀ c ∈ before.getLast?, c = '\n'
  unbroken : '\n' ∉ line
  ends : ∀ c ∈ after.head?, c = '\n'

/-- The offset `i` stands in this line, counted from one, so many characters after the beginning
of the line. -/
def IsAt (t : Text) (i line column : Nat) : Prop :=
  ∃ before content after, t.IsLine before content after ∧ line = newlines before + 1 ∧
    column ≤ content.length ∧ i = before.length + column

/-- What stands after a place where a line begins, up to the first line feed, is the last line. -/
theorem lastLineLength_append {before front : Text} (h : ∀ c ∈ before.getLast?, c = '\n')
    (hfront : '\n' ∉ front) : lastLineLength (before ++ front) = front.length := by
  rcases List.eq_nil_or_concat' before with rfl | ⟨more, c, rfl⟩
  · exact lastLineLength_of_notMem hfront
  · obtain rfl := h c (by simp)
    rw [List.append_assoc, List.singleton_append, lastLineLength_append_newline,
      lastLineLength_of_notMem hfront]

namespace IsLine

variable {t before content after : Text} (h : t.IsLine before content after)
include h

/-- A line lies in its text. -/
theorem length_le : before.length + content.length ≤ t.length := by
  rw [h.text_eq, List.length_append, List.length_append]
  omega

section

variable {k : Nat} (hk : k ≤ content.length)
include hk

/-- A place of a line stands for itself. -/
theorem bound_eq :
    bound t.length ((before.length + k : Nat) : Int) = before.length + k := by
  have hle := h.length_le
  rw [bound_of_le (by omega) (by omega), Int.toNat_natCast]

/-- What stands before a place of a line. -/
theorem take_eq : t.take (before.length + k) = before ++ content.take k := by
  rw [h.text_eq, List.take_length_add_append, List.take_append_of_le_length hk]

/-- What stands after a place of a line. -/
theorem drop_eq : t.drop (before.length + k) = content.drop k ++ after := by
  rw [h.text_eq, ← List.drop_drop, List.drop_left, List.drop_append_of_le_length hk]

/-- A line is numbered by the line feeds before it. -/
theorem lineNumber_eq : t.lineNumber (before.length + k : Nat) = newlines before + 1 := by
  have hnone : newlines (content.take k) = 0 :=
    List.count_eq_zero.2 fun hmem => h.unbroken (List.mem_of_mem_take hmem)
  rw [lineNumber, h.bound_eq hk, h.take_eq hk, newlines_append, hnone, Nat.add_zero]

/-- A line begins after what stands before it. -/
theorem lineStart_eq : t.lineStart (before.length + k : Nat) = before.length := by
  have hfront : '\n' ∉ content.take k := fun hmem => h.unbroken (List.mem_of_mem_take hmem)
  rw [lineStart, h.bound_eq hk, h.take_eq hk, lastLineLength_append h.begins hfront,
    List.length_take, Nat.min_eq_left hk, Nat.add_sub_cancel]

/-- A line ends before what stands after it. -/
theorem lineEnd_eq : t.lineEnd (before.length + k : Nat) = before.length + content.length := by
  have hall : ∀ c ∈ content.drop k, (c != '\n') = true := by
    intro c hc
    rw [bne_iff_ne]
    rintro rfl
    exact h.unbroken (List.mem_of_mem_drop hc)
  have hend : after.takeWhile (· != '\n') = [] := by
    cases after with
    | nil => rfl
    | cons c cs =>
      obtain rfl := h.ends c rfl
      rfl
  rw [lineEnd, h.bound_eq hk, h.drop_eq hk, List.takeWhile_append_of_pos hall, hend,
    List.append_nil, List.length_drop]
  omega

end

end IsLine

/-- **Every offset stands in a line.** -/
theorem exists_isAt {t : Text} {i : Nat} (hi : i ≤ t.length) :
    ∃ line column, t.IsAt i line column := by
  let before := ((t.take i).reverse.dropWhile (· != '\n')).reverse
  let front := ((t.take i).reverse.takeWhile (· != '\n')).reverse
  have htake : t.take i = before ++ front := by
    rw [← List.reverse_append, List.takeWhile_append_dropWhile, List.reverse_reverse]
  have hdrop : t.drop i = (t.drop i).takeWhile (· != '\n') ++ (t.drop i).dropWhile (· != '\n') :=
    List.takeWhile_append_dropWhile.symm
  have hfirst (s : Text) : ∀ c ∈ (s.dropWhile (· != '\n')).head?, c = '\n' := by
    intro c hc
    have hnot := List.head?_dropWhile_not (· != '\n') s
    rw [Option.mem_def.1 hc] at hnot
    simpa using hnot
  have hnone (s : Text) : '\n' ∉ s.takeWhile (· != '\n') := fun hmem =>
    absurd (List.all_eq_true.1 List.all_takeWhile _ hmem) (by decide)
  have hline : t.IsLine before (front ++ (t.drop i).takeWhile (· != '\n'))
      ((t.drop i).dropWhile (· != '\n')) := by
    refine ⟨?_, ?_, ?_, hfirst _⟩
    · rw [List.append_assoc, ← hdrop, ← List.append_assoc, ← htake, List.take_append_drop]
    · rw [List.getLast?_reverse]
      exact hfirst _
    · rw [List.mem_append, not_or, List.mem_reverse]
      exact ⟨hnone _, hnone _⟩
  have hlen : i = before.length + front.length := by
    rw [← List.length_append, ← htake, List.length_take, Nat.min_eq_left hi]
  exact ⟨_, front.length, before, _, _, hline, rfl, by simp, hlen⟩

/-- **The line and the column of an offset** are given by the number of line feeds before it and by
the beginning of the line. -/
theorem isAt_iff {t : Text} {i line column : Nat} :
    t.IsAt i line column ↔
      i ≤ t.length ∧ line = t.lineNumber i ∧ t.lineStart i + column = i := by
  have hof {line column : Nat} (h : t.IsAt i line column) :
      i ≤ t.length ∧ line = t.lineNumber i ∧ t.lineStart i + column = i := by
    obtain ⟨before, content, after, hline, rfl, hcolumn, rfl⟩ := h
    have hle := hline.length_le
    exact ⟨by omega, (hline.lineNumber_eq hcolumn).symm, by rw [hline.lineStart_eq hcolumn]⟩
  constructor
  · exact hof
  · rintro ⟨hi, rfl, hcolumn⟩
    obtain ⟨line', column', h⟩ := exists_isAt hi
    obtain ⟨-, hline, hcolumn'⟩ := hof h
    obtain rfl : column' = column := by omega
    exact hline ▸ h

end ComponentDivision.Text
