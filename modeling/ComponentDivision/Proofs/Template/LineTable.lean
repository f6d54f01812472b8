/-
# The table of lines

The offsets at which the lines of a text begin stand in a table, in increasing order. The
entries up to an offset are the lines up to the one the offset stands in, and bisection
counts them.

* `Text.IsLine.filter_lineStarts` : the entries up to a place of a line;
* `Text.IsLine.getElem?_lineStarts` : the entry of a line is where the line begins;
* `bisectRight_eq` : bisection counts the entries up to an offset;
* `Text.IsLine.place_eq` : the place of an expression, by the line in which it begins.
-/
import ComponentDivision.Proofs.Text.Line
import ComponentDivision.Template.Embedded

namespace ComponentDivision

variable {t before content after : Text}

/-! ## Entries -/

/-- The lines of a text and of another one after it. -/
theorem laterLineStarts_append (pos : Nat) (s t : Text) :
    Text.laterLineStarts pos (s ++ t)
      = Text.laterLineStarts pos s ++ Text.laterLineStarts (pos + s.length) t := by
  induction s generalizing pos with
  | nil => rfl
  | cons c cs ih =>
    have hpos : pos + 1 + cs.length = pos + (c :: cs).length := by
      rw [List.length_cons]
      omega
    simp only [List.cons_append, Text.laterLineStarts, ih (pos + 1), hpos]
    split
    · rfl
    · rfl

theorem laterLineStarts_add (pos k : Nat) (t : Text) :
    Text.laterLineStarts (pos + k) t = (Text.laterLineStarts pos t).map (· + k) := by
  induction t generalizing pos with
  | nil => rfl
  | cons c cs ih =>
    have hpos : pos + k + 1 = pos + 1 + k := by omega
    simp only [Text.laterLineStarts, hpos, ih (pos + 1)]
    split
    · rfl
    · rfl

/-- Later lines begin after the first character. -/
theorem lt_of_mem_laterLineStarts {pos i : Nat}
    (h : i ∈ Text.laterLineStarts pos t) : pos < i := by
  induction t generalizing pos with
  | nil => cases h
  | cons c cs ih =>
    rw [Text.laterLineStarts] at h
    split at h
    · rcases List.mem_cons.1 h with rfl | h
      · exact Nat.lt_succ_self pos
      · exact Nat.lt_of_succ_lt (ih h)
    · exact Nat.lt_of_succ_lt (ih h)

/-- The lines of a text begin in it. -/
theorem le_of_mem_laterLineStarts {pos i : Nat}
    (h : i ∈ Text.laterLineStarts pos t) : i ≤ pos + t.length := by
  induction t generalizing pos with
  | nil => cases h
  | cons c cs ih =>
    rw [Text.laterLineStarts] at h
    rw [List.length_cons]
    split at h
    · rcases List.mem_cons.1 h with rfl | h
      · omega
      · have := ih h
        omega
    · have := ih h
      omega

/-- Every line feed begins a line. -/
theorem length_laterLineStarts (pos : Nat) (t : Text) :
    (Text.laterLineStarts pos t).length = t.newlines := by
  induction t generalizing pos with
  | nil => rfl
  | cons c cs ih =>
    rw [Text.laterLineStarts, Text.newlines, List.count_cons]
    by_cases hc : c = '\n'
    · rw [if_pos hc, List.length_cons, ih, hc]
      rfl
    · rw [if_neg hc, ih, if_neg (by simpa using hc)]
      rfl

theorem length_lineStarts (t : Text) : t.lineStarts.length = t.newlines + 1 := by
  rw [Text.lineStarts, List.length_cons, length_laterLineStarts]

/-- Without a line feed there are no later lines. -/
theorem laterLineStarts_of_notMem (pos : Nat) (h : '\n' ∉ t) : Text.laterLineStarts pos t = [] := by
  rw [← List.length_eq_zero_iff, length_laterLineStarts]
  exact List.count_eq_zero.2 h

/-- The table is sorted. -/
theorem pairwise_lineStarts (t : Text) : t.lineStarts.Pairwise (· < ·) := by
  have hlater (pos : Nat) : (Text.laterLineStarts pos t).Pairwise (· < ·) := by
    induction t generalizing pos with
    | nil => exact .nil
    | cons c cs ih =>
      rw [Text.laterLineStarts]
      split
      · exact .cons (fun _ hi => lt_of_mem_laterLineStarts hi) (ih (pos + 1))
      · exact ih (pos + 1)
  exact .cons (fun _ hi => lt_of_mem_laterLineStarts hi) (hlater 0)

/-! ## The entry of a line -/

/-- Where a line begins, the last line so far begins. -/
theorem getLast?_lineStarts (h : ∀ c ∈ before.getLast?, c = '\n') :
    before.lineStarts.getLast? = some before.length := by
  rcases List.eq_nil_or_concat' before with rfl | ⟨more, c, rfl⟩
  · rfl
  · obtain rfl := h c (by simp)
    have hlast : Text.laterLineStarts (0 + more.length) ['\n'] = [(more ++ ['\n']).length] := by
      simp [Text.laterLineStarts]
    rw [Text.lineStarts, laterLineStarts_append, hlast, ← List.cons_append, List.getLast?_concat]

namespace Text.IsLine

variable (h : t.IsLine before content after)
include h

/-- The table is that of what stands before a line, and then that of what stands after it. -/
theorem lineStarts_eq : t.lineStarts
    = before.lineStarts ++ laterLineStarts (before.length + content.length) after := by
  rw [lineStarts, h.text_eq, laterLineStarts_append, laterLineStarts_append,
    laterLineStarts_of_notMem _ h.unbroken, List.nil_append, Nat.zero_add]
  rfl

/-- **The entries up to a place of a line** are those of what stands before the line. -/
theorem filter_lineStarts {k : Nat} (hk : k ≤ content.length) :
    t.lineStarts.filter (· ≤ before.length + k) = before.lineStarts := by
  have hbefore : before.lineStarts.filter (· ≤ before.length + k) = before.lineStarts := by
    rw [List.filter_eq_self]
    intro i hi
    rw [decide_eq_true_eq]
    rcases List.mem_cons.1 hi with rfl | hi
    · exact Nat.zero_le _
    · have := le_of_mem_laterLineStarts hi
      omega
  have hafter : (laterLineStarts (before.length + content.length) after).filter
      (· ≤ before.length + k) = [] := by
    rw [List.filter_eq_nil_iff]
    intro i hi
    have := lt_of_mem_laterLineStarts hi
    rw [decide_eq_true_eq]
    omega
  rw [h.lineStarts_eq, List.filter_append, hbefore, hafter, List.append_nil]

/-- **The entry of a line** is where the line begins. -/
theorem getElem?_lineStarts : t.lineStarts[before.newlines]? = some before.length := by
  have hlast : before.newlines = before.lineStarts.length - 1 := by
    rw [length_lineStarts, Nat.add_sub_cancel]
  rw [h.lineStarts_eq, List.getElem?_append_left (by rw [length_lineStarts]; omega), hlast,
    ← List.getLast?_eq_getElem?, getLast?_lineStarts h.begins]

/-- **The place of an expression** that begins in a line. -/
theorem place_eq (grammar : Grammar) {k : Nat} (stop : Nat) (hk : k ≤ content.length) :
    (⟨grammar, t.lineStarts⟩ : Context).place (before.length + k) stop
      = ⟨(before.length + k : Nat), stop, (before.newlines + 1 : Nat), k⟩ := by
  simp only [Context.place, h.filter_lineStarts hk, length_lineStarts,
    List.getLastD_eq_getLast?, getLast?_lineStarts h.begins, Option.getD_some]
  congr 1
  omega

end Text.IsLine

/-! ## Bisection -/

/-- The number of entries up to `x` in a sorted table, if it is at least `lo` and at most `hi`: the
entry in the middle tells in which half to go on. -/
def bisectRight (table : List Nat) (x lo hi : Nat) : Nat :=
  if lo < hi then
    if x < table.getD ((lo + hi) / 2) 0 then bisectRight table x lo ((lo + hi) / 2)
    else bisectRight table x ((lo + hi) / 2 + 1) hi
  else lo
termination_by hi - lo

/-- The entries up to `x` come first in a sorted table. -/
theorem getElem_le_iff {table : List Nat} (h : table.Pairwise (· < ·)) {i : Nat}
    (hi : i < table.length) (x : Nat) :
    table[i] ≤ x ↔ i < (table.filter (· ≤ x)).length := by
  induction h generalizing i with
  | nil => simp at hi
  | @cons a as hlt _ ih =>
    by_cases ha : a ≤ x
    · rw [List.filter_cons_of_pos (by simpa using ha), List.length_cons]
      cases i with
      | zero => simpa using ha
      | succ i => simpa using ih (by simpa using hi)
    · have hnone : (a :: as).filter (· ≤ x) = [] := by
        rw [List.filter_eq_nil_iff]
        intro b hb
        rw [decide_eq_true_eq]
        rcases List.mem_cons.1 hb with rfl | hb
        · exact ha
        · have := hlt b hb
          omega
      have hnot := List.filter_eq_nil_iff.1 hnone _ (List.getElem_mem hi)
      rw [decide_eq_true_eq] at hnot
      rw [hnone]
      simpa using hnot

/-- **Bisection counts the entries up to `x`**, between any two bounds of their number. -/
theorem bisectRight_eq {table : List Nat} (h : table.Pairwise (· < ·)) {x lo hi : Nat}
    (hlo : lo ≤ (table.filter (· ≤ x)).length) (hhi : (table.filter (· ≤ x)).length ≤ hi)
    (hlength : hi ≤ table.length) :
    bisectRight table x lo hi = (table.filter (· ≤ x)).length := by
  fun_induction bisectRight table x lo hi with
  | case1 lo hi hlt hx ih =>
    have hmid : (lo + hi) / 2 < table.length := by omega
    have hiff := getElem_le_iff h hmid x
    rw [List.getD_eq_getElem?_getD, List.getElem?_eq_getElem hmid, Option.getD_some] at hx
    exact ih hlo (by omega) (by omega)
  | case2 lo hi hlt hx ih =>
    have hmid : (lo + hi) / 2 < table.length := by omega
    have hiff := getElem_le_iff h hmid x
    rw [List.getD_eq_getElem?_getD, List.getElem?_eq_getElem hmid, Option.getD_some] at hx
    exact ih (by omega) hhi hlength
  | case3 lo hi hlt => omega

/-- **The line of an offset by bisection** of the whole table. -/
theorem Text.IsLine.bisectRight_lineStarts (h : t.IsLine before content after) {k : Nat}
    (hk : k ≤ content.length) :
    bisectRight t.lineStarts (before.length + k) 0 t.lineStarts.length = before.newlines + 1 := by
  rw [bisectRight_eq (pairwise_lineStarts t) (Nat.zero_le _) (List.length_filter_le _ _)
    (Nat.le_refl _), h.filter_lineStarts hk, length_lineStarts]

end ComponentDivision
