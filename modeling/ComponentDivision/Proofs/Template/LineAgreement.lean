/-
# The line and the column of an expression

The line and the column of an offset are found in three ways: by bisecting the table of the
lines, as for the expressions of a template; by counting line feeds and going back to the last
one, as for a diagnostic; and by the line of a fragment and the line inside it. They are the
same for every offset, and they belong to no other offset.

* `Text.Agreed` : all ways to find the line and the column of an offset agree;
* `Text.agreed` : they do for every offset of a text;
* `parseTemplate_agreed` : so they do for every expression of a template.
-/
import ComponentDivision.Proofs.Template.Composition

namespace ComponentDivision

/-! ## Offsets -/

/-- All ways to find the line and the column of the offset `i` give these, and they are those of no
other offset. -/
structure Text.Agreed (t : Text) (i line column : Nat) : Prop where
  isAt : t.IsAt i line column
  /-- The line by bisection of the table. -/
  bisected : line = bisectRight t.lineStarts i 0 t.lineStarts.length
  /-- The column by the entry of the line. -/
  entry : ∃ start, t.lineStarts[line - 1]? = some start ∧ i = start + column
  /-- The line by counting. -/
  counted : line = t.lineNumber i
  /-- The line and the column of a complaint about the offset. -/
  reported : ∀ summary, (Diagnostic.of summary t i).line = line ∧
    (Diagnostic.of summary t i).column = column
  only : ∀ j, t.IsAt j line column → j = i

/-- A line and a column belong to one offset. -/
theorem Text.IsAt.unique {t : Text} {i j line column : Nat} (hi : t.IsAt i line column)
    (hj : t.IsAt j line column) : j = i := by
  obtain ⟨before, content, after, hline, rfl, -, rfl⟩ := hi
  obtain ⟨before', content', after', hline', hnumber, -, rfl⟩ := hj
  have hentry := hline.getElem?_lineStarts
  rw [Nat.add_right_cancel hnumber, hline'.getElem?_lineStarts] at hentry
  rw [Option.some.inj hentry]

/-- **All ways to find the line and the column of an offset agree.** -/
theorem Text.agreed {t : Text} {i : Nat} (hi : i ≤ t.length) :
    t.lineStart i ≤ i ∧ t.Agreed i (t.lineNumber i) (i - t.lineStart i) := by
  obtain ⟨line, column, hat⟩ := exists_isAt hi
  obtain ⟨-, hline, hcolumn⟩ := isAt_iff.1 hat
  obtain rfl : column = i - t.lineStart i := by omega
  refine ⟨by omega, hline ▸ hat, ?_, ?_, rfl, fun summary => ⟨rfl, ?_⟩, fun j => ?_⟩
  · obtain ⟨before, content, after, hwhole, rfl, hle, hi⟩ := hat
    rw [← hline, hi, hwhole.bisectRight_lineStarts hle]
  · obtain ⟨before, content, after, hwhole, rfl, -, hi⟩ := hat
    rw [← hline, Nat.add_sub_cancel]
    exact ⟨_, hwhole.getElem?_lineStarts, hi⟩
  · show (i : Int) - t.lineStart i = _
    omega
  · rw [← hline]
    exact hat.unique

/-! ## Expressions -/

/-- **The ways to find the line and the column of an expression agree**, for every expression of a
template; and the lines of a text and of what is left of it after an offset add up. -/
theorem parseTemplate_agreed {grammar : Grammar} {source : Text} {root : Node}
    (h : parseTemplate grammar source = .ok root) :
    (∀ n ∈ root.walk, ∀ x ∈ n.label.embedded, ∃ start line column : Nat,
      (x.start = start ∧ x.line = line ∧ x.column = column) ∧ source.Agreed start line column) ∧
    ∀ (document : Text) (o k : Nat), o + k ≤ document.length →
      document.lineNumber (o + k : Nat)
        = document.lineNumber o + (document.slice o document.length).lineNumber k - 1 := by
  constructor
  · intro n hn x hx
    rcases (sound_of_parseTemplate h).1 n hn with ⟨b, -, rfl⟩ | hplaced
    · cases hx
    · have hexact := hplaced.exact x hx
      obtain ⟨start, hstart⟩ := Int.eq_ofNat_of_zero_le hexact.nonneg
      have hlt := hexact.start_lt_stop
      have hstop := hexact.stop_le
      obtain ⟨hle, hagreed⟩ := Text.agreed (t := source) (i := start) (by omega)
      refine ⟨start, _, _, ⟨hstart, ?_, ?_⟩, hagreed⟩
      · rw [hexact.line_eq, hstart]
      · rw [hexact.column_eq, hstart]
        omega
  · intro document o k hk
    have hsum := Text.lineNumber_slice (t := document) (a := o) (b := document.length) (k := k)
      (by omega) (Int.le_refl _) (by omega) (by omega)
    rw [Int.natCast_add]
    omega

open Template in
theorem parseTemplate_agreed_second_line :
    ∃ root n, parseTemplate .permissive "b\n\x7bp\x7d".toList = .ok root ∧ n ∈ root.walk ∧
      ⟨3, 4, 2, 1⟩ ∈ n.label.embedded ∧ Text.Agreed "b\n\x7bp\x7d".toList 3 2 1 ∧
      Text.lineNumber "b\n\x7bp\x7d".toList (1 + 2 : Nat)
        = Text.lineNumber "b\n\x7bp\x7d".toList 1
          + (Text.slice "b\n\x7bp\x7d".toList 1 5).lineNumber 2 - 1 := by
  obtain ⟨hagreed, hsum⟩ := parseTemplate_agreed parseTemplate_text_name
  refine ⟨_, _, parseTemplate_text_name, .tail _ (.tail _ (.head _)), .head _, ?_,
    hsum "b\n\x7bp\x7d".toList 1 2 (by decide)⟩
  obtain ⟨start, line, column, ⟨hstart, hline, hcolumn⟩, h⟩ :=
    hagreed _ (.tail _ (.tail _ (.head _))) _ (.head _)
  cases Int.ofNat.inj hstart
  cases Int.ofNat.inj hline
  cases Int.ofNat.inj hcolumn
  exact h

end ComponentDivision
