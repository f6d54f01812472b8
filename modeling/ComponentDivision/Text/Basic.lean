/-
# Texts

A text is a list of characters, so that every offset, column and length counts
characters. This module holds the searches and the slices that the rest of the
library is written with.

* `Text.slice` : the characters between two signed bounds;
* `Text.find?`, `Text.occurrences` : the first occurrence of a text, and how
  many occurrences there are when none may overlap the one before it.
-/

namespace ComponentDivision

/-- A text, character by character. -/
abbrev Text := List Char

namespace Text

/-! ## Slices -/

/-- The offset a signed bound stands for in a text of length `n`: a negative
bound counts from the end, and a bound outside the text is moved to its edge. -/
def bound (n : Nat) (i : Int) : Nat :=
  min n (if i < 0 then i + n else i).toNat

/-- The characters from bound `i` up to bound `j`. -/
def slice (t : Text) (i j : Int) : Text :=
  (t.take (bound t.length j)).drop (bound t.length i)

/-! ## Searching -/

/-- The offset of the first occurrence of `pattern`. -/
def find? (pattern : Text) : Text → Option Nat
  | [] => if pattern.isEmpty then some 0 else none
  | c :: cs =>
    if pattern.isPrefixOf (c :: cs) then some 0 else (find? pattern cs).map (· + 1)

theorem find?_add_length_le {pattern t : Text} {n : Nat} (h : find? pattern t = some n) :
    n + pattern.length ≤ t.length := by
  induction t generalizing n with
  | nil =>
    unfold find? at h
    split at h
    · rename_i hp
      cases h
      simp_all
    · cases h
  | cons c cs ih =>
    unfold find? at h
    split at h
    · rename_i hp
      cases h
      simpa using (List.isPrefixOf_iff_prefix.1 hp).length_le
    · obtain ⟨m, hm, rfl⟩ := Option.map_eq_some_iff.1 h
      have := ih hm
      simp only [List.length_cons]
      omega

/-- Whether `pattern` occurs in the text `t`. -/
def occursIn (pattern t : Text) : Bool :=
  (find? pattern t).isSome

/-- The number of occurrences of `pattern`, found from left to right, each
beginning after the end of the one before; the first `skip` characters are
passed over. -/
def occurrencesFrom (pattern : Text) : Nat → Text → Nat
  | _, [] => 0
  | skip + 1, _ :: cs => occurrencesFrom pattern skip cs
  | 0, c :: cs =>
    if pattern.isPrefixOf (c :: cs) then 1 + occurrencesFrom pattern (pattern.length - 1) cs
    else occurrencesFrom pattern 0 cs

/-- The number of occurrences of a non-empty `pattern` that do not overlap. -/
def occurrences (t pattern : Text) : Nat :=
  occurrencesFrom pattern 0 t

/-- What stands before the first occurrence of a character and what stands after
it, if it occurs. -/
def cut (sep : Char) (t : Text) : Text × Option Text :=
  match t.dropWhile (· != sep) with
  | [] => (t, none)
  | _ :: after => (t.takeWhile (· != sep), some after)

/-- The texts between the occurrences of a character. -/
def splitOnChar (sep : Char) : Text → List Text
  | [] => [[]]
  | c :: cs =>
    if c = sep then [] :: splitOnChar sep cs
    else
      match splitOnChar sep cs with
      | [] => [[c]]
      | t :: ts => (c :: t) :: ts

end Text

end ComponentDivision
