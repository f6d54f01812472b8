/-
# Reading from a cursor

A cursor is a place in a text: the offset and what is left. A reader takes a
value from the front of what is left or fails; every reader of this library only
moves forward, which is what makes the loops built on them end.

* `Cursor`, `Reader` : places and readers;
* `Cursor.Reaches` : one place is some characters after another;
* `Reader.Forward` : a reader never moves back.
-/
import ComponentDivision.Text.Blank
import ComponentDivision.Fault

namespace ComponentDivision

/-! ## Cursors -/

/-- A place in a text. -/
structure Cursor where
  /-- The offset of the place. -/
  pos : Nat
  /-- The characters that are left. -/
  rest : Text
  deriving DecidableEq, Repr

namespace Cursor

/-- The place `n` characters further. -/
def advance (c : Cursor) (n : Nat) : Cursor :=
  ⟨c.pos + n, c.rest.drop n⟩

/-- The place `d` is in the same text, not before `c`. -/
def Reaches (c d : Cursor) : Prop :=
  ∃ n, n ≤ c.rest.length ∧ d = c.advance n

theorem advance_zero (c : Cursor) : c.advance 0 = c := by
  simp [advance]

theorem advance_advance (c : Cursor) (m n : Nat) :
    (c.advance m).advance n = c.advance (m + n) := by
  simp [advance, List.drop_drop, Nat.add_assoc]

theorem Reaches.refl (c : Cursor) : c.Reaches c :=
  ⟨0, Nat.zero_le _, (advance_zero c).symm⟩

theorem reaches_advance {c : Cursor} {n : Nat} (h : n ≤ c.rest.length) :
    c.Reaches (c.advance n) :=
  ⟨n, h, rfl⟩

theorem Reaches.trans {c d e : Cursor} (h₁ : c.Reaches d) (h₂ : d.Reaches e) : c.Reaches e := by
  obtain ⟨m, hm, rfl⟩ := h₁
  obtain ⟨n, hn, rfl⟩ := h₂
  refine ⟨m + n, ?_, advance_advance c m n⟩
  simp only [advance, List.length_drop] at hn
  omega

/-- Moving forward leaves no more than there was. -/
theorem Reaches.length_le {c d : Cursor} (h : c.Reaches d) : d.rest.length ≤ c.rest.length := by
  obtain ⟨n, _, rfl⟩ := h
  simp only [advance, List.length_drop]
  omega

end Cursor

/-! ## Readers -/

/-- Takes a value from a place and says where it ends, or fails. -/
def Reader (α : Type) := Cursor → Except Fault (α × Cursor)

namespace Reader

variable {α β : Type}

instance : Monad Reader where
  pure a := fun c => .ok (a, c)
  bind r f := fun c =>
    match r c with
    | .error e => .error e
    | .ok (a, d) => f a d

/-- Fails with a cause at an offset. -/
def failAt (cause : Cause) (position : Nat) : Reader α :=
  fun _ => .error (.misread ⟨cause, position⟩)

/-- Fails with a cause at the current place. -/
def fail (cause : Cause) : Reader α :=
  fun c => .error (.misread ⟨cause, c.pos⟩)

/-- A result that was found without reading. -/
def ofExcept (r : Except Misread α) : Reader α := fun c =>
  match r with
  | .error m => .error (.misread m)
  | .ok a => .ok (a, c)

/-- The current offset. -/
def position : Reader Nat :=
  fun c => .ok (c.pos, c)

/-- Whether nothing is left. -/
def atEnd : Reader Bool :=
  fun c => .ok (c.rest.isEmpty, c)

/-- The next character, without taking it. -/
def peek? : Reader (Option Char) :=
  fun c => .ok (c.rest.head?, c)

/-- Takes the characters from the front that have a property. -/
def takeWhile (p : Char → Bool) : Reader Text :=
  fun c => .ok (c.rest.takeWhile p, c.advance (c.rest.takeWhile p).length)

/-- Takes `t` if the rest begins with it, and says whether it did. -/
def eat (t : Text) : Reader Bool :=
  fun c => if t.isPrefixOf c.rest then .ok (true, c.advance t.length) else .ok (false, c)

/-- Passes over white space. -/
def skipBlank : Reader Unit := do
  let _ ← takeWhile isBlank
  return ()

/-- Takes `t`, which has to be there. -/
def expect (t : Text) : Reader Unit := do
  if ← eat t then return ()
  if ← atEnd then fail .unexpectedEnd
  fail (.missing (.characters t))

/-- Passes over white space, of which there has to be some. -/
def requireBlank : Reader Unit := do
  match ← peek? with
  | some c => if isBlank c then skipBlank else fail (.missing .whitespace)
  | none => fail (.missing .whitespace)

/-- Takes a word of lower case ASCII letters, perhaps an empty one. -/
def word : Reader Text :=
  takeWhile fun c => 'a' ≤ c && c ≤ 'z'

/-! ## Readers move forward -/

/-- A reader never moves back. -/
def Forward (r : Reader α) : Prop :=
  ∀ ⦃c a d⦄, r c = .ok (a, d) → c.Reaches d

theorem Forward.pure (a : α) : Forward (pure a : Reader α) := by
  intro c b d h
  cases h
  exact Cursor.Reaches.refl c

theorem Forward.bind {r : Reader α} {f : α → Reader β} (hr : Forward r)
    (hf : ∀ a, Forward (f a)) : Forward (r >>= f) := by
  intro c b e h
  simp only [Bind.bind] at h
  split at h
  · cases h
  · rename_i a d hd
    exact (hr hd).trans (hf a h)

theorem Forward.ite {p : Prop} [Decidable p] {r s : Reader α} (hr : Forward r)
    (hs : Forward s) : Forward (if p then r else s) := by
  split <;> assumption

theorem forward_failAt (cause : Cause) (n : Nat) : Forward (failAt cause n : Reader α) := by
  intro c a d h
  cases h

theorem forward_fail (cause : Cause) : Forward (fail cause : Reader α) := by
  intro c a d h
  cases h

theorem forward_ofExcept (r : Except Misread α) : Forward (ofExcept r) := by
  intro c a d h
  unfold ofExcept at h
  split at h
  · cases h
  · cases h
    exact Cursor.Reaches.refl c

theorem forward_position : Forward position := by
  intro c a d h
  cases h
  exact Cursor.Reaches.refl c

theorem forward_atEnd : Forward atEnd := by
  intro c a d h
  cases h
  exact Cursor.Reaches.refl c

theorem forward_peek? : Forward peek? := by
  intro c a d h
  cases h
  exact Cursor.Reaches.refl c

theorem forward_takeWhile (p : Char → Bool) : Forward (takeWhile p) := by
  intro c a d h
  cases h
  exact Cursor.reaches_advance (List.takeWhile_prefix p).length_le

theorem forward_eat (t : Text) : Forward (eat t) := by
  intro c a d h
  simp only [eat] at h
  split at h
  · rename_i hp
    cases h
    exact Cursor.reaches_advance (List.isPrefixOf_iff_prefix.1 hp).length_le
  · cases h
    exact Cursor.Reaches.refl c

theorem forward_skipBlank : Forward skipBlank :=
  (forward_takeWhile isBlank).bind fun _ => Forward.pure ()

theorem forward_expect (t : Text) : Forward (expect t) :=
  (forward_eat t).bind fun _ =>
    (Forward.pure ()).ite <|
      forward_atEnd.bind fun _ => (forward_fail _).ite (forward_fail _)

theorem forward_requireBlank : Forward requireBlank :=
  forward_peek?.bind fun o => by
    cases o with
    | none => exact forward_fail _
    | some c => exact forward_skipBlank.ite (forward_fail _)

theorem forward_word : Forward word :=
  forward_takeWhile _

end Reader

end ComponentDivision
