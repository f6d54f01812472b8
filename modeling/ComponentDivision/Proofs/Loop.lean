/-
# Loops

A loop takes turns. A turn fails, ends the loop with a result, or goes on with another state. A loop
that moves an index forward with each turn that goes on, and never past a limit, ends after at most
one turn more than there are places left.

* `Loop` : one turn of a loop;
* `Loop.Takes` : a loop takes so many turns and gives this result;
* `Loop.Moves` : what one turn does, and that a function does the same;
* `Loop.Ends`, `Loop.ends_of_moves` : what all turns do, and how many there are.
-/
import Mathlib.Tactic.Common

namespace ComponentDivision

/-- What a turn of a loop does, unless it fails. -/
inductive Turn (σ α : Type) where
  | again (s : σ)
  | done (a : α)

/-- One turn of a loop with states `σ` and results `α`. -/
abbrev Loop (ε σ α : Type) := σ → Except ε (Turn σ α)

namespace Loop

variable {ε σ α : Type}

/-- From a state on the loop takes exactly so many turns and gives this result. -/
inductive Takes (loop : Loop ε σ α) : Nat → σ → Except ε α → Prop
  | error {s : σ} {e : ε} (h : loop s = .error e) : Takes loop 1 s (.error e)
  | done {s : σ} {a : α} (h : loop s = .ok (.done a)) : Takes loop 1 s (.ok a)
  | again {n : Nat} {s s' : σ} {r : Except ε α} (h : loop s = .ok (.again s'))
      (hnext : Takes loop n s' r) : Takes loop (n + 1) s r

variable (loop : Loop ε σ α) (good : σ → Prop) (index : σ → Nat) (final : α → Nat) (limit : Nat)
  (f : σ → Except ε α)

/-- What a turn from the state `s` does: it fails, it ends the loop at an index that is not before
its own, or it goes on at a greater index. The function `f` leaves what comes after the turn to
itself. -/
inductive Moves (s : σ) : Prop
  | error {e : ε} (hturn : loop s = .error e) (hf : f s = .error e)
  | done {a : α} (hturn : loop s = .ok (.done a)) (hf : f s = .ok a) (hle : index s ≤ final a)
      (hlimit : final a ≤ limit)
  | again {t : σ} (hturn : loop s = .ok (.again t)) (hf : f s = f t) (hgood : good t)
      (hlt : index s < index t) (hlimit : index t ≤ limit)

/-- Each turn that goes on from a good state moves the index forward, and no turn moves it past the
limit. From a good state on the loop gives what `f` gives, after at most one turn more than there
are places left, and if it succeeds, than there are places up to where it ends. -/
structure Ends : Prop where
  again {s s' : σ} : good s → loop s = .ok (.again s') →
    good s' ∧ index s < index s' ∧ index s' ≤ limit
  done {s : σ} {a : α} : good s → loop s = .ok (.done a) → index s ≤ final a ∧ final a ≤ limit
  takes {s : σ} : good s → ∃ n, loop.Takes n s (f s) ∧ n ≤ limit - index s + 1 ∧
    ∀ a, f s = .ok a → index s + n ≤ final a + 1

variable {loop good index final limit f}

/-- **What each turn does is what all turns do.** -/
theorem ends_of_moves (h : ∀ s, good s → loop.Moves good index final limit f s) :
    loop.Ends good index final limit f where
  again := by
    intro s s' hs hagain
    cases h s hs with
    | error hturn => cases hturn.symm.trans hagain
    | done hturn => cases hturn.symm.trans hagain
    | again hturn _ hgood hlt hlimit =>
      cases hturn.symm.trans hagain
      exact ⟨hgood, hlt, hlimit⟩
  done := by
    intro s a hs hdone
    cases h s hs with
    | error hturn => cases hturn.symm.trans hdone
    | done hturn _ hle hlimit =>
      cases hturn.symm.trans hdone
      exact ⟨hle, hlimit⟩
    | again hturn => cases hturn.symm.trans hdone
  takes := by
    intro s hs
    -- by induction on the places that are left
    induction hk : limit - index s using Nat.strongRecOn generalizing s with
    | _ k ih =>
      cases h s hs with
      | error hturn hf =>
        rw [hf]
        exact ⟨1, .error hturn, by omega, fun a ha => by cases ha⟩
      | done hturn hf hle =>
        rw [hf]
        refine ⟨1, .done hturn, by omega, ?_⟩
        rintro _ ⟨⟩
        omega
      | again hturn hf hgood hlt hlimit =>
        obtain ⟨n, htakes, hn, hfinal⟩ := ih _ (by omega) hgood rfl
        rw [hf]
        refine ⟨n + 1, .again hturn htakes, by omega, fun a ha => ?_⟩
        have := hfinal a ha
        omega

end Loop

end ComponentDivision
