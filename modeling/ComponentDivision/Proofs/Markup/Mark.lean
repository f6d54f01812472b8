/-
# Marks in a text

A mark is made of its pieces, each in any letter case, with blanks between one
piece and the next. Brackets and slashes have no letter case, so the opening
bracket of an end tag is its first character and no other one: two end tags never
overlap.

* `sameLetter_iff_eq` : a character below the letters is the same as itself only;
* `IsMark` : the texts that are marks;
* `markLength?_eq_some_iff`, `firstMark?_eq_some` : where marks are found;
* `IsMark.opensOnce` : the opening bracket of a mark.
-/
import Mathlib
import ComponentDivision.Markup.Pattern
import ComponentDivision.Proofs.Text.Slice

namespace ComponentDivision

/-! ## Characters without letter case -/

/-- No lower case form is below the lower case letters. -/
theorem caseRun_ge : ∀ r ∈ caseRuns, (97 : Int) ≤ r.first + r.shift := by
  decide +kernel

/-- The letters that are equal up to case are not below the lower case letters. -/
theorem caseClass_ge : ∀ cls ∈ caseClasses, ∀ n ∈ cls, 97 ≤ n := by
  decide +kernel

/-- The code points of the upper case letters of ASCII. -/
theorem toNat_of_isUpper {c : Char} (h : c.isUpper = true) : 65 ≤ c.toNat ∧ c.toNat ≤ 90 := by
  simpa [Char.isUpper, UInt32.le_iff_toNat_le] using h

/-- A code point that is not below the lower case letters is one of such a character, or of
none. -/
theorem toNat_ofNat_eq_or {n : Nat} (h : 97 ≤ n) :
    (Char.ofNat n).toNat = 0 ∨ 97 ≤ (Char.ofNat n).toNat := by
  rw [Char.toNat_ofNat]
  split
  · exact Or.inr h
  · exact Or.inl rfl

/-- Lower case leaves a character as it is, or gives one that is not below the letters. -/
theorem lowerChar_eq_or (c : Char) :
    lowerChar c = c ∨ (lowerChar c).toNat = 0 ∨ 97 ≤ (lowerChar c).toNat := by
  unfold lowerChar
  split
  · by_cases hupper : c.isUpper
    · have hbounds := toNat_of_isUpper hupper
      rw [Char.toLower_eq_of_isUpper hupper]
      exact Or.inr (toNat_ofNat_eq_or (by omega))
    · exact Or.inl (Char.toLower_eq_of_not_isUpper hupper)
  · split
    · rename_i r hr
      have hge := caseRun_ge r (List.mem_of_find?_eq_some hr)
      have hcovers := List.find?_some hr
      simp only [CaseRun.covers, Bool.and_eq_true, decide_eq_true_eq] at hcovers
      exact Or.inr (toNat_ofNat_eq_or (by omega))
    · exact Or.inl rfl

section Caseless

variable {x : Char} (hpos : 0 < x.toNat) (hlt : x.toNat < 65)
include hpos hlt

/-- A character below the letters is the lower case form of itself only. -/
theorem lowerChar_eq_iff {c : Char} : lowerChar c = x ↔ c = x := by
  constructor
  · rintro rfl
    rcases lowerChar_eq_or c with h | h | h
    · exact h.symm
    · omega
    · omega
  · rintro rfl
    unfold lowerChar
    rw [if_pos (by omega)]
    apply Char.toLower_eq_of_not_isUpper
    intro hupper
    have hbounds := toNat_of_isUpper hupper
    omega

/-- A character below the letters is the same as itself only. -/
theorem sameLetter_iff_eq {c : Char} : sameLetter x c = true ↔ c = x := by
  have hx := (lowerChar_eq_iff hpos hlt).2 rfl
  unfold sameLetter
  simp only [hx, Bool.or_eq_true, beq_iff_eq, List.any_eq_true, Bool.and_eq_true,
    List.contains_iff_mem]
  constructor
  · rintro (h | ⟨cls, hcls, hmem, -⟩)
    · exact (lowerChar_eq_iff hpos hlt).1 (Char.toNat_inj.1 h.symm)
    · have := caseClass_ge cls hcls _ hmem
      omega
  · rintro rfl
    exact Or.inl (by rw [hx])

/-- A character that becomes one below the letters is that one. -/
theorem eq_of_mem_lowerBetween {before after : Text} {c : Char}
    (h : x ∈ lowerBetween before c after) : x = c := by
  unfold lowerBetween at h
  split at h
  · simp only [List.mem_cons, List.not_mem_nil, or_false] at h
    rcases h with rfl | rfl
    · exact absurd hlt (by decide)
    · exact absurd hlt (by decide)
  · split at h
    · obtain rfl := List.mem_singleton.1 h
      split at hlt
      · exact absurd hlt (by decide)
      · exact absurd hlt (by decide)
    · exact ((lowerChar_eq_iff hpos hlt).1 (List.mem_singleton.1 h).symm).symm

/-- Lower case brings in no character below the letters. -/
theorem mem_of_mem_lowerAfter {before t : Text} (h : x ∈ lowerAfter before t) : x ∈ t := by
  induction t generalizing before with
  | nil => cases h
  | cons c cs ih =>
    rcases List.mem_append.1 h with h | h
    · exact eq_of_mem_lowerBetween hpos hlt h ▸ List.mem_cons_self
    · exact List.mem_cons_of_mem c (ih h)

theorem mem_of_mem_lowercase {t : Text} (h : x ∈ lowercase t) : x ∈ t :=
  mem_of_mem_lowerAfter hpos hlt h

end Caseless

/-- Equality up to letter case is symmetric. -/
theorem sameLetter_comm (a b : Char) : sameLetter a b = sameLetter b a := by
  unfold sameLetter
  simp only [Bool.and_comm, Bool.beq_comm]

/-- Every character is the same as itself. -/
theorem sameLetter_self (c : Char) : sameLetter c c = true := by
  unfold sameLetter
  simp

namespace Markup

/-! ## Pieces -/

/-- A text that is a piece of a mark up to letter case. -/
abbrev Alike (piece u : Text) : Prop :=
  List.Forall₂ (fun l c => sameLetter l c = true) piece u

/-- Every piece is alike itself. -/
theorem alike_refl (piece : Text) : Alike piece piece :=
  List.forall₂_same.2 fun c _ => sameLetter_self c

/-- What follows a piece. -/
theorem afterPiece?_eq_some_iff {piece t rest : Text} :
    afterPiece? piece t = some rest ↔ ∃ u, Alike piece u ∧ t = u ++ rest := by
  induction piece generalizing t with
  | nil =>
    rw [afterPiece?, Option.some.injEq]
    constructor
    · rintro rfl
      exact ⟨[], .nil, rfl⟩
    · rintro ⟨u, hu, rfl⟩
      cases hu
      rfl
  | cons l piece ih =>
    cases t with
    | nil =>
      rw [afterPiece?]
      constructor
      · intro h
        cases h
      · rintro ⟨u, hu, heq⟩
        cases hu
        cases heq
    | cons c cs =>
      rw [afterPiece?]
      constructor
      · intro h
        split at h
        · rename_i hsame
          obtain ⟨u, hu, rfl⟩ := ih.1 h
          exact ⟨c :: u, .cons hsame hu, rfl⟩
        · cases h
      · rintro ⟨_ | ⟨d, u⟩, hu, heq⟩
        · cases hu
        · cases heq
          obtain ⟨hsame, hrest⟩ := List.forall₂_cons.1 hu
          rw [if_pos hsame]
          exact ih.2 ⟨u, hrest, rfl⟩

/-! ## Marks -/

/-- The texts that are marks of these pieces. The blanks between two pieces are all that
stand there. -/
inductive IsMark : List Text → Text → Prop where
  | nil : IsMark [] []
  | last {piece u : Text} : Alike piece u → IsMark [piece] u
  | cons {piece : Text} {pieces : List Text} {u blanks v : Text} {c : Char} :
      Alike piece u → (∀ b ∈ blanks, isBlank b = true) → isBlank c = false →
      IsMark pieces (c :: v) → IsMark (piece :: pieces) (u ++ (blanks ++ c :: v))

/-- A mark of pieces that are not empty is not empty. -/
theorem IsMark.ne_nil {pieces : List Text} {u : Text} (h : IsMark pieces u)
    (hpieces : pieces ≠ []) (hne : ∀ p ∈ pieces, p ≠ []) : u ≠ [] := by
  cases h with
  | nil => exact absurd rfl hpieces
  | last hu =>
    rintro rfl
    cases hu
    exact hne [] List.mem_cons_self rfl
  | cons hu _ _ _ => simp

/-- A mark is found where one stands, with its length. -/
theorem markLength?_eq_some_iff {pieces : List Text} (hne : ∀ p ∈ pieces, p ≠ []) {t : Text}
    {n : Nat} :
    markLength? pieces t = some n ↔ ∃ u, IsMark pieces u ∧ u <+: t ∧ u.length = n := by
  induction pieces generalizing t n with
  | nil =>
    rw [markLength?, Option.some.injEq]
    constructor
    · rintro rfl
      exact ⟨[], .nil, List.nil_prefix, rfl⟩
    · rintro ⟨u, hu, -, rfl⟩
      cases hu
      rfl
  | cons piece pieces ih =>
    have hrest := fun p hp => hne p (List.mem_cons_of_mem piece hp)
    rw [markLength?]
    constructor
    · intro h
      split at h
      · cases h
      · rename_i rest hafter
        obtain ⟨u, hu, rfl⟩ := afterPiece?_eq_some_iff.1 hafter
        obtain ⟨m, hm, rfl⟩ := Option.map_eq_some_iff.1 h
        cases pieces with
        | nil =>
          cases hm
          exact ⟨u, .last hu, List.prefix_append u rest, by rw [hu.length_eq]; rfl⟩
        | cons q qs =>
          obtain ⟨v, hv, ⟨tail, htail⟩, rfl⟩ := (ih hrest).1 hm
          -- the next piece begins where the blanks end, so its first character is none
          obtain ⟨c, v, rfl⟩ := List.exists_cons_of_ne_nil (hv.ne_nil (by simp) hrest)
          rw [if_neg (by simp), Text.drop_takeWhile_length] at htail
          refine ⟨u ++ (rest.takeWhile isBlank ++ c :: v), ?_, ⟨tail, ?_⟩, ?_⟩
          · have hc := List.head?_dropWhile_not isBlank rest
            rw [← htail] at hc
            exact .cons hu (List.all_eq_true.1 List.all_takeWhile) hc hv
          · rw [List.append_assoc, List.append_assoc, htail, List.takeWhile_append_dropWhile]
          · rw [if_neg (by simp), List.length_append, List.length_append, hu.length_eq,
              Nat.add_assoc]
    · rintro ⟨w, hw, ⟨tail, rfl⟩, rfl⟩
      cases hw with
      | last hu =>
        rw [afterPiece?_eq_some_iff.2 ⟨w, hu, rfl⟩, hu.length_eq]
        rfl
      | @cons _ _ u blanks v c hu hblanks hc hv =>
        have hpieces : pieces.isEmpty = false := by
          cases pieces with
          | nil => cases hv
          | cons q qs => rfl
        have hfound : markLength? pieces (c :: (v ++ tail)) = some (c :: v).length :=
          (ih hrest).2 ⟨c :: v, hv, ⟨tail, rfl⟩, rfl⟩
        have htake : (blanks ++ c :: (v ++ tail)).takeWhile isBlank = blanks := by
          rw [List.takeWhile_append_of_pos hblanks, List.takeWhile_cons_of_neg (by simp [hc]),
            List.append_nil]
        rw [afterPiece?_eq_some_iff.2
          ⟨u, hu, by rw [List.append_assoc, List.append_assoc, List.cons_append]⟩]
        simp only [hpieces, Bool.false_eq_true, if_false, htake, List.drop_left, hfound]
        rw [Option.map_some, List.length_append, List.length_append, hu.length_eq, Nat.add_assoc]

/-- The first mark of a text: it stands there, and none stands before it. -/
theorem firstMark?_eq_some {pieces : List Text} {t : Text} {i n : Nat}
    (h : firstMark? pieces t = some (i, n)) :
    markLength? pieces (t.drop i) = some n ∧ ∀ j < i, markLength? pieces (t.drop j) = none := by
  induction t generalizing i with
  | nil => cases h
  | cons c cs ih =>
    unfold firstMark? at h
    split at h
    · rename_i m hm
      cases h
      exact ⟨hm, nofun⟩
    · rename_i hnone
      obtain ⟨⟨j, m⟩, hj, heq⟩ := Option.map_eq_some_iff.1 h
      cases heq
      obtain ⟨hmark, hbefore⟩ := ih hj
      refine ⟨hmark, fun k hk => ?_⟩
      cases k with
      | zero => exact hnone
      | succ k => exact hbefore k (Nat.lt_of_succ_lt_succ hk)

/-! ## Opening brackets -/

/-- An opening bracket in a text that is alike a piece is one of the piece. -/
theorem Alike.lt_mem {piece u : Text} (h : Alike piece u) (hu : '<' ∈ u) : '<' ∈ piece := by
  induction h with
  | nil => exact hu
  | @cons l c piece u hsame _ ih =>
    rcases List.mem_cons.1 hu with rfl | hu
    · rw [sameLetter_comm, sameLetter_iff_eq (by decide) (by decide)] at hsame
      exact hsame ▸ List.mem_cons_self
    · exact List.mem_cons_of_mem l (ih hu)

/-- An opening bracket in a mark is one of its pieces'. -/
theorem IsMark.lt_mem {pieces : List Text} {u : Text} (h : IsMark pieces u) (hu : '<' ∈ u) :
    '<' ∈ pieces.flatten := by
  induction h with
  | nil => exact hu
  | last halike =>
    rw [List.flatten_singleton]
    exact halike.lt_mem hu
  | cons halike hblanks _ _ ih =>
    rw [List.flatten_cons, List.mem_append]
    rcases List.mem_append.1 hu with hu | hu
    · exact Or.inl (halike.lt_mem hu)
    · rcases List.mem_append.1 hu with hu | hu
      · exact absurd (hblanks _ hu) (by decide)
      · exact Or.inr (ih hu)

/-- A text whose first character is an opening bracket, and no other one is. -/
def OpensOnce (u : Text) : Prop :=
  ∃ v, u = '<' :: v ∧ '<' ∉ v

/-- In such a text nothing begins with an opening bracket but at its front. -/
theorem OpensOnce.eq_zero {u p t : Text} {j : Nat} (h : OpensOnce u) (ht : u <+: t)
    (hj : j < u.length) (hp : '<' :: p <+: t.drop j) : j = 0 := by
  obtain ⟨v, rfl, hv⟩ := h
  obtain ⟨rest, rfl⟩ := ht
  cases j with
  | zero => rfl
  | succ j =>
    have hlt : j < v.length := Nat.lt_of_succ_lt_succ hj
    obtain ⟨tail, htail⟩ := hp
    have hget : (v ++ rest)[j]? = some '<' := by
      rw [← List.head?_drop, show (v ++ rest).drop j = _ from htail.symm]
      rfl
    rw [List.getElem?_append_left hlt] at hget
    exact absurd (List.mem_of_getElem? hget) hv

/-- **The opening bracket of a mark is its first character and no other one.** -/
theorem IsMark.opensOnce {q : Text} {pieces : List Text} {u : Text}
    (h : IsMark (('<' :: q) :: pieces) u) (hq : '<' ∉ q ++ pieces.flatten) : OpensOnce u := by
  have halike : ∀ {w : Text}, Alike ('<' :: q) w → ∃ v, w = '<' :: v ∧ Alike q v := by
    rintro _ (_ | ⟨hsame, hv⟩)
    rw [sameLetter_iff_eq (by decide) (by decide)] at hsame
    exact ⟨_, by rw [hsame], hv⟩
  rw [List.mem_append, not_or] at hq
  cases h with
  | last hu =>
    obtain ⟨v, rfl, hv⟩ := halike hu
    exact ⟨v, rfl, fun hmem => hq.1 (hv.lt_mem hmem)⟩
  | cons hu hblanks hc hrest =>
    obtain ⟨v, rfl, hv⟩ := halike hu
    refine ⟨_, rfl, fun hmem => ?_⟩
    rcases List.mem_append.1 hmem with hmem | hmem
    · exact hq.1 (hv.lt_mem hmem)
    · rcases List.mem_append.1 hmem with hmem | hmem
      · exact absurd (hblanks _ hmem) (by decide)
      · exact hq.2 (hrest.lt_mem hmem)

end Markup

end ComponentDivision
