/-
# The first and the last character of an expression

An expression begins with a token and ends with one, and no token begins with a blank. A token
ends with a blank exactly if it ends with a word, or with the flags of a regular expression,
whose last character is blank: every character beyond ASCII may stand in a word, the white
space among them as well. So white space before an expression is left out, and white space
after it is left out unless it is such a character right behind a word.

* `Piece.EndsBlank` : a token with a blank character at its end;
* `readExpression_edges` : the characters at both ends of an expression.
-/
import ComponentDivision.Proofs.Expression.Context

namespace ComponentDivision

/-! ## Blanks in words -/

/-- No word character of ASCII is blank. -/
theorem isBlank_of_isWordChar {c : Char} (hword : isWordChar c = true) (hc : c.toNat < 128) :
    isBlank c = false := by
  have hall : ∀ n < 128, isWordChar (Char.ofNat n) = true → isBlank (Char.ofNat n) = false := by
    decide +kernel
  have hn := hall c.toNat hc
  rw [Char.ofNat_toNat] at hn
  exact hn hword

/-- A token ends with a word, or with flags, whose last character is white space beyond ASCII. -/
def Piece.EndsBlank (p : Piece) : Prop :=
  ∃ c ∈ p.lastWord.getLast?, 127 < c.toNat ∧ isBlank c = true

/-- Every piece closes what some brackets have open. -/
theorem Piece.exists_openAfter (p : Piece) :
    ∃ depth depth', openAfter depth p.marks = some depth' := by
  cases p with
  | chunk resumes body closed =>
    cases resumes with
    | false => cases closed <;> exact ⟨[], _, rfl⟩
    | true => cases closed <;> exact ⟨[.substitution], _, rfl⟩
  | closer b => exact ⟨[b], [], if_pos rfl⟩
  | _ => exact ⟨[], _, rfl⟩

namespace Piece.Fits

variable {value : Bool} {rest : Text} {p : Piece} {c : Char}

/-- What a token ends with is written in word characters. -/
theorem isWordChar_lastWord (h : p.Fits value rest) (hc : c ∈ p.lastWord) :
    isWordChar c = true := by
  cases p with
  | word w => exact h.2.2.1 c hc
  | regex body flags => exact h.2.2.2.2.1 c hc
  | _ => cases hc

/-- No token begins with a blank: where one is read there is no gap. -/
theorem isBlank_head (h : p.Fits value rest) (hp : p.isGap = false) (hc : c ∈ p.text.head?) :
    isBlank c = false := by
  obtain ⟨depth, depth', hdepth⟩ := p.exists_openAfter
  obtain ⟨d, ds, htext, hgap, -⟩ :=
    scanToken_of_fits (s := { depth := depth, afterValue := value }) hp h hdepth
  rw [htext] at hc
  cases hc
  exact (gap?_eq_none_iff.1 hgap).1

/-- **A token ends with a blank exactly if the word at its end does**, and that is one beyond
ASCII. -/
theorem isBlank_last_iff (h : p.Fits value rest) (hp : p.isGap = false)
    (hc : c ∈ p.text.getLast?) : isBlank c = true ↔ p.EndsBlank := by
  constructor
  · intro hblank
    have hlast := h.last_mem_lastWord hp hc hblank
    refine ⟨c, hlast, ?_, hblank⟩
    by_contra hascii
    have hword := h.isWordChar_lastWord (List.mem_of_getLast? hlast)
    rw [isBlank_of_isWordChar hword (by omega)] at hblank
    cases hblank
  · rintro ⟨d, hd, -, hblank⟩
    rw [Piece.getLast?_text (List.ne_nil_of_mem (List.mem_of_getLast? hd))] at hc
    cases Option.mem_unique hc hd
    exact hblank

end Piece.Fits

/-! ## Both ends -/

/-- Each of some pieces that fit stands after a value or not, before some text. -/
theorem Pieces.exists_fits {value : Bool} {rest : Text} {ps : List Piece} {p : Piece}
    (h : Pieces value rest ps) (hp : p ∈ ps) : ∃ value rest, p.Fits value rest := by
  induction ps generalizing value with
  | nil => cases hp
  | cons q ps ih =>
    rcases List.mem_cons.1 hp with rfl | hp
    · exact ⟨_, _, h.1⟩
    · exact ih h.2 hp

namespace Scan.Splits

variable {source : Text} {index : Nat} {options : ScanOptions} {r : Scan}
  {before within after : List Piece}

/-- The characters at the ends of an expression are those at the ends of its pieces. -/
theorem getElem?_edges (h : r.Splits source index options before within after)
    (hlt : r.start < r.stop) (hstop : r.stop ≤ source.length) :
    source[r.start]? = (piecesText within).head? ∧
      source[r.stop - 1]? = (piecesText within).getLast? := by
  have hlen := Text.length_slice (t := source) (i := r.start) (j := r.stop) (by omega) (by omega)
    (by omega)
  rw [h.within_text] at hlen
  have hdrop : source.drop r.start = piecesText within ++ source.drop r.stop := by
    rw [← h.within_text, Text.slice_append_drop (by omega) hstop]
  have hne : piecesText within ≠ [] := List.ne_nil_of_length_pos (by omega)
  constructor
  · rw [← List.head?_drop, hdrop, List.head?_append_of_ne_nil _ hne]
  · rw [← getElem?_pred_of_drop hne hdrop]
    congr 1
    omega

/-- An expression begins with a token, which has a first character. -/
theorem exists_first (h : r.Splits source index options before within after) (hne : within ≠ []) :
    ∃ c, (piecesText within).head? = some c ∧ isBlank c = false := by
  obtain ⟨p, ps, rfl⟩ := List.exists_cons_of_ne_nil hne
  obtain ⟨_, _, hfit⟩ := h.fits.exists_fits (p := p) (by simp)
  obtain ⟨c, cs, hcs⟩ := List.exists_cons_of_ne_nil (Piece.text_ne_nil hfit)
  refine ⟨c, ?_, hfit.isBlank_head (h.parts.first p rfl) (by rw [hcs]; rfl)⟩
  rw [piecesText_cons, hcs]
  rfl

/-- An expression ends with a token, which has a last character. -/
theorem exists_last (h : r.Splits source index options before within after) (hne : within ≠ []) :
    ∃ c p, (piecesText within).getLast? = some c ∧ within.getLast? = some p ∧
      (isBlank c = true ↔ p.EndsBlank) := by
  obtain ⟨ps, p, rfl⟩ := (List.eq_nil_or_concat' within).resolve_left hne
  obtain ⟨_, _, hfit⟩ := h.fits.exists_fits (p := p) (by simp)
  obtain ⟨cs, c, hcs⟩ := (List.eq_nil_or_concat' p.text).resolve_left (Piece.text_ne_nil hfit)
  have hlast : c ∈ p.text.getLast? := by
    rw [hcs, List.getLast?_concat]
    rfl
  have htoken : p.isGap = false := h.parts.last p (by rw [List.getLast?_concat]; rfl)
  exact ⟨c, p, (getLast?_piecesText_concat hfit).trans hlast, List.getLast?_concat,
    hfit.isBlank_last_iff htoken hlast⟩

end Scan.Splits

/-- **The characters at both ends of an expression.** The first one is never blank. The last one
is blank exactly if the last token, however the source is split into pieces, ends with a word that
has white space beyond ASCII at its end. -/
theorem readExpression_edges {source : Text} {index : Nat} {options : ScanOptions} {r : Scan}
    (h : readExpression source index options = .ok r) (hlt : r.start < r.stop) :
    ∃ first last, source[r.start]? = some first ∧ source[r.stop - 1]? = some last ∧
      isBlank first = false ∧
      (∃ before within after, r.Splits source index options before within after) ∧
      ∀ before within after, r.Splits source index options before within after →
        ∃ p, within.getLast? = some p ∧ (isBlank last = true ↔ p.EndsBlank) := by
  obtain ⟨⟨-, -, hle, hnext⟩, before, within, after, hsplits⟩ :=
    exists_splits h (Nat.ne_of_lt hlt)
  have hstop : r.stop ≤ source.length := by omega
  obtain ⟨hstart, hend⟩ := hsplits.getElem?_edges hlt hstop
  obtain ⟨first, hfirst, hblank⟩ := hsplits.exists_first (hsplits.within_ne_nil hlt hstop)
  obtain ⟨last, -, hlast, -⟩ := hsplits.exists_last (hsplits.within_ne_nil hlt hstop)
  refine ⟨first, last, hstart.trans hfirst, hend.trans hlast, hblank,
    ⟨before, within, after, hsplits⟩, fun before' within' after' hsplits' => ?_⟩
  obtain ⟨last', p, hlast', hp, hiff⟩ := hsplits'.exists_last (hsplits'.within_ne_nil hlt hstop)
  have hsame : some last = some last' := by
    rw [← hlast, ← hend, (hsplits'.getElem?_edges hlt hstop).2, hlast']
  cases hsame
  exact ⟨p, hp, hiff⟩

/-- A sum between blanks and a comment begins and ends with a name. -/
theorem readExpression_edges_sum :
    readExpression "  a + b /* c */ \x7d".toList 0 {} = .ok ⟨2, 7, 16, none⟩ ∧
      ∃ first last, "  a + b /* c */ \x7d".toList[2]? = some first ∧
        "  a + b /* c */ \x7d".toList[6]? = some last ∧ isBlank first = false ∧
        (∃ before within after,
          Scan.Splits "  a + b /* c */ \x7d".toList 0 {} ⟨2, 7, 16, none⟩ before within after) ∧
        ∀ before within after,
          Scan.Splits "  a + b /* c */ \x7d".toList 0 {} ⟨2, 7, 16, none⟩ before within after →
            ∃ p, within.getLast? = some p ∧ (isBlank last = true ↔ p.EndsBlank) := by
  have h : readExpression "  a + b /* c */ \x7d".toList 0 {} = .ok ⟨2, 7, 16, none⟩ := by
    decide +kernel
  exact ⟨h, readExpression_edges h (by decide)⟩

/-- A no-break space behind a word is taken for a part of it. -/
theorem readExpression_last_blank :
    ∃ r, readExpression "a\u00a0\x7d".toList 0 {} = .ok r ∧ r.start < r.stop ∧
      ∃ c, "a\u00a0\x7d".toList[r.stop - 1]? = some c ∧ isBlank c = true :=
  ⟨⟨0, 2, 2, none⟩, by decide +kernel, by decide, '\u00a0', rfl, by decide⟩

end ComponentDivision
