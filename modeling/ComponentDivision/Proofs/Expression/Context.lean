/-
# Expressions in other places

An expression is read alike wherever it stands. What is before the place where a scan begins
and what is after the character at which it halts may change; and an expression that has been
delimited, with a closing brace put behind it, is delimited again as the whole of that text.

* `readExpression_local` : other texts before and after an expression;
* `readExpression_of_reads` : a run from one token to another, before a closing brace;
* `readExpression_rescan` : an expression by itself.
-/
import ComponentDivision.Proofs.Expression.Delimited

namespace ComponentDivision

/-! ## Other surroundings -/

/-- **An expression that ends at a terminator is read alike in other surroundings.** Nothing
before the place where the scan begins is read, and nothing after the terminator `c`. -/
theorem readExpression_local {options : ScanOptions} {before text after : Text} {r : Scan}
    {c : Char} (hoptions : ∀ d ∈ options.terminators, d ∈ ['}', ')', '(', ','])
    (h : readExpression (before ++ text ++ after) before.length options = .ok r)
    (hc : c ∈ options.terminators) (hnext : text[r.next - before.length]? = some c)
    (before' after' : Text) :
    ∃ r', readExpression (before' ++ text ++ after') before'.length options = .ok r' ∧
      r'.stopWord = r.stopWord ∧
      (r'.start : Int) = r.start + (before'.length - before.length) ∧
      (r'.stop : Int) = r.stop + (before'.length - before.length) ∧
      (r'.next : Int) = r.next + (before'.length - before.length) := by
  have hword : isWordChar c = false := by
    have hmem := hoptions c hc
    simp only [List.mem_cons, List.not_mem_nil, or_false] at hmem
    rcases hmem with rfl | rfl | rfl | rfl <;> rfl
  obtain ⟨r₀, hscan, rfl⟩ := readExpression_eq_ok_iff.1 h
  rw [List.append_assoc, List.drop_left] at hscan
  rw [Scan.shift, Nat.add_sub_cancel] at hnext
  have hdrop : c ∈ text.drop r₀.next := List.mem_of_getElem? (i := 0) (by
    rw [List.getElem?_drop, Nat.add_zero, hnext])
  have hscan' : scan options (text ++ after') = .ok r₀ :=
    scan_swap hscan (List.getElem?_eq_some_iff.1 hnext).1
      (fun hslash => absurd (hoptions '/' hslash) (by decide))
      (.inr ⟨c, hdrop, hword⟩)
  refine ⟨r₀.shift before'.length, readExpression_eq_ok_iff.2 ⟨r₀, ?_, rfl⟩, rfl, ?_⟩
  · rw [List.append_assoc, List.drop_left, hscan']
  · simp only [Scan.shift]
    omega

/-- A quotient that ends at a comma, after another text and with another one behind it. -/
theorem readExpression_local_quotient :
    readExpression ("(".toList ++ "a[`,`] / b /*,*/ , c".toList ++ ")".toList) 1
        { terminators := [',', ')'] } = .ok ⟨1, 11, 18, none⟩ ∧
      ∃ r', readExpression ("x - ".toList ++ "a[`,`] / b /*,*/ , c".toList ++ " \"".toList) 4
          { terminators := [',', ')'] } = .ok r' ∧
        r'.stopWord = none ∧ (r'.start : Int) = 1 + (4 - 1) ∧ (r'.stop : Int) = 11 + (4 - 1) ∧
        (r'.next : Int) = 18 + (4 - 1) := by
  have h : readExpression ("(".toList ++ "a[`,`] / b /*,*/ , c".toList ++ ")".toList) 1
      { terminators := [',', ')'] } = .ok ⟨1, 11, 18, none⟩ := by
    decide +kernel
  exact ⟨h, readExpression_local (by simp) h (List.mem_cons_self (a := ',')) rfl
    "x - ".toList " \"".toList⟩

/-! ## Pieces before a closing brace -/

/-- A token that fits somewhere fits before a character that goes on with no token. -/
theorem Piece.Fits.before_mark {value : Bool} {rest : Text} {p : Piece} {c : Char}
    (h : p.Fits value rest) (hp : p.isGap = false) (hword : isWordChar c = false)
    (hmark : c ∉ ['/', '*', '+', '-']) (rest' : Text) : p.Fits value (c :: rest') := by
  have hend : WordEnd (c :: rest') := by
    rintro d ⟨⟩
    exact hword
  cases p with
  | word w => exact ⟨h.1, h.2.1, h.2.2.1, hend⟩
  | regex body flags => exact ⟨h.1, h.2.1, h.2.2.1, h.2.2.2.1, h.2.2.2.2.1, hend⟩
  | single d =>
    obtain ⟨hsingle, hslash, -⟩ := h
    simp only [List.mem_cons, List.not_mem_nil, or_false, not_or] at hmark
    refine ⟨hsingle, fun hd => ⟨(hslash hd).1, by simp [hmark], by simp [hmark]⟩, ?_⟩
    rintro (rfl | rfl) - <;> simp [hmark]
  | lineComment body => cases hp
  | _ => exact h

/-- Pieces that fit, the last of them a token, fit before a character that goes on with no token. -/
theorem Pieces.before_mark {value : Bool} {rest : Text} {ps : List Piece} {c : Char}
    (h : Pieces value rest ps) (hlast : ∀ p ∈ ps.getLast?, p.isGap = false)
    (hword : isWordChar c = false) (hmark : c ∉ ['/', '*', '+', '-']) (rest' : Text) :
    Pieces value (c :: rest') ps := by
  induction ps generalizing value with
  | nil => trivial
  | cons p ps ih =>
    cases ps with
    | nil => exact ⟨h.1.before_mark (hlast p rfl) hword hmark rest', trivial⟩
    | cons q ps =>
      obtain ⟨hp, hps⟩ := h
      -- The next piece has a character, and no piece looks further than that.
      have hne : piecesText (q :: ps) ≠ [] := by
        rw [piecesText_cons]
        exact List.append_ne_nil_of_left_ne_nil (Piece.text_ne_nil hps.1) _
      refine ⟨hp.congr ?_, ih hps fun x hx => hlast x (by rwa [List.getLast?_cons_cons])⟩
      rw [List.head?_append_of_ne_nil _ hne, List.head?_append_of_ne_nil _ hne]

/-- Pieces that fit, the last of them a token, fit before a closing brace. -/
theorem Pieces.before_brace {value : Bool} {rest : Text} {ps : List Piece}
    (h : Pieces value rest ps) (hlast : ∀ p ∈ ps.getLast?, p.isGap = false) (rest' : Text) :
    Pieces value ('}' :: rest') ps :=
  h.before_mark hlast rfl (by decide) rest'

/-- The first pieces of some pieces that fit, before the text of the others. -/
theorem Pieces.left {value : Bool} {rest : Text} {ps qs : List Piece}
    (h : Pieces value rest (ps ++ qs)) : Pieces value (piecesText qs ++ rest) ps := by
  induction ps generalizing value with
  | nil => trivial
  | cons p ps ih =>
    rw [List.cons_append] at h
    obtain ⟨hp, hps⟩ := h
    rw [piecesText_append, List.append_assoc] at hp
    exact ⟨hp, ih hps⟩

/-- What fits after gaps fits without them. -/
theorem Pieces.of_gaps_append {value : Bool} {rest : Text} {gaps ps : List Piece}
    (hgaps : ∀ p ∈ gaps, p.isGap = true) (h : Pieces value rest (gaps ++ ps)) :
    Pieces value rest ps := by
  induction gaps with
  | nil => exact h
  | cons p gaps ih =>
    have hp := hgaps p List.mem_cons_self
    refine ih (fun q hq => hgaps q (List.mem_cons_of_mem _ hq)) ?_
    cases p <;> cases hp <;> exact h.2

/-- Outside the brackets a closing brace begins no token. -/
theorem scanToken_brace {s : ScanState} {cs : Text} (hdepth : s.depth = []) :
    scanToken s '}' cs = .error (.unexpectedToken, 0) := by
  simp only [scanToken, hdepth]
  rfl

/-- Pieces that fit are gone through up to a closing brace outside the brackets. -/
theorem exists_reads_of_pieces {s : ScanState} {ps : List Piece} {rest : Text}
    {depth : List Bracket} (hfits : Pieces s.afterValue rest ps)
    (hopen : openAfter s.depth (piecesMarks ps) = some depth) :
    ∃ s', Reads {} rest s ps s' := by
  refine reads_of_pieces hfits hopen fun pre p post s₁ hps hpre hfit hp hdepth => ⟨?_, by simp⟩
  intro c hc hterm
  cases List.mem_singleton.1 hterm
  rw [hps, piecesMarks_append, openAfter_append, hpre.openAfter, Option.bind_some, piecesMarks,
    List.flatMap_cons, openAfter_append] at hopen
  obtain ⟨d, hd, -⟩ := Option.bind_eq_some_iff.1 hopen
  obtain ⟨c, cs, htext, -, htoken⟩ := scanToken_of_fits hp hfit hd
  rw [htext] at hc
  cases hc
  rw [scanToken_brace hdepth] at htoken
  cases htoken

/-- **A run from one token to another that leaves no bracket open delimits an expression**
before a closing brace. -/
theorem readExpression_of_reads {ps : List Piece} {rest : Text} {s' : ScanState}
    (h : Reads {} ('}' :: rest) {} ps s') (hdepth : s'.depth = []) (hne : ps ≠ [])
    (hfirst : ∀ p ∈ ps.head?, p.isGap = false) (hlast : ∀ p ∈ ps.getLast?, p.isGap = false) :
    readExpression (piecesText ps ++ '}' :: rest) 0 {} =
      .ok ⟨0, (piecesText ps).length, (piecesText ps).length, none⟩ := by
  have hparts : Reads {} ('}' :: rest) {} ([] ++ ps ++ []) s' := by
    rwa [List.nil_append, List.append_nil]
  obtain ⟨hstart, hstop⟩ := hparts.bounds ⟨by simp, by simp, hfirst, hlast⟩ hne
  have hhalts : s'.Halts {} '}' rest none :=
    ⟨gap?_eq_none_iff.2 ⟨by decide, by simp⟩, hdepth, .inl ⟨List.mem_singleton_self _, rfl⟩⟩
  refine readExpression_eq_ok_iff.2 ⟨⟨0, (piecesText ps).length, (piecesText ps).length, none⟩,
    ?_, rfl⟩
  rw [List.drop_zero, scan, scanFrom_of_reads h, scanFrom_of_halts hhalts, ScanState.halt,
    hstart, hstop, h.offset]
  simp [piecesText]

/-! ## An expression by itself -/

/-- An expression with a character has a piece. -/
theorem Scan.Splits.within_ne_nil {source : Text} {index : Nat} {options : ScanOptions} {r : Scan}
    {before within after : List Piece} (h : r.Splits source index options before within after)
    (hlt : r.start < r.stop) (hstop : r.stop ≤ source.length) : within ≠ [] := by
  rintro rfl
  have hlen := Text.length_slice (t := source) (i := r.start) (j := r.stop) (by omega) (by omega)
    (by omega)
  rw [h.within_text, piecesText, List.flatMap_nil, List.length_nil] at hlen
  omega

/-- **An expression is delimited again as the whole of its own text**, from its beginning to a
closing brace put behind it, with whatever options it was read. -/
theorem readExpression_rescan {source : Text} {index : Nat} {options : ScanOptions} {r : Scan}
    (h : readExpression source index options = .ok r) (hne : r.start ≠ r.stop) :
    readExpression (source.slice r.start r.stop ++ ['}']) 0 {} =
      .ok ⟨0, (source.slice r.start r.stop).length, (source.slice r.start r.stop).length,
        none⟩ := by
  obtain ⟨⟨-, hlt, hle, hnext⟩, before, within, after, hsplits⟩ := exists_splits h hne
  have hwithin := hsplits.within_ne_nil hlt (by omega)
  have hfits : Pieces false ['}'] within :=
    (hsplits.fits.left.of_gaps_append hsplits.parts.before_gaps).before_brace hsplits.parts.last []
  have hopen : openAfter [] (piecesMarks within) = some [] := hsplits.balanced.openAfter []
  obtain ⟨s', hreads⟩ := exists_reads_of_pieces (s := {}) hfits hopen
  have hdepth := hreads.openAfter
  rw [hopen, Option.some.injEq] at hdepth
  rw [hsplits.within_text]
  exact readExpression_of_reads hreads hdepth.symm hwithin hsplits.parts.first hsplits.parts.last

/-- A regular expression and a template literal with braces, before a stop word. -/
theorem readExpression_rescan_before_word :
    readExpression "f(/\x7d/g)[`$\x7ba\x7d`]  as b".toList 0 { stopWords := ["as".toList] } =
        .ok ⟨0, 15, 17, some "as".toList⟩ ∧
      readExpression ("f(/\x7d/g)[`$\x7ba\x7d`]".toList ++ ['}']) 0 {} = .ok ⟨0, 15, 15, none⟩ := by
  have h : readExpression "f(/\x7d/g)[`$\x7ba\x7d`]  as b".toList 0 { stopWords := ["as".toList] } =
      .ok ⟨0, 15, 17, some "as".toList⟩ := by
    decide +kernel
  exact ⟨h, readExpression_rescan h (by decide)⟩

end ComponentDivision
