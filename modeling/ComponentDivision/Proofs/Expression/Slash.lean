/-
# Slashes after words

A slash divides after a value and begins a regular expression elsewhere. After a word a scan
tells these apart by the word alone: it does not remember what stands before the word. So the
name of a property, which may be any word, is taken for an operator if it is spelled like one.

* `Reads.afterValue_of_word` : whether a value stands after a word and some gaps;
* `scanFrom_unterminated_regex` : a slash that begins a regular expression without an end;
* `readExpression_property_slash` : a slash after the name of a property.
-/
import ComponentDivision.Proofs.Expression.Edge

namespace ComponentDivision

/-! ## After a word -/

/-- Gaps do not change whether a value stands before what follows. -/
theorem Reads.afterValue_of_gaps {options : ScanOptions} {rest : Text} {s s' : ScanState}
    {ps : List Piece} (h : Reads options rest s ps s') (hps : ∀ p ∈ ps, p.isGap = true) :
    s'.afterValue = s.afterValue := by
  induction h with
  | nil s => rfl
  | @cons s s' p ps depth _ _ _ _ ih =>
    have hp := hps p List.mem_cons_self
    rw [ih fun q hq => hps q (List.mem_cons_of_mem _ hq)]
    cases p <;> cases hp <;> rfl

/-- **After a word and gaps the word alone says whether a value stands before what follows**,
whatever stands before the word. -/
theorem Reads.afterValue_of_word {options : ScanOptions} {rest w : Text} {s s' : ScanState}
    {ps gaps : List Piece} (h : Reads options rest s (ps ++ .word w :: gaps) s')
    (hgaps : ∀ p ∈ gaps, p.isGap = true) : s'.afterValue = !wordsBeforeOperand.contains w := by
  obtain ⟨s₁, -, hword⟩ := Reads.append_iff.1 h
  cases hword with
  | cons _ _ _ hreads => exact hreads.afterValue_of_gaps hgaps

/-- Where an operand is missing a slash begins a regular expression; without an end it is refused
at the slash. -/
theorem scanFrom_unterminated_regex {options : ScanOptions} {s : ScanState} {cs : Text}
    (hvalue : s.afterValue = false) (hslash : '/' ∉ options.terminators)
    (hcs : cs.head? ≠ some '/' ∧ cs.head? ≠ some '*') (hregex : regexLength false cs = none) :
    scanFrom options s ('/' :: cs) = .error ⟨.unterminatedRegex, s.offset⟩ := by
  have hgap : gap? '/' cs = .ok none := gap?_eq_none_iff.2 ⟨by decide, fun _ => hcs⟩
  have hstop : s.stopWord? options '/' cs = none := by
    rw [Option.eq_none_iff_forall_ne_some]
    intro w hw
    cases (stopWord?_eq_some_iff.1 hw).2.2.2.1
  have htoken : scanToken s '/' cs = .error (.unterminatedRegex, 0) := by
    simp only [scanToken, hvalue, hregex]
    rfl
  rw [scanFrom.eq_def]
  simp [hgap, hslash, hstop, htoken]

/-- A scan that fails at the beginning of a source. -/
theorem readExpression_of_scan_error {source : Text} {options : ScanOptions} {m : Misread}
    (h : scan options source = .error m) : readExpression source 0 options = .error m := by
  unfold readExpression
  simp only [Nat.zero_min, List.drop_zero, h]
  rfl

/-! ## Identifiers -/

/-- A word of ASCII characters that may name something. -/
structure AsciiIdentifier (t : Text) : Prop where
  isIdentifier : isIdentifier t = true
  ascii : ∀ c ∈ t, c.toNat < 128

instance (t : Text) : Decidable (AsciiIdentifier t) :=
  decidable_of_iff (isIdentifier t = true ∧ t.all (fun c => c.toNat < 128) = true)
    ⟨fun h => ⟨h.1, by simpa using h.2⟩, fun h => ⟨h.isIdentifier, by simpa using h.ascii⟩⟩

namespace AsciiIdentifier

variable {t : Text}

theorem ne_nil (h : AsciiIdentifier t) : t ≠ [] := by
  rintro rfl
  cases h.isIdentifier

theorem isWordChar (h : AsciiIdentifier t) : ∀ c ∈ t, isWordChar c = true := by
  obtain ⟨c, cs, rfl⟩ := List.exists_cons_of_ne_nil h.ne_nil
  have hword := h.isIdentifier
  rw [ComponentDivision.isIdentifier, Bool.and_eq_true] at hword
  exact List.all_eq_true.1 hword.2

/-- An identifier is read as a word. -/
theorem fits (h : AsciiIdentifier t) {rest : Text} (hrest : WordEnd rest) (value : Bool) :
    (Piece.word t).Fits value rest := by
  refine ⟨h.ne_nil, fun c hc => ?_, h.isWordChar, hrest⟩
  have hmem := List.mem_of_mem_head? hc
  exact isBlank_of_isWordChar (h.isWordChar c hmem) (h.ascii c hmem)

/-- There is no end of a regular expression before a closing brace that follows an identifier. -/
theorem regexLength_eq_none (h : AsciiIdentifier t) :
    regexLength false (' ' :: (t ++ ['}'])) = none := by
  rw [Option.eq_none_iff_forall_ne_some]
  intro n hn
  obtain ⟨body, flags, rest, htext, -⟩ := regexLength_eq_some_iff.1 hn
  have hmem : '/' ∈ ' ' :: (t ++ ['}']) := by simp [htext]
  have hslash : '/' ∈ t := by simpa using hmem
  cases h.isWordChar '/' hslash

end AsciiIdentifier

/-! ## A slash after the name of a property -/

section

variable {object property divisor : Text}

/-- A property of an object, with a blank after its name. -/
def propertyPieces (object property : Text) : List Piece :=
  [.word object, .single '.', .word property, .blank ' ']

/-- A slash that divides by an identifier. -/
def divisorPieces (divisor : Text) : List Piece :=
  [.single '/', .blank ' ', .word divisor]

theorem piecesText_quotient :
    piecesText (propertyPieces object property ++ divisorPieces divisor) =
      object ++ ['.'] ++ property ++ " / ".toList ++ divisor := by
  simp [piecesText, propertyPieces, divisorPieces, Piece.text]

/-- A scan comes to the slash, and the name of the property says what the slash is. -/
theorem exists_reads_property (hobject : AsciiIdentifier object)
    (hproperty : AsciiIdentifier property) (rest : Text) :
    ∃ s, Reads {} rest {} (propertyPieces object property) s ∧ s.depth = [] ∧
      s.afterValue = !wordsBeforeOperand.contains property := by
  have hfits : Pieces false rest (propertyPieces object property) := by
    refine ⟨hobject.fits ?_ _, ⟨by decide, by simp, by simp⟩, hproperty.fits ?_ _, ?_, trivial⟩
    · rintro c ⟨⟩
      rfl
    · rintro c ⟨⟩
      rfl
    · exact (by decide : isBlank ' ' = true)
  have hopen : openAfter [] (piecesMarks (propertyPieces object property)) = some [] := rfl
  obtain ⟨s, hreads⟩ := exists_reads_of_pieces (s := {}) hfits hopen
  have hword : Reads {} rest {} ([.word object, .single '.'] ++ .word property :: [.blank ' ']) s :=
    hreads
  exact ⟨s, hreads, (Option.some.inj hreads.openAfter).symm,
    hword.afterValue_of_word (by simp [Piece.isGap])⟩

/-- After a value a scan goes on to the end of the divisor. -/
theorem exists_reads_divisor (hdivisor : AsciiIdentifier divisor) {s : ScanState}
    (hdepth : s.depth = []) (hvalue : s.afterValue = true) :
    ∃ s', Reads {} ['}'] s (divisorPieces divisor) s' ∧ s'.depth = [] := by
  have hfits : Pieces s.afterValue ['}'] (divisorPieces divisor) := by
    refine ⟨⟨by decide, fun _ => ⟨hvalue, ?_, ?_⟩, by simp⟩, ?_, hdivisor.fits ?_ _, trivial⟩
    · rintro ⟨⟩
    · rintro ⟨⟩
    · exact (by decide : isBlank ' ' = true)
    · rintro c ⟨⟩
      rfl
  have hopen : openAfter s.depth (piecesMarks (divisorPieces divisor)) = some [] := by
    rw [hdepth]
    rfl
  obtain ⟨s', hreads⟩ := exists_reads_of_pieces hfits hopen
  exact ⟨s', hreads, Option.some.inj (hreads.openAfter.symm.trans hopen)⟩

/-- **A slash after the name of a property divides exactly if the name is not spelled like a word
before an operand.** Otherwise it is taken for the beginning of a regular expression, which has no
end. -/
theorem readExpression_property_slash (hobject : AsciiIdentifier object)
    (hproperty : AsciiIdentifier property) (hdivisor : AsciiIdentifier divisor) :
    readExpression (object ++ ['.'] ++ property ++ " / ".toList ++ divisor ++ ['}']) 0 {} =
      if property ∈ wordsBeforeOperand then
        .error ⟨.unterminatedRegex, object.length + property.length + 2⟩
      else
        .ok ⟨0, (object ++ ['.'] ++ property ++ " / ".toList ++ divisor).length,
          (object ++ ['.'] ++ property ++ " / ".toList ++ divisor).length, none⟩ := by
  obtain ⟨s, hreads, hdepth, hvalue⟩ :=
    exists_reads_property hobject hproperty (piecesText (divisorPieces divisor) ++ ['}'])
  rw [← piecesText_quotient]
  split
  · rename_i hword
    have htext : piecesText (divisorPieces divisor) ++ ['}'] =
        '/' :: ' ' :: (divisor ++ ['}']) := by
      simp [piecesText, divisorPieces, Piece.text]
    have hoffset : s.offset = object.length + property.length + 2 := by
      rw [hreads.offset]
      simp only [piecesText, propertyPieces, Piece.text, List.flatMap_cons, List.flatMap_nil,
        List.length_append, List.length_cons, List.length_nil]
      omega
    apply readExpression_of_scan_error
    rw [scan, piecesText_append, List.append_assoc, scanFrom_of_reads hreads, htext,
      scanFrom_unterminated_regex (by simp [hvalue, hword]) (by decide) ⟨by simp, by simp⟩
        hdivisor.regexLength_eq_none, hoffset]
  · rename_i hword
    obtain ⟨s', hreads', hdepth'⟩ := exists_reads_divisor hdivisor hdepth (by simp [hvalue, hword])
    refine readExpression_of_reads (Reads.append_iff.2 ⟨s, hreads, hreads'⟩) hdepth' ?_ ?_ ?_
    · exact List.cons_ne_nil _ _
    · rintro p ⟨⟩
      rfl
    · rintro p ⟨⟩
      rfl

end

/-- A property with a name that is no operator. -/
theorem readExpression_property_slash_size :
    AsciiIdentifier "m".toList ∧ AsciiIdentifier "size".toList ∧ AsciiIdentifier "$n1".toList ∧
      readExpression ("m".toList ++ ['.'] ++ "size".toList ++ " / ".toList ++ "$n1".toList ++ ['}'])
        0 {} = .ok ⟨0, 12, 12, none⟩ := by
  have hm : AsciiIdentifier "m".toList := by decide +kernel
  have hsize : AsciiIdentifier "size".toList := by decide +kernel
  have hn : AsciiIdentifier "$n1".toList := by decide +kernel
  exact ⟨hm, hsize, hn, (readExpression_property_slash hm hsize hn).trans (if_neg (by decide))⟩

/-- A property with the name of an operator: the slash after it is refused. -/
theorem readExpression_property_slash_in :
    AsciiIdentifier "a".toList ∧ "a".toList ∉ wordsBeforeOperand ∧ AsciiIdentifier "in".toList ∧
      AsciiIdentifier "b".toList ∧
      readExpression ("a".toList ++ ['.'] ++ "in".toList ++ " / ".toList ++ "b".toList ++ ['}'])
        0 {} = .error ⟨.unterminatedRegex, 5⟩ :=
  ⟨by decide +kernel, by decide, by decide +kernel, by decide +kernel, by decide +kernel⟩

end ComponentDivision
