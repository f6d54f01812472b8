/-
# Expressions that are scanned whole

A text is an expression if a scan delimits all of it before a closing brace. It is then delimited
in the same way wherever a closing brace follows it, and also where a blank and a stop word do.

* `ScannedWhole` : a text that is delimited from its first character to its last one;
* `ScannedWhole.scan_brace`, `ScannedWhole.scan_stopWord` : what may follow it.
-/
import ComponentDivision.Proofs.Expression.Bounds
import ComponentDivision.Proofs.Expression.Edge

namespace ComponentDivision

/-- Before a closing brace the whole text is delimited, and no stop word ends it. -/
def ScannedWhole (stopWords : List Text) (e : Text) : Prop :=
  readExpression (e ++ ['}']) 0 { stopWords } = .ok ⟨0, e.length, e.length, none⟩

/-- A run is told from its pieces. -/
theorem Reads.of_pieces {options : ScanOptions} {rest rest' : Text} {s s' : ScanState}
    {ps : List Piece} (h : Reads options rest s ps s') (hps : Pieces s.afterValue rest' ps) :
    Reads options rest' s ps s' := by
  induction h with
  | nil s => exact .nil s
  | cons _ hdepth hpass _ ih => exact .cons hps.1 hdepth hpass (ih hps.2)

namespace ScannedWhole

variable {stopWords : List Text} {e : Text}

theorem scan_eq (h : ScannedWhole stopWords e) :
    scan { stopWords } (e ++ ['}']) = .ok ⟨0, e.length, e.length, none⟩ := by
  obtain ⟨r, hscan, hr⟩ := readExpression_eq_ok_iff.1 h
  rw [List.drop_zero] at hscan
  rw [hscan, hr]
  rfl

/-- The pieces of such a text: it begins and ends with a token. -/
theorem exists_reads (h : ScannedWhole stopWords e) :
    ∃ ps s, e = piecesText ps ∧ Reads { stopWords } ['}'] {} ps s ∧ s.depth = [] ∧
      s.start = some 0 ∧ s.stop = e.length ∧ (∀ p ∈ ps.head?, p.isGap = false) ∧
      ∀ p ∈ ps.getLast?, p.isGap = false := by
  have hpos : 0 < e.length := (scan_bounds h.scan_eq).1.start_lt rfl
  obtain ⟨ps, s, c, cs, word, htext, hreads, hhalts, hr⟩ :=
    ComponentDivision.exists_reads h.scan_eq
  have hoffset : e.length = (piecesText ps).length := by
    rw [← Nat.zero_add (piecesText ps).length]
    exact (ScanState.halt_next hr).trans hreads.offset
  obtain ⟨rfl, hrest⟩ := List.append_inj htext hoffset
  cases hrest
  obtain ⟨i, hstart, hbounds⟩ := ScanState.halt_eq_ok_of_ne hr (Nat.ne_of_lt hpos)
  obtain ⟨rfl, hstop, -⟩ := Scan.mk.inj hbounds
  obtain ⟨before, within, after, rfl, hparts⟩ := exists_parts ps
  have hne : within ≠ [] := by
    rintro rfl
    have hgaps : ∀ p ∈ before ++ [] ++ after, p.isGap = true := by
      intro p hp
      rw [List.append_nil] at hp
      rcases List.mem_append.1 hp with hp | hp
      · exact hparts.before_gaps p hp
      · exact hparts.after_gaps p hp
    cases (hreads.of_gaps hgaps).1.symm.trans hstart
  obtain ⟨hstart', hstop'⟩ := hreads.bounds hparts hne
  rw [hstart, Option.some.injEq] at hstart'
  rw [hstop', piecesText_append, piecesText_append, List.length_append, List.length_append] at hstop
  obtain ⟨s₂, hleft, hafter⟩ := Reads.append_iff.1 hreads
  obtain ⟨s₁, hbefore, -⟩ := Reads.append_iff.1 hleft
  have hbeforeNil : before = [] := by
    by_contra hbefore'
    exact hbefore.text_ne_nil hbefore' (List.length_eq_zero_iff.1 hstart'.symm)
  have hafterNil : after = [] := by
    by_contra hafter'
    exact hafter.text_ne_nil hafter' (List.length_eq_zero_iff.1 (by omega))
  subst hbeforeNil hafterNil
  rw [List.nil_append, List.append_nil] at hreads ⊢
  exact ⟨within, s, rfl, hreads, hhalts.depth, hstart, by omega, hparts.first, hparts.last⟩

/-- Such a text begins with a character that is no blank. -/
theorem exists_cons (h : ScannedWhole stopWords e) :
    ∃ c cs, e = c :: cs ∧ isBlank c = false := by
  have hpos : 0 < e.length := (scan_bounds h.scan_eq).1.start_lt rfl
  obtain ⟨ps, s, rfl, hreads, -, -, -, hfirst, -⟩ := h.exists_reads
  cases hreads with
  | nil => cases hpos
  | @cons _ _ p ps depth hfit =>
    obtain ⟨c, cs, hcs⟩ := List.exists_cons_of_ne_nil (Piece.text_ne_nil hfit)
    refine ⟨c, cs ++ piecesText ps, by rw [piecesText_cons, hcs, List.cons_append], ?_⟩
    exact hfit.isBlank_head (hfirst p rfl) (by rw [hcs]; rfl)

/-- Anything may follow the closing brace. -/
theorem scan_brace (h : ScannedWhole stopWords e) (rest : Text) :
    scan { stopWords } (e ++ '}' :: rest) = .ok ⟨0, e.length, e.length, none⟩ := by
  have hscan : scan { stopWords } (e ++ ['}'] ++ []) = .ok ⟨0, e.length, e.length, none⟩ := by
    rw [List.append_nil]
    exact h.scan_eq
  have hswap : scan { stopWords } (e ++ ['}'] ++ rest) = .ok ⟨0, e.length, e.length, none⟩ :=
    scan_swap hscan (by simp) (by simp) (.inr ⟨'}', by simp, rfl⟩)
  rwa [List.append_assoc, List.singleton_append] at hswap

/-- **A blank and a stop word may follow the text** instead of a closing brace. -/
theorem scan_stopWord (h : ScannedWhole stopWords e) {c : Char} {cs rest : Text}
    (hmem : c :: cs ∈ stopWords) (hblank : isBlank c = false)
    (hword : ∀ d ∈ c :: cs, isWordChar d = true) (hrest : WordEnd rest) :
    scan { stopWords } (e ++ ' ' :: (c :: cs ++ rest))
      = .ok ⟨0, e.length, e.length + 1, some (c :: cs)⟩ := by
  obtain ⟨ps, s, rfl, hreads, hdepth, hstart, hstop, -, hlast⟩ := h.exists_reads
  have hc := hword c List.mem_cons_self
  have hblanks :
      Reads { stopWords } (c :: cs ++ rest) s [.blank ' '] (s.read (.blank ' ') s.depth) :=
    .cons (rfl : isBlank ' ' = true) rfl nofun (.nil _)
  have hpieces := hreads.of_pieces (hreads.pieces.before_mark hlast (c := ' ') rfl (by decide)
    (c :: cs ++ rest))
  have hread := Reads.append_iff.2 ⟨s, hpieces, hblanks⟩
  have hhalts : (s.read (.blank ' ') s.depth).Halts { stopWords } c (cs ++ rest)
      (some (c :: cs)) := by
    refine ⟨gap?_eq_none_iff.2 ⟨hblank, ?_⟩, hdepth, .inr ⟨?_, ?_, rfl, hc, c :: cs, ?_, hmem, rfl⟩⟩
    · rintro rfl
      cases hc
    · intro hterm
      rw [List.mem_singleton.1 hterm] at hc
      cases hc
    · show s.start.isSome = true
      rw [hstart]
      rfl
    · rw [takeWhile_isWordChar (fun d hd => hword d (List.mem_cons_of_mem _ hd)) hrest]
  have htext : piecesText ps ++ ' ' :: (c :: cs ++ rest)
      = piecesText (ps ++ [.blank ' ']) ++ (c :: cs ++ rest) := by
    rw [piecesText_append, List.append_assoc]
    rfl
  have hoffset := hreads.offset
  have hstart' : (s.read (.blank ' ') s.depth).start = some 0 := hstart
  rw [htext, scan, scanFrom_of_reads hread, List.cons_append, scanFrom_of_halts hhalts,
    ScanState.halt, hstart']
  show Except.ok (Scan.mk 0 s.stop (s.offset + 1) (some (c :: cs))) = _
  rw [hstop, hoffset]
  simp

end ScannedWhole

end ComponentDivision
