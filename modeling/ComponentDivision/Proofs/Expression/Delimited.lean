/-
# What an expression consists of

A scan that succeeds has read its text as pieces, from the first character to the one at which
it halted. The pieces before the first token and after the last one are gaps; between them the
brackets are balanced, and outside the brackets nothing stands that would have ended the
expression earlier.

* `Reads` : a scan goes through some pieces from one state to another;
* `exists_reads` : a scan that succeeds goes through pieces and halts;
* `scanFrom_of_reads` : a scan goes on after pieces as it would from the state after them;
* `scan_swap` : a scan does not depend on what follows the place where it halts;
* `Scan.Splits` : an expression in its source;
* `readExpression_splits_iff` : the expressions that are read.
-/
import ComponentDivision.Proofs.Expression.Step
import ComponentDivision.Proofs.Text.Slice

namespace ComponentDivision

/-! ## Runs of a scan -/

/-- A scan goes through pieces, before `rest`, from one state to another. -/
inductive Reads (options : ScanOptions) (rest : Text) :
    ScanState → List Piece → ScanState → Prop
  | nil (s : ScanState) : Reads options rest s [] s
  | cons {s s' : ScanState} {p : Piece} {ps : List Piece} {depth : List Bracket}
      (hfit : p.Fits s.afterValue (piecesText ps ++ rest))
      (hdepth : openAfter s.depth p.marks = some depth) (hpass : p.Passes options s)
      (h : Reads options rest (s.read p depth) ps s') : Reads options rest s (p :: ps) s'

theorem piecesText_cons (p : Piece) (ps : List Piece) :
    piecesText (p :: ps) = p.text ++ piecesText ps :=
  List.flatMap_cons

theorem piecesText_append (ps qs : List Piece) :
    piecesText (ps ++ qs) = piecesText ps ++ piecesText qs :=
  List.flatMap_append

theorem piecesMarks_append (ps qs : List Piece) :
    piecesMarks (ps ++ qs) = piecesMarks ps ++ piecesMarks qs :=
  List.flatMap_append

/-- **A scan that succeeds goes through pieces and halts.** -/
theorem exists_reads {options : ScanOptions} {s : ScanState} {t : Text} {r : Scan}
    (h : scanFrom options s t = .ok r) :
    ∃ ps s' c cs word, t = piecesText ps ++ c :: cs ∧ Reads options (c :: cs) s ps s' ∧
      s'.Halts options c cs word ∧ s'.halt options word = .ok r := by
  -- Each piece has a character, so that the text gets shorter.
  induction hn : t.length using Nat.strong_induction_on generalizing s t with
  | _ n ih =>
    rcases scanFrom_eq_ok_cases h with ⟨c, cs, word, rfl, hhalts, hr⟩ |
      ⟨p, rest, depth, rfl, hfit, hdepth, hpass, hrest⟩
    · exact ⟨[], s, c, cs, word, rfl, .nil s, hhalts, hr⟩
    · have hpos := List.length_pos_iff.2 (Piece.text_ne_nil hfit)
      rw [List.length_append] at hn
      obtain ⟨ps, s', c, cs, word, rfl, hreads, hhalts, hr⟩ :=
        ih rest.length (by omega) hrest rfl
      refine ⟨p :: ps, s', c, cs, word, ?_, .cons hfit hdepth hpass hreads, hhalts, hr⟩
      rw [piecesText_cons, List.append_assoc]

/-- A scan goes on after pieces as it would from the state after them. -/
theorem scanFrom_of_reads {options : ScanOptions} {rest : Text} {s s' : ScanState}
    {ps : List Piece} (h : Reads options rest s ps s') :
    scanFrom options s (piecesText ps ++ rest) = scanFrom options s' rest := by
  induction h with
  | nil s => rfl
  | cons hfit hdepth hpass _ ih =>
    rw [piecesText_cons, List.append_assoc, scanFrom_read hfit hdepth hpass, ih]

namespace Reads

variable {options : ScanOptions} {rest : Text} {s s' : ScanState} {ps qs : List Piece}

theorem text_ne_nil (h : Reads options rest s ps s') (hps : ps ≠ []) : piecesText ps ≠ [] := by
  cases h with
  | nil => exact absurd rfl hps
  | cons hfit _ _ _ =>
    rw [piecesText_cons]
    exact List.append_ne_nil_of_left_ne_nil (Piece.text_ne_nil hfit) _

/-- A run is told from the character after it. -/
theorem congr {rest' : Text} (h : Reads options rest s ps s') (hrest : rest'.head? = rest.head?) :
    Reads options rest' s ps s' := by
  induction h with
  | nil s => exact .nil s
  | @cons s s' p ps depth hfit hdepth hpass _ ih =>
    refine .cons (hfit.congr ?_) hdepth hpass ih
    rw [List.head?_append, List.head?_append, hrest]

theorem offset (h : Reads options rest s ps s') :
    s'.offset = s.offset + (piecesText ps).length := by
  induction h with
  | nil s => rfl
  | cons _ _ _ _ ih =>
    rw [ih, piecesText_cons, List.length_append]
    exact Nat.add_assoc _ _ _

theorem openAfter (h : Reads options rest s ps s') :
    openAfter s.depth (piecesMarks ps) = some s'.depth := by
  induction h with
  | nil s => rfl
  | @cons s s' p ps depth _ hdepth _ _ ih =>
    rw [piecesMarks, List.flatMap_cons, openAfter_append, hdepth, Option.bind_some]
    exact ih

theorem pieces (h : Reads options rest s ps s') : Pieces s.afterValue rest ps := by
  induction h with
  | nil s => trivial
  | cons hfit _ _ _ ih => exact ⟨hfit, ih⟩

/-- A run through two lists of pieces is two runs. -/
theorem append_iff {s'' : ScanState} : Reads options rest s (ps ++ qs) s'' ↔
    ∃ s', Reads options (piecesText qs ++ rest) s ps s' ∧ Reads options rest s' qs s'' := by
  constructor
  · intro h
    induction ps generalizing s with
    | nil => exact ⟨s, .nil s, h⟩
    | cons p ps ih =>
      rw [List.cons_append] at h
      cases h with
      | cons hfit hdepth hpass h =>
        obtain ⟨s', hps, hqs⟩ := ih h
        rw [piecesText_append, List.append_assoc] at hfit
        exact ⟨s', .cons hfit hdepth hpass hps, hqs⟩
  · rintro ⟨s', hps, hqs⟩
    induction hps with
    | nil s => exact hqs
    | cons hfit hdepth hpass _ ih =>
      rw [List.cons_append]
      refine .cons ?_ hdepth hpass (ih hqs)
      rwa [piecesText_append, List.append_assoc]

/-- Gaps change neither the bounds of the expression nor the open brackets. -/
theorem of_gaps (h : Reads options rest s ps s') (hps : ∀ p ∈ ps, p.isGap = true) :
    s'.start = s.start ∧ s'.stop = s.stop ∧ s'.depth = s.depth := by
  induction h with
  | nil s => exact ⟨rfl, rfl, rfl⟩
  | @cons s s' p ps depth _ hdepth _ _ ih =>
    have hp := hps p List.mem_cons_self
    obtain ⟨hstart, hstop, hd⟩ := ih fun q hq => hps q (List.mem_cons_of_mem _ hq)
    refine ⟨hstart.trans (if_pos hp), hstop.trans (if_pos hp), hd.trans ?_⟩
    cases p <;> cases hp <;> cases hdepth <;> rfl

/-- Where an expression begins does not change. -/
theorem start_of_some {i : Nat} (h : Reads options rest s ps s') (hs : s.start = some i) :
    s'.start = some i := by
  induction h with
  | nil s => exact hs
  | cons _ _ _ _ ih =>
    refine ih ?_
    simp only [ScanState.read, hs, Option.getD_some, ite_self]

/-- An expression begins with its first token. -/
theorem start_of_token {p : Piece} (h : Reads options rest s (p :: ps) s') (hs : s.start = none)
    (hp : p.isGap = false) : s'.start = some s.offset := by
  cases h with
  | cons _ _ _ h =>
    refine h.start_of_some ?_
    simp only [ScanState.read, hp, hs, Option.getD_none]
    rfl

/-- A run through a piece at the end stops in a state that this piece leaves. -/
theorem concat {p : Piece} (h : Reads options rest s (ps ++ [p]) s') :
    ∃ s₁ depth, Reads options (p.text ++ rest) s ps s₁ ∧ p.Fits s₁.afterValue rest ∧
      s' = s₁.read p depth := by
  obtain ⟨s₁, hps, hp⟩ := append_iff.1 h
  cases hp with
  | cons hfit _ _ hnil =>
    cases hnil
    refine ⟨s₁, _, ?_, hfit, rfl⟩
    rwa [piecesText_cons, piecesText, List.flatMap_nil, List.append_nil] at hps

/-- An expression ends with its last token. -/
theorem stop_of_token {p : Piece} (h : Reads options rest s (ps ++ [p]) s')
    (hp : p.isGap = false) : s'.stop = s'.offset := by
  obtain ⟨s₁, depth, -, -, rfl⟩ := h.concat
  simp only [ScanState.read, hp]
  rfl

end Reads

/-! ## What a scan does not read -/

/-- A word that ends in a text ends there too if the text goes on. -/
theorem takeWhile_append_of_mem {p : Char → Bool} {u t : Text} {x : Char} (hx : x ∈ u)
    (hp : p x = false) : (u ++ t).takeWhile p = u.takeWhile p := by
  rw [List.takeWhile_append, if_neg]
  intro hlen
  have hall := List.takeWhile_eq_self_iff.1 ((List.takeWhile_prefix p).eq_of_length hlen) x hx
  cases hp.symm.trans hall

/-- A scan halts as before if something else follows its text, as long as it is told where a stop
word ends. -/
theorem ScanState.Halts.swap {s : ScanState} {options : ScanOptions} {c : Char} {v t t' : Text}
    {word : Option Text} (h : s.Halts options c (v ++ t) word) (hslash : '/' ∉ options.terminators)
    (hword : options.stopWords = [] ∨ ∃ x ∈ c :: v, isWordChar x = false) :
    s.Halts options c (v ++ t') word := by
  obtain ⟨hblank, -⟩ := gap?_eq_none_iff.1 h.gap
  rcases h.reason with ⟨hc, hnone⟩ | ⟨hc, hstart, hafter, hc', w, hw, hmem, hsome⟩
  · refine ⟨gap?_eq_none_iff.2 ⟨hblank, ?_⟩, h.depth, .inl ⟨hc, hnone⟩⟩
    rintro rfl
    exact absurd hc hslash
  · obtain ⟨x, hx, hxword⟩ := hword.resolve_left (List.ne_nil_of_mem hmem)
    have hxv : x ∈ v := by
      rcases List.mem_cons.1 hx with rfl | hx
      · cases hxword.symm.trans hc'
      · exact hx
    refine ⟨gap?_eq_none_iff.2 ⟨hblank, ?_⟩, h.depth,
      .inr ⟨hc, hstart, hafter, hc', w, ?_, hmem, hsome⟩⟩
    · rintro rfl
      cases hc'
    · rw [hw, takeWhile_append_of_mem hxv hxword, takeWhile_append_of_mem hxv hxword]

/-- **A scan that halts inside a text does not depend on what follows the text.** -/
theorem scan_swap {options : ScanOptions} {u t t' : Text} {r : Scan}
    (h : scan options (u ++ t) = .ok r) (hnext : r.next < u.length)
    (hslash : '/' ∉ options.terminators)
    (hword : options.stopWords = [] ∨ ∃ x ∈ u.drop r.next, isWordChar x = false) :
    scan options (u ++ t') = .ok r := by
  obtain ⟨ps, s', c, cs, word, htext, hreads, hhalts, hr⟩ := exists_reads h
  have hoffset : r.next = (piecesText ps).length := by
    rw [ScanState.halt_next hr, hreads.offset]
    exact Nat.zero_add _
  obtain ⟨v, rfl, rfl⟩ : ∃ v, u = piecesText ps ++ c :: v ∧ cs = v ++ t := by
    rcases List.append_eq_append_iff.1 htext with ⟨x, hx, -⟩ | ⟨x, rfl, hx⟩
    · have := congrArg List.length hx
      rw [List.length_append] at this
      omega
    · cases x with
      | nil =>
        rw [List.append_nil] at hnext
        omega
      | cons d x =>
        cases hx
        exact ⟨x, rfl, rfl⟩
  rw [hoffset, List.drop_left] at hword
  have hhalts' : s'.Halts options c (v ++ t') word := hhalts.swap hslash hword
  have hreads' : Reads options (c :: (v ++ t')) {} ps s' := hreads.congr rfl
  rw [scan, List.append_assoc, List.cons_append, scanFrom_of_reads hreads',
    scanFrom_of_halts hhalts', hr]

/-! ## The three parts of a run -/

/-- Gaps, what stands from the first token to the last one, and gaps. -/
structure Parts (before within after : List Piece) : Prop where
  before_gaps : ∀ p ∈ before, p.isGap = true
  after_gaps : ∀ p ∈ after, p.isGap = true
  first : ∀ p ∈ within.head?, p.isGap = false
  last : ∀ p ∈ within.getLast?, p.isGap = false

theorem exists_parts (ps : List Piece) :
    ∃ before within after, ps = before ++ within ++ after ∧ Parts before within after := by
  have hsplit := List.rdropWhile_append_rtakeWhile (p := Piece.isGap)
    (l := ps.dropWhile Piece.isGap)
  refine ⟨ps.takeWhile Piece.isGap, (ps.dropWhile Piece.isGap).rdropWhile Piece.isGap,
    (ps.dropWhile Piece.isGap).rtakeWhile Piece.isGap, ?_, ?_, ?_, ?_, ?_⟩
  · rw [List.append_assoc, hsplit, List.takeWhile_append_dropWhile]
  · exact fun p hp => List.mem_takeWhile_imp hp
  · exact fun p hp => List.mem_rtakeWhile_imp hp
  · intro p hp
    have hhead : p ∈ (ps.dropWhile Piece.isGap).head? := by
      rw [← hsplit, List.head?_append, hp]
      rfl
    have := List.head?_dropWhile_not Piece.isGap ps
    rw [hhead] at this
    simpa using this
  · intro p hp
    obtain ⟨hne, rfl⟩ := List.mem_getLast?_eq_getLast hp
    have := List.rdropWhile_last_not Piece.isGap _ hne
    simpa using this

/-- A token is one of the pieces in the middle. -/
theorem Parts.exists_within {before within after pre post : List Piece} {p : Piece}
    (h : Parts before within after) (hps : before ++ within ++ after = pre ++ p :: post)
    (hp : p.isGap = false) :
    ∃ pre' post', pre = before ++ pre' ∧ within = pre' ++ p :: post' := by
  have hbefore : p ∉ before := fun hmem => by simp [h.before_gaps p hmem] at hp
  have hafter : p ∉ after := fun hmem => by simp [h.after_gaps p hmem] at hp
  rw [List.append_assoc] at hps
  obtain ⟨pre', rfl, hrest⟩ :
      ∃ pre', pre = before ++ pre' ∧ within ++ after = pre' ++ p :: post := by
    rcases List.append_eq_append_iff.1 hps with h | ⟨x, rfl, hx⟩
    · exact h
    · cases x with
      | nil => exact ⟨[], by simp, hx.symm⟩
      | cons q x =>
        cases hx
        simp at hbefore
  rcases List.append_eq_append_iff.1 hrest with ⟨x, rfl, rfl⟩ | ⟨x, rfl, hx⟩
  · simp at hafter
  · cases x with
    | nil =>
      subst hx
      simp at hafter
    | cons q x =>
      cases hx
      exact ⟨pre', x, rfl, rfl⟩

/-- Gaps have no brackets. -/
theorem piecesMarks_of_gaps {ps : List Piece} (h : ∀ p ∈ ps, p.isGap = true) :
    piecesMarks ps = [] := by
  rw [piecesMarks, List.flatMap_eq_nil_iff]
  intro p hp
  have hgap := h p hp
  cases p <;> cases hgap <;> rfl

theorem Parts.marks {before within after : List Piece} (h : Parts before within after) :
    piecesMarks (before ++ within ++ after) = piecesMarks within := by
  rw [piecesMarks_append, piecesMarks_append, piecesMarks_of_gaps h.before_gaps,
    piecesMarks_of_gaps h.after_gaps, List.nil_append, List.append_nil]

section

variable {options : ScanOptions} {rest : Text} {s' : ScanState}
  {before within after : List Piece}

/-- An expression has begun with its first token. -/
theorem Reads.start_of_first (h : Reads options rest {} (before ++ within) s')
    (hbefore : ∀ p ∈ before, p.isGap = true) (hfirst : ∀ p ∈ within.head?, p.isGap = false)
    (hne : within ≠ []) : s'.start = some (piecesText before).length := by
  obtain ⟨s₁, h₁, h₂⟩ := Reads.append_iff.1 h
  obtain ⟨hstart, -, -⟩ := h₁.of_gaps hbefore
  obtain ⟨p, ps, rfl⟩ := List.exists_cons_of_ne_nil hne
  rw [h₂.start_of_token hstart (hfirst p rfl), h₁.offset]
  simp

/-- Where an expression begins and ends, by the pieces of a run. -/
theorem Reads.bounds (h : Reads options rest {} (before ++ within ++ after) s')
    (hparts : Parts before within after) (hne : within ≠ []) :
    s'.start = some (piecesText before).length ∧
      s'.stop = (piecesText before).length + (piecesText within).length := by
  obtain ⟨s₂, h₂, h₃⟩ := Reads.append_iff.1 h
  obtain ⟨hstart, hstop, -⟩ := h₃.of_gaps hparts.after_gaps
  refine ⟨by rw [hstart, h₂.start_of_first hparts.before_gaps hparts.first hne], ?_⟩
  have hoffset := h₂.offset
  rw [piecesText_append, List.length_append] at hoffset
  obtain ⟨ps, p, rfl⟩ := (List.eq_nil_or_concat' within).resolve_left hne
  rw [← List.append_assoc] at h₂
  rw [hstop, h₂.stop_of_token (hparts.last p (by simp)), hoffset]
  simp

end

/-! ## Blanks before words -/

/-- The word that a token ends with: a word, or the flags of a regular expression. -/
def Piece.lastWord : Piece → Text
  | .word w => w
  | .regex _ flags => flags
  | _ => []

theorem Piece.getLast?_text {p : Piece} (h : p.lastWord ≠ []) :
    p.text.getLast? = p.lastWord.getLast? := by
  cases p with
  | word w => rfl
  | regex body flags =>
    rw [Piece.text, ← List.cons_append, List.append_cons, Piece.lastWord,
      List.getLast?_append_of_ne_nil]
    exact h
  | _ => exact absurd rfl h

/-- A token ends with a blank character only if the word at its end does. -/
theorem Piece.Fits.last_mem_lastWord {value : Bool} {p : Piece} {rest : Text} {c : Char}
    (h : p.Fits value rest) (hp : p.isGap = false) (hc : c ∈ p.text.getLast?)
    (hblank : isBlank c = true) : c ∈ p.lastWord.getLast? := by
  have hlast {t : Text} {d : Char} (ht : p.text = t ++ [d]) (hd : isBlank d = false) :
      c ∈ p.lastWord.getLast? := by
    rw [ht, List.getLast?_concat] at hc
    cases hc
    cases hd.symm.trans hblank
  cases p with
  | word w => exact hc
  | string quote body =>
    refine hlast (t := quote :: body) (d := quote) (by simp [Piece.text]) ?_
    rcases h.1 with rfl | rfl <;> rfl
  | chunk resumes body closed =>
    cases closed with
    | true =>
      exact hlast (t := (if resumes then '}' else '`') :: body) (d := '`')
        (by simp [Piece.text, chunkEnd]) rfl
    | false =>
      exact hlast (t := (if resumes then '}' else '`') :: (body ++ ['$'])) (d := '{')
        (by simp [Piece.text, chunkEnd]) rfl
  | regex body flags =>
    cases flags with
    | nil => exact hlast (t := '/' :: body) (d := '/') (by simp [Piece.text]) rfl
    | cons f flags =>
      rw [Piece.getLast?_text] at hc
      · exact hc
      · exact List.cons_ne_nil f flags
  | opener b =>
    cases hc
    cases b <;> cases hblank
  | closer b =>
    cases hc
    cases b <;> cases hblank
  | increment sign =>
    cases hc
    rcases h.1 with rfl | rfl <;> cases hblank
  | single b =>
    cases hc
    have hsingle := h.1
    simp only [Piece.isSingle, Bool.and_eq_true, Bool.not_eq_true'] at hsingle
    cases hsingle.1.1.symm.trans hblank
  | _ => cases hp

/-- A word stands after no character that ends another piece and is blank, unless that piece is
a blank. -/
theorem Piece.Fits.blank_of_last {value value' : Bool} {p : Piece} {w rest : Text} {c : Char}
    (h : p.Fits value (w ++ rest)) (hw : (Piece.word w).Fits value' rest)
    (hc : c ∈ p.text.getLast?) (hblank : isBlank c = true) : p = .blank c := by
  obtain ⟨hne, hfirst, hword, -⟩ := hw
  obtain ⟨d, ds, rfl⟩ := List.exists_cons_of_ne_nil hne
  cases p with
  | blank b =>
    cases hc
    rfl
  | lineComment body =>
    -- The line feed after it is blank, and no word begins with a blank.
    have hd := h.2 d rfl
    have hd' := hfirst d rfl
    rw [hd] at hd'
    cases hd'
  | blockComment body =>
    rw [Piece.text, ← List.cons_append, ← List.cons_append,
      List.getLast?_append_of_ne_nil _ (by simp [commentEnd])] at hc
    cases hc
    cases hblank
  | word w => cases (h.2.2.2 d rfl).symm.trans (hword d List.mem_cons_self)
  | regex body flags => cases (h.2.2.2.2.2 d rfl).symm.trans (hword d List.mem_cons_self)
  | _ => cases h.last_mem_lastWord rfl hc hblank

/-- The last character of pieces is that of the last one. -/
theorem getLast?_piecesText_concat {value : Bool} {rest : Text} {ps : List Piece} {p : Piece}
    (h : p.Fits value rest) : (piecesText (ps ++ [p])).getLast? = p.text.getLast? := by
  rw [piecesText_append, piecesText_cons, piecesText, piecesText, List.flatMap_nil,
    List.append_nil, List.getLast?_append_of_ne_nil _ (Piece.text_ne_nil h)]

/-- A word stands after a blank character exactly if the step before it passed a blank. -/
theorem Reads.afterBlank_iff {options : ScanOptions} {rest w rest' : Text} {s s' : ScanState}
    {ps : List Piece} {value : Bool} (h : Reads options rest s ps s') (hne : ps ≠ [])
    (hrest : rest = w ++ rest') (hw : (Piece.word w).Fits value rest') :
    s'.afterBlank = true ↔ ∃ c ∈ (piecesText ps).getLast?, isBlank c = true := by
  obtain ⟨ps, p, rfl⟩ := (List.eq_nil_or_concat' ps).resolve_left hne
  obtain ⟨s₁, depth, -, hfit, rfl⟩ := h.concat
  rw [getLast?_piecesText_concat hfit]
  constructor
  · intro hblank
    cases p with
    | blank c => exact ⟨c, rfl, hfit⟩
    | _ => cases hblank
  · rintro ⟨c, hc, hblank⟩
    rw [hrest] at hfit
    rw [hfit.blank_of_last hw hc hblank]
    rfl

/-! ## Expressions in their source -/

/-- A scan that succeeds at an offset is one of the text from there. -/
theorem readExpression_eq_ok_iff {source : Text} {index : Nat} {options : ScanOptions} {r : Scan} :
    readExpression source index options = .ok r ↔
      ∃ r₀, scan options (source.drop index) = .ok r₀ ∧ r = r₀.shift index := by
  unfold readExpression
  dsimp only
  rcases Nat.le_total index source.length with hle | hle
  · rw [Nat.min_eq_left hle]
    cases scan options (source.drop index) with
    | error m => simp
    | ok r₀ => simp [eq_comm]
  · have hnil : scan options [] = .error ⟨.unexpectedEnd, 0⟩ := by
      rw [scan, scanFrom.eq_def]
    rw [Nat.min_eq_right hle, List.drop_length, List.drop_eq_nil_of_le hle, hnil]
    simp

/-- Where the expression of a scan ends: at a terminator, or at a word that stops it, after a
blank. -/
def Scan.EndsAt (source : Text) (options : ScanOptions) (r : Scan) (c : Char) : Prop :=
  (c ∈ options.terminators ∧ r.stopWord = none) ∨
    (c ∉ options.terminators ∧ isWordChar c = true ∧
      (∃ b, source[r.next - 1]? = some b ∧ isBlank b = true) ∧
      ∃ w ∈ options.stopWords, w = (source.drop r.next).takeWhile isWordChar ∧
        r.stopWord = some w)

/-- An expression in its source, by the pieces before it, in it and after it. -/
structure Scan.Splits (source : Text) (index : Nat) (options : ScanOptions) (r : Scan)
    (before within after : List Piece) : Prop where
  before_text : source.slice index r.start = piecesText before
  within_text : source.slice r.start r.stop = piecesText within
  after_text : source.slice r.stop r.next = piecesText after
  parts : Parts before within after
  fits : Pieces false (source.drop r.next) (before ++ within ++ after)
  balanced : Balanced (piecesMarks within)
  /-- Outside the brackets no token begins with a terminator, and none but the first is a stop
  word after a blank. -/
  earliest : ∀ pre p post, within = pre ++ p :: post → p.isGap = false →
    bracketDepth (piecesMarks pre) = 0 →
      (∀ c ∈ p.text.head?, c ∉ options.terminators) ∧
      ∀ w, p = .word w → (∃ c ∈ (piecesText pre).getLast?, isBlank c = true) →
        w ∉ options.stopWords
  /-- What ends the expression is no gap. -/
  ends : ∃ c cs, source.drop r.next = c :: cs ∧ isBlank c = false ∧
    (c = '/' → cs.head? ≠ some '/' ∧ cs.head? ≠ some '*') ∧ r.EndsAt source options c

/-- A scan with an expression halts in a state that has its bounds. -/
theorem ScanState.halt_eq_ok_of_ne {s : ScanState} {options : ScanOptions} {word : Option Text}
    {r : Scan} (h : s.halt options word = .ok r) (hne : r.start ≠ r.stop) :
    ∃ i, s.start = some i ∧ r = ⟨i, s.stop, s.offset, word⟩ := by
  unfold ScanState.halt at h
  split at h
  · rename_i i hi
    cases h
    exact ⟨i, hi, rfl⟩
  · split at h <;> cases h
    exact absurd rfl hne

/-- Outside the brackets a scan would have halted earlier. -/
theorem Reads.earliest {options : ScanOptions} {rest : Text} {s' : ScanState}
    {before within after pre post : List Piece} {p : Piece}
    (h : Reads options rest {} (before ++ within ++ after) s')
    (hparts : Parts before within after) (hwithin : within = pre ++ p :: post)
    (hp : p.isGap = false) (hdepth : bracketDepth (piecesMarks pre) = 0) :
    (∀ c ∈ p.text.head?, c ∉ options.terminators) ∧
      ∀ w, p = .word w → (∃ c ∈ (piecesText pre).getLast?, isBlank c = true) →
        w ∉ options.stopWords := by
  subst hwithin
  rw [show before ++ (pre ++ p :: post) ++ after = (before ++ pre) ++ p :: (post ++ after) by simp]
    at h
  obtain ⟨s₁, h₁, h₂⟩ := Reads.append_iff.1 h
  -- the gaps in front hold no brackets, so none is open before the piece
  have hdepth₁ : s₁.depth = [] := by
    have hopen := h₁.openAfter
    rw [piecesMarks_append, piecesMarks_of_gaps hparts.before_gaps, List.nil_append] at hopen
    have hlen := bracketDepth_eq hopen
    rw [hdepth] at hlen
    exact List.length_eq_zero_iff.1 (by simpa using hlen.symm)
  cases h₂ with
  | cons hfit _ hpass _ =>
    obtain ⟨hterm, hstop⟩ := hpass hp hdepth₁
    refine ⟨hterm, ?_⟩
    rintro w rfl ⟨c, hc, hblank⟩
    have hpre : pre ≠ [] := by
      rintro rfl
      cases hc
    have hne : before ++ pre ≠ [] := by simp [hpre]
    have hfirst : ∀ q ∈ pre.head?, q.isGap = false := fun q hq =>
      hparts.first q (by rw [List.head?_append, hq]; rfl)
    refine hstop w rfl (by rw [h₁.start_of_first hparts.before_gaps hfirst hpre]; rfl) ?_
    refine (h₁.afterBlank_iff hne ?_ hfit).2 ⟨c, ?_, hblank⟩
    · rw [piecesText_cons, List.append_assoc]
      rfl
    · rw [piecesText_append, List.getLast?_append, hc]
      rfl

/-- The character before what comes after a text. -/
theorem getElem?_pred_of_drop {source t rest : Text} {index : Nat} (ht : t ≠ [])
    (h : source.drop index = t ++ rest) : source[index + t.length - 1]? = t.getLast? := by
  have hpos := List.length_pos_iff.2 ht
  rw [List.getLast?_eq_getElem?, show index + t.length - 1 = index + (t.length - 1) by omega,
    ← List.getElem?_drop, h, List.getElem?_append_left (by omega)]

/-- Three texts that stand one after another are slices. -/
theorem slices_of_drop {source t u v rest : Text} {index : Nat} {r : Scan}
    (hindex : index ≤ source.length) (htext : source.drop index = t ++ (u ++ (v ++ rest)))
    (hstart : r.start = index + t.length) (hstop : r.stop = r.start + u.length)
    (hnext : r.next = r.stop + v.length) :
    source.slice index r.start = t ∧ source.slice r.start r.stop = u ∧
      source.slice r.stop r.next = v ∧ source.drop r.next = rest := by
  have hlen := congrArg List.length htext
  simp only [List.length_drop, List.length_append] at hlen
  have hdrop₁ : source.drop r.start = u ++ (v ++ rest) := by
    rw [hstart, ← List.drop_drop, htext, List.drop_left]
  have hdrop₂ : source.drop r.stop = v ++ rest := by
    rw [hstop, ← List.drop_drop, hdrop₁, List.drop_left]
  refine ⟨?_, ?_, ?_, ?_⟩
  · rw [hstart]
    exact Text.slice_of_drop_eq_append hindex htext
  · rw [hstop]
    exact Text.slice_of_drop_eq_append (by omega) hdrop₁
  · rw [hnext]
    exact Text.slice_of_drop_eq_append (by omega) hdrop₂
  · rw [hnext, ← List.drop_drop, hdrop₂, List.drop_left]

/-- An expression that is read splits its source. -/
theorem exists_splits {source : Text} {index : Nat} {options : ScanOptions} {r : Scan}
    (h : readExpression source index options = .ok r) (hne : r.start ≠ r.stop) :
    (index ≤ r.start ∧ r.start < r.stop ∧ r.stop ≤ r.next ∧ r.next < source.length) ∧
      ∃ before within after, r.Splits source index options before within after := by
  obtain ⟨r₀, hscan, rfl⟩ := readExpression_eq_ok_iff.1 h
  obtain ⟨ps, s', c, cs, word, htext, hreads, hhalts, hr⟩ := exists_reads hscan
  obtain ⟨i, hi, rfl⟩ := ScanState.halt_eq_ok_of_ne hr fun heq => hne (congrArg (· + index) heq)
  obtain ⟨before, within, after, rfl, hparts⟩ := exists_parts ps
  have hwithin : within ≠ [] := by
    rintro rfl
    rw [List.append_nil] at hreads
    obtain ⟨hstart, -, -⟩ := hreads.of_gaps fun p hp =>
      (List.mem_append.1 hp).elim (hparts.before_gaps p) (hparts.after_gaps p)
    rw [hi] at hstart
    cases hstart
  obtain ⟨hstart, hstop⟩ := hreads.bounds hparts hwithin
  rw [hi, Option.some.injEq] at hstart
  have hoffset := hreads.offset
  have hlen := congrArg List.length htext
  generalize hr : Scan.shift index ⟨i, s'.stop, s'.offset, word⟩ = r at hne ⊢
  simp only [piecesText_append, List.length_append, List.length_drop, List.length_cons]
    at hoffset hlen
  have hrstart : r.start = index + (piecesText before).length := by
    rw [← hr, ← hstart]
    exact Nat.add_comm _ _
  have hrstop : r.stop = r.start + (piecesText within).length := by
    simp only [← hr, Scan.shift]
    omega
  have hrnext : r.next = r.stop + (piecesText after).length := by
    simp only [← hr, Scan.shift]
    omega
  have hrword : r.stopWord = word := by rw [← hr]; rfl
  have hindex : index ≤ source.length := by omega
  have hdrop : source.drop index =
      piecesText before ++ (piecesText within ++ (piecesText after ++ c :: cs)) := by
    rw [htext, piecesText_append, piecesText_append, List.append_assoc, List.append_assoc]
  obtain ⟨hbefore, hin, hafter, hrest⟩ := slices_of_drop hindex hdrop hrstart hrstop hrnext
  refine ⟨by omega, before, within, after, hbefore, hin, hafter, hparts, ?_, ?_, ?_, ?_⟩
  · rw [hrest]
    exact hreads.pieces
  · refine balanced_of_openAfter ?_
    rw [← hparts.marks, hreads.openAfter, hhalts.depth]
  · exact fun pre p post hw hp hdepth => hreads.earliest hparts hw hp hdepth
  · obtain ⟨hblank, hslash⟩ := gap?_eq_none_iff.1 hhalts.gap
    refine ⟨c, cs, hrest, hblank, hslash, ?_⟩
    rcases hhalts.reason with ⟨hc, rfl⟩ | ⟨hc, -, hafterBlank, hc', w, hw, hmem, rfl⟩
    · exact .inl ⟨hc, hrword⟩
    · obtain ⟨rest, hcs, hfit⟩ := Piece.exists_word_fits cs hblank hc' false
      have hps : before ++ within ++ after ≠ [] := by simp [hwithin]
      obtain ⟨b, hb, hbb⟩ := (hreads.afterBlank_iff hps hcs hfit).1 hafterBlank
      refine .inr ⟨hc, hc', ⟨b, ?_, hbb⟩, w, hmem, ?_, hrword⟩
      · rw [← hb, ← getElem?_pred_of_drop (by rintro h; rw [h] at hb; cases hb) htext]
        congr 1
        rw [piecesText_append, piecesText_append, List.length_append, List.length_append]
        omega
      · rw [hrest, hw, List.takeWhile_cons_of_pos hc']

/-- Pieces that fit are gone through, if the scan does not halt before one of them. -/
theorem reads_of_pieces {options : ScanOptions} {rest : Text} {s : ScanState} {ps : List Piece}
    {depth : List Bracket} (h : Pieces s.afterValue rest ps)
    (hdepth : openAfter s.depth (piecesMarks ps) = some depth)
    (hpass : ∀ pre p post s', ps = pre ++ p :: post →
      Reads options (piecesText (p :: post) ++ rest) s pre s' →
      p.Fits s'.afterValue (piecesText post ++ rest) → p.Passes options s') :
    ∃ s', Reads options rest s ps s' := by
  induction ps generalizing s with
  | nil => exact ⟨s, .nil s⟩
  | cons p ps ih =>
    obtain ⟨hfit, hps⟩ := h
    rw [piecesMarks, List.flatMap_cons, openAfter_append] at hdepth
    obtain ⟨d, hd, hdepth⟩ := Option.bind_eq_some_iff.1 hdepth
    have hp := hpass [] p ps s rfl (.nil s) hfit
    obtain ⟨s', hreads⟩ := @ih (s.read p d) hps hdepth fun pre q post s' heq hreads =>
      hpass (p :: pre) q post s' (by rw [heq]; rfl) (.cons (by
        rw [heq, piecesText_append, List.append_assoc] at hfit
        exact hfit) hd hp hreads)
    exact ⟨s', .cons hfit hd hp hreads⟩

/-- Balanced brackets leave open what was open before. -/
theorem Balanced.openAfter {ms : List BracketMark} (h : Balanced ms) (depth : List Bracket) :
    openAfter depth ms = some depth := by
  induction h generalizing depth with
  | nil => rfl
  | enclose b _ _ ihx ihy =>
    rw [ComponentDivision.openAfter, openAfter_append, ihx, Option.bind_some,
      ComponentDivision.openAfter, if_pos rfl, ihy]

/-- The pieces of an expression that splits its source are passed. -/
theorem Scan.Splits.passes {source : Text} {index : Nat} {options : ScanOptions} {r : Scan}
    {before within after pre post : List Piece} {p : Piece} {rest : Text} {s' : ScanState}
    (h : r.Splits source index options before within after)
    (hps : before ++ within ++ after = pre ++ p :: post)
    (hreads : Reads options (piecesText (p :: post) ++ rest) {} pre s')
    (hfit : p.Fits s'.afterValue (piecesText post ++ rest)) : p.Passes options s' := by
  intro hp hdepth
  obtain ⟨pre', post', rfl, hwithin⟩ := h.parts.exists_within hps hp
  have hmarks : bracketDepth (piecesMarks pre') = 0 := by
    have hopen := hreads.openAfter
    rw [piecesMarks_append, piecesMarks_of_gaps h.parts.before_gaps, List.nil_append, hdepth]
      at hopen
    exact bracketDepth_eq hopen
  obtain ⟨hterm, hstop⟩ := h.earliest pre' p post' hwithin hp hmarks
  refine ⟨hterm, ?_⟩
  rintro w rfl hstart hblank
  have hpre' : pre' ≠ [] := by
    rintro rfl
    rw [List.append_nil] at hreads
    obtain ⟨hnone, -, -⟩ := hreads.of_gaps h.parts.before_gaps
    rw [hnone] at hstart
    cases hstart
  refine hstop w rfl ?_
  obtain ⟨s₁, -, h₁⟩ := Reads.append_iff.1 hreads
  obtain ⟨c, hc, hcb⟩ := (hreads.afterBlank_iff (by simp [hpre'])
    (by rw [piecesText_cons, List.append_assoc]; rfl) hfit).1 hblank
  rw [piecesText_append, List.getLast?_append_of_ne_nil _ (h₁.text_ne_nil hpre')] at hc
  exact ⟨c, hc, hcb⟩

/-- An expression that splits its source is read. -/
theorem Scan.Splits.readExpression {source : Text} {index : Nat} {options : ScanOptions} {r : Scan}
    {before within after : List Piece} (h : r.Splits source index options before within after)
    (hindex : index ≤ r.start) (hlt : r.start < r.stop) (hle : r.stop ≤ r.next)
    (hnext : r.next < source.length) : readExpression source index options = .ok r := by
  obtain ⟨c, cs, hdrop, hblank, hslash, hends⟩ := h.ends
  have hbefore := Text.length_slice (t := source) (i := index) (j := r.start) (by omega) (by omega)
    (by omega)
  have hmiddle := Text.length_slice (t := source) (i := r.start) (j := r.stop) (by omega) (by omega)
    (by omega)
  have hafter := Text.length_slice (t := source) (i := r.stop) (j := r.next) (by omega) (by omega)
    (by omega)
  rw [h.before_text] at hbefore
  rw [h.within_text] at hmiddle
  rw [h.after_text] at hafter
  have hwithin : within ≠ [] := by
    rintro rfl
    simp only [piecesText, List.flatMap_nil, List.length_nil] at hmiddle
    omega
  have htext : source.drop index = piecesText (before ++ within ++ after) ++ c :: cs := by
    rw [← hdrop, piecesText_append, piecesText_append, ← h.before_text, ← h.within_text,
      ← h.after_text, List.append_assoc, List.append_assoc, Text.slice_append_drop hle (by omega),
      Text.slice_append_drop (by omega) (by omega), Text.slice_append_drop hindex (by omega)]
  have hopen : openAfter [] (piecesMarks (before ++ within ++ after)) = some [] := by
    rw [h.parts.marks, h.balanced.openAfter]
  have hfits := h.fits
  rw [hdrop] at hfits
  obtain ⟨s', hreads⟩ : ∃ s', Reads options (c :: cs) {} (before ++ within ++ after) s' :=
    reads_of_pieces hfits hopen fun pre p post s' hps hpre hfit => h.passes hps hpre hfit
  obtain ⟨hstart, hstop⟩ := hreads.bounds h.parts hwithin
  have hoffset := hreads.offset
  simp only [piecesText_append, List.length_append] at hoffset
  have hhalts : s'.Halts options c cs r.stopWord := by
    refine ⟨gap?_eq_none_iff.2 ⟨hblank, hslash⟩, ?_, ?_⟩
    · have hdepth := hreads.openAfter
      rw [hopen] at hdepth
      exact (Option.some.inj hdepth).symm
    · rcases hends with ⟨hc, hword⟩ | ⟨hc, hc', ⟨b, hb, hbb⟩, w, hmem, hw, hword⟩
      · exact .inl ⟨hc, hword⟩
      · obtain ⟨rest, hcs, hfit⟩ := Piece.exists_word_fits cs hblank hc' false
        have hps : before ++ within ++ after ≠ [] := by simp [hwithin]
        refine .inr ⟨hc, by rw [hstart]; rfl, (hreads.afterBlank_iff hps hcs hfit).2 ⟨b, ?_, hbb⟩,
          hc', w, by rw [hw, hdrop, List.takeWhile_cons_of_pos hc'], hmem, hword⟩
        rw [Option.mem_def, ← getElem?_pred_of_drop (hreads.text_ne_nil hps) htext, ← hb]
        congr 1
        simp only [piecesText_append, List.length_append]
        omega
  refine readExpression_eq_ok_iff.2 ⟨⟨(piecesText before).length, s'.stop, s'.offset, r.stopWord⟩,
    ?_, ?_⟩
  · rw [scan, htext, scanFrom_of_reads hreads, scanFrom_of_halts hhalts, ScanState.halt, hstart]
  · have hrstart : r.start = (piecesText before).length + index := by omega
    have hrstop : r.stop = s'.stop + index := by omega
    have hrnext : r.next = s'.offset + index := by omega
    simp only [Scan.shift, ← hrstart, ← hrstop, ← hrnext]

/-- **The expressions that are read.** An expression is read with these bounds exactly if it
stands between gaps, its brackets are balanced, it is followed by what ends it, and no token
outside its brackets would have ended it earlier. -/
theorem readExpression_splits_iff (source : Text) (index : Nat) (options : ScanOptions) (r : Scan) :
    (readExpression source index options = .ok r ∧ r.start ≠ r.stop) ↔
      (index ≤ r.start ∧ r.start < r.stop ∧ r.stop ≤ r.next ∧ r.next < source.length) ∧
        ∃ before within after, r.Splits source index options before within after := by
  constructor
  · rintro ⟨h, hne⟩
    exact exists_splits h hne
  · rintro ⟨⟨hindex, hlt, hle, hnext⟩, before, within, after, h⟩
    exact ⟨h.readExpression hindex hlt hle hnext, Nat.ne_of_lt hlt⟩

end ComponentDivision
