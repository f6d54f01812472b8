/-
# Keywords as whole words

A tag in braces has a mark and a keyword after it. The keyword is read as far as lower case letters
go, and after most keywords a blank or the closing brace has to come. Three keywords are not looked
after: what names the value of a then or a catch branch, and what a debug tag is about, may follow
without a blank.

* `Reader.scan_word` : a word before a closing brace;
* `Template.ReadsTag` : a tag that is read on the way through a template;
* `Template.looseTags` : the tags whose keywords may go on;
* `Template.ReadsTag.wholeBefore` : what comes after all other keywords;
* `keyword_whole_word` : where keywords are whole words, and where they are not.
-/
import ComponentDivision.Proofs.Template.Shorthand

namespace ComponentDivision

/-! ## Ends of keywords -/

/-- A blank or a closing brace comes next. -/
def EndsKeyword (r : Text) : Prop :=
  ∃ ch rest, r = ch :: rest ∧ (isBlank ch = true ∨ ch = '}')

/-- A blank comes next. -/
def BlankNext (r : Text) : Prop :=
  ∃ ch rest, r = ch :: rest ∧ isBlank ch = true

theorem BlankNext.endsKeyword {r : Text} (h : BlankNext r) : EndsKeyword r := by
  obtain ⟨ch, rest, rfl, hblank⟩ := h
  exact ⟨ch, rest, rfl, Or.inl hblank⟩

/-- Blanks, perhaps none, before a character. -/
theorem head_of_blanks {u v : Text} {x : Char} (hu : u.all isBlank = true) :
    ∃ ch rest, u ++ x :: v = ch :: rest ∧ (isBlank ch = true ∨ u = [] ∧ ch = x) := by
  cases u with
  | nil => exact ⟨x, v, rfl, Or.inr ⟨rfl, rfl⟩⟩
  | cons ch u =>
    rw [List.all_cons, Bool.and_eq_true] at hu
    exact ⟨ch, u ++ x :: v, rfl, Or.inl hu.1⟩

/-- Two ways to pass over blanks before a character that is none are the same. -/
theorem eq_of_blanks {u u' v v' : Text} {x x' : Char} (hu : u.all isBlank = true)
    (hu' : u'.all isBlank = true) (hx : isBlank x = false) (hx' : isBlank x' = false)
    (h : u ++ x :: v = u' ++ x' :: v') : x = x' ∧ v = v' := by
  have hdrop {t s : Text} {y : Char} (ht : t.all isBlank = true) (hy : isBlank y = false) :
      (t ++ y :: s).dropWhile isBlank = y :: s := by
    rw [List.dropWhile_append_of_pos (List.all_eq_true.1 ht),
      List.dropWhile_cons_of_neg (by rw [hy]; exact nofun)]
  have hrest : x :: v = x' :: v' := by
    rw [← hdrop hu hx, h, hdrop hu' hx']
  exact List.cons.inj hrest

namespace Reader

variable {ctx : Context} {st st' : Stack} {c d : Cursor} {k r : Text} {n start : Nat}

theorem blankNext_of_requireBlank {u : Unit} (h : requireBlank c = .ok (u, d)) :
    BlankNext c.rest := by
  obtain ⟨o, _, hpeek, h⟩ := bind_eq_ok.1 h
  cases hpeek
  cases hrest : c.rest with
  | nil =>
    rw [hrest] at h
    cases h
  | cons ch rest =>
    rw [hrest] at h
    rcases ite_eq_ok.1 h with ⟨hblank, -⟩ | ⟨-, h⟩
    · exact ⟨ch, rest, rfl, hblank⟩
    · cases h

/-- Where a closing brace comes next but for blanks, the keyword has ended. -/
theorem endsKeyword_of_brace {u₁ u₂ : Unit} {c₁ : Cursor} (hskip : skipBlank c = .ok (u₁, c₁))
    (hbrace : expect ['}'] c₁ = .ok (u₂, d)) : EndsKeyword c.rest := by
  obtain ⟨u, hu, hrest⟩ := rest_of_skipBlank hskip
  rw [rest_of_expect hbrace] at hrest
  obtain ⟨ch, rest, hcons, hch⟩ := head_of_blanks (v := d.rest) (x := '}') hu
  exact ⟨ch, rest, hrest.trans hcons, hch.imp_right And.right⟩

/-- There is something to delimit an expression in. -/
theorem ne_nil_of_delimited {options : ScanOptions} {x : Delimited}
    (h : delimited options c = .ok (x, d)) : c.rest ≠ [] := by
  unfold delimited at h
  split at h
  · cases h
  · rename_i s hs
    have hlt := (scanFrom_next hs).2
    intro hnil
    rw [hnil] at hlt
    exact absurd hlt (Nat.not_lt_zero _)

theorem skipBlank_append {u v : Text} {x : Char} (hu : u.all isBlank = true)
    (hx : isBlank x = false) (n : Nat) :
    skipBlank ⟨n, u ++ x :: v⟩ = .ok ((), ⟨n + u.length, x :: v⟩) := by
  have htake : (u ++ x :: v).takeWhile isBlank = u := by
    rw [List.takeWhile_append_of_pos (List.all_eq_true.1 hu),
      List.takeWhile_cons_of_neg (by rw [hx]; exact nofun), List.append_nil]
  show Except.ok ((), (Cursor.mk n (u ++ x :: v)).advance
    ((u ++ x :: v).takeWhile isBlank).length) = _
  rw [htake, Cursor.advance, List.drop_left]

/-! ## What comes after keywords -/

theorem endsKeyword_of_openBlock (hk : k.all Char.isLower = true) (hr : KeywordEnd r)
    (h : openBlock ctx start st ⟨n, k ++ r⟩ = .ok (st', d)) : EndsKeyword r := by
  unfold openBlock at h
  rw [bind_of_ok (word_eq hk hr n)] at h
  cases hkind : block? k with
  | none =>
    rw [hkind] at h
    cases h
  | some kind =>
    rw [hkind] at h
    obtain ⟨_, c₁, hblank, -⟩ := bind_eq_ok.1 h
    exact (blankNext_of_requireBlank hblank).endsKeyword

theorem endsKeyword_of_closeBlock (hk : k.all Char.isLower = true) (hr : KeywordEnd r)
    (h : closeBlock start st ⟨n, k ++ r⟩ = .ok (st', d)) : EndsKeyword r := by
  unfold closeBlock at h
  rw [bind_of_ok (word_eq hk hr n)] at h
  cases hkind : block? k with
  | none =>
    rw [hkind] at h
    cases h
  | some kind =>
    rw [hkind] at h
    obtain ⟨_, c₁, hskip, h⟩ := bind_eq_ok.1 h
    obtain ⟨_, c₂, hbrace, -⟩ := bind_eq_ok.1 h
    exact endsKeyword_of_brace hskip hbrace

/-- After the keyword of an else branch there is a blank or a closing brace; a second keyword goes
before a blank. -/
theorem endsKeyword_of_elseBranch (hr : KeywordEnd r)
    (h : elseBranch ctx start st ⟨n, r⟩ = .ok (st', d)) :
    EndsKeyword r ∧
      ∀ u r', u.all isBlank = true → r = u ++ 'i' :: 'f' :: r' → BlankNext r' := by
  unfold elseBranch at h
  obtain ⟨_, c₁, hskip, h⟩ := bind_eq_ok.1 h
  obtain ⟨isIf, c₂, heat, h⟩ := bind_eq_ok.1 h
  rcases ite_eq_ok.1 h with ⟨hif, h⟩ | ⟨hno, h⟩
  · obtain ⟨_, c₃, hblank, -⟩ := bind_eq_ok.1 h
    obtain ⟨v, hv, hrest⟩ := rest_of_skipBlank hskip
    have heat : eat "if".toList c₁ = .ok (true, c₂) := hif ▸ heat
    rw [rest_of_eat heat] at hrest
    have hrest : r = v ++ 'i' :: 'f' :: c₂.rest := hrest
    have hnext := blankNext_of_requireBlank hblank
    refine ⟨?_, fun u r' hu hr' => ?_⟩
    · obtain ⟨ch, rest, hcons, hch⟩ := head_of_blanks (v := 'f' :: c₂.rest) (x := 'i') hv
      rw [← hrest] at hcons
      rcases hch with hblank | ⟨-, rfl⟩
      · exact ⟨ch, rest, hcons, Or.inl hblank⟩
      · cases hr 'i' (by rw [hcons]; rfl)
    · rw [hrest] at hr'
      obtain ⟨-, htail⟩ := eq_of_blanks hv hu rfl rfl hr'
      rwa [← (List.cons.inj htail).2]
  · have hsame : c₂ = c₁ := eq_of_eat_false (Bool.eq_false_iff.2 hno ▸ heat)
    rcases ite_eq_ok.1 h with ⟨-, h⟩ | ⟨-, h⟩
    · obtain ⟨_, c₃, hbrace, -⟩ := bind_eq_ok.1 h
      rw [hsame] at hbrace
      refine ⟨endsKeyword_of_brace hskip hbrace, fun u r' hu hr' => ?_⟩
      obtain ⟨v, hv, hrest⟩ := rest_of_skipBlank hskip
      rw [rest_of_expect hbrace] at hrest
      -- a closing brace and the second keyword cannot both come after the blanks
      have hclash : v ++ '}' :: c₃.rest = u ++ 'i' :: 'f' :: r' := hrest.symm.trans hr'
      obtain ⟨hchar, -⟩ := eq_of_blanks hv hu rfl rfl hclash
      cases hchar
    · cases h

/-- The keywords that continue a block. -/
theorem keyword_of_continueBlock (hk : k.all Char.isLower = true) (hr : KeywordEnd r)
    (h : continueBlock ctx start st ⟨n, k ++ r⟩ = .ok (st', d)) :
    (k = "else".toList ∧ EndsKeyword r ∧
      ∀ u r', u.all isBlank = true → r = u ++ 'i' :: 'f' :: r' → BlankNext r') ∨
    k ∈ ["then".toList, "catch".toList] ∧ r ≠ [] := by
  have hbranch {b : BranchKind} {st : Stack} {m : Nat}
      (h : awaitBranch ctx start b st ⟨m, r⟩ = .ok (st', d)) : r ≠ [] := by
    obtain ⟨pattern, c₁, hpattern, -⟩ := bind_eq_ok.1 h
    obtain ⟨x, c₂, hx, -⟩ := bind_eq_ok.1 hpattern
    exact ne_nil_of_delimited hx
  unfold continueBlock at h
  rw [bind_of_ok (word_eq hk hr n)] at h
  rcases ite_eq_ok.1 h with ⟨helse, h⟩ | ⟨-, h⟩
  · exact Or.inl ⟨beq_iff_eq.1 helse, endsKeyword_of_elseBranch hr h⟩
  rcases ite_eq_ok.1 h with ⟨hthen, h⟩ | ⟨-, h⟩
  · rcases ite_eq_ok.1 h with ⟨-, h⟩ | ⟨-, h⟩
    · rw [beq_iff_eq.1 hthen]
      exact Or.inr ⟨List.mem_cons_self, hbranch h⟩
    · cases h
  rcases ite_eq_ok.1 h with ⟨hcatch, h⟩ | ⟨-, h⟩
  · rcases ite_eq_ok.1 h with ⟨-, h⟩ | ⟨-, h⟩
    · rw [beq_iff_eq.1 hcatch]
      exact Or.inr ⟨List.mem_cons_of_mem _ List.mem_cons_self, hbranch h⟩
    · cases h
  · cases h

/-- The keywords of special tags. -/
theorem keyword_of_specialTag (hk : k.all Char.isLower = true) (hr : KeywordEnd r)
    (h : specialTag ctx start st ⟨n, k ++ r⟩ = .ok (st', d)) :
    k ∈ ["html".toList, "const".toList] ∧ EndsKeyword r ∨ k = "debug".toList ∧ r ≠ [] := by
  unfold specialTag at h
  rw [bind_of_ok (word_eq hk hr n)] at h
  rcases ite_eq_ok.1 h with ⟨hhtml, h⟩ | ⟨-, h⟩
  · obtain ⟨_, c₁, hblank, -⟩ := bind_eq_ok.1 h
    rw [beq_iff_eq.1 hhtml]
    exact Or.inl ⟨List.mem_cons_self, (blankNext_of_requireBlank hblank).endsKeyword⟩
  rcases ite_eq_ok.1 h with ⟨hdebug, h⟩ | ⟨-, h⟩
  · obtain ⟨x, c₁, hx, -⟩ := bind_eq_ok.1 h
    exact Or.inr ⟨beq_iff_eq.1 hdebug, ne_nil_of_delimited hx⟩
  rcases ite_eq_ok.1 h with ⟨hconst, h⟩ | ⟨-, h⟩
  · obtain ⟨_, c₁, hblank, -⟩ := bind_eq_ok.1 h
    rw [beq_iff_eq.1 hconst]
    exact Or.inl ⟨List.mem_cons_of_mem _ List.mem_cons_self,
      (blankNext_of_requireBlank hblank).endsKeyword⟩
  · cases h

/-! ## A word before a closing brace -/

theorem scanFrom_blanks (options : ScanOptions) {u : Text} (hu : u.all isBlank = true)
    (s : ScanState) (rest : Text) :
    ∃ afterBlank, scanFrom options s (u ++ rest)
      = scanFrom options { s with offset := s.offset + u.length, afterBlank } rest := by
  induction u generalizing s with
  | nil => exact ⟨s.afterBlank, rfl⟩
  | cons c u ih =>
    rw [List.all_cons, Bool.and_eq_true] at hu
    obtain ⟨afterBlank, hscan⟩ := ih hu.2 (s.pass .blank)
    refine ⟨afterBlank, ?_⟩
    rw [List.cons_append, scanFrom.eq_def]
    simp only [gap?_eq_blank_iff.2 hu.1]
    rw [hscan, ScanState.pass, List.length_cons, Nat.add_assoc, Nat.add_comm 1]

/-- Of a word before a closing brace all is delimited, but for the blanks that it begins with. -/
theorem scan_word {w : Text} (hw : w.all isWordChar = true) (rest : Text) :
    scan { allowEmpty := true } (w ++ '}' :: rest)
      = .ok ⟨(w.takeWhile isBlank).length, w.length, w.length, none⟩ := by
  have hhalt {s : ScanState} (hdepth : s.depth = []) :
      scanFrom { allowEmpty := true } s ('}' :: rest) = s.halt { allowEmpty := true } none :=
    scanFrom_of_halts ⟨gap?_eq_none_iff.2 ⟨rfl, nofun⟩, hdepth, .inl ⟨List.mem_cons_self, rfl⟩⟩
  have hsplit : w = w.takeWhile isBlank ++ w.dropWhile isBlank :=
    List.takeWhile_append_dropWhile.symm
  have hlength := congrArg List.length hsplit
  rw [List.length_append] at hlength
  obtain ⟨afterBlank, hblanks⟩ := scanFrom_blanks { allowEmpty := true }
    (List.all_takeWhile (p := isBlank) (l := w)) {} (w.dropWhile isBlank ++ '}' :: rest)
  rw [← List.append_assoc, ← hsplit] at hblanks
  rw [scan, hblanks]
  cases hword : w.dropWhile isBlank with
  | nil =>
    rw [hword, List.length_nil] at hlength
    rw [List.nil_append, hhalt rfl, hlength]
    simp [ScanState.halt]
  | cons ch cs =>
    have hfits : (Piece.word (ch :: cs)).Fits false ('}' :: rest) := by
      refine ⟨List.cons_ne_nil _ _, fun c hc => ?_, fun c hc => ?_, fun c hc => ?_⟩
      · rw [← hword] at hc
        exact eq_false_of_head?_dropWhile hc
      · rw [← hword] at hc
        exact List.all_eq_true.1 hw c ((List.dropWhile_suffix _).subset hc)
      · cases hc
        rfl
    have hch : isWordChar ch = true := hfits.2.2.1 ch List.mem_cons_self
    have hpass : (Piece.word (ch :: cs)).Passes { allowEmpty := true }
        { offset := 0 + (w.takeWhile isBlank).length, afterBlank } := by
      refine fun _ _ => ⟨fun c hc hterm => ?_, fun _ _ hstart => ?_⟩
      · cases hc
        rw [List.mem_singleton.1 hterm] at hch
        cases hch
      · cases hstart
    refine (scanFrom_read hfits rfl hpass).trans ?_
    rw [hword] at hlength
    rw [hhalt rfl]
    simp [ScanState.halt, ScanState.read, Piece.text, Piece.isGap, hlength]

/-- What a word after a keyword is taken for: the word without the blanks that it begins with, if
anything is left of it. -/
def wordValue? (w : Text) : Option Text :=
  if w.dropWhile isBlank = [] then none else some (w.dropWhile isBlank)

theorem delimited_word {w : Text} (hw : w.all isWordChar = true) (n : Nat) (rest : Text) :
    delimited { allowEmpty := true } ⟨n, w ++ '}' :: rest⟩
      = .ok (⟨⟨(w.takeWhile isBlank).length + n, w.length + n, w.length + n, none⟩,
        w.dropWhile isBlank⟩, ⟨n + w.length, '}' :: rest⟩) := by
  have hle : (w.takeWhile isBlank).length ≤ w.length := (List.takeWhile_prefix isBlank).length_le
  have htext : ((w ++ '}' :: rest).drop (w.takeWhile isBlank).length).take
      (w.length - (w.takeWhile isBlank).length) = w.dropWhile isBlank := by
    rw [List.drop_append_of_le_length hle, ← List.length_drop, List.take_left,
      Text.drop_takeWhile_length]
  unfold delimited
  rw [scan_word hw]
  simp only [htext, Scan.shift, Cursor.advance, List.drop_left]

/-- Nothing is delimited if nothing is left of the word. -/
theorem empty_word {w : Text} {n : Nat} :
    Scan.empty ⟨(w.takeWhile isBlank).length + n, w.length + n, w.length + n, none⟩
      = (w.dropWhile isBlank).isEmpty := by
  have hlength := congrArg List.length (List.takeWhile_append_dropWhile (p := isBlank) (l := w))
  rw [List.length_append] at hlength
  rw [Bool.eq_iff_iff, Scan.empty, beq_iff_eq, List.isEmpty_iff, ← List.length_eq_zero_iff]
  show (w.takeWhile isBlank).length + n = w.length + n ↔ _
  omega

/-- **A word is read as a pattern** if the grammar accepts what it is taken for. -/
theorem readPattern_word {w rest : Text} {p : Option Text} (hw : w.all isWordChar = true) :
    readPattern ctx ['}'] ⟨n, w ++ '}' :: rest⟩ = .ok (p, d) ↔
      (∀ v ∈ wordValue? w, ctx.grammar.pattern v = .accepted) ∧ p = wordValue? w ∧
        d = ⟨n + w.length, '}' :: rest⟩ := by
  unfold readPattern wordValue?
  rw [bind_of_ok (delimited_word hw n rest)]
  dsimp only
  rw [empty_word]
  cases w.dropWhile isBlank with
  | nil =>
    rw [if_pos (c := [] = []) rfl]
    show (pure none : Reader (Option Text)) _ = _ ↔ _
    rw [pure_eq_ok]
    exact ⟨fun h => ⟨nofun, h.1.symm, h.2.symm⟩, fun h => ⟨h.2.1.symm, h.2.2.symm⟩⟩
  | cons ch cs =>
    rw [if_neg (List.cons_ne_nil ch cs)]
    show (require (ctx.grammar.pattern (ch :: cs)) _ >>= fun _ => pure (some (ch :: cs))) _ = _ ↔ _
    rw [bind_eq_ok]
    constructor
    · rintro ⟨_, c, hrequire, h⟩
      obtain ⟨haccepted, rfl⟩ := require_eq_ok.1 hrequire
      obtain ⟨rfl, rfl⟩ := pure_eq_ok.1 h
      exact ⟨fun v hv => by cases hv; exact haccepted, rfl, rfl⟩
    · rintro ⟨haccepted, rfl, rfl⟩
      exact ⟨(), _, require_eq_ok.2 ⟨haccepted _ rfl, rfl⟩, pure_eq_ok.2 ⟨rfl, rfl⟩⟩

theorem patternEnd_word {w rest : Text} {p : Option Text} (hw : w.all isWordChar = true) :
    patternEnd ctx ⟨n, w ++ '}' :: rest⟩ = .ok (p, d) ↔
      (∀ v ∈ wordValue? w, ctx.grammar.pattern v = .accepted) ∧ p = wordValue? w ∧
        d = ⟨n + w.length + 1, rest⟩ := by
  unfold patternEnd
  rw [bind_eq_ok]
  constructor
  · rintro ⟨q, c, hq, h⟩
    obtain ⟨haccepted, rfl, rfl⟩ := (readPattern_word hw).1 hq
    cases h
    exact ⟨haccepted, rfl, rfl⟩
  · rintro ⟨haccepted, rfl, rfl⟩
    exact ⟨_, _, (readPattern_word hw).2 ⟨haccepted, rfl, rfl⟩, rfl⟩

/-- **A word is what a debug tag is about** if the grammar accepts what it is taken for. -/
theorem item_debug {w rest : Text} (hw : w.all isWordChar = true)
    (hend : KeywordEnd (w ++ '}' :: rest)) :
    item ctx n '{' st ⟨n + 1, '@' :: ("debug".toList ++ (w ++ '}' :: rest))⟩ = .ok (st', d) ↔
      (∀ v ∈ wordValue? w, ctx.grammar.expression v = .accepted) ∧
        st' = st.receive (.leaf
          { kind := .debugTag, start := n, stop := (n + 7 + w.length + 1 : Nat)
            expression := (wordValue? w).map fun _ =>
              ctx.place ((w.takeWhile isBlank).length + (n + 7)) (w.length + (n + 7)) }) ∧
        d = ⟨n + 7 + w.length + 1, rest⟩ := by
  show specialTag ctx n st ⟨n + 2, "debug".toList ++ (w ++ '}' :: rest)⟩ = _ ↔ _
  unfold specialTag wordValue?
  rw [bind_of_ok (word_eq rfl hend (n + 2))]
  show (delimited { allowEmpty := true } >>= fun x => if x.scan.empty = true then _ else _)
    ⟨n + 7, w ++ '}' :: rest⟩ = _ ↔ _
  rw [bind_of_ok (delimited_word hw (n + 7) rest)]
  dsimp only
  rw [empty_word]
  cases w.dropWhile isBlank with
  | nil =>
    rw [if_pos (c := [] = []) rfl]
    show Except.ok (_, _) = _ ↔ _
    rw [Except.ok.injEq, Prod.mk.injEq]
    exact ⟨fun h => ⟨nofun, h.1.symm, h.2.symm⟩, fun h => ⟨h.2.1.symm, h.2.2.symm⟩⟩
  | cons ch cs =>
    rw [if_neg (List.cons_ne_nil ch cs)]
    show (checked ctx _ >>= fun e => specialTag.finish n st .debugTag (some e)) _ = _ ↔ _
    rw [bind_eq_ok]
    constructor
    · rintro ⟨e, c, hchecked, h⟩
      obtain ⟨haccepted, rfl, rfl⟩ := checked_eq_ok.1 hchecked
      cases h
      exact ⟨fun v hv => by cases hv; exact haccepted, rfl, rfl⟩
    · rintro ⟨haccepted, rfl, rfl⟩
      exact ⟨_, _, checked_eq_ok.2 ⟨haccepted _ rfl, rfl, rfl⟩, rfl⟩

/-! ## Keywords that go on -/

/-- A text begins with a keyword, perhaps an empty one. -/
theorem exists_keyword (t : Text) :
    ∃ l r : Text, t = l ++ r ∧ l.all Char.isLower = true ∧ KeywordEnd r := by
  refine ⟨t.takeWhile Char.isLower, t.dropWhile Char.isLower,
    List.takeWhile_append_dropWhile.symm, List.all_takeWhile, fun ch hch => ?_⟩
  exact eq_false_of_head?_dropWhile hch

/-- A keyword ends where it cannot be the beginning of a longer one. -/
theorem keywordEnd_of_longest (hk : k.all Char.isLower = true)
    (h : ∀ l r', r = l ++ r' → (k ++ l).all Char.isLower = true → KeywordEnd r' → l = []) :
    KeywordEnd r := by
  obtain ⟨l, r', hr, hl, hr'⟩ := exists_keyword r
  have hlower : (k ++ l).all Char.isLower = true := by
    rw [List.all_append, hk, hl]
    rfl
  rw [hr, h l r' hr hlower hr']
  exact hr'

/-- The keyword of a branch of an await block is not the beginning of a longer one. -/
theorem keywordEnd_of_continueBlock {b : BranchKind} (hk : AwaitKeyword b k)
    (h : continueBlock ctx start st ⟨n, k ++ r⟩ = .ok (st', d)) : KeywordEnd r := by
  refine keywordEnd_of_longest hk.all_isLower fun l r' hr hlower hr' => ?_
  rw [hr, ← List.append_assoc] at h
  rcases keyword_of_continueBlock hlower hr' h with ⟨hword, -⟩ | ⟨hword, -⟩
  · cases hk <;> simp at hword
  · cases hk <;> simpa using hword

/-- Neither is the keyword of a debug tag. -/
theorem keywordEnd_of_specialTag
    (h : specialTag ctx start st ⟨n, "debug".toList ++ r⟩ = .ok (st', d)) : KeywordEnd r := by
  refine keywordEnd_of_longest (k := "debug".toList) rfl fun l r' hr hlower hr' => ?_
  rw [hr, ← List.append_assoc] at h
  rcases keyword_of_specialTag hlower hr' h with ⟨hword, -⟩ | ⟨hword, -⟩
  · simp at hword
  · simpa using hword

end Reader

/-! ## Tags on the way through a template -/

namespace Template

open Reader

/-- The tags whose keywords may go on: their marks and keywords. -/
def looseTags : List (Char × Text) :=
  [(':', "then".toList), (':', "catch".toList), ('@', "debug".toList)]

/-- A tag that is read on the way through a template: after its brace there may be blanks, then its
mark, the keyword as far as lower case letters go, and what comes after it. -/
def ReadsTag (grammar : Grammar) (source : Text) (mark : Char) (keyword after : Text) : Prop :=
  mark ∈ ['#', ':', '/', '@'] ∧ keyword.all Char.isLower = true ∧ KeywordEnd after ∧
    ∃ st c st' d blanks, Goes (.of grammar source) (Template.start source) ⟨0, source⟩ st c ∧
      c.rest = '{' :: (blanks ++ mark :: (keyword ++ after)) ∧ blanks.all isBlank = true ∧
      item (.of grammar source) c.pos '{' st (c.advance 1) = .ok (st', d)

/-- A keyword before this text is a whole word: the next character goes on with no word, unless it
is a blank beyond ASCII, which counts as both. -/
def WholeBefore (r : Text) : Prop :=
  ∃ ch rest, r = ch :: rest ∧ (isWordChar ch = true → isBlank ch = true ∧ 127 < ch.toNat)

theorem wholeBefore_of_endsKeyword {r : Text} (h : EndsKeyword r) : WholeBefore r := by
  obtain ⟨ch, rest, rfl, hch⟩ := h
  refine ⟨ch, rest, rfl, fun hword => ?_⟩
  rcases hch with hblank | rfl
  · refine ⟨hblank, ?_⟩
    by_contra hascii
    cases hblank.symm.trans (isBlank_of_isWordChar hword (by omega))
  · cases hword

/-- **Most keywords are whole words.** -/
theorem ReadsTag.wholeBefore {grammar : Grammar} {source keyword after : Text} {mark : Char}
    (h : ReadsTag grammar source mark keyword after) :
    (mark, keyword) ∈ looseTags ∧ after ≠ [] ∨ WholeBefore after ∧
      (mark = ':' → ∀ u r, u.all isBlank = true → after = u ++ 'i' :: 'f' :: r →
        WholeBefore r) := by
  obtain ⟨hmark, hk, hr, st, c, st', d, blanks, -, hrest, hblanks, h⟩ := h
  have hadvance : c.advance 1 = ⟨c.pos + 1, blanks ++ mark :: (keyword ++ after)⟩ := by
    rw [Cursor.advance, hrest]
    rfl
  simp only [List.mem_cons, List.not_mem_nil, or_false] at hmark
  have hplain : isBlank mark = false := by
    rcases hmark with rfl | rfl | rfl | rfl <;> rfl
  rw [hadvance] at h
  have h : mustache (.of grammar source) c.pos st
      ⟨c.pos + 1, blanks ++ mark :: (keyword ++ after)⟩ = .ok (st', d) := h
  unfold mustache at h
  rw [bind_of_ok (skipBlank_append hblanks hplain _)] at h
  -- only two keywords by which blocks go on and one special tag are loose
  rcases hmark with rfl | rfl | rfl | rfl
  · have hends := endsKeyword_of_openBlock hk hr (h :)
    exact Or.inr ⟨wholeBefore_of_endsKeyword hends, fun hcolon => by cases hcolon⟩
  · rcases keyword_of_continueBlock hk hr (h :) with ⟨-, hends, hif⟩ | ⟨hkeyword, hne⟩
    · refine Or.inr ⟨wholeBefore_of_endsKeyword hends, fun _ u r hu hur => ?_⟩
      exact wholeBefore_of_endsKeyword (hif u r hu hur).endsKeyword
    · refine Or.inl ⟨?_, hne⟩
      simp only [List.mem_cons, List.not_mem_nil, or_false] at hkeyword
      rcases hkeyword with rfl | rfl
      · exact List.mem_cons_self
      · exact List.mem_cons_of_mem _ List.mem_cons_self
  · have hends := endsKeyword_of_closeBlock hk hr (h :)
    exact Or.inr ⟨wholeBefore_of_endsKeyword hends, fun hcolon => by cases hcolon⟩
  · rcases keyword_of_specialTag hk hr (h :) with ⟨-, hends⟩ | ⟨rfl, hne⟩
    · exact Or.inr ⟨wholeBefore_of_endsKeyword hends, fun hcolon => by cases hcolon⟩
    · exact Or.inl ⟨List.mem_cons_of_mem _ (List.mem_cons_of_mem _ List.mem_cons_self), hne⟩

/-! ## Words right after keywords -/

variable {ctx : Context} {st : Stack} {root : Node} {b : BranchKind} {k e r w : Text}

/-- The closer of an await block. -/
def awaitCloser : Text :=
  ['{', '/', 'a', 'w', 'a', 'i', 't', '}']

theorem keywordEnd_append (hne : w ≠ []) (t : Text) : KeywordEnd (w ++ t) ↔ KeywordEnd w := by
  unfold KeywordEnd
  rw [List.head?_append_of_ne_nil _ hne]

/-- The keyword of a branch is read only if it ends there. -/
theorem keywordEnd_of_run_long (hk : AwaitKeyword b k) (he : ScannedWhole awaitWords e)
    (h : run ctx st ⟨0, awaitLong k e r⟩ = .ok root) : KeywordEnd r := by
  rw [awaitLong_eq, run_cons_eq_ok] at h
  obtain ⟨st', d, hitem, hrun⟩ := h
  obtain ⟨-, rfl, rfl⟩ := (awaitBlock_long he).1 ((item_await he _).1 hitem)
  obtain ⟨st', d, hitem, -⟩ := run_cons_eq_ok.1 hrun
  exact keywordEnd_of_continueBlock hk (hitem :)

/-- **A word right after the keyword of a branch** is taken for its pattern. -/
theorem run_awaitWord (hk : AwaitKeyword b k) (he : ScannedWhole awaitWords e)
    (hw : w.all isWordChar = true) (hne : w ≠ []) :
    run ctx st ⟨0, awaitLong k e (w ++ '}' :: r)⟩ = .ok root ↔
      KeywordEnd w ∧ ctx.grammar.expression e = .accepted ∧
        (∀ v ∈ wordValue? w, ctx.grammar.pattern v = .accepted) ∧
        run ctx (st.inAwait (ctx.place 8 (8 + e.length))
          ((Node.branch .pendingBlock (8 + e.length)).endAt (8 + e.length + 1 : Nat)) b
          (wordValue? w) (8 + e.length + 1)) ⟨8 + e.length + 3 + k.length + w.length + 1, r⟩
          = .ok root := by
  have hend := keywordEnd_append hne ('}' :: r)
  constructor
  · intro h
    have hw' := keywordEnd_of_run_long hk he h
    obtain ⟨haccepted, p, d, hp, hrun⟩ := (run_long hk he hw').1 h
    obtain ⟨hpattern, rfl, rfl⟩ := (patternEnd_word hw).1 hp
    exact ⟨hend.1 hw', haccepted, hpattern, hrun⟩
  · rintro ⟨hw', haccepted, hpattern, hrun⟩
    refine (run_long hk he (hend.2 hw')).2 ⟨haccepted, wordValue? w, _, ?_, hrun⟩
    exact (patternEnd_word hw).2 ⟨hpattern, rfl, rfl⟩

/-- Right after the beginning of a branch the await block may be closed. -/
theorem exists_run_awaitCloser (ctx : Context) (hk : AwaitKeyword b k) (s : Text) (x : Expression)
    (pending : Node) (p : Option Text) (n m : Nat) :
    ∃ root, run ctx ((start s).inAwait x pending b p n) ⟨m, awaitCloser⟩ = .ok root ∧
      root.children.map (fun c => (c.kind, c.label.pattern b)) = [(.awaitBlock, p)] := by
  have hawait : (((start s).inAwait x pending b p n).pop m).current.kind = .awaitBlock := by
    cases hk <;> rfl
  have helseif : (((start s).inAwait x pending b p n).pop m).current.label.elseif = false := by
    cases hk <;> rfl
  have hinner : ((((start s).inAwait x pending b p n).pop m).pop (m + 8 : Nat)).inner = [] := by
    cases hk <;> rfl
  refine ⟨((((start s).inAwait x pending b p n).pop m).pop (m + 8 : Nat)).root, ?_, ?_⟩
  · rw [awaitCloser, run_of_item (item_closeAwait m _ [] rfl hawait helseif), run_nil,
      Stack.finish, Stack.closeOmitted_of_nil _ hinner, hinner]
    rfl
  · cases hk <;> rfl

/-- A tag that names its subject without a blank. -/
def debugWord (w : Text) : Text :=
  '{' :: '@' :: ("debug".toList ++ (w ++ ['}']))

/-- What is left of a word in such a tag. -/
theorem slice_debugWord (w : Text) :
    (debugWord w).slice ((w.takeWhile isBlank).length + 7 : Nat) (w.length + 7 : Nat)
      = w.dropWhile isBlank := by
  have hlength := congrArg List.length (List.takeWhile_append_dropWhile (p := isBlank) (l := w))
  rw [List.length_append] at hlength
  have hdrop : (debugWord w).drop ((w.takeWhile isBlank).length + 7)
      = w.dropWhile isBlank ++ ['}'] := by
    show (w ++ ['}']).drop (w.takeWhile isBlank).length = _
    rw [List.drop_append_of_le_length (by omega), Text.drop_takeWhile_length]
  have hle : (w.takeWhile isBlank).length + 7 ≤ (debugWord w).length := by
    simp only [debugWord, List.length_cons, List.length_append]
    show _ ≤ 5 + (w.length + (0 + 1)) + 1 + 1
    omega
  rw [show w.length + 7 = (w.takeWhile isBlank).length + 7 + (w.dropWhile isBlank).length by omega]
  exact Text.slice_of_drop_eq_append hle hdrop

/-- **A word right after the keyword of a debug tag** is taken for its subject. -/
theorem run_debugWord (hw : w.all isWordChar = true) (hne : w ≠ []) :
    run ctx st ⟨0, debugWord w⟩ = .ok root ↔
      KeywordEnd w ∧ (∀ v ∈ wordValue? w, ctx.grammar.expression v = .accepted) ∧
        (st.receive (.leaf
          { kind := .debugTag, start := (0 : Nat), stop := (0 + 7 + w.length + 1 : Nat)
            expression := (wordValue? w).map fun _ =>
              ctx.place ((w.takeWhile isBlank).length + (0 + 7)) (w.length + (0 + 7)) })).finish
          (0 + 7 + w.length + 1) = .ok root := by
  have hend := keywordEnd_append hne ['}']
  unfold debugWord
  rw [run_cons_eq_ok]
  constructor
  · rintro ⟨st', d, hitem, hrun⟩
    have hw' : KeywordEnd (w ++ ['}']) := keywordEnd_of_specialTag (hitem :)
    obtain ⟨haccepted, rfl, rfl⟩ := (item_debug hw hw').1 hitem
    exact ⟨hend.1 hw', haccepted, (run_eq_ok_of_nil rfl).1 hrun⟩
  · rintro ⟨hw', haccepted, hrun⟩
    exact ⟨_, _, (item_debug hw (hend.2 hw')).2 ⟨haccepted, rfl, rfl⟩,
      (run_eq_ok_of_nil rfl).2 hrun⟩

end Template

/-! ## Whole words -/

open Template Reader

/-- **Keywords are whole words, but for three.** Wherever a tag is read, what comes after its
keyword goes on with no word, unless it is a blank beyond ASCII or the tag is one of the loose ones;
the same holds of the second keyword of an else branch. After the keyword of a loose tag any word
may come that begins with no lower case letter: the tag is accepted if the grammar accepts that word
without the blanks that it begins with, as the pattern of the branch or as the subject of the
tag. -/
theorem keyword_whole_word (grammar : Grammar) :
    (∀ source mark keyword after, ReadsTag grammar source mark keyword after →
      (mark, keyword) ∈ looseTags ∧ after ≠ [] ∨
      WholeBefore after ∧ (mark = ':' → ∀ u r, u.all isBlank = true →
        after = u ++ 'i' :: 'f' :: r → WholeBefore r)) ∧
    (∀ b k e w, AwaitKeyword b k → ScannedWhole awaitWords e → w ≠ [] → w.all isWordChar = true →
      ((∃ root, parseTemplate grammar (awaitLong k e (w ++ '}' :: awaitCloser)) = .ok root) ↔
        KeywordEnd w ∧ grammar.expression e = .accepted ∧
          ∀ v ∈ wordValue? w, grammar.pattern v = .accepted) ∧
      ∀ root, parseTemplate grammar (awaitLong k e (w ++ '}' :: awaitCloser)) = .ok root →
        root.children.map (fun c => (c.kind, c.label.pattern b))
          = [(.awaitBlock, wordValue? w)]) ∧
    ∀ w, w ≠ [] → w.all isWordChar = true →
      ((∃ root, parseTemplate grammar (debugWord w) = .ok root) ↔
        KeywordEnd w ∧ ∀ v ∈ wordValue? w, grammar.expression v = .accepted) ∧
      ∀ root, parseTemplate grammar (debugWord w) = .ok root →
        root.children.map (fun c => (c.kind, c.label.expression.map fun x =>
          (debugWord w).slice x.start x.stop)) = [(.debugTag, wordValue? w)] := by
  refine ⟨fun source mark keyword after h => h.wholeBefore, fun b k e w hk he hne hw => ?_,
    fun w hne hw => ?_⟩
  · obtain ⟨root', hrun', hchildren⟩ := exists_run_awaitCloser
      (.of grammar (awaitLong k e (w ++ '}' :: awaitCloser))) hk
      (awaitLong k e (w ++ '}' :: awaitCloser)) _ _ (wordValue? w) _ _
    refine ⟨⟨?_, ?_⟩, fun root h => ?_⟩
    · rintro ⟨root, h⟩
      obtain ⟨hw', haccepted, hpattern, -⟩ := (run_awaitWord hk he hw hne).1 h
      exact ⟨hw', haccepted, hpattern⟩
    · rintro ⟨hw', haccepted, hpattern⟩
      exact ⟨root', (run_awaitWord hk he hw hne).2 ⟨hw', haccepted, hpattern, hrun'⟩⟩
    · obtain ⟨-, -, -, hrun⟩ := (run_awaitWord hk he hw hne).1 h
      cases hrun.symm.trans hrun'
      exact hchildren
  · have hfinish (n : Node) (stop : Nat) : ((Template.start (debugWord w)).receive n).finish stop
        = .ok ((Template.start (debugWord w)).receive n).root := by
      rw [Stack.finish, Stack.closeOmitted_of_nil _ rfl]
      rfl
    refine ⟨⟨?_, ?_⟩, fun root h => ?_⟩
    · rintro ⟨root, h⟩
      obtain ⟨hw', haccepted, -⟩ := (run_debugWord hw hne).1 h
      exact ⟨hw', haccepted⟩
    · rintro ⟨hw', haccepted⟩
      exact ⟨_, (run_debugWord hw hne).2 ⟨hw', haccepted, hfinish _ _⟩⟩
    · obtain ⟨-, -, hroot⟩ := (run_debugWord hw hne).1 h
      cases hroot.symm.trans (hfinish _ _)
      have hsubject : ((wordValue? w).map fun _ => (Context.of grammar (debugWord w)).place
          ((w.takeWhile isBlank).length + (0 + 7)) (w.length + (0 + 7))).map
            (fun x => (debugWord w).slice x.start x.stop) = wordValue? w := by
        unfold wordValue?
        split
        · rfl
        · exact congrArg some (slice_debugWord w)
      exact congrArg (fun o => [(Kind.debugTag, o)]) hsubject

/-- An await block with a word right after the keyword of its then branch. -/
def thenWord (w : Text) : Text :=
  awaitLong "then".toList ['p'] (w ++ '}' :: awaitCloser)

/-- After the keyword of the opener there is a blank, and the word is a name. -/
theorem keyword_whole_word_name :
    ReadsTag .permissive (thenWord ['V']) '#' "await".toList
        (' ' :: 'p' :: '}' :: '{' :: ':' :: ("then".toList ++ ('V' :: '}' :: awaitCloser))) ∧
      WholeBefore
        (' ' :: 'p' :: '}' :: '{' :: ':' :: ("then".toList ++ ('V' :: '}' :: awaitCloser))) ∧
      ∃ root, parseTemplate .permissive (thenWord ['V']) = .ok root ∧
        root.children.map (fun c => (c.kind, c.label.thenPattern))
          = [(.awaitBlock, some ['V'])] := by
  obtain ⟨htags, hawait, -⟩ := keyword_whole_word .permissive
  have hwhole : ScannedWhole awaitWords ['p'] := by
    show readExpression _ _ _ = _
    decide +kernel
  have hword := hawait .thenBlock _ ['p'] ['V'] .thenBlock hwhole (List.cons_ne_nil _ _) rfl
  obtain ⟨root, hroot⟩ := hword.1.2 ⟨fun ch hch => by cases hch; rfl, rfl, fun _ _ => rfl⟩
  have hreads : ReadsTag .permissive (thenWord ['V']) '#' "await".toList
      (' ' :: 'p' :: '}' :: '{' :: ':' :: ("then".toList ++ ('V' :: '}' :: awaitCloser))) := by
    obtain ⟨st', d, hitem, -⟩ := run_cons_eq_ok.1 (hroot :)
    exact ⟨List.mem_cons_self, rfl, fun ch hch => by cases hch; rfl, _, _, st', d, [],
      .refl _ _, rfl, rfl, hitem⟩
  have hends := (htags _ _ _ _ hreads).resolve_left fun hloose => by
    have hno : ('#', "await".toList) ∉ looseTags := by decide
    exact hno hloose.1
  exact ⟨hreads, hends.1, root, hroot, hword.2 root hroot⟩

/-- The keyword of a then branch goes on with a letter, which then is its pattern. -/
theorem keyword_goes_on : isWordChar 'V' = true ∧
    thenWord ['V'] = "\x7b#await p\x7d\x7b:thenV\x7d\x7b/await\x7d".toList ∧ ∃ root,
    parseTemplate .permissive (thenWord ['V']) = .ok root ∧
      root.children.map (fun c => (c.kind, c.label.thenPattern))
        = [(.awaitBlock, some ['V'])] := by
  have hchildren : ((parseTemplate .permissive (thenWord ['V'])).toOption.map fun root =>
      root.children.map fun c => (c.kind, c.label.thenPattern))
        = some [(.awaitBlock, some ['V'])] := by
    decide +kernel
  exact ⟨rfl, rfl, exists_ok_of_toOption_map hchildren⟩

end ComponentDivision
