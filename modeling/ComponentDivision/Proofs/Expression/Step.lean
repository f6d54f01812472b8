/-
# The steps of a scan

A scan goes from piece to piece. Each step that does not halt reads one piece, and each
piece that fits is read in one step; so a scan is known from the pieces of its text.

* `ScanState.read` : the state after a piece;
* `scanFrom_eq_ok_cases` : a scan that succeeds halts here or reads a piece;
* `scanFrom_read` : a piece that fits is read;
* `scan_error` : a scan that fails says so at a place of its text.
-/
import ComponentDivision.Proofs.Expression.Piece
import ComponentDivision.Proofs.Sequence
import ComponentDivision.Proofs.Wording

namespace ComponentDivision

/-! ## Gaps -/

theorem gap?_eq_blank_iff {c : Char} {cs : Text} :
    gap? c cs = .ok (some .blank) ↔ isBlank c = true := by
  unfold gap?
  constructor
  · intro h
    split at h
    · assumption
    · split at h
      · cases h
      · split at h <;> cases h
      · cases h
  · intro h
    rw [if_pos h]

/-- No gap begins here: the character is not blank, and no comment begins with it. -/
theorem gap?_eq_none_iff {c : Char} {cs : Text} :
    gap? c cs = .ok none ↔
      isBlank c = false ∧ (c = '/' → cs.head? ≠ some '/' ∧ cs.head? ≠ some '*') := by
  unfold gap?
  constructor
  · intro h
    split at h
    · cases h
    · rename_i hblank
      refine ⟨by simpa using hblank, ?_⟩
      split at h
      · cases h
      · split at h <;> cases h
      · rename_i hline hblock
        rintro rfl
        cases cs with
        | nil => simp
        | cons d cs =>
          refine ⟨?_, ?_⟩
          · rintro ⟨⟩
            exact hline cs rfl rfl
          · rintro ⟨⟩
            exact hblock cs rfl rfl
  · rintro ⟨hblank, hslash⟩
    rw [if_neg (by simp [hblank])]
    split
    · exact absurd rfl (hslash rfl).1
    · exact absurd rfl (hslash rfl).2
    · rfl

/-- Whether a piece is a comment. -/
def Piece.isComment : Piece → Bool
  | .lineComment _ | .blockComment _ => true
  | _ => false

/-- A comment that is passed is one of the pieces. -/
theorem exists_comment {c : Char} {cs : Text} {more : Nat}
    (h : gap? c cs = .ok (some (.comment more))) :
    ∃ (p : Piece) (rest : Text), p.isComment = true ∧ c :: cs = p.text ++ rest ∧
      p.text.length = more + 1 ∧ ∀ value, p.Fits value rest := by
  unfold gap? at h
  split at h
  · cases h
  · split at h
    · rename_i line _
      cases h
      obtain ⟨rest, hline, hfree, hrest⟩ := exists_firstLine line
      refine ⟨.lineComment (Text.firstLine line), rest, rfl, ?_, ?_, fun _ => ⟨hfree, hrest⟩⟩
      · simp only [Piece.text, List.cons_append]
        rw [← hline]
      · simp only [Piece.text, List.length_cons]
        omega
    · split at h
      · rename_i n hn
        cases h
        obtain ⟨body, rest, rfl, rfl, hbody⟩ := find?_commentEnd_iff.1 hn
        refine ⟨.blockComment body, rest, rfl, ?_, ?_, fun _ => hbody⟩
        · simp only [Piece.text, List.cons_append, List.append_assoc]
        · simp only [Piece.text, commentEnd, List.length_cons, List.length_append, List.length_nil]
      · cases h
    · cases h

/-- A comment that fits is passed. -/
theorem gap?_of_comment {p : Piece} {value : Bool} {rest : Text} (hp : p.isComment = true)
    (h : p.Fits value rest) :
    ∃ cs, p.text = '/' :: cs ∧ gap? '/' (cs ++ rest) = .ok (some (.comment cs.length)) := by
  have hslash : isBlank '/' = false := by decide
  unfold gap?
  cases p with
  | lineComment body =>
    refine ⟨'/' :: body, rfl, ?_⟩
    simp only [hslash, List.cons_append, firstLine_append h.1 h.2, List.length_cons, Nat.add_comm]
    rfl
  | blockComment body =>
    refine ⟨'*' :: (body ++ commentEnd), rfl, ?_⟩
    have hfind : Text.find? "*/".toList (body ++ (commentEnd ++ rest)) = some body.length :=
      find?_commentEnd_iff.2 ⟨body, rest, rfl, rfl, h⟩
    simp only [hslash, List.cons_append, List.append_assoc, hfind, List.length_cons,
      List.length_append]
    rfl
  | _ => cases hp

/-! ## Tokens -/

/-- A chunk of a template literal that is read. -/
theorem chunkToken_eq_ok_iff {depth : List Bracket} {cs : Text} {t : ScanToken} :
    chunkToken depth cs = .ok t ↔
      ∃ body closed rest, cs = body ++ (chunkEnd closed ++ rest) ∧ ChunkBody closed body ∧
        t = ⟨body.length + (chunkEnd closed).length,
          if closed then depth else .substitution :: depth, closed⟩ := by
  unfold chunkToken
  constructor
  · intro h
    split at h
    · cases h
    · rename_i n hn
      cases h
      obtain ⟨body, rest, rfl, rfl, hbody⟩ := chunkLength_eq_some_iff.1 hn
      exact ⟨body, true, rest, rfl, hbody, rfl⟩
    · rename_i n hn
      cases h
      obtain ⟨body, rest, rfl, rfl, hbody⟩ := chunkLength_eq_some_iff.1 hn
      exact ⟨body, false, rest, rfl, hbody, rfl⟩
  · rintro ⟨body, closed, rest, rfl, hbody, rfl⟩
    rw [chunkLength_eq_some_iff.2 ⟨body, rest, rfl, rfl, hbody⟩]
    cases closed <;> rfl

/-- The characters that open a bracket. -/
theorem ofOpener?_eq_some_iff {c : Char} {b : Bracket} :
    Bracket.ofOpener? c = some b ↔ c = b.opener ∧ b ≠ .substitution := by
  unfold Bracket.ofOpener?
  constructor
  · intro h
    split at h <;> cases h <;> exact ⟨rfl, by decide⟩
  · rintro ⟨rfl, hb⟩
    cases b with
    | substitution => exact absurd rfl hb
    | _ => rfl

/-- A text begins with a piece that fits there, and a token says its length, the brackets that
are open after it and whether it ends a value. -/
def ReadsPiece (s : ScanState) (text : Text) (t : ScanToken) : Prop :=
  ∃ (p : Piece) (rest : Text), p.isGap = false ∧ text = p.text ++ rest ∧
    p.text.length = t.more + 1 ∧ p.Fits s.afterValue rest ∧
    openAfter s.depth p.marks = some t.depth ∧ p.valueAfter s.afterValue = t.afterValue

section ReadsPiece

variable {s : ScanState} {c : Char} {cs : Text} {n : Nat}

theorem readsPiece_word (hblank : isBlank c = false) (hword : isWordChar c = true) :
    ReadsPiece s (c :: cs) ⟨wordLength cs, s.depth,
      !wordsBeforeOperand.contains (c :: cs.takeWhile isWordChar)⟩ := by
  obtain ⟨rest, hcs, hfit⟩ := Piece.exists_word_fits cs hblank hword s.afterValue
  exact ⟨.word (c :: cs.takeWhile isWordChar), rest, rfl, hcs, rfl, hfit, rfl, rfl⟩

theorem readsPiece_string (hquote : c = '\'' ∨ c = '"') (h : stringLength c cs = some n) :
    ReadsPiece s (c :: cs) ⟨n, s.depth, true⟩ := by
  have hc : c ≠ '\\' := by rcases hquote with rfl | rfl <;> decide
  obtain ⟨body, rest, rfl, rfl, hbody⟩ := (stringLength_eq_some_iff hc).1 h
  exact ⟨.string c body, rest, rfl, by simp [Piece.text], by simp [Piece.text], ⟨hquote, hbody⟩,
    rfl, rfl⟩

/-- A chunk begins a template literal, or it resumes one after its substitution. -/
theorem readsPiece_chunk (resumes : Bool) {depth : List Bracket} {t : ScanToken}
    (hc : c = if resumes then '}' else '`')
    (hdepth : s.depth = if resumes then .substitution :: depth else depth)
    (h : (chunkToken depth cs).mapError (fun cause => (cause, 1)) = .ok t) :
    ReadsPiece s (c :: cs) t := by
  have hchunk := Except.mapError_eq_ok_iff.1 h
  obtain ⟨body, closed, rest, rfl, hbody, rfl⟩ := chunkToken_eq_ok_iff.1 hchunk
  refine ⟨.chunk resumes body closed, rest, rfl, by simp [Piece.text, hc], by simp [Piece.text],
    hbody, ?_, rfl⟩
  rw [hdepth]
  cases resumes <;> cases closed <;> rfl

theorem readsPiece_regex (hc : c = '/') (hvalue : s.afterValue = false)
    (hslash : cs.head? ≠ some '/' ∧ cs.head? ≠ some '*') (h : regexLength false cs = some n) :
    ReadsPiece s (c :: cs) ⟨n, s.depth, true⟩ := by
  obtain ⟨body, flags, rest, rfl, rfl, hbody, hflags, hrest⟩ := regexLength_eq_some_iff.1 h
  refine ⟨.regex body flags, rest, rfl, by simp [Piece.text, hc], by simp [Piece.text]; omega,
    ⟨hvalue, ?_, ?_, hbody, hflags, hrest⟩, rfl, rfl⟩
  · rintro rfl
    exact hslash.1 rfl
  · intro hstar
    cases body with
    | nil => cases hstar
    | cons d body => exact hslash.2 hstar

theorem readsPiece_closer {b : Bracket} {depth : List Bracket} (hb : b ≠ .substitution)
    (hdepth : s.depth = b :: depth) : ReadsPiece s (b.closer :: cs) ⟨0, depth, true⟩ := by
  refine ⟨.closer b, cs, rfl, rfl, rfl, hb, ?_, rfl⟩
  rw [hdepth]
  exact if_pos rfl

/-- What is neither a word nor a literal nor a bracket is a single character, or a sign twice
after a value. -/
theorem readsPiece_other (hsingle : Piece.isSingle c = true)
    (hslash : c = '/' → s.afterValue = true ∧ cs.head? ≠ some '/' ∧ cs.head? ≠ some '*') :
    ReadsPiece s (c :: cs)
      (if (c == '+' || c == '-') && s.afterValue && cs.head? == some c then ⟨1, s.depth, true⟩
        else ⟨0, s.depth, false⟩) := by
  split
  · rename_i hsign
    simp only [Bool.and_eq_true, Bool.or_eq_true, beq_iff_eq] at hsign
    obtain ⟨⟨hc, hvalue⟩, hhead⟩ := hsign
    obtain ⟨rest, rfl⟩ := List.head?_eq_some_iff.1 hhead
    exact ⟨.increment c, rest, rfl, rfl, rfl, ⟨hc, hvalue⟩, rfl, rfl⟩
  · rename_i hsign
    refine ⟨.single c, cs, rfl, rfl, rfl, ⟨hsingle, hslash, ?_⟩, rfl, rfl⟩
    intro hc hvalue hhead
    refine hsign ?_
    simp [hc, hvalue, hhead]

end ReadsPiece

/-- **A token that is read is one of the pieces**, and it fits where it stands. -/
theorem readsPiece_of_scanToken {s : ScanState} {c : Char} {cs : Text} {t : ScanToken}
    (hgap : gap? c cs = .ok none) (h : scanToken s c cs = .ok t) : ReadsPiece s (c :: cs) t := by
  obtain ⟨hblank, hslash⟩ := gap?_eq_none_iff.1 hgap
  -- the splits are in the order in which a scan tries the sorts of tokens
  unfold scanToken at h
  split at h
  · rename_i hword
    cases h
    exact readsPiece_word hblank hword
  rename_i hword
  split at h
  · rename_i hquote
    split at h
    · cases h
    · rename_i n hn
      cases h
      exact readsPiece_string (by simpa using hquote) hn
  rename_i hquote
  split at h
  · rename_i hback
    exact readsPiece_chunk false (by simpa using hback) rfl h
  rename_i hback
  split at h
  · rename_i hregex
    obtain ⟨hc, hvalue⟩ : c = '/' ∧ s.afterValue = false := by simpa using hregex
    split at h
    · cases h
    · rename_i n hn
      cases h
      exact readsPiece_regex hc hvalue (hslash hc) hn
  rename_i hregex
  split at h
  · rename_i b hb
    cases h
    obtain ⟨rfl, hsub⟩ := ofOpener?_eq_some_iff.1 hb
    exact ⟨.opener b, cs, rfl, rfl, rfl, hsub, rfl, rfl⟩
  rename_i hopener
  split at h
  · split at h
    · cases h
    · rename_i b depth hdepth
      split at h
      · cases h
      · rename_i hb
        rw [ne_eq, not_not] at hb
        subst hb
        split at h
        · rename_i hsub
          exact readsPiece_chunk true (by rw [hsub]; rfl) (by rw [hdepth, hsub]; rfl) h
        · rename_i hsub
          cases h
          exact readsPiece_closer hsub hdepth
  · rename_i hcloser
    -- no other sort begins with this character: it stands alone or is the first of two signs
    have hopeners : c ≠ '(' ∧ c ≠ '[' ∧ c ≠ '{' := by
      refine ⟨?_, ?_, ?_⟩ <;> rintro rfl <;> cases hopener
    have hsingle : Piece.isSingle c = true := by
      simp only [isCloser, Bool.or_eq_true, beq_iff_eq, not_or] at hcloser hquote hback
      simp [Piece.isSingle, hblank, hword, hopeners, hcloser, hquote, hback]
    have hother : ReadsPiece s (c :: cs) _ :=
      readsPiece_other hsingle fun hc => ⟨by simpa [hc] using hregex, hslash hc⟩
    split at h <;> rename_i hsign <;> cases h
    · rwa [if_pos hsign] at hother
    · rwa [if_neg hsign] at hother

section ScanToken
variable {s : ScanState} {cs : Text}

theorem scanToken_quote {quote : Char} (h : quote = '\'' ∨ quote = '"') {n : Nat}
    (hn : stringLength quote cs = some n) : scanToken s quote cs = .ok ⟨n, s.depth, true⟩ := by
  rcases h with rfl | rfl <;> simp only [scanToken, hn] <;> rfl

theorem scanToken_backquote :
    scanToken s '`' cs = (chunkToken s.depth cs).mapError fun cause => (cause, 1) :=
  rfl

theorem scanToken_slash {n : Nat} (hvalue : s.afterValue = false)
    (hn : regexLength false cs = some n) : scanToken s '/' cs = .ok ⟨n, s.depth, true⟩ := by
  simp only [scanToken, hvalue, hn]
  rfl

theorem scanToken_opener {b : Bracket} (hb : b ≠ .substitution) :
    scanToken s b.opener cs = .ok ⟨0, b :: s.depth, false⟩ := by
  cases b with
  | substitution => exact absurd rfl hb
  | _ => rfl

theorem scanToken_closer {b : Bracket} {depth : List Bracket} (hdepth : s.depth = b :: depth) :
    scanToken s b.closer cs =
      if b = .substitution then (chunkToken depth cs).mapError fun cause => (cause, 1)
      else .ok ⟨0, depth, true⟩ := by
  cases b <;> simp only [scanToken, hdepth] <;> rfl

theorem scanToken_increment {sign : Char} (h : sign = '+' ∨ sign = '-')
    (hvalue : s.afterValue = true) :
    scanToken s sign (sign :: cs) = .ok ⟨1, s.depth, true⟩ := by
  rcases h with rfl | rfl <;> simp only [scanToken, hvalue] <;> rfl

theorem scanToken_word {c : Char} {w rest : Text} (hword : ∀ d ∈ c :: w, isWordChar d = true)
    (hrest : WordEnd rest) :
    scanToken s c (w ++ rest) = .ok ⟨w.length, s.depth, !wordsBeforeOperand.contains (c :: w)⟩ := by
  have htake : (w ++ rest).takeWhile isWordChar = w :=
    takeWhile_isWordChar (fun d hd => hword d (List.mem_cons_of_mem _ hd)) hrest
  rw [scanToken, if_pos (hword c List.mem_cons_self), wordLength, htake]

theorem scanToken_single {c : Char} (hsingle : Piece.isSingle c = true)
    (hslash : c = '/' → s.afterValue = true)
    (hsign : c = '+' ∨ c = '-' → s.afterValue = true → cs.head? ≠ some c) :
    scanToken s c cs = .ok ⟨0, s.depth, false⟩ := by
  simp only [Piece.isSingle, Bool.and_eq_true, Bool.not_eq_true', decide_eq_true_eq,
    List.mem_cons, List.not_mem_nil, or_false, not_or] at hsingle
  obtain ⟨⟨hblank, hword⟩, hq, hqq, hback, hround, hsquare, hcurly, hround', hsquare', hcurly'⟩ :=
    hsingle
  have hopener : Bracket.ofOpener? c = none := by
    unfold Bracket.ofOpener?
    split <;> first | rfl | contradiction
  have hregex : (c == '/' && !s.afterValue) = false := by
    by_cases hc : c = '/'
    · simp [hslash hc]
    · simp [hc]
  have htwice : ((c == '+' || c == '-') && s.afterValue && cs.head? == some c) = false := by
    by_contra h
    simp only [Bool.not_eq_false, Bool.and_eq_true, Bool.or_eq_true, beq_iff_eq] at h
    exact hsign h.1.1 h.1.2 h.2
  simp [scanToken, hword, hq, hqq, hback, hregex, hopener, isCloser, hround', hsquare', hcurly',
    htwice]

end ScanToken

/-- **A token that fits is read.** -/
theorem scanToken_of_fits {s : ScanState} {p : Piece} {rest : Text} {depth : List Bracket}
    (hp : p.isGap = false) (h : p.Fits s.afterValue rest)
    (hdepth : openAfter s.depth p.marks = some depth) :
    ∃ c cs, p.text = c :: cs ∧ gap? c (cs ++ rest) = .ok none ∧
      scanToken s c (cs ++ rest) = .ok ⟨cs.length, depth, p.valueAfter s.afterValue⟩ := by
  cases p with
  | blank c => cases hp
  | lineComment body => cases hp
  | blockComment body => cases hp
  | word w =>
    obtain ⟨hne, hblank, hword, hrest⟩ := h
    cases hdepth
    obtain ⟨c, cs, rfl⟩ := List.exists_cons_of_ne_nil hne
    refine ⟨c, cs, rfl, gap?_eq_none_iff.2 ⟨hblank c rfl, ?_⟩, scanToken_word hword hrest⟩
    rintro rfl
    cases hword '/' List.mem_cons_self
  | string quote body =>
    obtain ⟨hquote, hbody⟩ := h
    cases hdepth
    refine ⟨quote, body ++ [quote], rfl, ?_, scanToken_quote hquote ?_⟩
    · rcases hquote with rfl | rfl <;> rfl
    · rw [stringLength_eq_some_iff (by rcases hquote with rfl | rfl <;> decide)]
      exact ⟨body, rest, by simp, by simp, hbody⟩
  | chunk resumes body closed =>
    have hchunk (d : List Bracket) : chunkToken d (body ++ chunkEnd closed ++ rest) = .ok
        ⟨(body ++ chunkEnd closed).length, if closed then d else .substitution :: d, closed⟩ :=
      chunkToken_eq_ok_iff.2 ⟨body, closed, rest, by simp, h, by simp⟩
    cases resumes with
    | false =>
      refine ⟨'`', body ++ chunkEnd closed, rfl, rfl, ?_⟩
      rw [scanToken_backquote, hchunk]
      cases closed <;> cases hdepth <;> rfl
    | true =>
      obtain ⟨outer, houter, hmarks⟩ := openAfter_closing hdepth
      refine ⟨'}', body ++ chunkEnd closed, rfl, rfl, ?_⟩
      refine (scanToken_closer houter).trans ?_
      rw [if_pos rfl, hchunk]
      cases closed <;> cases hmarks <;> rfl
  | regex body flags =>
    obtain ⟨hvalue, hne, hstar, hbody, hflags, hrest⟩ := h
    cases hdepth
    refine ⟨'/', body ++ '/' :: flags, rfl, gap?_eq_none_iff.2 ⟨by decide, fun _ => ?_⟩,
      scanToken_slash hvalue ?_⟩
    · -- the slash begins no comment: the body is not empty and does not begin with a star
      cases hbody with
      | nil => exact absurd rfl hne
      | plain _ _ _ _ hend _ =>
        refine ⟨?_, by simpa using hstar⟩
        rintro ⟨⟩
        cases hend rfl
      | _ => simp
    · exact regexLength_eq_some_iff.2
        ⟨body, flags, rest, by simp, by simp; omega, hbody, hflags, hrest⟩
  | opener b =>
    cases hdepth
    refine ⟨b.opener, [], rfl, ?_, scanToken_opener h⟩
    cases b <;> rfl
  | closer b =>
    obtain ⟨outer, houter, hmarks⟩ := openAfter_closing hdepth
    cases hmarks
    refine ⟨b.closer, [], rfl, ?_, (scanToken_closer houter).trans (if_neg h)⟩
    cases b <;> rfl
  | increment sign =>
    obtain ⟨hsign, hvalue⟩ := h
    cases hdepth
    refine ⟨sign, [sign], rfl, ?_, scanToken_increment hsign hvalue⟩
    rcases hsign with rfl | rfl <;> rfl
  | single c =>
    obtain ⟨hsingle, hslash, hsign⟩ := h
    cases hdepth
    refine ⟨c, [], rfl, gap?_eq_none_iff.2 ⟨?_, fun hc => (hslash hc).2⟩,
      scanToken_single hsingle (fun hc => (hslash hc).1) hsign⟩
    simp only [Piece.isSingle, Bool.and_eq_true, Bool.not_eq_true'] at hsingle
    exact hsingle.1.1

/-! ## The state after a piece -/

/-- The state after a piece, with the brackets that are open then. -/
def ScanState.read (s : ScanState) (p : Piece) (depth : List Bracket) : ScanState where
  offset := s.offset + p.text.length
  depth := depth
  start := if p.isGap then s.start else some (s.start.getD s.offset)
  stop := if p.isGap then s.stop else s.offset + p.text.length
  afterValue := p.valueAfter s.afterValue
  afterBlank := match p with
    | .blank _ => true
    | _ => false

theorem ScanState.read_blank (s : ScanState) (c : Char) :
    s.read (.blank c) s.depth = s.pass .blank :=
  rfl

theorem ScanState.read_comment (s : ScanState) {p : Piece} (hp : p.isComment = true) {more : Nat}
    (hmore : p.text.length = more + 1) : s.read p s.depth = s.pass (.comment more) := by
  cases p <;> cases hp <;> simp only [ScanState.read, ScanState.pass, hmore] <;> rfl

theorem ScanState.read_token (s : ScanState) {p : Piece} (hp : p.isGap = false) {t : ScanToken}
    (hmore : p.text.length = t.more + 1) (hvalue : p.valueAfter s.afterValue = t.afterValue) :
    s.read p t.depth = s.take t := by
  cases p <;> cases hp <;> simp only [ScanState.read, ScanState.take, hmore, hvalue] <;> rfl

/-- A scan goes on with a piece: it is a gap, or it stands inside a bracket, or it begins with no
terminator and is no stop word after a blank. -/
def Piece.Passes (options : ScanOptions) (s : ScanState) (p : Piece) : Prop :=
  p.isGap = false → s.depth = [] →
    (∀ c ∈ p.text.head?, c ∉ options.terminators) ∧
    ∀ w, p = .word w → s.start.isSome = true → s.afterBlank = true → w ∉ options.stopWords

/-- A scan halts before a character, at a stop word if one is given. -/
structure ScanState.Halts (s : ScanState) (options : ScanOptions) (c : Char) (cs : Text)
    (word : Option Text) : Prop where
  gap : gap? c cs = .ok none
  depth : s.depth = []
  reason : (c ∈ options.terminators ∧ word = none) ∨
    (c ∉ options.terminators ∧ s.start.isSome = true ∧ s.afterBlank = true ∧
      isWordChar c = true ∧ ∃ w, w = c :: cs.takeWhile isWordChar ∧ w ∈ options.stopWords ∧
        word = some w)

theorem stopWord?_eq_some_iff {s : ScanState} {options : ScanOptions} {c : Char} {cs w : Text} :
    s.stopWord? options c cs = some w ↔
      s.depth = [] ∧ s.start.isSome = true ∧ s.afterBlank = true ∧ isWordChar c = true ∧
        w = c :: cs.takeWhile isWordChar ∧ w ∈ options.stopWords := by
  simp only [ScanState.stopWord?]
  split
  · rename_i h
    simp only [Bool.and_eq_true, List.isEmpty_iff, List.contains_iff_mem] at h
    constructor
    · rintro ⟨⟩
      exact ⟨h.1.1.1.1, h.1.1.1.2, h.1.1.2, h.1.2, rfl, h.2⟩
    · rintro ⟨-, -, -, -, rfl, -⟩
      rfl
  · rename_i h
    constructor
    · rintro ⟨⟩
    · rintro ⟨hdepth, hstart, hblank, hc, rfl, hmem⟩
      refine absurd ?_ h
      simp [hdepth, hstart, hblank, hc, hmem]

/-- The scan halts where it may. -/
theorem scanFrom_of_halts {s : ScanState} {options : ScanOptions} {c : Char} {cs : Text}
    {word : Option Text} (h : s.Halts options c cs word) :
    scanFrom options s (c :: cs) = s.halt options word := by
  obtain ⟨hgap, hdepth, ⟨hc, rfl⟩ | ⟨hc, hstart, hblank, hword, w, hw, hmem, rfl⟩⟩ := h
  · unfold scanFrom
    simp [hgap, hdepth, hc]
  · have hstop := stopWord?_eq_some_iff.2 ⟨hdepth, hstart, hblank, hword, hw, hmem⟩
    unfold scanFrom
    simp [hgap, hc, hstop]

/-- A token that begins with a word character is a word. -/
theorem Piece.Fits.eq_word {value : Bool} {rest cs : Text} {p : Piece} {c : Char}
    (h : p.Fits value rest) (hp : p.isGap = false) (htext : p.text = c :: cs)
    (hc : isWordChar c = true) :
    p = .word (c :: cs) ∧ (cs ++ rest).takeWhile isWordChar = cs := by
  have hmark {d : Char} (hd : c = d) (hword : isWordChar d = false) : False := by
    rw [hd, hword] at hc
    cases hc
  cases p with
  | word w =>
    obtain ⟨-, -, hword, hrest⟩ := h
    cases htext
    exact ⟨rfl, takeWhile_isWordChar (fun d hd => hword d (List.mem_cons_of_mem _ hd)) hrest⟩
  | string quote body =>
    cases htext
    rcases h.1 with hquote | hquote
    · exact (hmark hquote rfl).elim
    · exact (hmark hquote rfl).elim
  | chunk resumes body closed =>
    cases htext
    cases resumes
    · exact (hmark rfl rfl).elim
    · exact (hmark rfl rfl).elim
  | regex body flags =>
    cases htext
    exact (hmark rfl rfl).elim
  | opener b =>
    cases htext
    cases b <;> exact (hmark rfl rfl).elim
  | closer b =>
    cases htext
    cases b <;> exact (hmark rfl rfl).elim
  | increment sign =>
    cases htext
    rcases h.1 with hsign | hsign
    · exact (hmark hsign rfl).elim
    · exact (hmark hsign rfl).elim
  | single d =>
    cases htext
    have hsingle := h.1
    simp only [Piece.isSingle, Bool.and_eq_true, Bool.not_eq_true'] at hsingle
    exact (hmark rfl hsingle.1.2).elim
  | _ => cases hp

/-- A piece that is passed is no stop word. -/
theorem Piece.Passes.stopWord?_eq_none {options : ScanOptions} {s : ScanState} {p : Piece}
    {rest cs : Text} {c : Char} (hpass : p.Passes options s) (h : p.Fits s.afterValue rest)
    (hp : p.isGap = false) (htext : p.text = c :: cs) :
    s.stopWord? options c (cs ++ rest) = none := by
  rw [Option.eq_none_iff_forall_ne_some]
  intro w hw
  obtain ⟨hdepth, hstart, hblank, hc, rfl, hmem⟩ := stopWord?_eq_some_iff.1 hw
  obtain ⟨hword, htake⟩ := h.eq_word hp htext hc
  rw [htake] at hmem
  exact (hpass hp hdepth).2 _ hword hstart hblank hmem

/-- A piece that begins where the scan does not halt is passed. -/
theorem Piece.Fits.passes {options : ScanOptions} {s : ScanState} {p : Piece} {rest cs : Text}
    {c : Char} (h : p.Fits s.afterValue rest) (htext : c :: cs = p.text ++ rest)
    (hterm : s.depth = [] → c ∉ options.terminators)
    (hstop : s.stopWord? options c cs = none) : p.Passes options s := by
  intro hp hdepth
  obtain ⟨d, ds, hds⟩ := List.exists_cons_of_ne_nil (Piece.text_ne_nil h)
  rw [hds, List.cons_append] at htext
  cases htext
  refine ⟨?_, ?_⟩
  · rw [hds]
    rintro _ ⟨⟩
    exact hterm hdepth
  · rintro w rfl hstart hblank hmem
    obtain ⟨-, -, hword, hrest⟩ := h
    rw [Piece.text] at hds
    subst hds
    have htake : (ds ++ rest).takeWhile isWordChar = ds :=
      takeWhile_isWordChar (fun d hd => hword d (List.mem_cons_of_mem _ hd)) hrest
    have hw := stopWord?_eq_some_iff.2 ⟨hdepth, hstart, hblank, hword c List.mem_cons_self,
      by rw [htake], hmem⟩
    rw [hstop] at hw
    cases hw

/-- **A piece that fits is read in one step**, unless the scan halts before it. -/
theorem scanFrom_read {options : ScanOptions} {s : ScanState} {p : Piece} {rest : Text}
    {depth : List Bracket} (h : p.Fits s.afterValue rest)
    (hdepth : openAfter s.depth p.marks = some depth) (hpass : p.Passes options s) :
    scanFrom options s (p.text ++ rest) = scanFrom options (s.read p depth) rest := by
  -- a comment is passed whatever is open, since it holds no mark
  have hcomment (hp : p.isComment = true) (hmarks : p.marks = []) :
      scanFrom options s (p.text ++ rest) = scanFrom options (s.read p depth) rest := by
    rw [hmarks] at hdepth
    cases hdepth
    obtain ⟨cs, hcs, hgap⟩ := gap?_of_comment hp h
    rw [s.read_comment hp (by rw [hcs]; rfl), hcs, List.cons_append, scanFrom.eq_def]
    simp only [hgap, List.drop_left]
  cases hp : p.isGap with
  | true =>
    cases p with
    | blank c =>
      cases hdepth
      rw [Piece.text, List.singleton_append, scanFrom.eq_def]
      simp only [gap?_eq_blank_iff.2 h, s.read_blank]
    | lineComment body => exact hcomment rfl rfl
    | blockComment body => exact hcomment rfl rfl
    | _ => cases hp
  | false =>
    obtain ⟨c, cs, hcs, hgap, htoken⟩ := scanToken_of_fits hp h hdepth
    have hhalt : (s.depth.isEmpty && options.terminators.contains c) = false := by
      by_contra hhalt
      simp only [Bool.not_eq_false, Bool.and_eq_true, List.isEmpty_iff,
        List.contains_iff_mem] at hhalt
      exact (hpass hp hhalt.1).1 c (by rw [hcs]; rfl) hhalt.2
    rw [hcs, List.cons_append, scanFrom.eq_def]
    simp only [hgap, hhalt, hpass.stopWord?_eq_none h hp hcs, htoken, List.drop_left]
    rw [← s.read_token hp (by rw [hcs]; rfl) rfl]
    rfl

/-- **What a scan that succeeds does first**: it halts, or it reads a piece and goes on. -/
theorem scanFrom_eq_ok_cases {options : ScanOptions} {s : ScanState} {t : Text} {r : Scan}
    (h : scanFrom options s t = .ok r) :
    (∃ c cs word, t = c :: cs ∧ s.Halts options c cs word ∧ s.halt options word = .ok r) ∨
    ∃ (p : Piece) (rest : Text) (depth : List Bracket), t = p.text ++ rest ∧
      p.Fits s.afterValue rest ∧ openAfter s.depth p.marks = some depth ∧
      p.Passes options s ∧ scanFrom options (s.read p depth) rest = .ok r := by
  cases t with
  | nil =>
    unfold scanFrom at h
    cases h
  | cons c cs =>
    unfold scanFrom at h
    split at h
    · cases h
    · rename_i hgap
      refine .inr ⟨.blank c, cs, s.depth, rfl, gap?_eq_blank_iff.1 hgap, rfl, ?_, h⟩
      intro hnotGap
      cases hnotGap
    · rename_i more hgap
      obtain ⟨p, rest, hp, htext, hmore, hfit⟩ := exists_comment hgap
      have hrest : cs.drop more = rest := by
        rw [← List.drop_succ_cons, htext, ← hmore, List.drop_left]
      rw [hrest, ← s.read_comment hp hmore] at h
      refine .inr ⟨p, rest, s.depth, htext, hfit _, ?_, ?_, h⟩
      · cases p <;> cases hp <;> rfl
      · intro hgap
        cases p <;> cases hp <;> cases hgap
    · rename_i hgap
      split at h
      · rename_i hhalt
        simp only [Bool.and_eq_true, List.isEmpty_iff, List.contains_iff_mem] at hhalt
        exact .inl ⟨c, cs, none, rfl, ⟨hgap, hhalt.1, .inl ⟨hhalt.2, rfl⟩⟩, h⟩
      · rename_i hhalt
        simp only [Bool.and_eq_true, List.isEmpty_iff, List.contains_iff_mem, not_and] at hhalt
        split at h
        · rename_i w hw
          obtain ⟨hdepth, hstart, hblank, hc, hword, hmem⟩ := stopWord?_eq_some_iff.1 hw
          exact .inl ⟨c, cs, some w, rfl,
            ⟨hgap, hdepth, .inr ⟨hhalt hdepth, hstart, hblank, hc, w, hword, hmem, rfl⟩⟩, h⟩
        · rename_i hw
          split at h
          · cases h
          · rename_i token htoken
            obtain ⟨p, rest, hp, htext, hmore, hfit, hdepth, hvalue⟩ :=
              readsPiece_of_scanToken hgap htoken
            have hrest : cs.drop token.more = rest := by
              rw [← List.drop_succ_cons, htext, ← hmore, List.drop_left]
            rw [hrest, ← s.read_token hp hmore hvalue] at h
            exact .inr ⟨p, rest, token.depth, htext, hfit, hdepth,
              hfit.passes htext hhalt hw, h⟩

/-! ## Scans that fail -/

/-- A token that is not read is reported at its first character or at the next one, with a cause
that quotes nothing. -/
theorem scanToken_error {s : ScanState} {c : Char} {cs : Text} {cause : Cause} {n : Nat}
    (h : scanToken s c cs = .error (cause, n)) : n ≤ 1 ∧ cause.quotes = [] := by
  have hchunk {depth : List Bracket}
      (h : (chunkToken depth cs).mapError (fun cause => (cause, 1)) = .error (cause, n)) :
      n ≤ 1 ∧ cause.quotes = [] := by
    unfold chunkToken at h
    split at h
    · cases h
      exact ⟨Nat.le_refl 1, rfl⟩
    · cases h
    · cases h
  unfold scanToken at h
  split at h
  · cases h
  split at h
  · split at h <;> cases h
    exact ⟨Nat.zero_le 1, rfl⟩
  split at h
  · exact hchunk h
  split at h
  · split at h <;> cases h
    exact ⟨Nat.zero_le 1, rfl⟩
  split at h
  · cases h
  split at h
  · split at h
    · cases h
      exact ⟨Nat.zero_le 1, rfl⟩
    · split at h
      · cases h
        exact ⟨Nat.zero_le 1, rfl⟩
      · split at h
        · exact hchunk h
        · cases h
  · split at h <;> cases h

/-- A comment that does not end is reported with a cause that quotes nothing. -/
theorem gap?_error {c : Char} {cs : Text} {cause : Cause} (h : gap? c cs = .error cause) :
    cause.quotes = [] := by
  unfold gap? at h
  split at h
  · cases h
  · split at h
    · cases h
    · split at h <;> cases h
      rfl
    · cases h

/-- A scan that halts too early says so where it halts. -/
theorem ScanState.halt_error {s : ScanState} {options : ScanOptions} {w : Option Text} {m : Misread}
    (h : s.halt options w = .error m) : m = ⟨.unexpectedToken, s.offset⟩ := by
  unfold ScanState.halt at h
  split at h
  · cases h
  · split at h <;> cases h
    rfl

/-- Going on from a state fails inside the text, with a cause that quotes nothing. -/
theorem scanFrom_error {options : ScanOptions} {s : ScanState} {t : Text} {m : Misread}
    (h : scanFrom options s t = .error m) :
    m.position ≤ s.offset + t.length ∧ m.cause.quotes = [] := by
  fun_induction scanFrom options s t with
  | case1 =>
    cases h
    exact ⟨Nat.le_add_right _ _, rfl⟩
  | case2 s c cs cause hgap =>
    cases h
    exact ⟨Nat.le_add_right _ _, gap?_error hgap⟩
  | case3 s c cs _ ih =>
    obtain ⟨hle, hquotes⟩ := ih h
    refine ⟨?_, hquotes⟩
    simp only [ScanState.pass] at hle
    simp only [List.length_cons]
    omega
  | case4 s c cs more hgap ih =>
    obtain ⟨hle, hquotes⟩ := ih h
    refine ⟨?_, hquotes⟩
    simp only [ScanState.pass, List.length_drop] at hle
    -- the comment is a part of what is left, so the bound stays where it was
    obtain ⟨p, rest, -, htext, hmore, -⟩ := exists_comment hgap
    have hlen := congrArg List.length htext
    simp only [List.length_cons, List.length_append] at hlen ⊢
    omega
  | case5 s c cs _ _ =>
    rw [ScanState.halt_error h]
    exact ⟨Nat.le_add_right _ _, rfl⟩
  | case6 s c cs _ _ w _ =>
    rw [ScanState.halt_error h]
    exact ⟨Nat.le_add_right _ _, rfl⟩
  | case7 s c cs _ _ _ cause n htoken =>
    cases h
    obtain ⟨hn, hquotes⟩ := scanToken_error htoken
    refine ⟨?_, hquotes⟩
    simp only [List.length_cons]
    omega
  | case8 s c cs hgap _ _ token htoken ih =>
    obtain ⟨hle, hquotes⟩ := ih h
    refine ⟨?_, hquotes⟩
    simp only [ScanState.take, List.length_drop] at hle
    obtain ⟨p, rest, -, htext, hmore, -⟩ := readsPiece_of_scanToken hgap htoken
    have hlen := congrArg List.length htext
    simp only [List.length_cons, List.length_append] at hlen ⊢
    omega

/-- **A scan that fails says so at a place of the text**, or at its end, and it quotes nothing. -/
theorem scan_error {options : ScanOptions} {t : Text} {m : Misread}
    (h : scan options t = .error m) : m.position ≤ t.length ∧ m.cause.quotes = [] := by
  have herror := scanFrom_error h
  simpa using herror

end ComponentDivision
