/-
# The literals of a script

What a string, a chunk of a template literal and a regular expression consist of up to
their ends, and that the lengths that a scan computes are the lengths of such texts. A
backslash hides the character after it in each of them.

* `StringBody`, `ChunkBody`, `RegexBody` : what stands before the end of a literal;
* `stringLength_eq_some_iff`, `chunkLength_eq_some_iff`, `regexLength_eq_some_iff` : a
  length is that of a literal at the front of the text;
* `find?_commentEnd_iff` : the same of a comment.
-/
import Mathlib
import ComponentDivision.Expression.Scan
import ComponentDivision.Proofs.Text.Search

namespace ComponentDivision

/-! ## Words -/

/-- What comes after a run of characters does not go on with it. -/
theorem eq_false_of_head?_dropWhile {p : Char → Bool} {t : Text} {c : Char}
    (h : (t.dropWhile p).head? = some c) : p c = false := by
  have hfirst := List.head?_dropWhile_not p t
  rw [h] at hfirst
  simpa using hfirst

/-- No word goes on here. -/
def WordEnd (rest : Text) : Prop :=
  ∀ c ∈ rest.head?, isWordChar c = false

/-- The characters of a word, up to where it ends. -/
theorem takeWhile_isWordChar {w rest : Text} (hw : ∀ c ∈ w, isWordChar c = true)
    (hrest : WordEnd rest) : (w ++ rest).takeWhile isWordChar = w := by
  rw [List.takeWhile_append_of_pos hw]
  cases rest with
  | nil => rw [List.takeWhile_nil, List.append_nil]
  | cons c cs => rw [List.takeWhile_cons_of_neg (by simp [hrest c rfl]), List.append_nil]

/-- A text is a word and what comes after it. -/
theorem exists_word (t : Text) : ∃ rest, t = t.takeWhile isWordChar ++ rest ∧ WordEnd rest := by
  refine ⟨t.dropWhile isWordChar, List.takeWhile_append_dropWhile.symm, fun c hc => ?_⟩
  exact eq_false_of_head?_dropWhile hc

/-! ## Strings -/

/-- What stands between the quotes of a string: no quote and no line feed, unless it is
hidden. -/
inductive StringBody (quote : Char) : Text → Prop
  | nil : StringBody quote []
  | escape (c : Char) {t : Text} (ht : StringBody quote t) : StringBody quote ('\\' :: c :: t)
  | plain {c : Char} {t : Text} (hslash : c ≠ '\\') (hquote : c ≠ quote) (hline : c ≠ '\n')
      (ht : StringBody quote t) : StringBody quote (c :: t)

/-- The length of a string is that of a body and a quote. -/
theorem stringLength_eq_some_iff {quote : Char} (hquote : quote ≠ '\\') {t : Text} {n : Nat} :
    stringLength quote t = some n ↔
      ∃ body rest, t = body ++ quote :: rest ∧ n = body.length + 1 ∧ StringBody quote body := by
  constructor
  · intro h
    fun_induction stringLength quote t generalizing n with
    | case1 => cases h
    | case2 c cs ih =>
      obtain ⟨m, hm, rfl⟩ := Option.map_eq_some_iff.1 h
      obtain ⟨body, rest, rfl, rfl, hbody⟩ := ih hm
      exact ⟨'\\' :: c :: body, rest, rfl, rfl, .escape c hbody⟩
    | case3 cs =>
      cases h
      exact ⟨[], cs, rfl, rfl, .nil⟩
    | case4 => cases h
    | case5 c cs hslash hc hline ih =>
      obtain ⟨m, hm, rfl⟩ := Option.map_eq_some_iff.1 h
      obtain ⟨body, rest, rfl, rfl, hbody⟩ := ih hm
      refine ⟨c :: body, rest, rfl, rfl, .plain ?_ hc hline hbody⟩
      rintro rfl
      cases body with
      | nil => exact hslash quote rest rfl rfl
      | cons d body => exact hslash d (body ++ quote :: rest) rfl rfl
  · rintro ⟨body, rest, rfl, rfl, hbody⟩
    induction hbody with
    | nil =>
      rw [List.nil_append, stringLength, if_pos rfl]
      · rfl
      · intro _ _ h
        exact absurd h hquote
    | escape c _ ih =>
      rw [List.cons_append, List.cons_append, stringLength, ih]
      rfl
    | plain hslash hc hline _ ih =>
      rw [List.cons_append, stringLength, if_neg hc, if_neg hline, ih]
      · rfl
      · intro _ _ h
        exact absurd h hslash

/-! ## Template literals -/

/-- What ends a chunk of a template literal: the literal's own end, or the beginning of a
substitution. -/
def chunkEnd (closed : Bool) : Text :=
  if closed then ['`'] else ['$', '{']

/-- What stands in a chunk of a template literal before its end: neither kind of end,
unless it is hidden. -/
inductive ChunkBody (closed : Bool) : Text → Prop
  | nil : ChunkBody closed []
  | escape (c : Char) {t : Text} (ht : ChunkBody closed t) : ChunkBody closed ('\\' :: c :: t)
  | plain {c : Char} {t : Text} (hslash : c ≠ '\\') (hend : c ≠ '`')
      (hopen : c = '$' → (t ++ chunkEnd closed).head? ≠ some '{')
      (ht : ChunkBody closed t) : ChunkBody closed (c :: t)

theorem head?_append_chunkEnd (closed : Bool) (t rest : Text) :
    (t ++ (chunkEnd closed ++ rest)).head? = (t ++ chunkEnd closed).head? := by
  cases t with
  | nil => cases closed <;> rfl
  | cons c t => rfl

/-- The length of a chunk is that of a body and its end. -/
theorem chunkLength_eq_some_iff {t : Text} {n : Nat} {closed : Bool} :
    chunkLength t = some (n, closed) ↔
      ∃ body rest, t = body ++ (chunkEnd closed ++ rest) ∧
        n = body.length + (chunkEnd closed).length ∧ ChunkBody closed body := by
  constructor
  · intro h
    fun_induction chunkLength t generalizing n with
    | case1 => cases h
    | case2 c cs ih =>
      obtain ⟨⟨m, b⟩, hm, heq⟩ := Option.map_eq_some_iff.1 h
      cases heq
      obtain ⟨body, rest, rfl, rfl, hbody⟩ := ih hm
      exact ⟨'\\' :: c :: body, rest, rfl, by simp only [List.length_cons]; omega, .escape c hbody⟩
    | case3 cs =>
      cases h
      exact ⟨[], cs, rfl, rfl, .nil⟩
    | case4 cs =>
      cases h
      exact ⟨[], cs, rfl, rfl, .nil⟩
    | case5 c cs hslash hend hopen ih =>
      obtain ⟨⟨m, b⟩, hm, heq⟩ := Option.map_eq_some_iff.1 h
      cases heq
      obtain ⟨body, rest, rfl, rfl, hbody⟩ := ih hm
      refine ⟨c :: body, rest, rfl, by simp only [List.length_cons]; omega,
        .plain ?_ hend ?_ hbody⟩
      · rintro rfl
        cases body with
        | nil => cases closed <;> exact hslash _ _ rfl rfl
        | cons d body => exact hslash d _ rfl rfl
      · intro hc hhead
        rw [← head?_append_chunkEnd closed body rest, List.head?_eq_some_iff] at hhead
        obtain ⟨cs, hcs⟩ := hhead
        exact hopen cs hc hcs
  · rintro ⟨body, rest, rfl, rfl, hbody⟩
    induction hbody with
    | nil => cases closed <;> rfl
    | escape c _ ih =>
      rw [List.cons_append, List.cons_append, chunkLength, ih]
      simp only [Option.map_some, List.length_cons, Option.some.injEq, Prod.mk.injEq, and_true]
      omega
    | @plain c t hslash hend hopen _ ih =>
      rw [List.cons_append, chunkLength, ih]
      · simp only [Option.map_some, List.length_cons, Option.some.injEq, Prod.mk.injEq, and_true]
        omega
      · intro _ _ h
        exact absurd h hslash
      · exact hend
      · intro cs hc hcs
        refine hopen hc ?_
        rw [← head?_append_chunkEnd closed t rest, hcs]
        rfl

/-! ## Regular expressions -/

/-- What stands in a regular expression before the slash that ends it, inside a character
class or outside: a slash only inside a class, unless it is hidden. -/
inductive RegexBody : Bool → Text → Prop
  | nil : RegexBody false []
  | escape (c : Char) {inClass : Bool} {t : Text} (ht : RegexBody inClass t) :
      RegexBody inClass ('\\' :: c :: t)
  | enter {inClass : Bool} {t : Text} (ht : RegexBody true t) : RegexBody inClass ('[' :: t)
  | leave {inClass : Bool} {t : Text} (ht : RegexBody false t) : RegexBody inClass (']' :: t)
  | plain {c : Char} {inClass : Bool} {t : Text} (hslash : c ≠ '\\') (hline : c ≠ '\n')
      (henter : c ≠ '[') (hleave : c ≠ ']') (hend : c = '/' → inClass = true)
      (ht : RegexBody inClass t) : RegexBody inClass (c :: t)

/-- A body, a slash and flags stand at the front of a text, and they have this length together. -/
def RegexFront (inClass : Bool) (t : Text) (n : Nat) : Prop :=
  ∃ body flags rest, t = body ++ '/' :: (flags ++ rest) ∧ n = body.length + 1 + flags.length ∧
    RegexBody inClass body ∧ (∀ c ∈ flags, isWordChar c = true) ∧ WordEnd rest

/-- The body may have more in front. -/
theorem RegexFront.extend {inClass inClass' : Bool} {t : Text} {n : Nat}
    (h : RegexFront inClass t n) (front : Text)
    (hfront : ∀ {body}, RegexBody inClass body → RegexBody inClass' (front ++ body)) :
    RegexFront inClass' (front ++ t) (n + front.length) := by
  obtain ⟨body, flags, rest, rfl, rfl, hbody, hflags⟩ := h
  refine ⟨front ++ body, flags, rest, (List.append_assoc ..).symm, ?_, hfront hbody, hflags⟩
  rw [List.length_append]
  omega

/-- What is taken for a regular expression is one. -/
theorem regexFront_of_regexLength {inClass : Bool} {t : Text} {n : Nat}
    (h : regexLength inClass t = some n) : RegexFront inClass t n := by
  fun_induction regexLength inClass t generalizing n with
  | case1 => cases h
  | case2 inClass c cs ih =>
    obtain ⟨m, hm, rfl⟩ := Option.map_eq_some_iff.1 h
    exact (ih hm).extend ['\\', c] fun hbody => .escape c hbody
  | case3 => cases h
  | case4 inClass cs ih =>
    obtain ⟨m, hm, rfl⟩ := Option.map_eq_some_iff.1 h
    exact (ih hm).extend ['['] fun hbody => .enter hbody
  | case5 inClass cs ih =>
    obtain ⟨m, hm, rfl⟩ := Option.map_eq_some_iff.1 h
    exact (ih hm).extend [']'] fun hbody => .leave hbody
  | case6 cs ih =>
    obtain ⟨m, hm, rfl⟩ := Option.map_eq_some_iff.1 h
    exact (ih hm).extend ['/'] fun hbody =>
      .plain (by decide) (by decide) (by decide) (by decide) (fun _ => rfl) hbody
  | case7 inClass cs hclass =>
    cases h
    obtain ⟨rest, hcs, hrest⟩ := exists_word cs
    rw [Bool.not_eq_true] at hclass
    subst hclass
    exact ⟨[], cs.takeWhile isWordChar, rest, by rw [← hcs]; rfl,
      by simp only [List.length_nil, wordLength], .nil,
      fun c hc => List.mem_takeWhile_imp hc, hrest⟩
  | case8 inClass c cs hslash hline henter hleave hend ih =>
    obtain ⟨m, hm, rfl⟩ := Option.map_eq_some_iff.1 h
    have hfront := ih hm
    have hplain : c ≠ '\\' := by
      obtain ⟨body, flags, rest, rfl, -⟩ := hfront
      rintro rfl
      cases body with
      | nil => exact hslash _ _ rfl rfl
      | cons d body => exact hslash d _ rfl rfl
    exact hfront.extend [c] fun hbody =>
      .plain hplain hline henter hleave (fun hc => absurd hc hend) hbody

/-- A regular expression is taken for one, with all its flags. -/
theorem regexLength_append {inClass : Bool} {body flags rest : Text}
    (hbody : RegexBody inClass body) (hflags : ∀ c ∈ flags, isWordChar c = true)
    (hrest : WordEnd rest) :
    regexLength inClass (body ++ '/' :: (flags ++ rest))
      = some (1 + flags.length + body.length) := by
  induction hbody with
  | nil =>
    rw [List.nil_append, regexLength, if_neg (by decide), wordLength,
      takeWhile_isWordChar hflags hrest]
    rfl
  | escape c _ ih =>
    rw [List.cons_append, List.cons_append, regexLength, ih]
    rfl
  | enter _ ih =>
    rw [List.cons_append, regexLength, ih]
    rfl
  | leave _ ih =>
    rw [List.cons_append, regexLength, ih]
    rfl
  | @plain c inClass t hslash hline henter hleave hend _ ih =>
    by_cases hc : c = '/'
    · rw [hc, List.cons_append, regexLength, if_pos (hend hc), ih]
      rfl
    · rw [List.cons_append, regexLength, ih]
      · rfl
      · intro _ _ h
        exact absurd h hslash
      · exact hline
      · exact henter
      · exact hleave
      · exact hc

/-- The length of a regular expression is that of a body, a slash and flags. -/
theorem regexLength_eq_some_iff {inClass : Bool} {t : Text} {n : Nat} :
    regexLength inClass t = some n ↔
      ∃ body flags rest, t = body ++ '/' :: (flags ++ rest) ∧
        n = body.length + 1 + flags.length ∧ RegexBody inClass body ∧
        (∀ c ∈ flags, isWordChar c = true) ∧ WordEnd rest := by
  refine ⟨regexFront_of_regexLength, ?_⟩
  rintro ⟨body, flags, rest, rfl, rfl, hbody, hflags, hrest⟩
  rw [regexLength_append hbody hflags hrest]
  congr 1
  omega

/-! ## Comments -/

/-- A text is a line and what comes after it. -/
theorem exists_firstLine (t : Text) :
    ∃ rest, t = t.firstLine ++ rest ∧ '\n' ∉ t.firstLine ∧ ∀ c ∈ rest.head?, c = '\n' := by
  refine ⟨t.dropWhile (· != '\n'), List.takeWhile_append_dropWhile.symm, fun hmem => ?_,
    fun c hc => ?_⟩
  · have := List.mem_takeWhile_imp hmem
    simp at this
  · have hfirst := eq_false_of_head?_dropWhile hc
    simpa using hfirst

/-- The characters of a line, up to where it ends. -/
theorem firstLine_append {line rest : Text} (hline : '\n' ∉ line)
    (hrest : ∀ c ∈ rest.head?, c = '\n') : (line ++ rest).firstLine = line := by
  unfold Text.firstLine
  rw [List.takeWhile_append_of_pos (by
    intro c hc
    rw [bne_iff_ne]
    rintro rfl
    exact hline hc)]
  cases rest with
  | nil => rw [List.takeWhile_nil, List.append_nil]
  | cons c cs => rw [List.takeWhile_cons_of_neg (by simp [hrest c rfl]), List.append_nil]

/-- What ends a comment of several lines. -/
def commentEnd : Text :=
  ['*', '/']

/-- What stands in a comment before its end: no end, nor the first half of one that the end
completes. -/
def CommentBody (body : Text) : Prop :=
  ¬ commentEnd <:+: body ++ ['*']

/-- An end of a comment before the end of this body is an end inside the body. -/
theorem commentEnd_prefix_drop {body rest : Text} {i : Nat} (hi : i < body.length) :
    commentEnd <+: (body ++ (commentEnd ++ rest)).drop i ↔
      commentEnd <+: (body ++ ['*']).drop i := by
  rw [List.drop_append_of_le_length (Nat.le_of_lt hi),
    List.drop_append_of_le_length (Nat.le_of_lt hi)]
  rw [List.drop_eq_getElem_cons hi]
  cases body.drop (i + 1) with
  | nil => simp [commentEnd, List.cons_prefix_cons]
  | cons c cs => simp [commentEnd, List.cons_prefix_cons]

/-- The first end of a comment stands after a body. -/
theorem find?_commentEnd_iff {t : Text} {n : Nat} :
    Text.find? commentEnd t = some n ↔
      ∃ body rest, t = body ++ (commentEnd ++ rest) ∧ n = body.length ∧ CommentBody body := by
  rw [Text.find?_eq_some_iff]
  constructor
  · rintro ⟨⟨rest, hrest⟩, hmin⟩
    have hlen : n ≤ t.length := by
      by_contra hgt
      rw [List.drop_eq_nil_of_le (by omega)] at hrest
      cases hrest
    have ht : t = t.take n ++ (commentEnd ++ rest) := by rw [hrest, List.take_append_drop]
    refine ⟨t.take n, rest, ht, (List.length_take_of_le hlen).symm, ?_⟩
    rintro ⟨a, b, hab⟩
    have ha : a.length < (t.take n).length := by
      have := congrArg List.length hab
      simp only [commentEnd, List.length_append, List.length_cons, List.length_nil] at this
      omega
    refine hmin a.length (by rwa [List.length_take_of_le hlen] at ha) ?_
    rw [ht, commentEnd_prefix_drop ha, ← hab, List.append_assoc, List.drop_left]
    exact List.prefix_append _ _
  · rintro ⟨body, rest, rfl, rfl, hbody⟩
    refine ⟨by rw [List.drop_left]; exact List.prefix_append _ _, fun i hi hpre => hbody ?_⟩
    rw [commentEnd_prefix_drop hi] at hpre
    exact hpre.isInfix.trans (List.drop_suffix i _).isInfix

end ComponentDivision
