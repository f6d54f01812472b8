/-
# Await blocks that begin in a later branch

The opener of an await block may name the branch with which the block begins; otherwise it begins
with its pending branch, and a tag names the next one. Where nothing is in the pending branch the
two ways of writing are the same.

* `awaitShort`, `awaitLong` : the two ways of writing;
* `run_short`, `run_long` : what is open after the first branch has been named;
* `parseTemplate_await_shorthand` : the same templates are accepted, with the same expressions.
-/
import ComponentDivision.Proofs.Template.FirstBlock
import ComponentDivision.Proofs.Template.Opener
import ComponentDivision.Proofs.Template.Shape
import ComponentDivision.Proofs.Template.Transfer

namespace ComponentDivision

/-- An await block whose opener names its first branch. -/
def awaitShort (keyword e rest : Text) : Text :=
  ['{', '#', 'a', 'w', 'a', 'i', 't', ' '] ++ e ++ [' '] ++ keyword ++ rest

/-- An await block whose first branch is named by a tag of its own. -/
def awaitLong (keyword e rest : Text) : Text :=
  ['{', '#', 'a', 'w', 'a', 'i', 't', ' '] ++ e ++ ['}', '{', ':'] ++ keyword ++ rest

/-- The fragment, so many characters later. -/
def Fragment.shift (n : Int) (f : Fragment) : Fragment :=
  { f with startChar := f.startChar + n, endChar := f.endChar + n }

/-- The words that end the guard of an await block. -/
def awaitWords : List Text :=
  ["then".toList, "catch".toList]

/-- The keyword of a branch that an opener may name. -/
inductive AwaitKeyword : BranchKind → Text → Prop
  | thenBlock : AwaitKeyword .thenBlock "then".toList
  | catchBlock : AwaitKeyword .catchBlock "catch".toList

theorem AwaitKeyword.all_isLower {b : BranchKind} {keyword : Text} (h : AwaitKeyword b keyword) :
    keyword.all Char.isLower = true := by
  cases h with
  | thenBlock => rfl
  | catchBlock => rfl

/-- Inside an await block that stands in `st`: its branch `b` is open, which begins at `start`. -/
def Stack.inAwait (st : Stack) (x : Expression) (pending : Node) (b : BranchKind)
    (pattern : Option Text) (start : Nat) : Stack :=
  (st.push
    { label := Label.setPattern { kind := .awaitBlock, start := 0, expression := some x } b pattern
      pendingBlock := some pending
      thenBlock := some (.unwritten .thenBlock)
      catchBlock := some (.unwritten .catchBlock) }).push (.branch b start)

namespace Reader

variable {ctx : Context} {st st' : Stack} {c d : Cursor} {b : BranchKind} {k e r : Text}

/-- A pattern, or none, up to a closing brace. -/
def patternEnd (ctx : Context) : Reader (Option Text) := do
  let pattern ← readPattern ctx ['}']
  expect ['}']
  return pattern

/-- What is made of a pattern. -/
theorem patternEnd_map_eq_ok {α : Type} {f : Option Text → α} {a : α} :
    (do
      let pattern ← readPattern ctx ['}']
      expect ['}']
      return f pattern : Reader α) c = .ok (a, d) ↔
      ∃ p, patternEnd ctx c = .ok (p, d) ∧ a = f p := by
  simp only [patternEnd, bind_eq_ok, pure_eq_ok]
  constructor
  · rintro ⟨p, c₁, hp, u, c₂, hu, rfl, rfl⟩
    exact ⟨p, ⟨p, c₁, hp, u, c₂, hu, rfl, rfl⟩, rfl⟩
  · rintro ⟨p, ⟨_, c₁, hp, u, c₂, hu, rfl, rfl⟩, rfl⟩
    exact ⟨_, c₁, hp, u, c₂, hu, rfl, rfl⟩

/-! ## The first branch in the opener -/

/-- The guard of an await block, before the keyword of a branch. -/
theorem scan_keyword (hk : AwaitKeyword b k) (he : ScannedWhole awaitWords e) (hr : WordEnd r) :
    scan { stopWords := awaitWords } (e ++ ' ' :: (k ++ r))
      = .ok ⟨0, e.length, e.length + 1, some k⟩ := by
  cases hk with
  | thenBlock => exact he.scan_stopWord (by decide) (by decide) (List.all_eq_true.1 rfl) hr
  | catchBlock => exact he.scan_stopWord (by decide) (by decide) (List.all_eq_true.1 rfl) hr

theorem awaitBlock_short (hk : AwaitKeyword b k) (he : ScannedWhole awaitWords e)
    (hr : WordEnd r) :
    awaitBlock ctx 0 st ⟨8, e ++ ' ' :: (k ++ r)⟩ = .ok (st', d) ↔
      ctx.grammar.expression e = .accepted ∧
        ∃ p, patternEnd ctx ⟨8 + (e.length + 1) + k.length, r⟩ = .ok (p, d) ∧
          st' = st.inAwait (ctx.place 8 (8 + e.length)) (.unwritten .pendingBlock) b p
            (8 + (e.length + 1)) := by
  have hend : (Cursor.mk 8 (e ++ ' ' :: (k ++ r))).advance (e.length + 1)
      = ⟨8 + (e.length + 1), k ++ r⟩ := by
    rw [Cursor.advance, ← List.drop_drop, List.drop_left]
    rfl
  unfold awaitBlock
  rw [bind_eq_ok]
  constructor
  · rintro ⟨x, c, hx, h⟩
    obtain ⟨haccepted, rfl, rfl⟩ := (readExpressionAt_eq_ok (scan_keyword hk he hr)).1 hx
    rw [hend] at h
    refine ⟨haccepted, ?_⟩
    cases hk with
    | thenBlock => exact patternEnd_map_eq_ok.1 h
    | catchBlock => exact patternEnd_map_eq_ok.1 h
  · rintro ⟨haccepted, h⟩
    refine ⟨_, _, (readExpressionAt_eq_ok (scan_keyword hk he hr)).2 ⟨haccepted, rfl, rfl⟩, ?_⟩
    rw [hend]
    cases hk with
    | thenBlock => exact patternEnd_map_eq_ok.2 h
    | catchBlock => exact patternEnd_map_eq_ok.2 h

/-! ## The first branch after the opener -/

theorem awaitBlock_long (he : ScannedWhole awaitWords e) :
    awaitBlock ctx 0 st ⟨8, e ++ '}' :: r⟩ = .ok (st', d) ↔
      ctx.grammar.expression e = .accepted ∧
        st' = st.inAwait (ctx.place 8 (8 + e.length)) (.unwritten .pendingBlock) .pendingBlock none
          (8 + e.length) ∧
        d = ⟨8 + e.length + 1, r⟩ := by
  have hend : (Cursor.mk 8 (e ++ '}' :: r)).advance e.length = ⟨8 + e.length, '}' :: r⟩ := by
    rw [Cursor.advance, List.drop_left]
  unfold awaitBlock
  rw [bind_eq_ok]
  constructor
  · rintro ⟨x, c, hx, h⟩
    obtain ⟨haccepted, rfl, rfl⟩ := (readExpressionAt_eq_ok (he.scan_brace r)).1 hx
    rw [hend] at h
    cases h
    exact ⟨haccepted, rfl, rfl⟩
  · rintro ⟨haccepted, rfl, rfl⟩
    refine ⟨_, _, (readExpressionAt_eq_ok (he.scan_brace r)).2 ⟨haccepted, rfl, rfl⟩, ?_⟩
    rw [hend]
    rfl

/-- A lower case letter goes on with a word. -/
theorem isWordChar_of_lower {ch : Char} (h : ch.isLower = true) : isWordChar ch = true := by
  simp [isWordChar, Char.isAlphanum, Char.isAlpha, h]

/-- No lower case letter comes next, so that a keyword ends here. -/
def KeywordEnd (r : Text) : Prop :=
  ∀ ch ∈ r.head?, ch.isLower = false

/-- Where a word ends a keyword ends too. -/
theorem keywordEnd_of_wordEnd (h : WordEnd r) : KeywordEnd r := by
  intro ch hch
  by_contra hlower
  cases (isWordChar_of_lower (Bool.not_eq_false _ ▸ hlower)).symm.trans (h ch hch)

/-- A keyword is read up to where it ends. -/
theorem word_eq (hk : k.all Char.isLower = true) (hr : KeywordEnd r) (n : Nat) :
    word ⟨n, k ++ r⟩ = .ok (k, ⟨n + k.length, r⟩) := by
  have hstop : r.takeWhile Char.isLower = [] := by
    cases r with
    | nil => rfl
    | cons ch cs => exact List.takeWhile_cons_of_neg (by rw [hr ch rfl]; exact nofun)
  have htake : (k ++ r).takeWhile Char.isLower = k := by
    rw [List.takeWhile_append_of_pos (List.all_eq_true.1 hk), hstop, List.append_nil]
  show Except.ok ((k ++ r).takeWhile Char.isLower, (Cursor.mk n (k ++ r)).advance
    ((k ++ r).takeWhile Char.isLower).length) = _
  rw [htake, Cursor.advance, List.drop_left]

/-- The tag that ends the pending branch. -/
theorem item_branch (hk : AwaitKeyword b k) (hr : KeywordEnd r) {x : Expression} {start n : Nat} :
    item ctx n '{' (st.inAwait x (.unwritten .pendingBlock) .pendingBlock none start)
        ⟨n + 1, ':' :: (k ++ r)⟩ = .ok (st', d) ↔
      ∃ p, patternEnd ctx ⟨n + 2 + k.length, r⟩ = .ok (p, d) ∧
        st' = st.inAwait x ((Node.branch .pendingBlock start).endAt n) b p n := by
  have hst : (st.inAwait x (.unwritten .pendingBlock) .pendingBlock none start).closeOmitted n
      = st.inAwait x (.unwritten .pendingBlock) .pendingBlock none start :=
    Stack.closeOmitted_eq_self nofun
  show continueBlock ctx n _ ⟨n + 2, k ++ r⟩ = _ ↔ _
  unfold continueBlock
  rw [bind_of_ok (word_eq hk.all_isLower hr (n + 2)), hst]
  cases hk with
  | thenBlock => exact patternEnd_map_eq_ok
  | catchBlock => exact patternEnd_map_eq_ok

/-- A pattern up to a closing brace is read alike in both texts. -/
theorem closed_patternEnd {S : Shared} :
    Closed S '}' Likeness.same.rel (patternEnd S.leftContext) (patternEnd S.rightContext) :=
  (carried_readPattern (by decide) rfl).closed fun _ _ hp =>
    closed_expect.bind fun _ _ _ => .pure hp

end Reader

/-! ## Runs -/

theorem awaitShort_eq (k e r : Text) :
    awaitShort k e r
      = '{' :: '#' :: 'a' :: 'w' :: 'a' :: 'i' :: 't' :: ' ' :: (e ++ ' ' :: (k ++ r)) := by
  simp only [awaitShort, List.append_assoc, List.cons_append, List.nil_append]

theorem awaitLong_eq (k e r : Text) :
    awaitLong k e r
      = '{' :: '#' :: 'a' :: 'w' :: 'a' :: 'i' :: 't' :: ' ' ::
        (e ++ '}' :: '{' :: ':' :: (k ++ r)) := by
  simp only [awaitLong, List.append_assoc, List.cons_append, List.nil_append]

namespace Template

open Reader

variable {ctx : Context} {st : Stack} {root : Node} {b : BranchKind} {k e r : Text}

/-- The opener up to the guard. -/
theorem item_await {st' : Stack} {d : Cursor} (he : ScannedWhole awaitWords e) (rest : Text) :
    item ctx 0 '{' st ⟨1, '#' :: 'a' :: 'w' :: 'a' :: 'i' :: 't' :: ' ' :: (e ++ rest)⟩
        = .ok (st', d) ↔
      awaitBlock ctx 0 st ⟨8, e ++ rest⟩ = .ok (st', d) := by
  show (requireBlank >>= fun _ => awaitBlock ctx 0 st) ⟨7, ' ' :: (e ++ rest)⟩ = _ ↔ _
  rw [bind_of_ok (he.requireBlank 7 rest)]

/-- An await block whose opener names its first branch. -/
theorem run_short (hk : AwaitKeyword b k) (he : ScannedWhole awaitWords e) (hr : WordEnd r) :
    run ctx st ⟨0, awaitShort k e r⟩ = .ok root ↔
      ctx.grammar.expression e = .accepted ∧
        ∃ p d, patternEnd ctx ⟨8 + (e.length + 1) + k.length, r⟩ = .ok (p, d) ∧
          run ctx (st.inAwait (ctx.place 8 (8 + e.length)) (.unwritten .pendingBlock) b p
            (8 + (e.length + 1))) d = .ok root := by
  rw [awaitShort_eq, run_cons_eq_ok]
  constructor
  · rintro ⟨st', d, hitem, hrun⟩
    obtain ⟨haccepted, p, hp, rfl⟩ := (awaitBlock_short hk he hr).1 ((item_await he _).1 hitem)
    exact ⟨haccepted, p, d, hp, hrun⟩
  · rintro ⟨haccepted, p, d, hp, hrun⟩
    refine ⟨_, d, ?_, hrun⟩
    exact (item_await he _).2 ((awaitBlock_short hk he hr).2 ⟨haccepted, p, hp, rfl⟩)

/-- An await block whose first branch is named by a tag of its own. -/
theorem run_long (hk : AwaitKeyword b k) (he : ScannedWhole awaitWords e) (hr : KeywordEnd r) :
    run ctx st ⟨0, awaitLong k e r⟩ = .ok root ↔
      ctx.grammar.expression e = .accepted ∧
        ∃ p d, patternEnd ctx ⟨8 + e.length + 3 + k.length, r⟩ = .ok (p, d) ∧
          run ctx (st.inAwait (ctx.place 8 (8 + e.length))
            ((Node.branch .pendingBlock (8 + e.length)).endAt (8 + e.length + 1 : Nat)) b p
            (8 + e.length + 1)) d = .ok root := by
  rw [awaitLong_eq, run_cons_eq_ok]
  constructor
  · rintro ⟨st', d, hitem, hrun⟩
    obtain ⟨haccepted, rfl, rfl⟩ := (awaitBlock_long he).1 ((item_await he _).1 hitem)
    obtain ⟨st', d, hitem, hrun⟩ := run_cons_eq_ok.1 hrun
    obtain ⟨p, hp, rfl⟩ := (item_branch hk hr).1 hitem
    exact ⟨haccepted, p, d, hp, hrun⟩
  · rintro ⟨haccepted, p, d, hp, hrun⟩
    refine ⟨_, _, (item_await he _).2 ((awaitBlock_long he).2 ⟨haccepted, rfl, rfl⟩), ?_⟩
    exact run_cons_eq_ok.2 ⟨_, d, (item_branch hk hr).2 ⟨p, hp, rfl⟩, hrun⟩

/-- **After a pattern two texts that end alike go on alike.** -/
theorem run_pattern_share {S : Shared} {G : Ground S.move} {opened opened' : Option Text → Stack}
    (hG : G.OnRoots) (hleft : S.left.after = []) (hright : S.right.after = [])
    (hopened : ∀ p, G.Alike (opened p) (opened' p)) {p : Option Text} {d : Cursor}
    (hp : patternEnd S.leftContext (S.left.cursor ⟨0, S.text⟩) = .ok (p, d))
    (hrun : run S.leftContext (opened p) d = .ok root) :
    ∃ root', (∃ d', patternEnd S.rightContext (S.right.cursor ⟨0, S.text⟩) = .ok (p, d') ∧
      run S.rightContext (opened' p) d' = .ok root') ∧ G.rel root root' := by
  have hon : Cursor.On S.text ⟨0, S.text⟩ := ⟨Nat.zero_le _, rfl⟩
  obtain ⟨n, hn, rfl⟩ := closed_patternEnd.forward hp
  have hle : n ≤ S.text.length := by
    rwa [Surround.cursor, hleft, List.append_nil] at hn
  rw [← S.left.cursor_advance hle] at hp hrun
  obtain ⟨_, hp', rfl⟩ := closed_patternEnd.move hon hp
  obtain ⟨root', hrun', hroot⟩ := run_share hG hleft hright ((Cursor.reaches_advance hle).on hon)
    (hopened p) hrun
  exact ⟨root', ⟨_, hp', hrun'⟩, hroot⟩

/-- The open nodes in the two ways of writing. -/
theorem alike_inAwait (move : Expression → Expression) {x : Expression} (hx : move x = x)
    {pending pending' : Node} (hpending : pending.Like move pending') (b : BranchKind)
    (p : Option Text) (n n' : Nat) (s s' : Text) :
    (Ground.roots move).Alike ((start s).inAwait x pending b p n)
      ((start s').inAwait x pending' b p n') := by
  refine ⟨(start s).root, (start s').root, _, _, rfl, rfl,
    .cons (Node.like_leaf rfl) (.cons ?_ .nil), rfl, Node.like_leaf rfl⟩
  have hlabel : Label.Like move { kind := .awaitBlock, start := 0, expression := some x }
      { kind := .awaitBlock, start := 0, expression := some x } :=
    Label.like_iff.2 ⟨rfl, rfl, congrArg some hx.symm, rfl, rfl, rfl⟩
  have hset := (Node.like_leaf hlabel).setPattern b p
  simp only [Node.Like, Node.gist, Node.leaf, Node.map, Node.mk.injEq] at hset ⊢
  exact ⟨hset.1, rfl, rfl, rfl, rfl, congrArg some hpending, rfl, rfl⟩

/-- The await block with which a text begins is the first child of its root. -/
theorem exists_first_await {x : Expression} {pending : Node} {p : Option Text} {n : Nat}
    {s : Text} {c : Cursor} (h : run ctx ((start s).inAwait x pending b p n) c = .ok root) :
    ∃ m ms, root.children = m :: ms ∧ m.Heads .awaitBlock (some x) := by
  obtain ⟨st', d, hgoes, -, hfinish⟩ := Template.exists_goes h
  have hheads : Node.Heads .awaitBlock (some x)
      { label := Label.setPattern { kind := .awaitBlock, start := 0, expression := some x } b p
        pendingBlock := some pending
        thenBlock := some (.unwritten .thenBlock)
        catchBlock := some (.unwritten .catchBlock) } :=
    Node.Heads.setPattern (n :=
      { label := { kind := .awaitBlock, start := 0, expression := some x }
        pendingBlock := some pending
        thenBlock := some (.unwritten .thenBlock)
        catchBlock := some (.unwritten .catchBlock) }) ⟨rfl, rfl, rfl, rfl⟩ b p
  obtain ⟨f, st₁, c₁, st₂, c₂, ns, hf, -, -, -, -, hchildren⟩ :=
    hgoes.exists_first_child (r := (start s).root) ⟨_, [_], rfl, hheads⟩ rfl hfinish
  exact ⟨_, ns, hchildren, hf.endAt _⟩

end Template

/-! ## The two ways of writing -/

section

variable (k e r : Text)

/-- What stands before the rest in the first way of writing. -/
def shortSide : Surround :=
  ⟨awaitShort k e [], []⟩

/-- What stands before the rest in the second way of writing. -/
def longSide : Surround :=
  ⟨awaitLong k e [], []⟩

theorem text_shortSide : (shortSide k e).text r = awaitShort k e r := by
  simp [shortSide, Surround.text, awaitShort]

theorem text_longSide : (longSide k e).text r = awaitLong k e r := by
  simp [longSide, Surround.text, awaitLong]

theorem length_shortSide : (shortSide k e).before.length = 8 + (e.length + 1) + k.length := by
  simp only [shortSide, awaitShort, List.length_append, List.length_cons, List.length_nil]
  omega

theorem length_longSide : (longSide k e).before.length = 8 + e.length + 3 + k.length := by
  simp only [longSide, awaitLong, List.length_append, List.length_cons, List.length_nil]
  omega

/-- The guard stands before the rest. -/
theorem guard_le_shortSide : 8 + e.length ≤ (shortSide k e).before.length := by
  rw [length_shortSide]
  omega

theorem guard_le_longSide : 8 + e.length ≤ (longSide k e).before.length := by
  rw [length_longSide]
  omega

theorem cursor_shortSide :
    (shortSide k e).cursor ⟨0, r⟩ = ⟨8 + (e.length + 1) + k.length, r⟩ := by
  rw [Surround.cursor, length_shortSide, Nat.zero_add]
  exact congrArg (Cursor.mk _) (List.append_nil r)

theorem cursor_longSide : (longSide k e).cursor ⟨0, r⟩ = ⟨8 + e.length + 3 + k.length, r⟩ := by
  rw [Surround.cursor, length_longSide, Nat.zero_add]
  exact congrArg (Cursor.mk _) (List.append_nil r)

/-- The guard, which stands at the same place in both. -/
def awaitGuard (grammar : Grammar) : Expression :=
  (Context.of grammar (['{', '#', 'a', 'w', 'a', 'i', 't', ' '] ++ e)).place 8 (8 + e.length)

theorem place_guard (grammar : Grammar) (rest : Text) :
    (Context.of grammar (['{', '#', 'a', 'w', 'a', 'i', 't', ' '] ++ e ++ rest)).place 8
      (8 + e.length) = awaitGuard e grammar := by
  refine place_append grammar rest _ ?_
  rw [List.length_append]
  exact Nat.le_add_right 8 _

end

namespace Template

open Reader

variable {grammar : Grammar} {root : Node} {b : BranchKind} {k e r : Text}

/-- The first way of writing, after the keyword of the branch. -/
theorem parse_short_iff (hk : AwaitKeyword b k) (he : ScannedWhole awaitWords e)
    (hr : WordEnd r) :
    parseTemplate grammar (awaitShort k e r) = .ok root ↔
      grammar.expression e = .accepted ∧
        ∃ p d, patternEnd (.of grammar ((shortSide k e).text r)) ((shortSide k e).cursor ⟨0, r⟩)
            = .ok (p, d) ∧
          run (.of grammar ((shortSide k e).text r)) ((start (awaitShort k e r)).inAwait
            (awaitGuard e grammar) (.unwritten .pendingBlock) b p (8 + (e.length + 1))) d
            = .ok root := by
  have hguard : (Context.of grammar (awaitShort k e r)).place 8 (8 + e.length)
      = awaitGuard e grammar := by
    rw [awaitShort, List.append_assoc _ [' '], List.append_assoc _ ([' '] ++ k)]
    exact place_guard e grammar _
  rw [text_shortSide, cursor_shortSide, ← hguard]
  exact run_short hk he hr

/-- The second way of writing, after the keyword of the branch. -/
theorem parse_long_iff (hk : AwaitKeyword b k) (he : ScannedWhole awaitWords e) (hr : WordEnd r) :
    parseTemplate grammar (awaitLong k e r) = .ok root ↔
      grammar.expression e = .accepted ∧
        ∃ p d, patternEnd (.of grammar ((longSide k e).text r)) ((longSide k e).cursor ⟨0, r⟩)
            = .ok (p, d) ∧
          run (.of grammar ((longSide k e).text r)) ((start (awaitLong k e r)).inAwait
            (awaitGuard e grammar)
            ((Node.branch .pendingBlock (8 + e.length)).endAt (8 + e.length + 1 : Nat)) b p
            (8 + e.length + 1)) d = .ok root := by
  have hguard : (Context.of grammar (awaitLong k e r)).place 8 (8 + e.length)
      = awaitGuard e grammar := by
    rw [awaitLong, List.append_assoc _ ['}', '{', ':'], List.append_assoc _ (['}', '{', ':'] ++ k)]
    exact place_guard e grammar _
  rw [text_longSide, cursor_longSide, ← hguard]
  exact run_long hk he (keywordEnd_of_wordEnd hr)

/-- From one way of writing to the other; the guard stays where it is. -/
def rewritten (grammar : Grammar) (e r : Text) (left right : Surround)
    (hkeep : 8 + e.length ≤ left.before.length) : Shared :=
  .between grammar r left right (8 + e.length) hkeep

theorem move_guard {left right : Surround} {hkeep : 8 + e.length ≤ left.before.length}
    (he : ScannedWhole awaitWords e) :
    (rewritten grammar e r left right hkeep).move (awaitGuard e grammar)
      = awaitGuard e grammar := by
  obtain ⟨ch, cs, hcons, -⟩ := he.exists_cons
  refine if_pos ?_
  have hpos : 0 < e.length := by
    rw [hcons]
    exact Nat.succ_pos _
  show ((8 : Nat) : Int) < (8 + e.length : Nat)
  omega

/-- An empty pending branch is like one that is not written. -/
theorem like_pending (move : Expression → Expression) (start : Nat) (stop : Int) :
    (Node.unwritten .pendingBlock).Like move ((Node.branch .pendingBlock start).endAt stop) ∧
      ((Node.branch .pendingBlock start).endAt stop).Like move (.unwritten .pendingBlock) :=
  ⟨Node.like_leaf rfl, Node.like_leaf rfl⟩

/-- **What is accepted in the first way of writing is accepted in the second one**, with a tree that
is alike. -/
theorem exists_parse_long (hk : AwaitKeyword b k) (he : ScannedWhole awaitWords e)
    (hr : WordEnd r) (h : parseTemplate grammar (awaitShort k e r) = .ok root) :
    ∃ root', parseTemplate grammar (awaitLong k e r) = .ok root' ∧
      root.Like (rewritten grammar e r (shortSide k e) (longSide k e)
        (guard_le_shortSide k e)).move root' := by
  obtain ⟨haccepted, p, d, hp, hrun⟩ := (parse_short_iff hk he hr).1 h
  obtain ⟨root', ⟨d', hp', hrun'⟩, -, hroot⟩ := run_pattern_share
    (S := rewritten grammar e r _ (longSide k e) (guard_le_shortSide k e)) (Ground.onRoots_roots _)
    rfl rfl (fun p => alike_inAwait _ (move_guard he) (like_pending _ _ _).1 b p _ _ _ _) hp hrun
  exact ⟨root', (parse_long_iff hk he hr).2 ⟨haccepted, p, d', hp', hrun'⟩, hroot⟩

/-- What is accepted in the second way of writing is accepted in the first one. -/
theorem exists_parse_short (hk : AwaitKeyword b k) (he : ScannedWhole awaitWords e)
    (hr : WordEnd r) (h : parseTemplate grammar (awaitLong k e r) = .ok root) :
    ∃ root', parseTemplate grammar (awaitShort k e r) = .ok root' := by
  obtain ⟨haccepted, p, d, hp, hrun⟩ := (parse_long_iff hk he hr).1 h
  obtain ⟨root', ⟨d', hp', hrun'⟩, -⟩ := run_pattern_share
    (S := rewritten grammar e r _ (shortSide k e) (guard_le_longSide k e)) (Ground.onRoots_roots _)
    rfl rfl (fun p => alike_inAwait _ (move_guard he) (like_pending _ _ _).2 b p _ _ _ _) hp hrun
  exact ⟨root', (parse_short_iff hk he hr).2 ⟨haccepted, p, d', hp', hrun'⟩⟩

/-- The first node of its kind is the first child of the root, if this is of that kind. -/
theorem find?_walk_first {kind : Kind} {m : Node} {ms : List Node} {source : Text}
    (h : parseTemplate grammar source = .ok root) (hchildren : root.children = m :: ms)
    (hm : m.kind = kind) (hkind : kind ≠ .fragment) :
    root.walk.find? (·.kind == kind) = some m := by
  obtain ⟨hroot, hwhole⟩ := whole_of_parseTemplate h
  have hshaped := (Node.whole_iff.1 hwhole).1
  have hattributes : root.attributes = [] := hshaped.attributes_eq (by rw [hroot]; rfl)
  have hvalue : root.value = none := hshaped.value_eq (by rw [hroot]; rfl)
  obtain ⟨label, attributes, value, children, elseBlock, pending, thenBlock, catchBlock⟩ := root
  obtain ⟨⟩ : attributes = [] := hattributes
  obtain ⟨⟩ : value = none := hvalue
  obtain ⟨⟩ : children = m :: ms := hchildren
  have hfirst : m.walk.find? (·.kind == kind) = some m := by
    obtain ⟨label, attributes, value, children, elseBlock, pending, thenBlock, catchBlock⟩ := m
    rw [Node.walk, List.find?_cons_of_pos (by rw [hm, beq_self_eq_true])]
  rw [Node.walk, List.find?_cons_of_neg]
  · simp only [walkAll, walkValue, List.nil_append, List.append_assoc, List.find?_append, hfirst,
      Option.some_or]
  · rw [hroot, beq_iff_eq]
    exact hkind.symm

end Template

/-- An expression of the rest, in the two ways of writing. -/
theorem Fragment.expression_rewritten {grammar : Grammar} {k e r : Text} {y : Expression}
    (hy : y.Exact (awaitShort k e r))
    (hmoved : ((Template.rewritten grammar e r (shortSide k e) (longSide k e)
      (guard_le_shortSide k e)).move y).Exact (awaitLong k e r))
    (hkeep : (8 + e.length : Nat) ≤ y.start) (f : Fragment) :
    { f with text := awaitLong k e r }.expression ((Template.rewritten grammar e r (shortSide k e)
        (longSide k e) (guard_le_shortSide k e)).move y)
      = ({ f with text := awaitShort k e r }.expression y).shift 2 := by
  rw [← text_shortSide] at hy ⊢
  rw [← text_longSide] at hmoved ⊢
  -- the two ways of writing differ by two characters, and none of them is a line feed
  have hlines : (longSide k e).before.newlines = (shortSide k e).before.newlines := by
    simp only [longSide, shortSide, awaitLong, awaitShort, Text.newlines_append]
    rfl
  have hslice := Shared.slice_between hmoved hkeep
  obtain ⟨i, j, hij, hj, hstart, hstop, hmove⟩ := Shared.between_exact hmoved hkeep
  have hstart' : ((Template.rewritten grammar e r (shortSide k e) (longSide k e)
      (guard_le_shortSide k e)).move y).start = (i + (longSide k e).before.length : Nat) :=
    congrArg Expression.start hmove
  have hstop' : ((Template.rewritten grammar e r (shortSide k e) (longSide k e)
      (guard_le_shortSide k e)).move y).stop = (j + (longSide k e).before.length : Nat) :=
    congrArg Expression.stop hmove
  have hline : ((Template.rewritten grammar e r (shortSide k e) (longSide k e)
      (guard_le_shortSide k e)).move y).line = y.line := by
    rw [hmoved.line_eq, hy.line_eq, hstart, hstart', (longSide k e).lineNumber_text (by omega),
      (shortSide k e).lineNumber_text (by omega), hlines]
  rw [length_longSide] at hstart' hstop'
  rw [length_shortSide] at hstart hstop
  simp only [Fragment.expression, Fragment.shift, Fragment.mk.injEq]
  exact ⟨hslice, by rw [hline], by omega, by omega⟩

/-- The guard as an expression of a fragment. -/
theorem Fragment.expression_guard {grammar : Grammar} {e rest : Text} (f : Fragment) :
    { f with text := ['{', '#', 'a', 'w', 'a', 'i', 't', ' '] ++ e ++ rest }.expression
        (awaitGuard e grammar)
      = ⟨e, f.startLine + (awaitGuard e grammar).line - 1, f.startChar + 8,
        f.startChar + (8 + e.length : Nat)⟩ := by
  rw [Fragment.expression, Fragment.mk.injEq]
  refine ⟨?_, rfl, rfl, rfl⟩
  refine Text.slice_of_drop_eq_append (i := 8) (u := e) (v := rest) ?_ ?_
  · simp only [List.length_append, List.length_cons]
    omega
  · rw [List.append_assoc]
    rfl

/-- An await block has its guard before its other expressions. -/
theorem Node.Heads.exists_expressions {m : Node} {x : Expression}
    (h : m.Heads .awaitBlock (some x)) : ∃ es, m.expressions = x :: es := by
  obtain ⟨-, hkind, hguard, -⟩ := h
  obtain ⟨label, attributes, value, children, elseBlock, pending, thenBlock, catchBlock⟩ := m
  have hkind : label.kind = .awaitBlock := hkind
  have hguard : label.expression = some x := hguard
  rw [expressions, hkind, hguard]
  exact ⟨_, rfl⟩

/-- The expressions in the two ways of writing. -/
theorem treeExpressions_rewritten {grammar : Grammar} {k e r : Text} {root root' : Node}
    {es : List Expression} (h : parseTemplate grammar (awaitShort k e r) = .ok root)
    (h' : parseTemplate grammar (awaitLong k e r) = .ok root')
    (hfirst : allExpressions root.children = awaitGuard e grammar :: es)
    (hguard : (Template.rewritten grammar e r (shortSide k e) (longSide k e)
      (guard_le_shortSide k e)).move (awaitGuard e grammar) = awaitGuard e grammar)
    (hroot : root.Like (Template.rewritten grammar e r (shortSide k e) (longSide k e)
      (guard_le_shortSide k e)).move root') (f : Fragment) :
    ∃ x xs, x.text = e ∧ { f with text := awaitShort k e r }.treeExpressions root = x :: xs ∧
      { f with text := awaitLong k e r }.treeExpressions root' = x :: xs.map (·.shift 2) := by
  have hall := hroot.children.expressions
  have horder := inOrder_of_parseTemplate h
  have horder' := inOrder_of_parseTemplate h'
  rw [hfirst] at hall horder
  rw [hall] at horder'
  have hshort : awaitShort k e r
      = ['{', '#', 'a', 'w', 'a', 'i', 't', ' '] ++ e ++ ([' '] ++ k ++ r) := by
    simp only [awaitShort, List.append_assoc]
  have hlong : awaitLong k e r
      = ['{', '#', 'a', 'w', 'a', 'i', 't', ' '] ++ e ++ (['}', '{', ':'] ++ k ++ r) := by
    simp only [awaitLong, List.append_assoc]
  refine ⟨{ f with text := awaitShort k e r }.expression (awaitGuard e grammar),
    es.map { f with text := awaitShort k e r }.expression, ?_, ?_, ?_⟩
  · rw [hshort, Fragment.expression_guard]
  · rw [Fragment.treeExpressions, hfirst, List.map_cons]
  · rw [Fragment.treeExpressions, hall, List.map_cons, List.map_cons, List.map_map, List.map_map,
      hguard]
    congr 1
    · rw [hshort, hlong, Fragment.expression_guard, Fragment.expression_guard]
    · refine List.map_congr_left fun y hy => ?_
      have hafter : (8 + e.length : Nat) ≤ y.start := by
        have hrow := horder.row.pairwise
        rw [List.map_cons, List.pairwise_cons] at hrow
        exact hrow.1 _ (List.mem_map_of_mem hy)
      exact Fragment.expression_rewritten (horder.exact y (List.mem_cons_of_mem _ hy))
        (horder'.exact _ (List.mem_map_of_mem (List.mem_cons_of_mem _ hy))) hafter f

/-- **An await block whose opener names its first branch is one whose first branch is named by a tag
of its own.** The same templates are accepted. Their expressions are the same, but those after the
guard stand two characters later, and what the branches of the block get has the same names. -/
theorem parseTemplate_await_shorthand {grammar : Grammar} {k e r : Text}
    (hk : k = "then".toList ∨ k = "catch".toList) (he : ScannedWhole awaitWords e)
    (hr : ∀ c ∈ r.head?, isWordChar c = false) :
    ((∃ root, parseTemplate grammar (awaitShort k e r) = .ok root) ↔
      ∃ root, parseTemplate grammar (awaitLong k e r) = .ok root) ∧
    ∀ root root', parseTemplate grammar (awaitShort k e r) = .ok root →
      parseTemplate grammar (awaitLong k e r) = .ok root' →
      (∀ f : Fragment, ∃ x xs, x.text = e ∧
        { f with text := awaitShort k e r }.treeExpressions root = x :: xs ∧
        { f with text := awaitLong k e r }.treeExpressions root' = x :: xs.map (·.shift 2)) ∧
      ∃ n n', root.walk.find? (·.kind == .awaitBlock) = some n ∧
        root'.walk.find? (·.kind == .awaitBlock) = some n' ∧
        n'.label.thenPattern = n.label.thenPattern ∧
        n'.label.catchPattern = n.label.catchPattern := by
  obtain ⟨b, hb⟩ : ∃ b, AwaitKeyword b k := by
    rcases hk with rfl | rfl
    · exact ⟨_, .thenBlock⟩
    · exact ⟨_, .catchBlock⟩
  refine ⟨⟨fun ⟨root, h⟩ => ?_, fun ⟨root, h⟩ => Template.exists_parse_short hb he hr h⟩, ?_⟩
  · obtain ⟨root', h', -⟩ := Template.exists_parse_long hb he hr h
    exact ⟨root', h'⟩
  intro root root' h h'
  obtain ⟨_, hlong, hroot⟩ := Template.exists_parse_long hb he hr h
  cases hlong.symm.trans h'
  obtain ⟨-, p, d, -, hrun⟩ := (Template.parse_short_iff hb he hr).1 h
  obtain ⟨m, ms, hchildren, hm⟩ := Template.exists_first_await hrun
  obtain ⟨m', ms', hchildren', hlike, -⟩ :=
    Node.AllLike.exists_cons (hchildren ▸ hroot.children)
  refine ⟨?_, m, m', Template.find?_walk_first h hchildren hm.kind_eq nofun,
    Template.find?_walk_first h' hchildren' (hlike.kind.trans hm.kind_eq) nofun,
    (Label.like_iff.1 hlike.label).2.2.2.2⟩
  obtain ⟨es, hes⟩ := hm.exists_expressions
  have hfirst : allExpressions root.children
      = awaitGuard e grammar :: (es ++ allExpressions ms) := by
    rw [hchildren, allExpressions, hes, List.cons_append]
  exact treeExpressions_rewritten h h' hfirst (Template.move_guard he) hroot

/-- A block that names what its then branch gets, and an expression in this branch. -/
theorem parseTemplate_await_shorthand_name :
    ScannedWhole awaitWords ['p'] ∧
    ∃ root root',
      parseTemplate .permissive
        (awaitShort "then".toList ['p'] " p\x7d\x7bp\x7d\x7b/await\x7d".toList) = .ok root ∧
      parseTemplate .permissive
        (awaitLong "then".toList ['p'] " p\x7d\x7bp\x7d\x7b/await\x7d".toList) = .ok root' ∧
      ∃ n n', root.walk.find? (·.kind == .awaitBlock) = some n ∧
        root'.walk.find? (·.kind == .awaitBlock) = some n' ∧
        n'.label.thenPattern = n.label.thenPattern ∧
        n'.label.catchPattern = n.label.catchPattern := by
  have hwhole : ScannedWhole awaitWords ['p'] := by
    show readExpression _ _ _ = _
    decide +kernel
  obtain ⟨hiff, hsame⟩ := @parseTemplate_await_shorthand .permissive "then".toList ['p']
    " p\x7d\x7bp\x7d\x7b/await\x7d".toList (.inl rfl) hwhole
    (fun c hc => by cases hc; rfl)
  obtain ⟨root', hlong⟩ := hiff.1 ⟨_, parseTemplate_await_then⟩
  exact ⟨hwhole, _, root', parseTemplate_await_then, hlong,
    (hsame _ root' parseTemplate_await_then hlong).2⟩

end ComponentDivision
