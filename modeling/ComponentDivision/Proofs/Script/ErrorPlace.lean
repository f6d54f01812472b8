/-
# Where scripts go wrong

A syntax tree says where a script goes wrong by the byte at which its first marked node begins.
The search for that node leaves out the children that do not say that a mark is in them; where
nodes say so exactly if there is one, it finds the node that a walk over the whole tree meets
first. The byte belongs to a character: the text before it is as much of the script as fits into
the bytes before it.

* `SyntaxTree.preorder` : all nodes of a tree, each before the nodes below it;
* `SyntaxTree.Flagged` : the nodes of a tree say rightly whether a mark is in them;
* `firstErrorByte_eq_find?` : the byte of the first mark;
* `Script.Wrap.Blames` : the byte at which a wrapped text is said to go wrong;
* `Script.Wrap.charAt_eq`, `Script.Wrap.isGreatest_charAt` : the characters before a byte;
* `ofTrees_error_iff` : the place at which a check fails.
-/
import Mathlib.Order.Bounds.Basic
import ComponentDivision.Proofs.Template.FaultPlace
import ComponentDivision.Proofs.Text.Decoding
import ComponentDivision.Script.SyntaxTree

namespace ComponentDivision

namespace SyntaxTree

/-! ## All nodes of a tree -/

mutual

/-- All nodes of a tree, depth first, each before the nodes below it. -/
def preorder : SyntaxTree → List SyntaxTree
  | ⟨type, startByte, isError, isMissing, hasError, named, children⟩ =>
    ⟨type, startByte, isError, isMissing, hasError, named, children⟩ :: preorderAll children

/-- All nodes of several trees. -/
def preorderAll : List SyntaxTree → List SyntaxTree
  | [] => []
  | t :: ts => preorder t ++ preorderAll ts

end

theorem preorderAll_eq (ts : List SyntaxTree) : preorderAll ts = ts.flatMap preorder := by
  induction ts with
  | nil => rfl
  | cons t ts ih => rw [preorderAll, ih, List.flatMap_cons]

theorem preorder_eq (t : SyntaxTree) : t.preorder = t :: t.children.flatMap preorder := by
  cases t
  rw [preorder, preorderAll_eq]

theorem self_mem_preorder (t : SyntaxTree) : t ∈ t.preorder := by
  rw [preorder_eq]
  exact List.mem_cons_self

theorem mem_preorder_of_child {t c u : SyntaxTree} (hc : c ∈ t.children) (hu : u ∈ c.preorder) :
    u ∈ t.preorder := by
  rw [preorder_eq]
  exact List.mem_cons_of_mem _ (List.mem_flatMap.2 ⟨c, hc, hu⟩)

/-! ## The first mark -/

/-- Every node of the tree says that an error is in it exactly if it is marked, or a node below it
is. -/
def Flagged (root : SyntaxTree) : Prop :=
  ∀ t ∈ root.preorder, t.hasError = true ↔ ∃ u ∈ t.preorder, u.isMarked = true

instance (root : SyntaxTree) : Decidable root.Flagged :=
  inferInstanceAs (Decidable (∀ t ∈ root.preorder,
    (t.hasError = true ↔ ∃ u ∈ t.preorder, u.isMarked = true)))

theorem Flagged.child {t c : SyntaxTree} (h : t.Flagged) (hc : c ∈ t.children) : c.Flagged :=
  fun u hu => h u (mem_preorder_of_child hc hu)

/-- No mark is in a node that a search leaves out. -/
theorem Flagged.find?_of_not_isSuspect {t : SyntaxTree} (h : t.Flagged)
    (ht : t.isSuspect = false) : t.preorder.find? isMarked = none := by
  rw [isSuspect, Bool.or_eq_false_iff] at ht
  rw [List.find?_eq_none]
  intro u hu hmarked
  have herror := (h t t.self_mem_preorder).2 ⟨u, hu, hmarked⟩
  exact Bool.false_ne_true (ht.1.symm.trans herror)

/-- Nothing is lost with the children that a search leaves out. -/
theorem find?_flatMap_filter {ts : List SyntaxTree} (h : ∀ t ∈ ts, t.Flagged) :
    ((ts.filter isSuspect).flatMap preorder).find? isMarked
      = (ts.flatMap preorder).find? isMarked := by
  induction ts with
  | nil => rfl
  | cons t ts ih =>
    obtain ⟨ht, hts⟩ := List.forall_mem_cons.1 h
    rw [List.filter_cons, List.flatMap_cons, List.find?_append]
    split
    · rw [List.flatMap_cons, List.find?_append, ih hts]
    · rename_i hsuspect
      rw [ht.find?_of_not_isSuspect (Bool.eq_false_iff.2 hsuspect), Option.none_or, ih hts]

/-- **The search over a stack finds the first marked node of the trees on it.** -/
theorem firstMark_eq_find? {stack : List SyntaxTree} (h : ∀ t ∈ stack, t.Flagged) :
    firstMark stack = ((stack.flatMap preorder).find? isMarked).map startByte := by
  fun_induction firstMark stack with
  | case1 => rfl
  | case2 t stack hmarked =>
    rw [List.flatMap_cons, preorder_eq, List.cons_append, List.find?_cons_of_pos hmarked]
    rfl
  | case3 t stack hmarked ih =>
    obtain ⟨ht, hstack⟩ := List.forall_mem_cons.1 h
    have hchildren (c : SyntaxTree) (hc : c ∈ t.children) : c.Flagged := ht.child hc
    have hpushed : ∀ u ∈ t.push stack, u.Flagged := by
      rw [push_eq]
      intro u hu
      rcases List.mem_append.1 hu with hu | hu
      · exact hchildren u (List.mem_of_mem_filter hu)
      · exact hstack u hu
    rw [ih hpushed, push_eq, List.flatMap_append, List.find?_append,
      find?_flatMap_filter hchildren, List.flatMap_cons, preorder_eq, List.cons_append,
      List.find?_cons_of_neg hmarked, List.find?_append]

/-- **The byte at which a tree goes wrong is that of its first marked node.** There is none if no
node is marked; otherwise the search finds it, so that the byte of the root does not stand in. -/
theorem firstErrorByte_eq_find? {root : SyntaxTree} (h : root.Flagged) :
    root.firstErrorByte = (root.preorder.find? isMarked).map startByte ∧
      ∀ b, root.firstErrorByte = some b → firstMark [root] = some b := by
  have hsearch : firstMark [root] = (root.preorder.find? isMarked).map startByte := by
    have hstack : ∀ t ∈ [root], t.Flagged := by simpa using h
    simpa using firstMark_eq_find? hstack
  have hroot := h root root.self_mem_preorder
  unfold firstErrorByte
  cases hfind : root.preorder.find? isMarked with
  | none =>
    have hclean : ¬ root.hasError = true := by
      intro herror
      obtain ⟨u, hu, hmarked⟩ := hroot.1 herror
      exact List.find?_eq_none.1 hfind u hu hmarked
    rw [if_neg hclean]
    exact ⟨rfl, nofun⟩
  | some u =>
    have herror : root.hasError = true :=
      hroot.2 ⟨u, List.mem_of_find?_eq_some hfind, List.find?_some hfind⟩
    rw [hfind] at hsearch
    rw [if_pos herror, hsearch]
    exact ⟨rfl, fun b hb => hb⟩

/-- A statement without a mark before the one that misses its semicolon, which stands before the
text that fits nowhere: the missing one comes first, although it begins later. -/
def unfinished : SyntaxTree :=
  ⟨"program".toList, 0, false, false, true, true,
    [⟨"comment".toList, 0, false, false, false, true, []⟩,
      ⟨"expression_statement".toList, 1, false, false, true, true,
        [⟨"identifier".toList, 1, false, false, false, true, []⟩,
          ⟨";".toList, 3, false, true, true, false, []⟩]⟩,
      ⟨"ERROR".toList, 2, true, false, true, true, []⟩]⟩

theorem firstErrorByte_unfinished : unfinished.Flagged ∧ unfinished.firstErrorByte = some 3 := by
  have hflagged : unfinished.Flagged := by decide +kernel
  refine ⟨hflagged, (firstErrorByte_eq_find? hflagged).1.trans ?_⟩
  decide +kernel

/-- The byte at which a tree goes wrong is that of one of its nodes, whatever they say. -/
theorem exists_of_firstMark {stack : List SyntaxTree} {b : Int} (h : firstMark stack = some b) :
    ∃ t ∈ stack.flatMap preorder, t.startByte = b := by
  fun_induction firstMark stack with
  | case1 => cases h
  | case2 t stack hmarked =>
    cases h
    exact ⟨t, List.mem_flatMap.2 ⟨t, List.mem_cons_self, t.self_mem_preorder⟩, rfl⟩
  | case3 t stack hmarked ih =>
    obtain ⟨u, hu, hb⟩ := ih h
    obtain ⟨top, htop, hu⟩ := List.mem_flatMap.1 hu
    refine ⟨u, ?_, hb⟩
    rw [push_eq] at htop
    rw [List.flatMap_cons]
    rcases List.mem_append.1 htop with hchild | hbelow
    · exact List.mem_append_left _ (mem_preorder_of_child (List.mem_of_mem_filter hchild) hu)
    · exact List.mem_append_right _ (List.mem_flatMap.2 ⟨top, hbelow, hu⟩)

theorem exists_of_firstErrorByte {root : SyntaxTree} {b : Int}
    (h : root.firstErrorByte = some b) : ∃ t ∈ root.preorder, t.startByte = b := by
  unfold firstErrorByte at h
  split at h
  · cases hmark : firstMark [root] with
    | none =>
      rw [hmark] at h
      exact ⟨root, root.self_mem_preorder, Option.some.inj h⟩
    | some b' =>
      rw [hmark] at h
      cases h
      simpa using exists_of_firstMark hmark
  · cases h

end SyntaxTree

/-! ## Characters and bytes -/

namespace Text

theorem length_encode_cons (c : Char) (t : Text) :
    (encode (c :: t)).length = c.utf8Size + (encode t).length := by
  rw [encode_cons, List.length_append, String.length_utf8EncodeChar]

/-- The bytes of a text are those of its encoding. -/
theorem size_utf8Encode (t : Text) : t.utf8Encode.size = (encode t).length := by
  induction t with
  | nil => rfl
  | cons c t ih =>
    rw [List.utf8Encode_cons, ByteArray.size_append, ih, List.utf8Encode_singleton,
      List.size_toByteArray, String.length_utf8EncodeChar, length_encode_cons]

/-- What fits of a text is what fits of it with more text after it. -/
theorem min_charsWithin_append (n : Nat) (t u : Text) :
    min (charsWithin n (t ++ u)) t.length = charsWithin n t := by
  induction t generalizing n with
  | nil => rw [List.length_nil, Nat.min_zero, charsWithin]
  | cons c t ih =>
    rw [List.cons_append, charsWithin, charsWithin, List.length_cons]
    split
    · rw [← ih (n - c.utf8Size)]
      omega
    · exact Nat.zero_min _

theorem charsWithin_le_length (n : Nat) (t : Text) : charsWithin n t ≤ t.length := by
  have hmin := min_charsWithin_append n t []
  rw [List.append_nil] at hmin
  omega

/-- A byte in front of a text takes the place of one byte of it. -/
theorem charsWithin_paren (n : Nat) (t : Text) :
    charsWithin n ('(' :: t) - 1 = charsWithin (n - 1) t := by
  have hsize : '('.utf8Size = 1 := rfl
  rw [charsWithin, hsize]
  split
  · omega
  · cases t with
    | nil => rfl
    | cons c t =>
      have hpos := c.utf8Size_pos
      rw [charsWithin, if_neg (by omega)]

/-- **As many characters are counted as have an encoding of at most `n` bytes.** -/
theorem isGreatest_charsWithin (n : Nat) (t : Text) :
    IsGreatest {k | k ≤ t.length ∧ (t.take k).utf8Encode.size ≤ n} (charsWithin n t) := by
  simp only [size_utf8Encode]
  induction t generalizing n with
  | nil => exact ⟨⟨le_rfl, Nat.zero_le _⟩, fun k hk => hk.1⟩
  | cons c t ih =>
    rw [charsWithin]
    split
    · rename_i hn
      obtain ⟨⟨hlength, hsize⟩, hbound⟩ := ih (n - c.utf8Size)
      rw [Nat.add_comm]
      refine ⟨⟨Nat.succ_le_succ hlength, ?_⟩, ?_⟩
      · rw [List.take_succ_cons, length_encode_cons]
        omega
      · rintro (_ | k) ⟨hk, hk'⟩
        · exact Nat.zero_le _
        · rw [List.take_succ_cons, length_encode_cons] at hk'
          exact Nat.succ_le_succ (hbound ⟨Nat.le_of_succ_le_succ hk, by omega⟩)
    · rename_i hn
      refine ⟨⟨Nat.zero_le _, Nat.zero_le _⟩, ?_⟩
      rintro (_ | k) ⟨hk, hk'⟩
      · exact le_rfl
      · rw [List.take_succ_cons, length_encode_cons] at hk'
        omega

end Text

/-! ## The place of an error -/

namespace Script.Wrap

/-- The wraps of the two checks. -/
inductive IsCheck (grammar : Grammar) : Wrap → (Text → Verdict) → Prop
  | expression : IsCheck grammar .expression grammar.expression
  | pattern : IsCheck grammar .pattern grammar.pattern

/-- A tree says that a wrapped text goes wrong at byte `b`: its first mark stands there, or it has
no mark, is not the one statement that it has to be, and `b` is the first byte of the text. -/
def Blames (w : Wrap) (tree : SyntaxTree) (b : Int) : Prop :=
  tree.firstErrorByte = some b ∨
    tree.firstErrorByte = none ∧ tree.singleStatement? ≠ some w.treeType ∧ b = 1

variable {w : Wrap} {tree : SyntaxTree} {b : Int}

theorem IsCheck.before_eq {grammar : Grammar} {check : Text → Verdict}
    (h : IsCheck grammar w check) : w.before = ['('] := by
  cases h <;> rfl

theorem IsCheck.verdict_eq {parse : Text → SyntaxTree} {check : Text → Verdict}
    (h : IsCheck (.ofTrees parse) w check) (t : Text) :
    check t = w.verdict t (parse (w.apply t)) := by
  cases h <;> rfl

theorem errorByte?_eq_some_iff (hw : w.before = ['(']) :
    w.errorByte? tree = some b ↔ w.Blames tree b := by
  unfold errorByte? Blames
  cases tree.firstErrorByte with
  | some b' => simp
  | none =>
    rw [hw]
    by_cases hone : tree.singleStatement? = some w.treeType
    · simp [hone]
    · simp [hone, eq_comm]

theorem Blames.nonneg (h : w.Blames tree b) (hbytes : ∀ t ∈ tree.preorder, 0 ≤ t.startByte) :
    0 ≤ b := by
  rcases h with h | ⟨-, -, rfl⟩
  · obtain ⟨t, ht, rfl⟩ := SyntaxTree.exists_of_firstErrorByte h
    exact hbytes t ht
  · exact Int.one_nonneg

theorem verdict_eq_rejected_iff (hw : w.before = ['(']) {t : Text} {offset : Option Nat} :
    w.verdict t tree = .rejected offset ↔ ∃ b, w.Blames tree b ∧ offset = some (w.charAt t b) := by
  simp only [← errorByte?_eq_some_iff hw]
  unfold verdict
  cases w.errorByte? tree with
  | none => simp
  | some b => simp [eq_comm]

/-- **The characters of a wrapped text before a byte**, also if the byte is in the middle of one. -/
theorem charAt_eq (hw : w.before = ['(']) (hb : 0 ≤ b) (t : Text) :
    w.charAt t b = Text.charsWithin (b.toNat - 1) t := by
  have hcut (data : List UInt8) : data.take (Text.bound data.length b) = data.take b.toNat := by
    rw [List.take_eq_take_iff, Text.bound, if_neg (by omega)]
    omega
  unfold charAt
  dsimp only
  rw [hcut, decodeLeniently_take, List.length_take,
    Nat.min_eq_left (Text.charsWithin_le_length _ _), apply, hw, List.append_assoc,
    List.singleton_append]
  show min (Text.charsWithin _ ('(' :: (t ++ w.after)) - 1) t.length = _
  rw [Text.charsWithin_paren, Text.min_charsWithin_append]

theorem isGreatest_charAt (hw : w.before = ['(']) (hb : 0 ≤ b) (t : Text) :
    IsGreatest {k | k ≤ t.length ∧ (t.take k).utf8Encode.size ≤ b.toNat - 1} (w.charAt t b) := by
  rw [charAt_eq hw hb]
  exact Text.isGreatest_charsWithin _ t

end Script.Wrap

theorem Reader.require_eq_error_iff {v : Verdict} {d : Delimited} {c : Cursor} {f : Fault} :
    Reader.require v d c = .error f ↔
      ∃ offset, v = .rejected offset ∧ f = .rejected d.scan.start d.scan.stop offset := by
  cases v with
  | accepted => simp [Reader.require]
  | rejected offset => simp [Reader.require, eq_comm]

/-- **A check fails with a place in the text that it checks, and the characters before that place
are as many as fit into the bytes before the byte that its tree blames**, whatever tree that
is. -/
theorem ofTrees_error_iff {parse : Text → SyntaxTree} {w : Script.Wrap} {check : Text → Verdict}
    (hcheck : w.IsCheck (.ofTrees parse) check) {source : Text} {start stop : Nat}
    (hstart : start ≤ stop) (hstop : stop ≤ source.length)
    (hbytes : ∀ t ∈ (parse (w.apply (source.slice start stop))).preorder, 0 ≤ t.startByte)
    {next : Nat} {stopWord : Option Text} {c : Cursor} {f : Fault} :
    Reader.require (check (source.slice start stop))
        ⟨⟨start, stop, next, stopWord⟩, source.slice start stop⟩ c = .error f ↔
      ∃ b p : Nat, w.Blames (parse (w.apply (source.slice start stop))) b ∧
        f = .rejected start stop (some (p - start)) ∧ f.place? = some p ∧ start ≤ p ∧ p ≤ stop ∧
        IsGreatest {k | k ≤ stop - start ∧
          (source.slice start (start + k : Nat)).utf8Encode.size ≤ b - 1} (p - start) := by
  have hw := hcheck.before_eq
  have hlength : (source.slice start stop).length = stop - start := by
    have h := Text.length_slice (by omega : (0 : Int) ≤ start) (Int.ofNat_le.2 hstart)
      (Int.ofNat_le.2 hstop)
    omega
  have htake (k : Nat) (hk : k ≤ stop - start) :
      (source.slice start stop).take k = source.slice start (start + k : Nat) := by
    obtain ⟨n, rfl⟩ := Nat.exists_eq_add_of_le hstart
    rw [Text.slice_natCast_add n (by omega), Text.slice_natCast_add k (by omega), List.take_take,
      Nat.min_eq_left (by omega)]
  have hgreatest (b : Nat) : IsGreatest {k | k ≤ stop - start ∧
      (source.slice start (start + k : Nat)).utf8Encode.size ≤ b - 1}
      (w.charAt (source.slice start stop) b) := by
    have h := Script.Wrap.isGreatest_charAt hw (Int.natCast_nonneg b) (source.slice start stop)
    rw [hlength, Int.toNat_natCast] at h
    exact ⟨⟨h.1.1, htake _ h.1.1 ▸ h.1.2⟩, fun k hk => h.2 ⟨hk.1, (htake k hk.1).symm ▸ hk.2⟩⟩
  rw [Reader.require_eq_error_iff, hcheck.verdict_eq]
  simp only [Script.Wrap.verdict_eq_rejected_iff hw]
  constructor
  · rintro ⟨_, ⟨b, hb, rfl⟩, rfl⟩
    lift b to Nat using hb.nonneg hbytes
    have hle := (hgreatest b).1.1
    refine ⟨b, start + w.charAt (source.slice start stop) b, hb, ?_, rfl, by omega, by omega, ?_⟩
    · rw [Nat.add_sub_cancel_left]
    · rw [Nat.add_sub_cancel_left]
      exact hgreatest b
  · rintro ⟨b, p, hb, rfl, -, -, -, hp⟩
    exact ⟨_, ⟨b, hb, congrArg some (hp.unique (hgreatest b))⟩, rfl⟩

/-- An arrow between braces; it takes three bytes. -/
def Text.arrow : Text :=
  ['\x7b', '→', '\x7d']

/-- The third byte of a wrapped arrow is in the middle of it, so that the place is before it. -/
theorem ofTrees_error_arrow :
    Reader.require ((Grammar.ofTrees fun _ => .unfinished).expression (Text.arrow.slice 1 2))
        ⟨⟨1, 2, 2, none⟩, Text.arrow.slice 1 2⟩ ⟨2, ['\x7d']⟩ = .error (.rejected 1 2 (some 0)) ∧
      IsGreatest {k | k ≤ 1 ∧ (Text.arrow.slice 1 (1 + k : Nat)).utf8Encode.size ≤ 2} 0 := by
  have hreads : Reader.require ((Grammar.ofTrees fun _ => .unfinished).expression
        (Text.arrow.slice 1 2)) ⟨⟨1, 2, 2, none⟩, Text.arrow.slice 1 2⟩ ⟨2, ['\x7d']⟩
      = .error (.rejected 1 2 (some 0)) := by
    decide +kernel
  have hbyte : SyntaxTree.unfinished.firstErrorByte = some 3 := by decide +kernel
  have hbytes : ∀ t ∈ SyntaxTree.unfinished.preorder, 0 ≤ t.startByte := by decide +kernel
  obtain ⟨b, p, hb, hf, -, hstart, -, hgreatest⟩ :=
    (ofTrees_error_iff .expression (by decide) (by decide) hbytes).1 hreads
  have hplace : p - 1 = 0 := by injection hf with _ _ h; injection h with h; exact h.symm
  rcases hb with hb | ⟨hb, -⟩
  · rw [hbyte] at hb
    injection hb with hb
    obtain rfl : b = 3 := by omega
    rw [hplace] at hgreatest
    exact ⟨hreads, hgreatest⟩
  · rw [hbyte] at hb
    cases hb

end ComponentDivision
