/-
# Readers of a text that two longer texts share

A text stands in two longer texts. A reader that succeeds on it in the first one succeeds in the
second one in the same way, if it does not look past the end of the text. What keeps it from doing
so is a character that is still ahead: the brace or the angle bracket that ends the item which is
being read. Where the same text follows in both, nothing has to be ahead.

* `Shared` : a text that stands in two longer texts;
* `Likeness` : how what is read in one text corresponds to what is read in the other;
* `Reader.Carried` : a reader does the same in both texts, with such a character ahead;
* `Reader.Closed` : a reader takes this character itself, so that it needs none ahead;
* `Reader.Carried.bind`, `Reader.Carried.closed` : one reader after another;
* `carried_readExpressionAt`, `carried_readPattern` : expressions and patterns.
-/
import ComponentDivision.Proofs.Expression.Delimited
import ComponentDivision.Proofs.Template.Alike

namespace ComponentDivision

/-- A text that stands in two longer texts, and how the places of expressions in the first one
become places in the second one. -/
structure Shared where
  grammar : Grammar
  text : Text
  left : Surround
  right : Surround
  move : Expression → Expression
  place : ∀ {i j : Nat}, i ≤ j → j ≤ text.length →
    (Context.of grammar (right.text text)).place (i + right.before.length)
        (j + right.before.length)
      = move ((Context.of grammar (left.text text)).place (i + left.before.length)
          (j + left.before.length))

namespace Shared

/-- What reading the first text depends on. -/
def leftContext (S : Shared) : Context :=
  .of S.grammar (S.left.text S.text)

/-- What reading the second text depends on. -/
def rightContext (S : Shared) : Context :=
  .of S.grammar (S.right.text S.text)

/-! ## What is still ahead -/

/-- The character is still ahead, unless the same follows the text in both places. -/
def Pending (S : Shared) (x : Char) (c : Cursor) : Prop :=
  S.left.after = S.right.after ∨ x ∈ c.rest

/-- Something is left, unless the same follows the text in both places. -/
theorem Pending.rest_ne_nil {S : Shared} {x : Char} {c : Cursor} (h : S.Pending x c) :
    S.left.after = S.right.after ∨ c.rest ≠ [] :=
  h.imp_right List.ne_nil_of_mem

end Shared

/-- What is ahead of a later place is ahead of an earlier one. -/
theorem Cursor.Reaches.pending {S : Shared} {x : Char} {c d : Cursor} (h : c.Reaches d)
    (hd : S.Pending x d) : S.Pending x c := by
  obtain ⟨n, -, rfl⟩ := h
  exact hd.imp_right fun hx => List.mem_of_mem_drop hx

/-- How what is read in one text corresponds to what is read in another one. Everything
corresponds to something. -/
structure Likeness (α : Type) where
  rel : α → α → Prop
  total : ∀ a, ∃ b, rel a b

namespace Likeness

variable {α : Type}

/-- The same is read. -/
def same : Likeness α := ⟨Eq, fun a => ⟨a, rfl⟩⟩

/-- What is read does not matter. -/
def any : Likeness α := ⟨fun _ _ => True, fun a => ⟨a, trivial⟩⟩

/-- What is read is moved. -/
def moved (f : α → α) : Likeness α := ⟨fun a b => b = f a, fun a => ⟨f a, rfl⟩⟩

/-- Labels that are alike. -/
def label (move : Expression → Expression) : Likeness Label :=
  ⟨Label.Like move, fun l => ⟨_, l.like_gist move⟩⟩

/-- Nodes that are alike. -/
def node (move : Expression → Expression) : Likeness Node :=
  ⟨Node.Like move, fun n => ⟨_, n.like_gist move⟩⟩

/-- Nodes that are alike one by one. -/
def nodes (move : Expression → Expression) : Likeness (List Node) :=
  ⟨Node.AllLike move, fun ns => ⟨ns.map (Node.gist move), by
    rw [Node.AllLike, List.map_map]
    exact List.map_congr_left fun n _ => n.gist_gist move⟩⟩

end Likeness

/-- A delimited piece of script, in a longer text. -/
def Surround.delimited (w : Surround) (d : Delimited) : Delimited :=
  ⟨d.scan.shift w.before.length, d.text⟩

/-- The same piece of script of the text is delimited in both places. -/
def Shared.Twin (S : Shared) (d d' : Delimited) : Prop :=
  ∃ e, d = S.left.delimited e ∧ d' = S.right.delimited e ∧ e.scan.start ≤ e.scan.stop ∧
    e.scan.stop ≤ S.text.length

namespace Reader

variable {α β : Type} {S : Shared} {x : Char}

/-- The reader `r'` does in the second text what `r` does in the first one, if the character `x`
is ahead afterwards. -/
structure Carried (S : Shared) (x : Char) (R : α → α → Prop) (r r' : Reader α) : Prop where
  forward : Forward r
  move : ∀ {c a d}, c.On S.text → r (S.left.cursor c) = .ok (a, S.left.cursor d) →
    S.Pending x d → ∃ b, r' (S.right.cursor c) = .ok (b, S.right.cursor d) ∧ R a b

/-- The reader `r'` does in the second text what `r` does in the first one, whatever is ahead. -/
structure Settled (S : Shared) (R : α → α → Prop) (r r' : Reader α) : Prop where
  forward : Forward r
  move : ∀ {c a d}, c.On S.text → r (S.left.cursor c) = .ok (a, S.left.cursor d) →
    ∃ b, r' (S.right.cursor c) = .ok (b, S.right.cursor d) ∧ R a b

/-- A settled reader that succeeds only where the character `x` is ahead. -/
structure Closed (S : Shared) (x : Char) (R : α → α → Prop) (r r' : Reader α) : Prop
    extends Settled S R r r' where
  pending : ∀ {c a d}, c.On S.text → r (S.left.cursor c) = .ok (a, S.left.cursor d) →
    S.Pending x c

/-! ## One reader after another -/

section

variable {L : Likeness α} {R : α → α → Prop} {Q : β → β → Prop} {r r' : Reader α}
  {k k' : α → Reader β}

/-- Where the first of two readers ends, if the second one ends in the text. -/
theorem exists_of_bind {w : Surround} {c e : Cursor} {b : β} (hr : Forward r)
    (hk : ∀ a, Forward (k a)) (hok : (r >>= k) (w.cursor c) = .ok (b, w.cursor e)) :
    ∃ a d, r (w.cursor c) = .ok (a, w.cursor d) ∧ k a (w.cursor d) = .ok (b, w.cursor e) ∧
      c.Reaches d ∧ d.Reaches e := by
  obtain ⟨a, d, hra, hka⟩ := bind_eq_ok.1 hok
  obtain ⟨d, rfl, hcd, hde⟩ := Surround.exists_between (hr hra) (hk a hka)
  exact ⟨a, d, hra, hka, hcd, hde⟩

/-- What goes on from everything that corresponds moves forward. -/
theorem forward_of_total (hforward : ∀ a b, L.rel a b → Forward (k a)) (a : α) :
    Forward (k a) := by
  obtain ⟨b, hb⟩ := L.total a
  exact hforward a b hb

/-- One reader after another, if the second one moves forward in any case. -/
theorem Carried.bind_of (h : Carried S x R r r') (hforward : ∀ a, Forward (k a))
    (hk : ∀ a b, R a b → Carried S x Q (k a) (k' b)) :
    Carried S x Q (r >>= k) (r' >>= k') := by
  refine ⟨h.forward.bind hforward, fun {c b e} hc hok he => ?_⟩
  obtain ⟨a, d, hra, hka, hcd, hde⟩ := exists_of_bind h.forward hforward hok
  obtain ⟨a', hra', ha⟩ := h.move hc hra (hde.pending he)
  rw [bind_of_ok hra']
  exact (hk a a' ha).move (hcd.on hc) hka he

/-- **One carried reader after another.** -/
theorem Carried.bind (h : Carried S x L.rel r r')
    (hk : ∀ a b, L.rel a b → Carried S x Q (k a) (k' b)) :
    Carried S x Q (r >>= k) (r' >>= k') :=
  h.bind_of (forward_of_total fun a b hab => (hk a b hab).forward) hk

/-- A reader that takes the character ahead, after one that leaves it ahead, if it moves forward
in any case. -/
theorem Carried.closed_of (h : Carried S x R r r') (hforward : ∀ a, Forward (k a))
    (hk : ∀ a b, R a b → Closed S x Q (k a) (k' b))
    (hpending : ∀ {a c b d}, c.On S.text → k a (S.left.cursor c) = .ok (b, S.left.cursor d) →
      S.Pending x c) :
    Closed S x Q (r >>= k) (r' >>= k') := by
  refine ⟨⟨h.forward.bind hforward, fun {c b e} hc hok => ?_⟩, fun {c b e} hc hok => ?_⟩
  · obtain ⟨a, d, hra, hka, hcd, -⟩ := exists_of_bind h.forward hforward hok
    obtain ⟨a', hra', ha⟩ := h.move hc hra (hpending (hcd.on hc) hka)
    rw [bind_of_ok hra']
    exact (hk a a' ha).move (hcd.on hc) hka
  · obtain ⟨a, d, hra, hka, hcd, -⟩ := exists_of_bind h.forward hforward hok
    exact hcd.pending (hpending (hcd.on hc) hka)

/-- **A reader that takes the character ahead, after one that leaves it ahead.** -/
theorem Carried.closed (h : Carried S x L.rel r r')
    (hk : ∀ a b, L.rel a b → Closed S x Q (k a) (k' b)) :
    Closed S x Q (r >>= k) (r' >>= k') := by
  refine h.closed_of (forward_of_total fun a b hab => (hk a b hab).forward) hk
    fun {a c b d} hc hka => ?_
  obtain ⟨a', ha⟩ := L.total a
  exact (hk a a' ha).pending hc hka

theorem Settled.bind (h : Settled S L.rel r r')
    (hk : ∀ a b, L.rel a b → Settled S Q (k a) (k' b)) :
    Settled S Q (r >>= k) (r' >>= k') := by
  have hforward := forward_of_total fun a b hab => (hk a b hab).forward
  refine ⟨h.forward.bind hforward, fun {c b e} hc hok => ?_⟩
  obtain ⟨a, d, hra, hka, hcd, -⟩ := exists_of_bind h.forward hforward hok
  obtain ⟨a', hra', ha⟩ := h.move hc hra
  rw [bind_of_ok hra']
  exact (hk a a' ha).move (hcd.on hc) hka

/-- After the character ahead has been taken, nothing else has to be. -/
theorem Closed.bind (h : Closed S x L.rel r r')
    (hk : ∀ a b, L.rel a b → Settled S Q (k a) (k' b)) :
    Closed S x Q (r >>= k) (r' >>= k') := by
  have hforward := forward_of_total fun a b hab => (hk a b hab).forward
  refine ⟨h.toSettled.bind hk, fun {c b e} hc hok => ?_⟩
  obtain ⟨a, d, hra, -⟩ := exists_of_bind h.forward hforward hok
  exact h.pending hc hra

end

section

variable {R : α → α → Prop} {r r' s s' : Reader α}

theorem Settled.carried (h : Settled S R r r') : Carried S x R r r' :=
  ⟨h.forward, fun hc hok _ => h.move hc hok⟩

theorem Carried.ite {p : Prop} [Decidable p] (hr : Carried S x R r r')
    (hs : Carried S x R s s') : Carried S x R (if p then r else s) (if p then r' else s') := by
  split
  · exact hr
  · exact hs

theorem Settled.ite {p : Prop} [Decidable p] (hr : Settled S R r r') (hs : Settled S R s s') :
    Settled S R (if p then r else s) (if p then r' else s') := by
  split
  · exact hr
  · exact hs

theorem Closed.ite {p : Prop} [Decidable p] (hr : Closed S x R r r') (hs : Closed S x R s s') :
    Closed S x R (if p then r else s) (if p then r' else s') := by
  split
  · exact hr
  · exact hs

/-- A reader that always fails. -/
theorem Closed.of_error (hr : ∀ c a d, r c ≠ .ok (a, d)) : Closed S x R r r' :=
  ⟨⟨fun c a d h => absurd h (hr c a d), fun {_ a _} _ h => absurd h (hr _ a _)⟩,
    fun {_ a _} _ h => absurd h (hr _ a _)⟩

theorem closed_fail (cause : Cause) : Closed S x R (fail cause) r' :=
  .of_error fun _ _ _ => nofun

theorem closed_failAt (cause : Cause) (n : Nat) : Closed S x R (failAt cause n) r' :=
  .of_error fun _ _ _ => nofun

theorem carried_fail (cause : Cause) : Carried S x R (fail cause) r' :=
  (closed_fail (x := x) cause).carried

theorem carried_failAt (cause : Cause) (n : Nat) : Carried S x R (failAt cause n) r' :=
  (closed_failAt (x := x) cause n).carried

/-- A condition without which the first reader fails. -/
theorem Closed.guard {p p' : Prop} [Decidable p] [Decidable p'] {cause cause' : Cause} {n n' : Nat}
    (hp : p → p') (hr : p → Closed S x R r r') :
    Closed S x R (if p then r else failAt cause n) (if p' then r' else failAt cause' n') := by
  by_cases h : p
  · rw [if_pos h, if_pos (hp h)]
    exact hr h
  · rw [if_neg h]
    exact closed_failAt cause n

theorem Settled.pure {a b : α} (h : R a b) : Settled S R (pure a) (pure b) := by
  refine ⟨Forward.pure a, fun {c a' d} _ hok => ?_⟩
  obtain ⟨rfl, hcursor⟩ := pure_eq_ok.1 hok
  obtain rfl := Surround.eq_of_cursor hcursor
  exact ⟨b, rfl, h⟩

theorem Carried.pure {a b : α} (h : R a b) : Carried S x R (pure a) (pure b) :=
  (Settled.pure h).carried

theorem settled_ofExcept {e e' : Except Misread α}
    (h : ∀ a, e = .ok a → ∃ b, e' = .ok b ∧ R a b) :
    Settled S R (ofExcept e) (ofExcept e') := by
  refine ⟨forward_ofExcept e, fun {c a d} _ hok => ?_⟩
  obtain ⟨he, hcursor⟩ := ofExcept_eq_ok.1 hok
  obtain rfl := Surround.eq_of_cursor hcursor
  obtain ⟨b, rfl, hb⟩ := h a he
  exact ⟨b, rfl, hb⟩

end

/-! ## Characters -/

theorem settled_position : Settled S Likeness.any.rel position position := by
  refine ⟨forward_position, fun {c a d} _ hok => ?_⟩
  obtain ⟨-, hcursor⟩ := position_eq_ok.1 hok
  obtain rfl := Surround.eq_of_cursor hcursor
  exact ⟨_, rfl, trivial⟩

/-- A text that goes on begins in one way, whatever follows it. -/
theorem head?_swap {u t t' : Text} (h : t = t' ∨ u ≠ []) : (u ++ t').head? = (u ++ t).head? := by
  rcases h with rfl | h
  · rfl
  · obtain ⟨y, ys, rfl⟩ := List.exists_cons_of_ne_nil h
    rfl

theorem carried_peek? : Carried S x Likeness.same.rel peek? peek? := by
  refine ⟨forward_peek?, fun {c a d} _ hok hd => ?_⟩
  obtain ⟨rfl, hcursor⟩ := Prod.mk.inj (Except.ok.inj hok)
  obtain rfl := Surround.eq_of_cursor hcursor
  refine ⟨_, rfl, ?_⟩
  show (c.rest ++ S.left.after).head? = (c.rest ++ S.right.after).head?
  exact (head?_swap hd.rest_ne_nil).symm

/-- The characters from the front that have a property, if another one follows them in the text. -/
theorem takeWhile_swap {p : Char → Bool} {u t t' : Text}
    (h : t = t' ∨ ((u ++ t).takeWhile p).length < u.length) :
    (u ++ t').takeWhile p = (u ++ t).takeWhile p := by
  rcases h with rfl | h
  · rfl
  · have hlength : (u.takeWhile p).length ≠ u.length := by
      intro hall
      rw [List.takeWhile_append, if_pos hall, List.length_append] at h
      omega
    rw [List.takeWhile_append, if_neg hlength, List.takeWhile_append, if_neg hlength]

/-- Passing over such characters ends inside the text. -/
theorem takeWhile_right {p : Char → Bool} {c d : Cursor}
    (h : (S.left.cursor c).advance ((S.left.cursor c).rest.takeWhile p).length = S.left.cursor d)
    (hd : S.left.after = S.right.after ∨ d.rest ≠ []) :
    (S.right.cursor c).rest.takeWhile p = (S.left.cursor c).rest.takeWhile p ∧
      (S.right.cursor c).advance ((S.left.cursor c).rest.takeWhile p).length
        = S.right.cursor d := by
  obtain ⟨hle, rfl⟩ := Surround.advance_of_cursor (List.takeWhile_prefix p).length_le h
  refine ⟨takeWhile_swap (hd.imp_right fun hne => ?_), (S.right.cursor_advance hle).symm⟩
  have hpos := List.length_pos_iff.2 hne
  simp only [Cursor.advance, List.length_drop] at hpos
  simp only [Surround.cursor] at hpos ⊢
  omega

theorem carried_takeWhile (p : Char → Bool) :
    Carried S x Likeness.same.rel (takeWhile p) (takeWhile p) := by
  refine ⟨forward_takeWhile p, fun {c a d} _ hok hd => ?_⟩
  obtain ⟨rfl, hcursor⟩ := Prod.mk.inj (Except.ok.inj hok)
  obtain ⟨htake, hplace⟩ := takeWhile_right hcursor hd.rest_ne_nil
  refine ⟨_, ?_, rfl⟩
  rw [takeWhile, htake, hplace]

/-- A text without the character ahead begins in both places or in none. -/
theorem carried_eat {t : Text} (ht : x ∉ t) : Carried S x Likeness.same.rel (eat t) (eat t) := by
  refine ⟨forward_eat t, fun {c a d} _ hok hd => ?_⟩
  unfold eat at hok
  split at hok
  · rename_i hp
    rw [List.isPrefixOf_iff_prefix] at hp
    obtain ⟨rfl, hcursor⟩ := Prod.mk.inj (Except.ok.inj hok)
    obtain ⟨hle, rfl⟩ := Surround.advance_of_cursor hp.length_le hcursor
    have hp' : t <+: c.rest := List.prefix_of_prefix_length_le hp (List.prefix_append _ _) hle
    refine ⟨true, ?_, rfl⟩
    rw [S.right.cursor_advance hle]
    exact if_pos (List.isPrefixOf_iff_prefix.2 (hp'.trans (List.prefix_append _ _)))
  · rename_i hp
    obtain ⟨rfl, hcursor⟩ := Prod.mk.inj (Except.ok.inj hok)
    obtain rfl := Surround.eq_of_cursor hcursor
    refine ⟨false, if_neg fun hright => hp ?_, rfl⟩
    rw [List.isPrefixOf_iff_prefix] at hright ⊢
    rcases hd with hd | hd
    · rw [Surround.cursor] at hright ⊢
      rwa [hd]
    · rcases List.prefix_or_prefix_of_prefix hright (List.prefix_append _ _) with h | h
      · exact h.trans (List.prefix_append _ _)
      · exact absurd (h.subset hd) ht

theorem carried_skipBlank : Carried S x Likeness.same.rel skipBlank skipBlank :=
  (carried_takeWhile isBlank).bind fun _ _ _ => .pure rfl

theorem carried_word : Carried S x Likeness.same.rel word word :=
  carried_takeWhile _

/-- What is expected is there. -/
theorem expect_eq_ok {t : Text} {c d : Cursor} {u : Unit} :
    expect t c = .ok (u, d) ↔ t <+: c.rest ∧ d = c.advance t.length := by
  unfold expect
  by_cases h : t.isPrefixOf c.rest
  · have heat : eat t c = .ok (true, c.advance t.length) := if_pos h
    rw [bind_of_ok heat, if_pos rfl, pure_eq_ok, and_iff_right (Subsingleton.elim _ _),
      and_iff_right (List.isPrefixOf_iff_prefix.1 h), eq_comm]
  · have heat : eat t c = .ok (false, c) := if_neg h
    rw [bind_of_ok heat, ← List.isPrefixOf_iff_prefix, if_neg nofun]
    refine iff_of_false (fun hok => ?_) fun hp => h hp.1
    obtain ⟨b, e, -, hfail⟩ := bind_eq_ok.1 hok
    split at hfail <;> cases hfail

/-- What is expected and ends inside the text is a part of the text. -/
theorem prefix_of_expect {w : Surround} {t : Text} {c d : Cursor} {u : Unit}
    (h : expect t (w.cursor c) = .ok (u, w.cursor d)) : t <+: c.rest ∧ d = c.advance t.length := by
  obtain ⟨hp, hcursor⟩ := expect_eq_ok.1 h
  obtain ⟨hle, rfl⟩ := Surround.advance_of_cursor hp.length_le hcursor.symm
  exact ⟨List.prefix_of_prefix_length_le hp (List.prefix_append _ _) hle, rfl⟩

theorem settled_expect (t : Text) : Settled S Likeness.same.rel (expect t) (expect t) := by
  refine ⟨forward_expect t, fun {c _ d} _ hok => ?_⟩
  obtain ⟨hp, rfl⟩ := prefix_of_expect hok
  refine ⟨(), expect_eq_ok.2 ⟨hp.trans (List.prefix_append _ _), ?_⟩, rfl⟩
  exact S.right.cursor_advance hp.length_le

theorem carried_expect (t : Text) : Carried S x Likeness.same.rel (expect t) (expect t) :=
  (settled_expect t).carried

theorem closed_expect : Closed S x Likeness.same.rel (expect [x]) (expect [x]) := by
  refine ⟨settled_expect [x], fun _ hok => .inr ?_⟩
  obtain ⟨⟨t, ht⟩, -⟩ := prefix_of_expect hok
  rw [← ht]
  exact List.mem_cons_self

theorem carried_requireBlank : Carried S x Likeness.same.rel requireBlank requireBlank :=
  carried_peek?.bind fun
    | none, _, rfl => carried_fail _
    | some _, _, rfl => carried_skipBlank.ite (carried_fail _)

/-! ## Expressions and patterns -/

variable {d d' : Delimited}

theorem empty_of_twin (h : S.Twin d d') : d'.scan.empty = d.scan.empty := by
  obtain ⟨e, rfl, rfl, -⟩ := h
  simp [Surround.delimited, Scan.shift, Scan.empty]

theorem text_of_twin (h : S.Twin d d') : d'.text = d.text := by
  obtain ⟨e, rfl, rfl, -⟩ := h
  rfl

/-- **What is delimited does not depend on what follows the text**, if a character is ahead that
ends a word. -/
theorem carried_delimited {options : ScanOptions} (hslash : '/' ∉ options.terminators)
    (hx : isWordChar x = false) :
    Carried S x S.Twin (delimited options) (delimited options) := by
  refine ⟨forward_delimited options, fun {c a d} hc hok hd => ?_⟩
  unfold delimited at hok
  split at hok
  · cases hok
  · rename_i s hs
    obtain ⟨⟨hle, hstop, -⟩, hnext⟩ := scan_bounds hs
    obtain ⟨rfl, hcursor⟩ := Prod.mk.inj (Except.ok.inj hok)
    obtain ⟨hinside, rfl⟩ := Surround.advance_of_cursor (Nat.le_of_lt hnext) hcursor
    -- the scan ends before the character that is ahead, and what follows that does not matter
    have hright : scan options (c.rest ++ S.right.after) = .ok s := by
      rcases hd with hd | hd
      · rw [← hd]
        exact hs
      · have hlt : s.next < c.rest.length := by
          have hpos := List.length_pos_of_mem hd
          simp only [Cursor.advance, List.length_drop] at hpos
          omega
        exact scan_swap hs hlt hslash (.inr ⟨x, hd, hx⟩)
    have htext (w : Surround) : ((w.cursor c).rest.drop s.start).take (s.stop - s.start)
        = (c.rest.drop s.start).take (s.stop - s.start) := by
      rw [Surround.cursor, List.drop_append_of_le_length (by omega),
        List.take_append_of_le_length]
      rw [List.length_drop]
      omega
    have hshift (w : Surround) : s.shift (w.cursor c).pos
        = (s.shift c.pos).shift w.before.length := by
      simp only [Scan.shift, Surround.cursor, Nat.add_assoc]
    refine ⟨⟨s.shift (S.right.cursor c).pos, (c.rest.drop s.start).take (s.stop - s.start)⟩, ?_,
      ⟨s.shift c.pos, (c.rest.drop s.start).take (s.stop - s.start)⟩, ?_, ?_, ?_⟩
    · rw [S.right.cursor_advance hinside, ← htext S.right]
      simp only [delimited]
      rw [show (S.right.cursor c).rest = c.rest ++ S.right.after from rfl, hright]
    · rw [htext, hshift]
      rfl
    · rw [hshift]
      rfl
    · have hend := ((Cursor.reaches_advance hinside).on hc).pos_le
      simp only [Scan.shift, Cursor.advance] at hend ⊢
      omega

theorem settled_require (v : Verdict) (d d' : Delimited) :
    Settled S Likeness.same.rel (require v d) (require v d') := by
  refine ⟨forward_require v d, fun {c a e} _ hok => ?_⟩
  unfold require at hok
  split at hok
  · obtain ⟨rfl, hcursor⟩ := Prod.mk.inj (Except.ok.inj hok)
    obtain rfl := Surround.eq_of_cursor hcursor
    exact ⟨(), rfl, rfl⟩
  · cases hok

/-- A checked expression is moved. -/
theorem settled_checked (h : S.Twin d d') :
    Settled S (Likeness.moved S.move).rel (checked S.leftContext d)
      (checked S.rightContext d') := by
  obtain ⟨e, rfl, rfl, hstart, hstop⟩ := h
  exact (settled_require _ _ _).bind fun _ _ _ => .pure (S.place hstart hstop)

theorem carried_readExpressionAt {options : ScanOptions} (hslash : '/' ∉ options.terminators)
    (hx : isWordChar x = false) :
    Carried S x (Likeness.moved S.move).rel (readExpressionAt S.leftContext options)
      (readExpressionAt S.rightContext options) :=
  (carried_delimited hslash hx).bind_of (forward_checked _) fun _ _ h =>
    (settled_checked h).carried

theorem carried_readPattern {terminators : Text} (hslash : '/' ∉ terminators)
    (hx : isWordChar x = false) :
    Carried S x Likeness.same.rel (readPattern S.leftContext terminators)
      (readPattern S.rightContext terminators) := by
  refine (carried_delimited hslash hx).bind_of (fun d => ?_) fun d d' h => ?_
  · exact (Forward.pure _).ite ((forward_require _ d).bind fun _ => Forward.pure _)
  · rw [empty_of_twin h, text_of_twin h]
    exact Carried.ite (.pure rfl) ((settled_require _ d d').carried.bind fun _ _ _ => .pure rfl)

end Reader

end ComponentDivision
