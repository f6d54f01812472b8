/-
# Readers with and without a grammar

Two readers side by side: a strict one, which asks a grammar, and a lenient one, which
asks the grammar that accepts everything. The strict reader is the lenient one with a
gate: it succeeds exactly if the lenient one does with the same result and the grammar
accepts what the result records more than was recorded before.

* `Reader.Gated` : the strict reader is the lenient one with a gate;
* `Reader.Gated.bind` : one gated reader after another;
* `gated_readExpressionAt`, `gated_readPattern` : where a grammar is asked;
* `gated_attributes` : the attributes of a start tag.
-/
import ComponentDivision.Proofs.Template.Approval

namespace ComponentDivision

/-- The context of a text that is read with a grammar. -/
abbrev Context.of (grammar : Grammar) (source : Text) : Context :=
  ⟨grammar, source.lineStarts⟩

/-- The cursor is a place in `source` with at most `n` characters left. -/
structure Cursor.Left (source : Text) (n : Nat) (c : Cursor) : Prop where
  on : c.On source
  le : c.rest.length ≤ n

/-- Moving forward leaves no more characters. -/
theorem Cursor.Reaches.left {source : Text} {n : Nat} {c d : Cursor} (h : c.Reaches d)
    (hc : c.Left source n) : d.Left source n :=
  ⟨h.on hc.on, Nat.le_trans h.length_le hc.le⟩

namespace Reader

variable {α β : Type} {source : Text} {n : Nat}

/-! ## Gates -/

/-- The strict reader is the lenient one with a gate, where at most `n` characters are left:
what held `before` and the success of the strict reader are the success of the lenient one and
what has to hold `after`. -/
structure Gated (source : Text) (n : Nat) (before : Prop) (after : α → Prop)
    (strict lenient : Reader α) : Prop where
  left : ∀ {c a d}, c.Left source n → lenient c = .ok (a, d) → d.Left source n
  ok_iff : ∀ {c a d}, c.Left source n →
    (before ∧ strict c = .ok (a, d) ↔ after a ∧ lenient c = .ok (a, d))

section

variable {P P' : Prop} {Q : α → Prop} {R : β → Prop} {r s : Reader α} {f g : α → Reader β}

/-- A reader that asks no grammar, by what its results record. -/
theorem Gated.of_ok (hr : Forward r)
    (h : ∀ {c a d}, r c = .ok (a, d) → (P ↔ Q a)) : Gated source n P Q r r := by
  refine ⟨fun hc hok => (hr hok).left hc, fun _ => ⟨?_, ?_⟩⟩
  · rintro ⟨hp, hok⟩
    exact ⟨(h hok).1 hp, hok⟩
  · rintro ⟨hq, hok⟩
    exact ⟨(h hok).2 hq, hok⟩

/-- A result that was found without reading. -/
theorem Gated.pure {a : α} (h : P ↔ Q a) : Gated source n P Q (pure a) (pure a) := by
  refine .of_ok (Forward.pure a) fun hok => ?_
  obtain ⟨rfl, -⟩ := pure_eq_ok.1 hok
  exact h

theorem Gated.fail (cause : Cause) : Gated source n P Q (fail cause) (fail cause) :=
  .of_ok (forward_fail cause) nofun

theorem Gated.failAt (cause : Cause) (i : Nat) :
    Gated source n P Q (failAt cause i) (failAt cause i) :=
  .of_ok (forward_failAt cause i) nofun

/-- One reader after another, with a fact about what the first one gives. -/
theorem Gated.bind_of {F : α → Prop} (h : Gated source n P Q r s)
    (hfact : ∀ {c a d}, c.Left source n → s c = .ok (a, d) → F a)
    (hf : ∀ a, F a → Gated source n (Q a) R (f a) (g a)) :
    Gated source n P R (r >>= f) (s >>= g) := by
  refine ⟨fun hc hok => ?_, fun {c b e} hc => ?_⟩
  · obtain ⟨a, d, hs, hg⟩ := bind_eq_ok.1 hok
    exact (hf a (hfact hc hs)).left (h.left hc hs) hg
  rw [bind_eq_ok, bind_eq_ok]
  constructor
  · rintro ⟨hp, a, d, hr, hfa⟩
    obtain ⟨hq, hs⟩ := (h.ok_iff hc).1 ⟨hp, hr⟩
    obtain ⟨hb, hg⟩ := ((hf a (hfact hc hs)).ok_iff (h.left hc hs)).1 ⟨hq, hfa⟩
    exact ⟨hb, a, d, hs, hg⟩
  · rintro ⟨hb, a, d, hs, hg⟩
    obtain ⟨hq, hfa⟩ := ((hf a (hfact hc hs)).ok_iff (h.left hc hs)).2 ⟨hb, hg⟩
    obtain ⟨hp, hr⟩ := (h.ok_iff hc).2 ⟨hq, hs⟩
    exact ⟨hp, a, d, hr, hfa⟩

/-- **One gated reader after another.** -/
theorem Gated.bind (h : Gated source n P Q r s) (hf : ∀ a, Gated source n (Q a) R (f a) (g a)) :
    Gated source n P R (r >>= f) (s >>= g) :=
  h.bind_of (F := fun _ => True) (fun _ _ => trivial) fun a _ => hf a

/-- A gated reader after one that asks no grammar and records nothing. -/
theorem Forward.gated (hr : Forward r) (hf : ∀ a, Gated source n P R (f a) (g a)) :
    Gated source n P R (r >>= f) (r >>= g) :=
  (Gated.of_ok (Q := fun _ => P) hr fun _ => Iff.rfl).bind hf

theorem Gated.ite {p : Prop} [Decidable p] {r' s' : Reader α}
    (h : p → Gated source n P Q r s) (h' : ¬ p → Gated source n P Q r' s') :
    Gated source n P Q (if p then r else r') (if p then s else s') := by
  by_cases hp : p
  · rw [if_pos hp, if_pos hp]
    exact h hp
  · rw [if_neg hp, if_neg hp]
    exact h' hp

/-- What held before may be said in another way. -/
theorem Gated.congr_before (hp : P ↔ P') (h : Gated source n P' Q r s) : Gated source n P Q r s :=
  ⟨h.left, fun hc => by rw [hp]; exact h.ok_iff hc⟩

end

/-! ## Expressions and patterns -/

variable {grammar : Grammar} {P : Prop}

/-- The text that is delimited is the slice of the source there. -/
theorem delimited_text {options : ScanOptions} {c d : Cursor} {x : Delimited} (hc : c.On source)
    (h : delimited options c = .ok (x, d)) : x.text = source.slice x.scan.start x.scan.stop := by
  have hd := (forward_delimited options h).on hc
  obtain ⟨-, hordered, hnext⟩ := delimited_bounds h
  have hle := hordered.start_le
  have hstop := hordered.stop_le
  have hlen := hd.pos_le
  unfold delimited at h
  split at h
  · cases h
  · rename_i s hs
    cases h
    simp only [Scan.shift] at hle hstop hnext ⊢
    have hslice := Text.slice_natCast_add (t := source) (i := s.start + c.pos) (s.stop - s.start)
      (by omega)
    rw [show s.start + c.pos + (s.stop - s.start) = s.stop + c.pos by omega] at hslice
    rw [hslice, hc.rest_eq, List.drop_drop, Nat.add_comm c.pos]

/-- What is delimited lies in the text. -/
theorem delimited_inside {options : ScanOptions} {c d : Cursor} {x : Delimited} (hc : c.On source)
    (h : delimited options c = .ok (x, d)) : x.scan.start + x.text.length ≤ source.length := by
  obtain ⟨-, hordered, hnext⟩ := delimited_bounds h
  have hd := ((forward_delimited options h).on hc).pos_le
  have hle := hordered.start_le
  have hstop := hordered.stop_le
  have hlen := Text.length_slice (t := source) (i := x.scan.start) (j := x.scan.stop) (by omega)
    (by omega) (by omega)
  rw [← delimited_text hc h] at hlen
  omega

/-- A verdict lets through what is accepted. -/
theorem gated_require (v : Verdict) (x : Delimited) :
    Gated source n P (fun _ => P ∧ v = .accepted) (require v x) (require .accepted x) := by
  refine ⟨fun hc hok => (forward_require _ x hok).left hc, fun {c _ d} _ => ?_⟩
  cases v with
  | accepted => simp
  | rejected offset => simp [require]

/-- The grammar is asked about a delimited expression. -/
theorem gated_checked {x : Delimited} (hx : x.text = source.slice x.scan.start x.scan.stop) :
    Gated source n P (fun e => P ∧ grammar.Accepts source e)
      (checked (.of grammar source) x) (checked (.of .permissive source) x) := by
  refine (gated_require (grammar.expression x.text) x).bind fun _ => .pure ?_
  rw [hx]
  rfl

/-- The grammar is asked about an expression that is read. -/
theorem gated_readExpressionAt (options : ScanOptions) :
    Gated source n P (fun e => P ∧ grammar.Accepts source e)
      (readExpressionAt (.of grammar source) options)
      (readExpressionAt (.of .permissive source) options) :=
  (Gated.of_ok (Q := fun _ => P) (forward_delimited options) fun _ => Iff.rfl).bind_of
    (fun hc hx => delimited_text hc.on hx) fun _ hx => gated_checked hx

/-- The grammar is asked about a pattern that is read. -/
theorem gated_readPattern (terminators : Text) :
    Gated source n P (fun pattern => P ∧ ∀ p ∈ pattern, grammar.pattern p = .accepted)
      (readPattern (.of grammar source) terminators)
      (readPattern (.of .permissive source) terminators) := by
  refine (forward_delimited _).gated fun x => Gated.ite (fun _ => .pure ?_) fun _ => ?_
  · simp
  · refine (gated_require (grammar.pattern x.text) x).bind fun _ => .pure ?_
    simp

/-! ## Values -/

/-- An expression in the braces of a value. -/
theorem gated_valueMustache (start : Nat) :
    Gated source n P (fun chunk => P ∧ chunk.Approved grammar source)
      (valueMustache (.of grammar source) start)
      (valueMustache (.of .permissive source) start) := by
  refine forward_skipBlank.gated fun _ => forward_refuseTag.gated fun _ =>
    (gated_readExpressionAt {}).bind fun e => (forward_expect _).gated fun _ =>
      forward_position.gated fun stop => .pure ?_
  rw [Node.approved_leaf, Label.approved_iff]
  simp

/-- The text that a value begins with, as a chunk if there is any. -/
def valueText (quote : Option Char) (c : Cursor) : List Node :=
  if valueTextLength quote c.rest = 0 then []
  else [.ofText c.pos (c.rest.take (valueTextLength quote c.rest))]

theorem approved_valueText (quote : Option Char) (c : Cursor) :
    ∀ p ∈ valueText quote c, p.Approved grammar source := by
  intro p hp
  unfold valueText at hp
  split at hp
  · cases hp
  · rw [List.mem_singleton.1 hp]
    exact Node.approved_bare rfl rfl

/-- The braces of a value that follow the chunks `text`, and all that follows them. -/
def valueTail (ctx : Context) (quote : Option Char) (start : Nat) (text : List Node) :
    Reader (List Node) := do
  let chunk ← valueMustache ctx start
  let more ← valueChunks ctx quote
  return text ++ chunk :: more

section

variable {ctx : Context} {quote : Option Char} {c d : Cursor}

/-- A value that the text ends in is not read. -/
theorem valueChunks_of_nil (hd : c.advance (valueTextLength quote c.rest) = d)
    (hrest : d.rest = []) :
    valueChunks ctx quote c = .error (.misread ⟨.unexpectedEnd, d.pos⟩) := by
  subst hd
  rw [valueChunks]
  split
  · rfl
  · rename_i hcons
    cases hcons.symm.trans hrest

/-- After its text a value ends, or there are braces and then more chunks. -/
theorem valueChunks_of_cons {ch : Char} {cs : Text}
    (hd : c.advance (valueTextLength quote c.rest) = d) (hrest : d.rest = ch :: cs) :
    valueChunks ctx quote c =
      if endsValue quote ch cs then .ok (valueText quote c, d)
      else valueTail ctx quote d.pos (valueText quote c) (d.advance 1) := by
  subst hd
  rw [valueChunks]
  split
  · rename_i hnil
    cases hnil.symm.trans hrest
  · rename_i hcons
    cases hcons.symm.trans hrest
    by_cases hends : endsValue quote ch cs = true
    · rw [if_pos hends, if_pos hends]
      rfl
    · rw [if_neg hends, if_neg hends]
      simp only [valueTail, Bind.bind, Pure.pure]
      split
      · rename_i herror
        rw [herror]
      · rename_i chunk e hok
        rw [hok]
        dsimp only
        cases valueChunks ctx quote e <;> rfl

end

/-- The place after the next character has fewer characters left. -/
theorem left_next {c d : Cursor} {ch : Char} {cs : Text} (hc : c.Left source (n + 1))
    (hcd : c.Reaches d) (hrest : d.rest = ch :: cs) : (d.advance 1).Left source n := by
  have hd := hcd.left hc
  have hnext : d.Reaches (d.advance 1) := Cursor.reaches_advance (by simp [hrest])
  refine ⟨hnext.on hd.on, ?_⟩
  have hle := hd.le
  simp only [Cursor.advance, List.length_drop]
  omega

/-- The chunks of a value. -/
theorem gated_valueChunks (quote : Option Char) :
    Gated source n P (fun chunks => P ∧ ∀ p ∈ chunks, p.Approved grammar source)
      (valueChunks (.of grammar source) quote) (valueChunks (.of .permissive source) quote) := by
  induction n generalizing P with
  | zero =>
    refine ⟨fun hc hok => (forward_valueChunks _ quote hok).left hc, fun {c chunks d} hc => ?_⟩
    have hrest : (c.advance (valueTextLength quote c.rest)).rest = [] := by
      have hle := hc.le
      simp only [Cursor.advance, List.drop_eq_nil_iff]
      omega
    rw [valueChunks_of_nil rfl hrest, valueChunks_of_nil rfl hrest]
    simp
  | succ n ih =>
    refine ⟨fun hc hok => (forward_valueChunks _ quote hok).left hc, fun {c chunks d} hc => ?_⟩
    have htext : ∀ p ∈ valueText quote c, p.Approved grammar source := approved_valueText quote c
    have hreach := Cursor.reaches_advance (valueTextLength_le quote c.rest)
    cases hrest : (c.advance (valueTextLength quote c.rest)).rest with
    | nil =>
      rw [valueChunks_of_nil rfl hrest, valueChunks_of_nil rfl hrest]
      simp
    | cons ch cs =>
      rw [valueChunks_of_cons rfl hrest, valueChunks_of_cons rfl hrest]
      by_cases hends : endsValue quote ch cs = true
      · rw [if_pos hends, if_pos hends]
        constructor
        · rintro ⟨hp, ⟨⟩⟩
          exact ⟨⟨hp, htext⟩, rfl⟩
        · rintro ⟨⟨hp, -⟩, hok⟩
          exact ⟨hp, hok⟩
      · rw [if_neg hends, if_neg hends]
        have htail (start : Nat) : Gated source n P
            (fun chunks => P ∧ ∀ p ∈ chunks, p.Approved grammar source)
            (valueTail (.of grammar source) quote start (valueText quote c))
            (valueTail (.of .permissive source) quote start (valueText quote c)) := by
          refine (gated_valueMustache start).bind fun chunk => ih.bind fun more => .pure ?_
          rw [List.forall_mem_append, List.forall_mem_cons, and_iff_right htext, and_assoc]
        exact (htail _).ok_iff (left_next hc hreach hrest)

/-- The value of an attribute. -/
theorem gated_attributeValue :
    Gated source n P (fun chunks => P ∧ ∀ p ∈ chunks, p.Approved grammar source)
      (attributeValue (.of grammar source)) (attributeValue (.of .permissive source)) := by
  refine forward_peek?.gated fun q => ?_
  cases q with
  | none => exact .fail _
  | some q =>
    refine Gated.ite (fun _ => ?_) fun _ => ?_
    · exact (forward_eat _).gated fun _ => (gated_valueChunks _).bind fun chunks =>
        (forward_eat _).gated fun _ => .pure Iff.rfl
    · exact (gated_valueChunks _).bind fun chunks =>
        Gated.ite (fun _ => .fail _) fun _ => .pure Iff.rfl

/-! ## Attributes -/

/-- An attribute has no pattern. -/
theorem patterns_of_namedAttribute {name : Text} {start stop : Nat} {value : Option (List Node)}
    {a : Node} (h : namedAttribute name start stop value = .ok a) : a.label.patterns = [] := by
  simp only [namedAttribute] at h
  split at h
  · split at h
    · cases h
      rfl
    · cases h
      rfl
    · cases h
    · split at h
      · cases h
        rfl
      · cases h
  · cases h
    rfl

/-- **An attribute without braces records what its value does**: the chunks of the value, or
the expression that is the value of a directive. -/
theorem approved_namedAttribute {name : Text} {start stop : Nat} (value : Option (List Node))
    {a : Node} (hvalue : ∀ p ∈ value.getD [], p.IsChunk)
    (h : namedAttribute name start stop value = .ok a) :
    a.Approved grammar source ↔ ∀ p ∈ value.getD [], p.Approved grammar source := by
  have hpatterns := patterns_of_namedAttribute h
  obtain ⟨label, -, -, -, hkey, ⟨hnone, rfl⟩ | ⟨chunk, rfl, rfl, hexpr⟩⟩ := namedAttribute_eq_ok h
  · have hlabel : label.Approved grammar source := by
      have hpatterns : label.patterns = [] := hpatterns
      refine Label.approved_of_nil ?_ hpatterns
      rw [Label.embedded, hnone, hkey]
      rfl
    rw [Node.approved_valued, and_iff_right hlabel]
  · have hpatterns : label.patterns = [] := hpatterns
    have hchunk := hvalue chunk (List.mem_singleton_self chunk)
    have hlabel : label.Approved grammar source ↔
        ∀ e ∈ chunk.label.expression, grammar.Accepts source e := by
      unfold Label.Approved Label.embedded
      rw [hexpr, hkey, hpatterns]
      simp
    rw [Node.approved_leaf, hlabel, Option.getD_some, List.forall_mem_singleton,
      hchunk.approved_iff]

/-- An attribute in braces. -/
theorem gated_bracedAttribute (start : Nat) :
    Gated source n P (fun a => P ∧ a.Approved grammar source)
      (bracedAttribute (.of grammar source) start)
      (bracedAttribute (.of .permissive source) start) := by
  refine forward_skipBlank.gated fun _ => (forward_eat _).gated fun _ =>
    Gated.ite (fun _ => ?_) fun _ => ?_
  · refine (gated_readExpressionAt {}).bind fun e => (forward_expect _).gated fun _ =>
      forward_position.gated fun stop => .pure ?_
    rw [Node.approved_leaf, Label.approved_iff]
    simp
  · refine (Gated.of_ok (Q := fun _ => P) (forward_delimited {}) fun _ => Iff.rfl).bind_of
      (fun hc hx => delimited_text hc.on hx) fun x hx => ?_
    refine Gated.ite (fun _ => ?_) fun _ => .failAt _ _
    refine (forward_expect _).gated fun _ => (gated_checked hx).bind fun e =>
      forward_position.gated fun stop => .pure ?_
    rw [Node.approved_valued, Option.getD_some, List.forall_mem_singleton, Node.approved_leaf,
      Label.approved_iff, Label.approved_iff]
    simp

/-- An attribute without braces. -/
theorem gated_unbracedAttribute (start : Nat) (first : Char) :
    Gated source n P (fun a => P ∧ a.Approved grammar source)
      (unbracedAttribute (.of grammar source) start first)
      (unbracedAttribute (.of .permissive source) start first) := by
  refine (forward_takeWhile _).gated fun more => forward_valueFollows.gated fun _ =>
    Gated.ite (fun _ => ?_) fun _ => ?_
  · refine forward_skipBlank.gated fun _ => (forward_eat _).gated fun _ =>
      forward_skipBlank.gated fun _ => ?_
    refine gated_attributeValue.bind_of (fun _ hok => isChunk_of_attributeValue hok)
      fun value hvalue => forward_position.gated fun stop => ?_
    refine .of_ok (forward_ofExcept _) fun hok => ?_
    rw [approved_namedAttribute (some value) hvalue (ofExcept_eq_ok.1 hok).1]
    rfl
  · refine forward_position.gated fun stop => .of_ok (forward_ofExcept _) fun hok => ?_
    rw [approved_namedAttribute none (fun _ h => absurd h List.not_mem_nil)
      (ofExcept_eq_ok.1 hok).1]
    simp

/-- An attribute. -/
theorem gated_oneAttribute (start : Nat) (first : Char) :
    Gated source n P (fun a => P ∧ a.Approved grammar source)
      (oneAttribute (.of grammar source) start first)
      (oneAttribute (.of .permissive source) start first) :=
  Gated.ite (fun _ => gated_bracedAttribute start) fun _ =>
    Gated.ite (fun _ => .failAt _ _) fun _ => gated_unbracedAttribute start first

/-- An attribute at `start`, where the names `seen` are taken, and all that follow it. -/
def attributesTail (ctx : Context) (seen : List Text) (start : Nat) (first : Char) :
    Reader (List Node) := do
  let a ← oneAttribute ctx start first
  let seen ← ofExcept (seeAttribute seen a)
  let as ← attributes ctx seen
  return a :: as

section

variable {ctx : Context} {seen : List Text} {c d : Cursor}

/-- Attributes that the text ends in are not read. -/
theorem attributes_of_nil (hd : c.advance (c.rest.takeWhile isBlank).length = d)
    (hrest : d.rest = []) :
    attributes ctx seen c = .error (.misread ⟨.unexpectedEnd, d.pos⟩) := by
  subst hd
  rw [attributes]
  split
  · rfl
  · rename_i hcons
    cases hcons.symm.trans hrest

/-- After white space the tag ends, or there is an attribute. -/
theorem attributes_of_cons {ch : Char} {cs : Text}
    (hd : c.advance (c.rest.takeWhile isBlank).length = d) (hrest : d.rest = ch :: cs) :
    attributes ctx seen c =
      if ch == '>' || ch == '/' && cs.head? == some '>' then .ok ([], d)
      else attributesTail ctx seen d.pos ch (d.advance 1) := by
  subst hd
  rw [attributes]
  split
  · rename_i hnil
    cases hnil.symm.trans hrest
  · rename_i hcons
    cases hcons.symm.trans hrest
    by_cases hends : (ch == '>' || ch == '/' && cs.head? == some '>') = true
    · rw [if_pos hends, if_pos hends]
    · rw [if_neg hends, if_neg hends]
      simp only [attributesTail, ofExcept, Bind.bind, Pure.pure]
      split
      · rename_i herror
        rw [herror]
      · rename_i a e hok
        rw [hok]
        dsimp only
        cases seeAttribute seen a with
        | error m => rfl
        | ok seen' =>
          dsimp only
          cases attributes ctx seen' e <;> rfl

end

/-- **The attributes of a start tag.** -/
theorem gated_attributes (seen : List Text) :
    Gated source n P (fun as => P ∧ ∀ a ∈ as, a.Approved grammar source)
      (attributes (.of grammar source) seen) (attributes (.of .permissive source) seen) := by
  -- by induction on the number of characters that may be left
  induction n generalizing P seen with
  | zero =>
    refine ⟨fun hc hok => (forward_attributes _ seen hok).left hc, fun {c as d} hc => ?_⟩
    have hrest : (c.advance (c.rest.takeWhile isBlank).length).rest = [] := by
      have hle := hc.le
      simp only [Cursor.advance, List.drop_eq_nil_iff]
      omega
    rw [attributes_of_nil rfl hrest, attributes_of_nil rfl hrest]
    simp
  | succ n ih =>
    refine ⟨fun hc hok => (forward_attributes _ seen hok).left hc, fun {c as d} hc => ?_⟩
    have hreach : c.Reaches (c.advance (c.rest.takeWhile isBlank).length) :=
      Cursor.reaches_advance (List.takeWhile_prefix _).length_le
    cases hrest : (c.advance (c.rest.takeWhile isBlank).length).rest with
    | nil =>
      rw [attributes_of_nil rfl hrest, attributes_of_nil rfl hrest]
      simp
    | cons ch cs =>
      rw [attributes_of_cons rfl hrest, attributes_of_cons rfl hrest]
      by_cases hends : (ch == '>' || ch == '/' && cs.head? == some '>') = true
      · rw [if_pos hends, if_pos hends]
        constructor
        · rintro ⟨hp, ⟨⟩⟩
          exact ⟨⟨hp, fun _ h => absurd h List.not_mem_nil⟩, rfl⟩
        · rintro ⟨⟨hp, -⟩, hok⟩
          exact ⟨hp, hok⟩
      · rw [if_neg hends, if_neg hends]
        have htail (start : Nat) : Gated source n P
            (fun as => P ∧ ∀ a ∈ as, a.Approved grammar source)
            (attributesTail (.of grammar source) seen start ch)
            (attributesTail (.of .permissive source) seen start ch) := by
          refine (gated_oneAttribute start ch).bind fun a => (forward_ofExcept _).gated fun seen' =>
            (ih seen').bind fun as => .pure ?_
          rw [List.forall_mem_cons, and_assoc]
        exact (htail _).ok_iff (left_next hc hreach hrest)

end Reader

end ComponentDivision
