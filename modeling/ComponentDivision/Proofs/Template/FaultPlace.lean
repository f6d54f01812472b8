/-
# Where a template goes wrong

A fault points at a place. This module follows every way in which reading a template can
fail and shows that the place lies in the text that is read, its end included, if the
grammar points into the texts that it rejects, and that the fault is worded in one line.

* `Fault.Inside` : a fault points into a text;
* `Grammar.PointsInside` : so do the verdicts of a grammar;
* `Fault.Reportable` : a fault points into a text and quotes no line feed;
* `Reader.Contained` : a reader goes from places in a text to places in it, and fails at one;
* `reportable_of_parseTemplate` : a template that is refused can be reported;
* `inside_of_parseTemplate` : and it goes wrong inside its text.
-/
import ComponentDivision.Proofs.Expression.Step
import ComponentDivision.Proofs.Template.Gate
import ComponentDivision.Proofs.Template.OpenNames
import ComponentDivision.Script.SyntaxTree

namespace ComponentDivision

/-! ## Places of faults -/

/-- The place that a fault points at, if it points at one. -/
def Fault.place? : Fault → Option Nat
  | .misread m => some m.position
  | .rejected start _ offset => offset.map (start + ·)

/-- A fault points at a place of `source`, or at its end. -/
def Fault.Inside (source : Text) (f : Fault) : Prop :=
  ∃ n ≤ source.length, f.place? = some n

/-- A fault points at a place of `source`, or at its end, and quotes no line feed. -/
structure Fault.Reportable (source : Text) (f : Fault) : Prop where
  inside : f.Inside source
  oneLine : f.OneLine

theorem Fault.reportable_misread {source : Text} {m : Misread} (h : m.position ≤ source.length)
    (hquotes : ∀ t ∈ m.cause.quotes, '\n' ∉ t) : (Fault.misread m).Reportable source :=
  ⟨⟨m.position, h, rfl⟩, hquotes⟩

/-- Most causes quote nothing. -/
theorem Fault.reportable_of_nil {source : Text} {m : Misread} (h : m.position ≤ source.length)
    (hquotes : m.cause.quotes = []) : (Fault.misread m).Reportable source :=
  reportable_misread h (by rw [hquotes]; exact List.forall_mem_nil _)

/-- The verdict on a text points at a character of it, or at its end. -/
def Verdict.PointsInside (t : Text) (v : Verdict) : Prop :=
  ∀ offset, v = .rejected offset → ∃ k ≤ t.length, offset = some k

/-- All verdicts of a grammar point into the texts they are about. -/
structure Grammar.PointsInside (grammar : Grammar) : Prop where
  expression : ∀ t, (grammar.expression t).PointsInside t
  pattern : ∀ t, (grammar.pattern t).PointsInside t

/-- Whatever byte a syntax tree marks, the character it belongs to is one of the text. -/
theorem Script.Wrap.pointsInside_verdict (w : Script.Wrap) (t : Text) (tree : SyntaxTree) :
    (w.verdict t tree).PointsInside t := by
  intro offset h
  unfold Script.Wrap.verdict at h
  split at h
  · cases h
  · rename_i b _
    cases h
    exact ⟨w.charAt t b, Nat.min_le_right _ _, rfl⟩

theorem Grammar.pointsInside_ofTrees (parse : Text → SyntaxTree) :
    (Grammar.ofTrees parse).PointsInside :=
  ⟨fun t => Script.Wrap.pointsInside_verdict _ t _, fun t => Script.Wrap.pointsInside_verdict _ t _⟩

namespace Reader

variable {α β : Type} {source : Text}

/-! ## Readers that stay in a text -/

/-- From a place in `source` the reader goes to a place in it, or it fails with a fault that
points at one and is worded in one line. -/
structure Contained (source : Text) (r : Reader α) : Prop where
  on : ∀ {c a d}, c.On source → r c = .ok (a, d) → d.On source
  reportable : ∀ {c f}, c.On source → r c = .error f → f.Reportable source

section

variable {r s : Reader α} {f : α → Reader β}

theorem Forward.contained (hr : Forward r)
    (h : ∀ {c e}, c.On source → r c = .error e → e.Reportable source) : Contained source r :=
  ⟨fun hc hok => (hr hok).on hc, h⟩

/-- A reader that does not fail. -/
theorem Forward.contained_of_ok (hr : Forward r) (h : ∀ c, ∃ x, r c = .ok x) :
    Contained source r := by
  refine hr.contained fun {c e} _ herror => ?_
  obtain ⟨x, hx⟩ := h c
  cases hx.symm.trans herror

theorem Contained.pure (a : α) : Contained source (pure a : Reader α) :=
  (Forward.pure a).contained_of_ok fun c => ⟨(a, c), rfl⟩

/-- One reader after another, with a fact about what the first one gives. -/
theorem Contained.bind_of {F : α → Prop} (h : Contained source r)
    (hfact : ∀ {c a d}, c.On source → r c = .ok (a, d) → F a)
    (hf : ∀ a, F a → Contained source (f a)) : Contained source (r >>= f) := by
  refine ⟨fun hc hok => ?_, fun {c e} hc herror => ?_⟩
  · obtain ⟨a, d, hr, hfa⟩ := bind_eq_ok.1 hok
    exact (hf a (hfact hc hr)).on (h.on hc hr) hfa
  · cases hr : r c with
    | error e' =>
      simp only [Bind.bind, hr] at herror
      cases herror
      exact h.reportable hc hr
    | ok x =>
      rw [bind_of_ok hr] at herror
      exact (hf _ (hfact hc hr)).reportable (h.on hc hr) herror

/-- **One reader after another stays in the text if both do.** -/
theorem Contained.bind (h : Contained source r) (hf : ∀ a, Contained source (f a)) :
    Contained source (r >>= f) :=
  h.bind_of (F := fun _ => True) (fun _ _ => trivial) fun a _ => hf a

theorem Contained.ite {p : Prop} [Decidable p] (hr : Contained source r)
    (hs : Contained source s) : Contained source (if p then r else s) := by
  split
  · exact hr
  · exact hs

end

theorem contained_fail {cause : Cause} (h : cause.quotes = []) :
    Contained source (fail cause : Reader α) := by
  refine (forward_fail cause).contained fun hc herror => ?_
  cases herror
  exact Fault.reportable_of_nil hc.pos_le h

theorem contained_failAt {cause : Cause} {n : Nat} (hn : n ≤ source.length)
    (h : ∀ t ∈ cause.quotes, '\n' ∉ t) : Contained source (failAt cause n : Reader α) := by
  refine (forward_failAt cause n).contained fun _ herror => ?_
  cases herror
  exact Fault.reportable_misread hn h

theorem contained_ofExcept {r : Except Misread α}
    (h : ∀ m, r = .error m → (Fault.misread m).Reportable source) :
    Contained source (ofExcept r) := by
  refine (forward_ofExcept r).contained fun _ herror => ?_
  cases r with
  | error m =>
    cases herror
    exact h m rfl
  | ok a => cases herror

theorem contained_position : Contained source position :=
  forward_position.contained_of_ok fun c => ⟨(c.pos, c), rfl⟩

theorem contained_peek? : Contained source peek? :=
  forward_peek?.contained_of_ok fun c => ⟨(c.rest.head?, c), rfl⟩

theorem contained_takeWhile (p : Char → Bool) : Contained source (takeWhile p) :=
  (forward_takeWhile p).contained_of_ok fun _ => ⟨_, rfl⟩

theorem contained_eat (t : Text) : Contained source (eat t) := by
  refine (forward_eat t).contained_of_ok fun c => ?_
  unfold eat
  split
  · exact ⟨_, rfl⟩
  · exact ⟨_, rfl⟩

theorem contained_skipBlank : Contained source skipBlank :=
  (contained_takeWhile isBlank).bind fun _ => .pure ()

/-- Words have no line feed. -/
theorem Contained.word_bind {f : Text → Reader β}
    (hf : ∀ t, '\n' ∉ t → Contained source (f t)) : Contained source (word >>= f) :=
  (contained_takeWhile _).bind_of (F := fun t => '\n' ∉ t) (fun _ h => by
    cases h
    exact fun hmem => absurd (List.all_eq_true.1 List.all_takeWhile _ hmem) (by decide)) hf

theorem contained_failMissing {t : Text} (h : '\n' ∉ t) :
    Contained source (fail (.missing (.characters t)) : Reader α) := by
  refine (forward_fail _).contained fun hc herror => ?_
  cases herror
  exact Fault.reportable_misread hc.pos_le (List.forall_mem_singleton.2 h)

theorem contained_expect {c : Char} (h : '\n' ≠ c) : Contained source (expect [c]) :=
  (contained_eat [c]).bind fun _ => (Contained.pure ()).ite <|
    (forward_atEnd.contained_of_ok fun c => ⟨(c.rest.isEmpty, c), rfl⟩).bind fun _ =>
      (contained_fail rfl).ite (contained_failMissing (by simpa using h))

theorem contained_requireBlank : Contained source requireBlank :=
  contained_peek?.bind fun o => by
    cases o with
    | none => exact contained_fail rfl
    | some c => exact contained_skipBlank.ite (contained_fail rfl)

/-! ## Expressions and patterns -/

theorem contained_delimited (options : ScanOptions) : Contained source (delimited options) := by
  refine (forward_delimited options).contained fun {c e} hc herror => ?_
  unfold delimited at herror
  split at herror
  · rename_i m hm
    cases herror
    obtain ⟨hle, hquotes⟩ := scan_error hm
    rw [hc.rest_eq, List.length_drop] at hle
    have hpos := hc.pos_le
    refine Fault.reportable_of_nil ?_ hquotes
    show m.position + c.pos ≤ source.length
    omega
  · cases herror

/-- A verdict on a delimited text points into the whole text. -/
theorem contained_require {v : Verdict} {x : Delimited}
    (hx : x.scan.start + x.text.length ≤ source.length) (hv : v.PointsInside x.text) :
    Contained source (require v x) := by
  refine (forward_require v x).contained fun _ herror => ?_
  unfold require at herror
  split at herror
  · cases herror
  · rename_i offset
    cases herror
    obtain ⟨k, hk, rfl⟩ := hv offset rfl
    exact ⟨⟨x.scan.start + k, by omega, rfl⟩, trivial⟩

variable {grammar : Grammar} {start : Nat}

theorem contained_checked (hgrammar : grammar.PointsInside) {x : Delimited}
    (hx : x.scan.start + x.text.length ≤ source.length) :
    Contained source (checked (.of grammar source) x) :=
  (contained_require hx (hgrammar.expression x.text)).bind fun _ => .pure _

theorem contained_readExpressionAt (hgrammar : grammar.PointsInside) (options : ScanOptions) :
    Contained source (readExpressionAt (.of grammar source) options) :=
  (contained_delimited options).bind_of delimited_inside fun _ hx => contained_checked hgrammar hx

theorem contained_readPattern (hgrammar : grammar.PointsInside) (terminators : Text) :
    Contained source (readPattern (.of grammar source) terminators) :=
  (contained_delimited _).bind_of delimited_inside fun x hx => (Contained.pure none).ite <|
    (contained_require hx (hgrammar.pattern x.text)).bind fun _ => .pure _

/-! ## Values and attributes -/

theorem contained_valueMustache (hgrammar : grammar.PointsInside) :
    Contained source (valueMustache (.of grammar source) start) :=
  contained_skipBlank.bind fun _ =>
    (contained_peek?.bind fun o => by
      cases o with
      | none => exact .pure ()
      | some c => exact (contained_fail rfl).ite (.pure ())).bind fun _ =>
    (contained_readExpressionAt hgrammar _).bind fun _ =>
      (contained_expect (by decide)).bind fun _ => contained_position.bind fun _ => .pure _

theorem contained_valueChunks (hgrammar : grammar.PointsInside) (quote : Option Char) :
    Contained source (valueChunks (.of grammar source) quote) := by
  refine (forward_valueChunks _ quote).contained fun {c e} hc herror => ?_
  fun_induction valueChunks (.of grammar source) quote c generalizing e with
  | case1 =>
    rename_i c n c₁ hrest
    have hc₁ : c₁.On source := (Cursor.reaches_advance (valueTextLength_le quote c.rest)).on hc
    cases herror
    exact Fault.reportable_of_nil hc₁.pos_le rfl
  | case2 => cases herror
  | case3 =>
    rename_i c n c₁ ch cs hrest _ f hchunk
    have hc₁ : c₁.On source := (Cursor.reaches_advance (valueTextLength_le quote c.rest)).on hc
    have hnext : c₁.Reaches (c₁.advance 1) := Cursor.reaches_advance (by simp [hrest])
    cases herror
    exact (contained_valueMustache hgrammar).reportable (hnext.on hc₁) hchunk
  | case4 =>
    rename_i c n c₁ ch cs hrest _ chunk c₂ hchunk f hchunks ih
    have hc₁ : c₁.On source := (Cursor.reaches_advance (valueTextLength_le quote c.rest)).on hc
    have hnext : c₁.Reaches (c₁.advance 1) := Cursor.reaches_advance (by simp [hrest])
    cases herror
    exact ih ((contained_valueMustache hgrammar).on (hnext.on hc₁) hchunk) hchunks
  | case5 => cases herror

theorem contained_attributeValue (hgrammar : grammar.PointsInside) :
    Contained source (attributeValue (.of grammar source)) := by
  refine contained_peek?.bind fun q => ?_
  cases q with
  | none => exact contained_fail rfl
  | some q =>
    refine Contained.ite ?_ ?_
    · exact (contained_eat _).bind fun _ => (contained_valueChunks hgrammar _).bind fun _ =>
        (contained_eat _).bind fun _ => .pure _
    · exact (contained_valueChunks hgrammar _).bind fun _ => (contained_fail rfl).ite (.pure _)

/-- The chunks of a value begin inside the text. -/
theorem start_le_of_attributeValue {c d : Cursor} {chunks : List Node} (hc : c.On source)
    (h : attributeValue (.of grammar source) c = .ok (chunks, d)) :
    ∀ p ∈ chunks, p.start.toNat ≤ source.length := by
  intro p hp
  have hrow := (listed_of_attributeValue hc h).row.mem (List.mem_map_of_mem hp)
  have hd := ((forward_attributeValue _ h).on hc).pos_le
  simp only [Node.span] at hrow
  omega

/-- An attribute that is no directive, or whose value is none, is refused where it begins or
where its value does. -/
theorem namedAttribute_error {name : Text} {stop : Nat} {value : Option (List Node)}
    {m : Misread} (h : namedAttribute name start stop value = .error m)
    (hstart : start ≤ source.length)
    (hvalue : ∀ p ∈ value.getD [], p.start.toNat ≤ source.length) :
    (Fault.misread m).Reportable source := by
  simp only [namedAttribute] at h
  split at h
  · split at h
    · cases h
    · cases h
    · cases h
      exact Fault.reportable_of_nil hstart rfl
    · split at h
      · cases h
      · cases h
        exact Fault.reportable_of_nil (hvalue _ List.mem_cons_self) rfl
  · cases h

theorem contained_bracedAttribute (hgrammar : grammar.PointsInside) :
    Contained source (bracedAttribute (.of grammar source) start) := by
  refine contained_skipBlank.bind fun _ => (contained_eat _).bind fun _ => Contained.ite ?_ ?_
  · exact (contained_readExpressionAt hgrammar _).bind fun _ =>
      (contained_expect (by decide)).bind fun _ => contained_position.bind fun _ => .pure _
  · refine (contained_delimited _).bind_of delimited_inside fun x hx => Contained.ite ?_ ?_
    · exact (contained_expect (by decide)).bind fun _ =>
        (contained_checked hgrammar hx).bind fun _ => contained_position.bind fun _ => .pure _
    · exact contained_failAt (by omega) (List.forall_mem_nil _)

theorem contained_unbracedAttribute (hgrammar : grammar.PointsInside)
    (hstart : start ≤ source.length) (first : Char) :
    Contained source (unbracedAttribute (.of grammar source) start first) := by
  have hfollows : Contained source valueFollows :=
    forward_valueFollows.contained_of_ok fun _ => ⟨_, rfl⟩
  refine (contained_takeWhile _).bind fun _ => hfollows.bind fun _ => Contained.ite ?_ ?_
  · refine contained_skipBlank.bind fun _ => (contained_eat _).bind fun _ =>
      contained_skipBlank.bind fun _ => ?_
    refine (contained_attributeValue hgrammar).bind_of start_le_of_attributeValue
      fun value hvalue => contained_position.bind fun _ => contained_ofExcept fun m hm => ?_
    exact namedAttribute_error hm hstart hvalue
  · refine contained_position.bind fun _ => contained_ofExcept fun m hm => ?_
    exact namedAttribute_error hm hstart fun _ h => absurd h List.not_mem_nil

theorem contained_oneAttribute (hgrammar : grammar.PointsInside) (hstart : start ≤ source.length)
    (first : Char) : Contained source (oneAttribute (.of grammar source) start first) :=
  (contained_bracedAttribute hgrammar).ite <|
    (contained_failAt hstart (List.forall_mem_nil _)).ite
      (contained_unbracedAttribute hgrammar hstart first)

/-- A name that is there already is reported where the attribute begins. -/
theorem seeAttribute_error {seen : List Text} {a : Node} {m : Misread}
    (h : seeAttribute seen a = .error m) : m = ⟨.repeatedAttribute, a.start.toNat⟩ := by
  unfold seeAttribute at h
  split at h
  · split at h
    · cases h
      rfl
    · cases h
  · cases h

/-- **The attributes of a start tag.** -/
theorem contained_attributes (hgrammar : grammar.PointsInside) (seen : List Text) :
    Contained source (attributes (.of grammar source) seen) := by
  refine (forward_attributes _ seen).contained fun {c e} hc herror => ?_
  have hblank (c : Cursor) : c.Reaches (c.advance (c.rest.takeWhile isBlank).length) :=
    Cursor.reaches_advance (List.takeWhile_prefix _).length_le
  fun_induction attributes (.of grammar source) seen c generalizing e with
  | case1 =>
    rename_i seen c c₁ hrest
    cases herror
    exact Fault.reportable_of_nil ((hblank c).on hc).pos_le rfl
  | case2 => cases herror
  | case3 =>
    rename_i seen c c₁ ch cs hrest _ f ha
    have hnext : c₁.Reaches (c₁.advance 1) := Cursor.reaches_advance (by simp [hrest])
    have hc₁ := (hblank c).on hc
    cases herror
    exact (contained_oneAttribute hgrammar hc₁.pos_le ch).reportable (hnext.on hc₁) ha
  | case4 =>
    rename_i seen c c₁ ch cs hrest _ a c₂ ha m hm
    have hnext : c₁.Reaches (c₁.advance 1) := Cursor.reaches_advance (by simp [hrest])
    have hc₁ := (hblank c).on hc
    have hc₂ := (hnext.trans (forward_oneAttribute _ _ _ ha)).on hc₁
    have hrow := (listed_of_oneAttribute hc₁ hnext ha).row.mem (List.mem_singleton_self _)
    have hpos := hc₂.pos_le
    cases herror
    rw [seeAttribute_error hm]
    refine Fault.reportable_of_nil ?_ rfl
    simp only [Node.span] at hrow
    show a.start.toNat ≤ source.length
    omega
  | case5 =>
    rename_i seen c c₁ ch cs hrest _ a c₂ ha seen' _ f has ih
    have hnext : c₁.Reaches (c₁.advance 1) := Cursor.reaches_advance (by simp [hrest])
    have hc₂ := (hnext.trans (forward_oneAttribute _ _ _ ha)).on ((hblank c).on hc)
    cases herror
    exact ih hc₂ has
  | case6 => cases herror

/-! ## Tags -/

/-- A closing tag that closes nothing is reported where it begins. -/
theorem closeElement_error {name : Text} {stop : Nat} {st : Stack} {m : Misread}
    (h : st.closeElement name start stop = .error m) :
    m.position = start ∧ m.cause.quotes = [name] := by
  have hnamed {st : Stack} (h : st.closeNamed name start stop = .error m) :
      m.position = start ∧ m.cause.quotes = [name] := by
    fun_induction Stack.closeNamed name start stop st with
    | case1 =>
      cases h
      exact ⟨rfl, rfl⟩
    | case2 => cases h
    | case3 st _ _ _ _ _ ih => exact ih h
    | case4 =>
      cases h
      exact ⟨rfl, rfl⟩
  unfold Stack.closeElement at h
  split at h
  · cases h
    exact ⟨rfl, rfl⟩
  · exact hnamed h

theorem elementKind_error {name : Text} {st : Stack} {m : Misread}
    (h : elementKind name start st = .error m) : m = ⟨.unknownSpecialElement name, start⟩ := by
  unfold elementKind at h
  split at h
  · cases h
  · split at h
    · cases h
      rfl
    · split at h
      · cases h
      · split at h
        · cases h
        · split at h <;> cases h

theorem contained_comment (hstart : start ≤ source.length) (st : Stack) :
    Contained source (comment start st) := by
  refine (forward_comment start st).contained fun _ herror => ?_
  unfold comment at herror
  split at herror
  · cases herror
    exact Fault.reportable_of_nil hstart rfl
  · cases herror

theorem contained_rawText (hstart : start ≤ source.length) {name : Text} (hname : '\n' ∉ name)
    (as : List Node) (st : Stack) : Contained source (rawText name start as st) := by
  refine (forward_rawText name start as st).contained fun _ herror => ?_
  unfold rawText at herror
  split at herror
  · cases herror
    exact Fault.reportable_misread hstart (List.forall_mem_singleton.2 hname)
  · cases herror

theorem contained_tagName : Contained source tagName := by
  refine forward_tagName.contained fun hc herror => ?_
  simp only [tagName] at herror
  split at herror
  · cases herror
  · cases herror
    exact Fault.reportable_of_nil hc.pos_le rfl

theorem contained_tagEnd : Contained source tagEnd :=
  (contained_eat _).bind fun _ => (Contained.pure _).ite <|
    (contained_expect (by decide)).bind fun _ => .pure _

theorem contained_startTag (hgrammar : grammar.PointsInside) (hstart : start ≤ source.length)
    {name : Text} (hname : '\n' ∉ name) (st : Stack) :
    Contained source (startTag (.of grammar source) start name st) := by
  have hkind : Contained source (ofExcept (elementKind name start (st.closeBefore name start))) :=
    contained_ofExcept fun m hm => by
      rw [elementKind_error hm]
      exact Fault.reportable_misread hstart (List.forall_mem_singleton.2 hname)
  refine hkind.bind fun kind => (contained_attributes hgrammar []).bind fun as =>
    contained_tagEnd.bind fun closed => contained_position.bind fun stop => ?_
  exact (Contained.pure _).ite ((contained_rawText hstart hname _ _).ite (.pure _))

theorem contained_closingTag (hstart : start ≤ source.length) {name : Text} (hname : '\n' ∉ name)
    (st : Stack) : Contained source (closingTag start name st) :=
  contained_skipBlank.bind fun _ => (contained_expect (by decide)).bind fun _ =>
    contained_position.bind fun _ => contained_ofExcept fun m hm => by
      obtain ⟨hposition, hquotes⟩ := closeElement_error hm
      refine Fault.reportable_misread (by rwa [hposition]) ?_
      rw [hquotes]
      exact List.forall_mem_singleton.2 hname

theorem contained_tag (hgrammar : grammar.PointsInside) (hstart : start ≤ source.length)
    (st : Stack) : Contained source (tag (.of grammar source) start st) :=
  (contained_eat _).bind fun _ => (contained_comment hstart st).ite <|
    (contained_eat _).bind fun _ => contained_tagName.bind_of (fun _ => isTagName_of_tagName)
      fun _ hname => by
        have hname := newline_notMem_of_isTagName hname.valid
        exact (contained_closingTag hstart hname st).ite
          (contained_startTag hgrammar hstart hname st)

/-! ## Blocks -/

theorem contained_eachIndex (hgrammar : grammar.PointsInside) :
    Contained source (eachBlock.eachIndex (.of grammar source)) := by
  refine (contained_eat _).bind fun _ => Contained.ite ?_ (.pure _)
  refine contained_skipBlank.bind fun _ => (contained_readPattern hgrammar _).bind fun o => ?_
  cases o with
  | none => exact contained_fail rfl
  | some i => exact (contained_skipBlank.bind fun _ => .pure _).ite (contained_fail rfl)

theorem contained_eachKey (hgrammar : grammar.PointsInside) :
    Contained source (eachBlock.eachKey (.of grammar source)) :=
  (contained_eat _).bind fun _ => Contained.ite
    ((contained_readExpressionAt hgrammar _).bind fun _ =>
      (contained_expect (by decide)).bind fun _ =>
      contained_skipBlank.bind fun _ => .pure _) (.pure _)

theorem contained_eachBlock (hgrammar : grammar.PointsInside) :
    Contained source (eachBlock (.of grammar source) start) := by
  refine (contained_readExpressionAt hgrammar _).bind fun _ => (contained_eat _).bind fun _ =>
    Contained.ite ?_ (contained_fail rfl)
  refine contained_requireBlank.bind fun _ => (contained_readPattern hgrammar _).bind fun o => ?_
  cases o with
  | none => exact contained_fail rfl
  | some context =>
    exact contained_skipBlank.bind fun _ => (contained_eachIndex hgrammar).bind fun _ =>
      (contained_eachKey hgrammar).bind fun _ =>
        (contained_expect (by decide)).bind fun _ => .pure _

theorem contained_awaitBlock (hgrammar : grammar.PointsInside) (st : Stack) :
    Contained source (awaitBlock (.of grammar source) start st) := by
  refine (contained_readExpressionAt hgrammar _).bind fun _ => contained_position.bind fun _ =>
    (contained_eat _).bind fun _ => Contained.ite ?_ ?_
  · exact (contained_readPattern hgrammar _).bind fun _ =>
      (contained_expect (by decide)).bind fun _ => .pure _
  · refine (contained_eat _).bind fun _ => Contained.ite ?_ ?_
    · exact (contained_readPattern hgrammar _).bind fun _ =>
        (contained_expect (by decide)).bind fun _ => .pure _
    · exact (contained_expect (by decide)).bind fun _ => .pure _

theorem contained_openBlock (hgrammar : grammar.PointsInside) (st : Stack) :
    Contained source (openBlock (.of grammar source) start st) := by
  refine Contained.word_bind fun keyword _ => ?_
  split
  · exact contained_fail rfl
  · refine contained_requireBlank.bind fun _ => ?_
    split
    · exact (contained_eachBlock hgrammar).bind fun _ => .pure _
    · exact contained_awaitBlock hgrammar st
    · exact (contained_readExpressionAt hgrammar _).bind fun _ =>
        (contained_expect (by decide)).bind fun _ => .pure _

theorem contained_elseBranch (hgrammar : grammar.PointsInside) (hstart : start ≤ source.length)
    (st : Stack) : Contained source (elseBranch (.of grammar source) start st) := by
  refine contained_skipBlank.bind fun _ => (contained_eat _).bind fun _ => Contained.ite ?_ ?_
  · refine contained_requireBlank.bind fun _ =>
      Contained.ite ?_ (contained_failAt hstart (List.forall_mem_nil _))
    exact (contained_readExpressionAt hgrammar _).bind fun _ =>
      (contained_expect (by decide)).bind fun _ => .pure _
  · refine Contained.ite ?_ (contained_failAt hstart (List.forall_mem_nil _))
    exact (contained_expect (by decide)).bind fun _ => .pure _

theorem contained_awaitBranch (hgrammar : grammar.PointsInside) (b : BranchKind) (st : Stack) :
    Contained source (awaitBranch (.of grammar source) start b st) :=
  (contained_readPattern hgrammar _).bind fun _ =>
    (contained_expect (by decide)).bind fun _ => .pure _

theorem contained_continueBlock (hgrammar : grammar.PointsInside) (hstart : start ≤ source.length)
    (st : Stack) : Contained source (continueBlock (.of grammar source) start st) := by
  refine Contained.word_bind fun keyword hkeyword =>
    (contained_elseBranch hgrammar hstart _).ite (Contained.ite ?_ (Contained.ite ?_
      (contained_failAt hstart (List.forall_mem_nil _))))
  · exact (contained_awaitBranch hgrammar _ _).ite
      (contained_failAt hstart (List.forall_mem_singleton.2 hkeyword))
  · exact (contained_awaitBranch hgrammar _ _).ite
      (contained_failAt hstart (List.forall_mem_singleton.2 hkeyword))

/-- An open node is described in one line. -/
theorem newline_notMem_describe {l : Label} (h : l.Tagged) : '\n' ∉ l.describe := by
  unfold Label.describe
  split
  · rename_i kind hkind
    have hname := newline_notMem_of_isTagName (h (by rw [hkind]; rfl))
    simp [hname]
  · decide
  · have hkeyword : ∀ entry ∈ blockKeywords, '\n' ∉ entry.1.toList := by decide
    have hfound :
        '\n' ∉ (((blockKeywords.find? (·.2 == l.kind)).map (·.1)).getD "block").toList := by
      cases hfind : blockKeywords.find? (·.2 == l.kind) with
      | none => decide
      | some entry => exact hkeyword entry (List.mem_of_find?_eq_some hfind)
    simp [hfound]

/-- A closer that closes nothing is reported where it begins, with the node that is open. -/
theorem closeBlock_error {kind : Kind} {keyword : Text} {stop : Nat} {st : Stack} {m : Misread}
    (hst : st.Tagged) (h : st.closeBlock kind keyword start stop = .error m) :
    m.position = start ∧ ∃ inner, m.cause.quotes = [inner, keyword] ∧ '\n' ∉ inner := by
  simp only [Stack.closeBlock] at h
  split at h
  · cases h
  · cases h
    exact ⟨rfl, _, rfl, newline_notMem_describe (hst.closeOmitted.closeBranches kind).current⟩

theorem contained_closeBlock (hstart : start ≤ source.length) {st : Stack} (hst : st.Tagged) :
    Contained source (closeBlock start st) := by
  refine Contained.word_bind fun keyword hkeyword => ?_
  split
  · exact contained_fail rfl
  · exact contained_skipBlank.bind fun _ => (contained_expect (by decide)).bind fun _ =>
      contained_position.bind fun _ => contained_ofExcept fun m hm => by
        obtain ⟨hposition, inner, hquotes, hinner⟩ := closeBlock_error hst hm
        refine Fault.reportable_misread (by rwa [hposition]) ?_
        rw [hquotes]
        exact List.forall_mem_cons.2 ⟨hinner, List.forall_mem_singleton.2 hkeyword⟩

theorem contained_specialTag (hgrammar : grammar.PointsInside) (st : Stack) :
    Contained source (specialTag (.of grammar source) start st) := by
  have hfinish (kind : Kind) (e : Option Expression) :
      Contained source (specialTag.finish start st kind e) :=
    (contained_expect (by decide)).bind fun _ => contained_position.bind fun _ => .pure _
  have hexpression (kind : Kind) : Contained source (do
      requireBlank
      let expression ← readExpressionAt (.of grammar source) {}
      specialTag.finish start st kind (some expression)) :=
    contained_requireBlank.bind fun _ => (contained_readExpressionAt hgrammar _).bind fun _ =>
      hfinish _ _
  refine Contained.word_bind fun keyword _ => Contained.ite (hexpression _) <|
    Contained.ite ?_ (Contained.ite (hexpression _) (contained_fail rfl))
  exact (contained_delimited _).bind_of delimited_inside fun x hx =>
    (hfinish _ _).ite ((contained_checked hgrammar hx).bind fun _ => hfinish _ _)

theorem contained_interpolation (hgrammar : grammar.PointsInside) (st : Stack) :
    Contained source (interpolation (.of grammar source) start st) :=
  (contained_readExpressionAt hgrammar _).bind fun _ => (contained_expect (by decide)).bind fun _ =>
    contained_position.bind fun _ => .pure _

theorem contained_mustache (hgrammar : grammar.PointsInside) (hstart : start ≤ source.length)
    {st : Stack} (hst : st.Tagged) : Contained source (mustache (.of grammar source) start st) :=
  contained_skipBlank.bind fun _ =>
    (contained_eat _).bind fun _ => (contained_openBlock hgrammar st).ite <|
      (contained_eat _).bind fun _ => (contained_continueBlock hgrammar hstart st).ite <|
        (contained_eat _).bind fun _ => (contained_closeBlock hstart hst).ite <|
          (contained_eat _).bind fun _ => (contained_specialTag hgrammar st).ite <|
            contained_interpolation hgrammar st

/-- **One item of a template.** -/
theorem contained_item (hgrammar : grammar.PointsInside) (hstart : start ≤ source.length)
    (first : Char) {st : Stack} (hst : st.Tagged) :
    Contained source (item (.of grammar source) start first st) :=
  (contained_tag hgrammar hstart st).ite <| (contained_mustache hgrammar hstart hst).ite <|
    (contained_takeWhile _).bind fun _ => .pure _

end Reader

/-! ## Whole templates -/

/-- A node that is left open is reported where it begins. -/
theorem Stack.Ready.finish_error {source : Text} {st : Stack} {stop : Nat} {m : Misread}
    (h : st.Ready source stop) (hst : st.Tagged) (herror : st.finish stop = .error m) :
    (Fault.misread m).Reportable source := by
  have hopen := h.closeOmitted.nested.open_current
  obtain ⟨-, hle⟩ := hopen.le
  have hlen := h.nested.le_length
  simp only [Stack.finish] at herror
  split at herror
  · cases herror
  · rename_i n ns hinner
    rw [Stack.current, hinner, List.headD_cons] at hle
    have hstart : n.start.toNat ≤ source.length := by omega
    split at herror
    · rename_i hkind
      have hn := hst.closeOmitted (r := stop) n
        (by rw [hinner]; exact List.mem_cons_of_mem _ List.mem_cons_self)
      cases herror
      exact Fault.reportable_misread hstart
        (List.forall_mem_singleton.2 (newline_notMem_of_isTagName (hn hkind)))
    · cases herror
      exact Fault.reportable_of_nil hstart rfl

/-- Reading on to the end goes wrong inside the text. -/
theorem Template.reportable_of_run {grammar : Grammar} {source : Text} {st : Stack} {c : Cursor}
    {f : Fault} (hgrammar : grammar.PointsInside) (hc : c.On source) (hst : st.Ready source c.pos)
    (hnames : st.Tagged) (h : Template.run (.of grammar source) st c = .error f) :
    f.Reportable source := by
  fun_induction Template.run (.of grammar source) st c with
  | case1 st c hnil =>
    obtain ⟨m, hfinish, rfl⟩ := Except.mapError_eq_error_iff.1 h
    exact hst.finish_error hnames hfinish
  | case2 st c first rest hcons f' hitem =>
    have hnext : c.Reaches (c.advance 1) := Cursor.reaches_advance (by simp [hcons])
    cases h
    exact (Reader.contained_item hgrammar hc.pos_le first hnames).reportable (hnext.on hc) hitem
  | case3 st c first rest hcons st' d hitem ih =>
    have hnext : c.Reaches (c.advance 1) := Cursor.reaches_advance (by simp [hcons])
    have hreach := hnext.trans (Reader.forward_item _ _ _ _ hitem)
    have hcase := item_of_reader hcons hitem
    exact ih (hreach.on hc) (ready_of_item hc hst hcase hreach) (tagged_of_item hnames hcase) h

/-- **A template that is refused can be reported**: it goes wrong inside its text, and what is
quoted of it has no line feed. -/
theorem reportable_of_parseTemplate {grammar : Grammar} {source : Text} {f : Fault}
    (hgrammar : grammar.PointsInside) (h : parseTemplate grammar source = .error f) :
    f.Reportable source :=
  Template.reportable_of_run hgrammar ⟨Nat.zero_le _, rfl⟩ (ready_start source)
    (tagged_start source) h

/-- **A template that is refused goes wrong inside its text.** -/
theorem inside_of_parseTemplate {grammar : Grammar} {source : Text} {f : Fault}
    (hgrammar : grammar.PointsInside) (h : parseTemplate grammar source = .error f) :
    f.Inside source :=
  (reportable_of_parseTemplate hgrammar h).inside

end ComponentDivision
