/-
# Which templates are accepted

A template is accepted with a grammar exactly if it is accepted with the grammar that
accepts everything, as the same tree, and the grammar accepts every expression and
every pattern that the tree records. So nothing gets into a tree unchecked, and
nothing outside the tree is checked.

* `gated_tag`, `gated_mustache`, `gated_item` : the items of a template;
* `run_ok_iff` : a run, from open nodes that are settled;
* `parseTemplate_ok_iff` : the whole template.
-/
import ComponentDivision.Proofs.Template.Gate

namespace ComponentDivision

namespace Reader

variable {grammar : Grammar} {source : Text} {n : Nat} {st : Stack} {P : Prop}

/-! ## Tags of elements -/

/-- A comment records nothing. -/
theorem gated_comment (start : Nat) :
    Gated source n (st.Approved grammar source) (Stack.Approved grammar source)
      (comment start st) (comment start st) := by
  refine .of_ok (forward_comment start st) fun hok => ?_
  unfold comment at hok
  split at hok
  · cases hok
  · cases hok
    rw [Stack.approved_receive_child rfl, Node.approved_leaf, Label.approved_iff]
    simp

/-- A closing tag loses nothing. -/
theorem gated_closingTag (h : st.Settled) (start : Nat) (name : Text) :
    Gated source n (st.Approved grammar source) (Stack.Approved grammar source)
      (closingTag start name st) (closingTag start name st) := by
  refine forward_skipBlank.gated fun _ => (forward_expect _).gated fun _ =>
    forward_position.gated fun stop => .of_ok (forward_ofExcept _) fun hok => ?_
  exact (h.approved_closeElement (ofExcept_eq_ok.1 hok).1).symm

/-- The raw text of an element records nothing. -/
theorem gated_rawText (name : Text) (start : Nat) (as : List Node) :
    Gated source n (st.Approved grammar source ∧ ∀ a ∈ as, a.Approved grammar source)
      (Stack.Approved grammar source) (rawText name start as st) (rawText name start as st) := by
  refine .of_ok (forward_rawText name start as st) fun {c _ _} hok => ?_
  unfold rawText at hok
  split at hok
  · cases hok
  · rename_i i k _
    cases hok
    have hparts : Node.parts
        { label := { kind := .element .element, start, stop := c.pos + i + k, name := some name }
          attributes := as, children := [.ofText c.pos (c.rest.take i)] }
        = as ++ [.ofText c.pos (c.rest.take i)] := by
      simp [Node.parts]
    have htext : (Node.ofText c.pos (c.rest.take i)).Approved grammar source :=
      Node.approved_bare rfl rfl
    rw [Stack.approved_receive_child rfl, Node.approved_iff, hparts, List.forall_mem_append,
      List.forall_mem_singleton, and_iff_left htext, Label.approved_iff]
    simp

/-- A start tag records what its attributes do. -/
theorem gated_startTag (h : st.Settled) (start : Nat) (name : Text) :
    Gated source n (st.Approved grammar source) (Stack.Approved grammar source)
      (startTag (.of grammar source) start name st)
      (startTag (.of .permissive source) start name st) := by
  refine .congr_before (h.approved_closeBefore (r := start) name).symm ?_
  refine (forward_ofExcept _).gated fun kind => (gated_attributes []).bind fun as =>
    forward_tagEnd.gated fun closed => forward_position.gated fun stop => ?_
  refine Gated.ite (fun _ => .pure ?_) fun _ =>
    Gated.ite (fun _ => gated_rawText name start as) fun _ => .pure ?_
  · rw [Stack.approved_receive_child rfl, Node.approved_opened, Label.approved_iff]
    simp
  · rw [Stack.approved_push, Node.approved_opened, Label.approved_iff]
    simp

/-- **A tag of an element.** -/
theorem gated_tag (h : st.Settled) (start : Nat) :
    Gated source n (st.Approved grammar source) (Stack.Approved grammar source)
      (tag (.of grammar source) start st) (tag (.of .permissive source) start st) := by
  refine (forward_eat _).gated fun _ => Gated.ite (fun _ => gated_comment start) fun _ => ?_
  refine (forward_eat _).gated fun closing => forward_tagName.gated fun name => ?_
  exact Gated.ite (fun _ => gated_closingTag h start name) fun _ => gated_startTag h start name

/-! ## Blocks that open -/

/-- The index of an each block. -/
theorem gated_eachIndex :
    Gated source n P (fun index => P ∧ ∀ p ∈ index, grammar.pattern p = .accepted)
      (eachBlock.eachIndex (.of grammar source))
      (eachBlock.eachIndex (.of .permissive source)) := by
  refine (forward_eat _).gated fun _ => Gated.ite (fun _ => ?_) fun _ => .pure (by simp)
  refine forward_skipBlank.gated fun _ => (gated_readPattern _).bind fun index => ?_
  cases index with
  | none => exact .fail _
  | some index =>
    exact Gated.ite (fun _ => forward_skipBlank.gated fun _ => .pure Iff.rfl) fun _ => .fail _

/-- The key of an each block. -/
theorem gated_eachKey :
    Gated source n P (fun key => P ∧ ∀ e ∈ key, grammar.Accepts source e)
      (eachBlock.eachKey (.of grammar source)) (eachBlock.eachKey (.of .permissive source)) := by
  refine (forward_eat _).gated fun _ => Gated.ite (fun _ => ?_) fun _ => .pure (by simp)
  refine (gated_readExpressionAt _).bind fun key => (forward_expect _).gated fun _ =>
    forward_skipBlank.gated fun _ => .pure ?_
  simp

/-- The opener of an each block. -/
theorem gated_eachBlock (start : Nat) :
    Gated source n P (fun label => P ∧ label.Approved grammar source)
      (eachBlock (.of grammar source) start) (eachBlock (.of .permissive source) start) := by
  refine (gated_readExpressionAt _).bind fun e => (forward_eat _).gated fun _ =>
    Gated.ite (fun _ => ?_) fun _ => .fail _
  refine forward_requireBlank.gated fun _ => (gated_readPattern _).bind fun context => ?_
  cases context with
  | none => exact .fail _
  | some context =>
    refine forward_skipBlank.gated fun _ => gated_eachIndex.bind fun index =>
      gated_eachKey.bind fun key => (forward_expect _).gated fun _ => .pure ?_
    rw [Label.approved_iff]
    simp only [Option.mem_def, Option.some.injEq, forall_eq', reduceCtorEq, false_implies,
      implies_true, and_true]
    tauto

/-- What an await block records when it is opened. -/
theorem approved_opening {label : Label} {b : BranchKind} {start : Nat} :
    (awaitBlock.opening st label b start).Approved grammar source ↔
      st.Approved grammar source ∧ label.Approved grammar source := by
  have hbranch : (Node.branch b start).Approved grammar source :=
    Node.approved_bare rfl rfl
  unfold awaitBlock.opening
  rw [Stack.approved_push, and_iff_left hbranch, Stack.approved_push, Node.approved_iff]
  refine and_congr_right fun _ => and_iff_left fun p hp => ?_
  simp only [Node.parts, Option.getD_none, Option.toList_none, Option.toList_some,
    List.append_nil, List.nil_append, List.cons_append, List.mem_cons, List.not_mem_nil,
    or_false] at hp
  rcases hp with rfl | rfl | rfl
  all_goals exact approved_unwritten _

/-- The opener of an await block. -/
theorem gated_awaitBlock (start : Nat) :
    Gated source n (st.Approved grammar source) (Stack.Approved grammar source)
      (awaitBlock (.of grammar source) start st)
      (awaitBlock (.of .permissive source) start st) := by
  refine (gated_readExpressionAt _).bind fun e => forward_position.gated fun opened =>
    (forward_eat _).gated fun _ => Gated.ite (fun _ => ?_) fun _ =>
      (forward_eat _).gated fun _ => Gated.ite (fun _ => ?_) fun _ => ?_
  · refine (gated_readPattern _).bind fun pattern => (forward_expect _).gated fun _ => .pure ?_
    rw [approved_opening, Label.approved_iff]
    simp [and_assoc]
  · refine (gated_readPattern _).bind fun pattern => (forward_expect _).gated fun _ => .pure ?_
    rw [approved_opening, Label.approved_iff]
    simp [and_assoc]
  · refine (forward_expect _).gated fun _ => .pure ?_
    rw [approved_opening, Label.approved_iff]
    simp

/-- A block that records its guard is opened. -/
theorem approved_push_label {label : Label} :
    (st.push { label }).Approved grammar source ↔
      st.Approved grammar source ∧ label.Approved grammar source := by
  rw [Stack.approved_push, Node.approved_opened]
  simp

/-- The opener of a block. -/
theorem gated_openBlock (start : Nat) :
    Gated source n (st.Approved grammar source) (Stack.Approved grammar source)
      (openBlock (.of grammar source) start st) (openBlock (.of .permissive source) start st) := by
  have hguard (b : GuardedKind) :
      Gated source n (st.Approved grammar source) (Stack.Approved grammar source)
        (do
          let expression ← readExpressionAt (.of grammar source) {}
          expect ['}']
          return st.push { label := { kind := .guarded b, start
                                      expression := some expression } })
        (do
          let expression ← readExpressionAt (.of .permissive source) {}
          expect ['}']
          return st.push { label := { kind := .guarded b, start
                                      expression := some expression } }) := by
    refine (gated_readExpressionAt {}).bind fun e => (forward_expect _).gated fun _ => .pure ?_
    rw [approved_push_label, Label.approved_iff]
    simp
  refine forward_word.gated fun keyword => ?_
  cases hkind : block? keyword with
  | none => exact .fail _
  | some kind =>
    refine forward_requireBlank.gated fun _ => ?_
    rcases block?_eq_some hkind with ⟨b, rfl⟩ | rfl
    · cases b with
      | ifBlock => exact hguard .ifBlock
      | eachBlock =>
        exact (gated_eachBlock start).bind fun label => .pure approved_push_label.symm
      | keyBlock => exact hguard .keyBlock
    · exact gated_awaitBlock start

/-! ## Blocks that continue and close -/

/-- An else branch. -/
theorem gated_elseBranch (start : Nat) :
    Gated source n (st.Approved grammar source) (Stack.Approved grammar source)
      (elseBranch (.of grammar source) start st)
      (elseBranch (.of .permissive source) start st) := by
  have hbranch : (Node.branch .elseBlock start).Approved grammar source :=
    Node.approved_bare rfl rfl
  refine forward_skipBlank.gated fun _ => (forward_eat _).gated fun _ =>
    Gated.ite (fun _ => ?_) fun _ => ?_
  · refine forward_requireBlank.gated fun _ => Gated.ite (fun _ => ?_) fun _ => .failAt _ _
    refine (gated_readExpressionAt {}).bind fun e => (forward_expect _).gated fun _ => .pure ?_
    rw [approved_push_label, Stack.approved_push, and_iff_left hbranch, Label.approved_iff]
    simp
  · refine Gated.ite (fun _ => (forward_expect _).gated fun _ => .pure ?_) fun _ => .failAt _ _
    rw [Stack.approved_push, and_iff_left hbranch]

/-- A later branch of an await block. -/
theorem gated_awaitBranch {a b : BranchKind} (h : st.Settled)
    (hb : b ∈ [BranchKind.thenBlock, .catchBlock]) (hkind : st.current.kind = .branch a)
    (ha : a ≠ .elseBlock) (hab : b ∈ a.onward) (hne : a ≠ b) (start : Nat) :
    Gated source n (st.Approved grammar source) (Stack.Approved grammar source)
      (awaitBranch (.of grammar source) start b st)
      (awaitBranch (.of .permissive source) start b st) := by
  refine (gated_readPattern _).bind fun pattern => (forward_expect _).gated fun _ => .pure ?_
  refine (h.approved_awaitBranch hb hkind ha hab hne fun m => ?_).symm
  unfold Label.setPattern
  split <;> rfl

/-- The continuation of a block. -/
theorem gated_continueBlock (h : st.Settled) (start : Nat) :
    Gated source n (st.Approved grammar source) (Stack.Approved grammar source)
      (continueBlock (.of grammar source) start st)
      (continueBlock (.of .permissive source) start st) := by
  have hclosed := h.closeOmitted (r := start)
  refine .congr_before (h.approved_closeOmitted (r := start)).symm ?_
  refine forward_word.gated fun keyword => Gated.ite (fun _ => gated_elseBranch start) fun _ =>
    Gated.ite (fun _ => ?_) fun _ => Gated.ite (fun _ => ?_) fun _ => .failAt _ _
  · refine Gated.ite (fun hkind => ?_) fun _ => .failAt _ _
    exact gated_awaitBranch (a := .pendingBlock) (b := .thenBlock) hclosed (by decide)
      (beq_iff_eq.1 hkind) nofun (by decide) nofun start
  · refine Gated.ite (fun hkind => ?_) fun _ => .failAt _ _
    rw [Bool.or_eq_true, beq_iff_eq, beq_iff_eq] at hkind
    rcases hkind with hkind | hkind
    · exact gated_awaitBranch (b := .catchBlock) hclosed (by decide) hkind nofun (by decide) nofun
        start
    · exact gated_awaitBranch (b := .catchBlock) hclosed (by decide) hkind nofun (by decide) nofun
        start

/-- The closer of a block loses nothing. -/
theorem gated_closeBlock (h : st.Settled) (start : Nat) :
    Gated source n (st.Approved grammar source) (Stack.Approved grammar source)
      (closeBlock start st) (closeBlock start st) := by
  refine forward_word.gated fun keyword => ?_
  cases block? keyword with
  | none => exact .fail _
  | some kind =>
    refine forward_skipBlank.gated fun _ => (forward_expect _).gated fun _ =>
      forward_position.gated fun stop => .of_ok (forward_ofExcept _) fun hok => ?_
    exact (h.approved_closeBlock (ofExcept_eq_ok.1 hok).1).symm

/-! ## Tags in braces -/

/-- The end of a special tag. -/
theorem gated_finish {kind : Kind} {expression : Option Expression}
    (hkind : kind.isBranch = false) (start : Nat) :
    Gated source n
      (st.Approved grammar source ∧ ∀ e ∈ expression, grammar.Accepts source e)
      (Stack.Approved grammar source) (specialTag.finish start st kind expression)
      (specialTag.finish start st kind expression) := by
  refine (forward_expect _).gated fun _ => forward_position.gated fun stop => .pure ?_
  refine (Iff.trans (Stack.approved_receive_child ?_) ?_).symm
  · exact hkind
  · rw [Node.approved_leaf, Label.approved_iff]
    simp

/-- A special tag. -/
theorem gated_specialTag (start : Nat) :
    Gated source n (st.Approved grammar source) (Stack.Approved grammar source)
      (specialTag (.of grammar source) start st)
      (specialTag (.of .permissive source) start st) := by
  have hsome {kind : Kind} (hkind : kind.isBranch = false) (e : Expression) :
      Gated source n (st.Approved grammar source ∧ grammar.Accepts source e)
        (Stack.Approved grammar source) (specialTag.finish start st kind (some e))
        (specialTag.finish start st kind (some e)) :=
    .congr_before (by simp) (gated_finish hkind start)
  have hread {kind : Kind} (hkind : kind.isBranch = false) :
      Gated source n (st.Approved grammar source) (Stack.Approved grammar source)
        (requireBlank >>= fun _ => readExpressionAt (.of grammar source) {} >>= fun e =>
          specialTag.finish start st kind (some e))
        (requireBlank >>= fun _ => readExpressionAt (.of .permissive source) {} >>= fun e =>
          specialTag.finish start st kind (some e)) :=
    forward_requireBlank.gated fun _ => (gated_readExpressionAt {}).bind fun e => hsome hkind e
  refine forward_word.gated fun keyword => Gated.ite (fun _ => hread rfl) fun _ =>
    Gated.ite (fun _ => ?_) fun _ => Gated.ite (fun _ => hread rfl) fun _ => .fail _
  refine (Gated.of_ok (Q := fun _ => st.Approved grammar source) (forward_delimited _)
    fun _ => Iff.rfl).bind_of (fun hc hx => delimited_text hc.on hx) fun x hx => ?_
  refine Gated.ite (fun _ => ?_) fun _ => (gated_checked hx).bind fun e => hsome rfl e
  exact .congr_before (by simp) (gated_finish rfl start)

/-- An interpolated expression. -/
theorem gated_interpolation (start : Nat) :
    Gated source n (st.Approved grammar source) (Stack.Approved grammar source)
      (interpolation (.of grammar source) start st)
      (interpolation (.of .permissive source) start st) := by
  refine (gated_readExpressionAt {}).bind fun e => (forward_expect _).gated fun _ =>
    forward_position.gated fun stop => .pure ?_
  rw [Stack.approved_receive_child rfl, Node.approved_leaf, Label.approved_iff]
  simp

/-- **What is in braces.** -/
theorem gated_mustache (h : st.Settled) (start : Nat) :
    Gated source n (st.Approved grammar source) (Stack.Approved grammar source)
      (mustache (.of grammar source) start st) (mustache (.of .permissive source) start st) := by
  refine forward_skipBlank.gated fun _ => (forward_eat _).gated fun _ =>
    Gated.ite (fun _ => gated_openBlock start) fun _ => (forward_eat _).gated fun _ => ?_
  refine Gated.ite (fun _ => gated_continueBlock h start) fun _ => (forward_eat _).gated fun _ => ?_
  refine Gated.ite (fun _ => gated_closeBlock h start) fun _ => (forward_eat _).gated fun _ => ?_
  exact Gated.ite (fun _ => gated_specialTag start) fun _ => gated_interpolation start

/-! ## All items -/

/-- A run of text records nothing. -/
theorem gated_text (start : Nat) (first : Char) :
    Gated source n (st.Approved grammar source) (Stack.Approved grammar source)
      (text start first st) (text start first st) := by
  refine (forward_takeWhile _).gated fun more => .pure ?_
  have htext : (Node.ofText start (first :: more)).Approved grammar source :=
    Node.approved_bare rfl rfl
  rw [Stack.approved_receive_child rfl, and_iff_left htext]

/-- **One item of a template.** -/
theorem gated_item (h : st.Settled) (start : Nat) (first : Char) :
    Gated source n (st.Approved grammar source) (Stack.Approved grammar source)
      (item (.of grammar source) start first st) (item (.of .permissive source) start first st) :=
  Gated.ite (fun _ => gated_tag h start) fun _ =>
    Gated.ite (fun _ => gated_mustache h start) fun _ => gated_text start first

end Reader

/-! ## Runs -/

section

variable {grammar : Grammar} {source : Text} {root : Node} {st : Stack}

/-- The root records what the open nodes did at the end of the text. -/
theorem Stack.Settled.approved_finish {stop : Nat} (h : st.Settled)
    (hfinish : st.finish stop = .ok root) :
    root.Approved grammar source ↔ st.Approved grammar source := by
  rw [← h.approved_closeOmitted (r := stop), Stack.finish_eq_ok.1 hfinish]
  exact ⟨fun hroot => ⟨hroot, fun _ h => absurd h List.not_mem_nil⟩, And.left⟩

namespace Template

variable {ctx : Context} {c : Cursor}

/-- A run that succeeds where nothing is left. -/
theorem run_eq_ok_of_nil (hrest : c.rest = []) :
    run ctx st c = .ok root ↔ st.finish c.pos = .ok root := by
  obtain ⟨pos, rest⟩ := c
  cases hrest
  rw [run_nil, Except.mapError_eq_ok_iff]

/-- **A run with a grammar is the run without one and a gate.** -/
theorem run_ok_iff {n : Nat} (h : st.Settled) (hc : c.Left source n) :
    st.Approved grammar source ∧ run (.of grammar source) st c = .ok root ↔
      root.Approved grammar source ∧ run (.of .permissive source) st c = .ok root := by
  induction n generalizing st c with
  | zero =>
    have hrest : c.rest = [] := List.length_eq_zero_iff.1 (Nat.le_zero.1 hc.le)
    rw [run_eq_ok_of_nil hrest, run_eq_ok_of_nil hrest]
    exact and_congr_left fun hfinish => (h.approved_finish hfinish).symm
  | succ n ih =>
    cases hrest : c.rest with
    | nil =>
      rw [run_eq_ok_of_nil hrest, run_eq_ok_of_nil hrest]
      exact and_congr_left fun hfinish => (h.approved_finish hfinish).symm
    | cons first rest =>
      obtain ⟨pos, text⟩ := c
      subst hrest
      have hsettled {st' d} (hitem : Reader.item (.of .permissive source) pos first st
          ⟨pos + 1, rest⟩ = .ok (st', d)) : st'.Settled :=
        settled_of_item h (item_of_reader (c := ⟨pos, first :: rest⟩) rfl hitem)
      have hgated : Reader.Gated source n (st.Approved grammar source)
          (Stack.Approved grammar source) _ _ := Reader.gated_item h pos first
      have hnext := Reader.left_next hc (.refl _) rfl
      rw [run_cons_eq_ok, run_cons_eq_ok]
      constructor
      · rintro ⟨hst, st', d, hitem, hrun⟩
        obtain ⟨hst', hlenient⟩ := (hgated.ok_iff hnext).1 ⟨hst, hitem⟩
        obtain ⟨hroot, hrun⟩ := (ih (hsettled hlenient) (hgated.left hnext hlenient)).1 ⟨hst', hrun⟩
        exact ⟨hroot, st', d, hlenient, hrun⟩
      · rintro ⟨hroot, st', d, hitem, hrun⟩
        obtain ⟨hst', hrun⟩ := (ih (hsettled hitem) (hgated.left hnext hitem)).2 ⟨hroot, hrun⟩
        obtain ⟨hst, hstrict⟩ := (hgated.ok_iff hnext).2 ⟨hst', hitem⟩
        exact ⟨hst, st', d, hstrict, hrun⟩

end Template

/-! ## All templates -/

/-- **A grammar accepts a template exactly if it accepts all that its tree records.** The tree
is the one that is parsed without a grammar; every expression anywhere in it has to be accepted,
by its text in the source, and so has every pattern. -/
theorem parseTemplate_ok_iff (grammar : Grammar) (source : Text) (root : Node) :
    parseTemplate grammar source = .ok root ↔
      parseTemplate .permissive source = .ok root ∧
        ∀ n ∈ root.walk,
          (∀ e ∈ n.label.expression.toList ++ n.label.key.toList,
            grammar.expression (source.slice e.start e.stop) = .accepted) ∧
          ∀ p ∈ n.label.context.toList ++ n.label.index.toList ++ n.label.thenPattern.toList
              ++ n.label.catchPattern.toList,
            grammar.pattern p = .accepted := by
  have hstart : (Template.start source).Approved grammar source :=
    ⟨Node.approved_bare rfl rfl, fun _ h => absurd h List.not_mem_nil⟩
  have hleft : (Cursor.mk 0 source).Left source source.length :=
    ⟨⟨Nat.zero_le _, rfl⟩, Nat.le_refl _⟩
  have hrun : _ ∧ parseTemplate grammar source = .ok root ↔
      root.Approved grammar source ∧ parseTemplate .permissive source = .ok root :=
    Template.run_ok_iff (settled_start source) hleft
  rw [and_iff_right hstart] at hrun
  exact hrun.trans And.comm

end

end ComponentDivision
