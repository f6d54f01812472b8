/-
# Templates inside longer texts

A template is put into a longer text: something stands before it and something after it.
Offsets grow by the length of what stands before, lines by its line feeds, and on the first
line columns by the length of its last line. This module moves places, expressions, nodes
and open nodes along.

* `Surround` : what stands before and after a text;
* `Surround.place_text` : the place of an expression in the longer text;
* `Node.map`, `Node.expressions_map` : a node with all its labels changed, and its expressions;
* `Surround.Carries` : open nodes and the same nodes among those of the longer text.
-/
import ComponentDivision.Proofs.Template.Gate
import ComponentDivision.Template.Extract

namespace ComponentDivision

/-! ## Places -/

/-- The same place after a text. -/
def Expression.after (before : Text) (e : Expression) : Expression where
  start := e.start + before.length
  stop := e.stop + before.length
  line := e.line + before.newlines
  column := if e.line = 1 then e.column + (before.length - before.lineStarts.getLastD 0)
    else e.column

/-- What stands before and after a text. -/
structure Surround where
  before : Text
  after : Text

namespace Surround

/-- The longer text. -/
def text (w : Surround) (source : Text) : Text :=
  w.before ++ (source ++ w.after)

/-- A place of a text, in the longer text. -/
def cursor (w : Surround) (c : Cursor) : Cursor :=
  ⟨c.pos + w.before.length, c.rest ++ w.after⟩

/-- Moving on inside a text is moving on inside the longer text. -/
theorem cursor_advance (w : Surround) {c : Cursor} {n : Nat} (h : n ≤ c.rest.length) :
    w.cursor (c.advance n) = (w.cursor c).advance n := by
  simp only [cursor, Cursor.advance, List.drop_append_of_le_length h, Nat.add_right_comm]

/-- A move inside the longer text from one place of the text to another is one inside the text. -/
theorem advance_of_cursor {w : Surround} {c d : Cursor} {n : Nat}
    (hn : n ≤ (w.cursor c).rest.length) (h : (w.cursor c).advance n = w.cursor d) :
    n ≤ c.rest.length ∧ d = c.advance n := by
  have hpos : c.pos + w.before.length + n = d.pos + w.before.length := congrArg Cursor.pos h
  have hrest : (c.rest ++ w.after).drop n = d.rest ++ w.after := congrArg Cursor.rest h
  have hlength := congrArg List.length hrest
  simp only [cursor, List.length_append, List.length_drop] at hn hlength
  have hle : n ≤ c.rest.length := by omega
  rw [List.drop_append_of_le_length hle] at hrest
  obtain ⟨pos, rest⟩ := d
  obtain rfl : c.rest.drop n = rest := List.append_cancel_right hrest
  obtain rfl : c.pos + n = pos := by
    have hpos : c.pos + w.before.length + n = pos + w.before.length := hpos
    omega
  exact ⟨hle, rfl⟩

/-- Two places of the text are one if they are one in the longer text. -/
theorem eq_of_cursor {w : Surround} {c d : Cursor} (h : w.cursor c = w.cursor d) : c = d := by
  obtain ⟨-, hd⟩ := advance_of_cursor (Nat.zero_le _) ((Cursor.advance_zero _).trans h)
  rw [hd, Cursor.advance_zero]

/-- What is between two places of the text is a place of the text. -/
theorem exists_between {w : Surround} {c d e : Cursor} (hc : (w.cursor c).Reaches e)
    (hd : e.Reaches (w.cursor d)) : ∃ m, e = w.cursor m ∧ c.Reaches m ∧ m.Reaches d := by
  obtain ⟨n, hn, rfl⟩ := hc
  have hlength := hd.length_le
  have hle : n ≤ c.rest.length := by
    simp only [cursor, Cursor.advance, List.length_append, List.length_drop] at hn hlength
    omega
  rw [← w.cursor_advance hle] at hd
  obtain ⟨k, hk, hd⟩ := hd
  obtain ⟨hle', rfl⟩ := advance_of_cursor hk hd.symm
  exact ⟨c.advance n, (w.cursor_advance hle).symm, Cursor.reaches_advance hle,
    Cursor.reaches_advance hle'⟩

/-- The places of a part that begins with some character: where this character stands and where the
part ends. -/
theorem exists_part {w : Surround} {c d e₁ e₂ : Cursor} {ch : Char} {cs : Text}
    (h₁ : (w.cursor c).Reaches e₁) (hrest : e₁.rest = ch :: cs)
    (h₂ : (e₁.advance 1).Reaches e₂) (h₃ : e₂.Reaches (w.cursor d)) :
    ∃ m₁ m₂, e₁ = w.cursor m₁ ∧ e₁.advance 1 = w.cursor (m₁.advance 1) ∧ e₂ = w.cursor m₂ ∧
      c.Reaches m₁ ∧ 1 ≤ m₁.rest.length ∧ (m₁.advance 1).Reaches m₂ ∧ m₂.Reaches d := by
  have hnext : e₁.Reaches (e₁.advance 1) := Cursor.reaches_advance (by simp [hrest])
  obtain ⟨m₁, rfl, hm₁, -⟩ := exists_between h₁ ((hnext.trans h₂).trans h₃)
  obtain ⟨m, hm, -, -⟩ := exists_between (h₁.trans hnext) (h₂.trans h₃)
  obtain ⟨hlength, rfl⟩ := advance_of_cursor (by simp [hrest]) hm
  rw [hm] at h₂
  obtain ⟨m₂, rfl, hm₂, hend⟩ := exists_between h₂ h₃
  exact ⟨m₁, m₂, rfl, hm, rfl, hm₁, hlength, hm₂, hend⟩

end Surround

/-! ## Lines -/

/-- The lines of the longer text that begin up to a place of the text: all lines before it, and
those of the text that begin up to there. -/
theorem filter_lineStarts_text (w : Surround) {source : Text} {i : Nat} (hi : i ≤ source.length) :
    (w.text source).lineStarts.filter (· ≤ i + w.before.length)
      = w.before.lineStarts
        ++ ((Text.laterLineStarts 0 source).filter (· ≤ i)).map (· + w.before.length) := by
  have hbefore : (Text.laterLineStarts 0 w.before).filter (· ≤ i + w.before.length)
      = Text.laterLineStarts 0 w.before := by
    rw [List.filter_eq_self]
    intro j hj
    have := le_of_mem_laterLineStarts hj
    rw [decide_eq_true_eq]
    omega
  have hafter : (Text.laterLineStarts (0 + w.before.length + source.length) w.after).filter
      (· ≤ i + w.before.length) = [] := by
    rw [List.filter_eq_nil_iff]
    intro j hj
    have := lt_of_mem_laterLineStarts hj
    rw [decide_eq_true_eq]
    omega
  have hsource : (Text.laterLineStarts (0 + w.before.length) source).filter
      (· ≤ i + w.before.length)
      = ((Text.laterLineStarts 0 source).filter (· ≤ i)).map (· + w.before.length) := by
    rw [laterLineStarts_add, List.filter_map]
    congr 1
    apply List.filter_congr
    intro j _
    simp
  rw [Text.lineStarts, Surround.text, laterLineStarts_append, laterLineStarts_append,
    List.filter_cons_of_pos (by simp), List.filter_append, List.filter_append, hbefore, hafter,
    hsource, List.append_nil]
  rfl

/-- **The place of an expression in the longer text.** -/
theorem Surround.place_text (w : Surround) (grammar : Grammar) {source : Text} {i : Nat} (j : Nat)
    (hi : i ≤ source.length) :
    (Context.of grammar (w.text source)).place (i + w.before.length) (j + w.before.length)
      = ((Context.of grammar source).place i j).after w.before := by
  have hlines : source.lineStarts.filter (· ≤ i)
      = 0 :: (Text.laterLineStarts 0 source).filter (· ≤ i) := by
    rw [Text.lineStarts, List.filter_cons_of_pos (by simp)]
  have hlength := length_lineStarts w.before
  simp only [Context.place, Expression.after, filter_lineStarts_text w hi, hlines]
  -- Either the place is on the first line of the text, or on a line that begins in it.
  rcases List.eq_nil_or_concat' ((Text.laterLineStarts 0 source).filter (· ≤ i)) with hnil |
    ⟨ks, k, hconcat⟩
  · rw [hnil, List.map_nil, List.append_nil, hlength]
    simp only [Expression.mk.injEq, List.length_singleton, List.getLastD_cons, List.getLastD_nil]
    refine ⟨by omega, by omega, by omega, ?_⟩
    rw [if_pos Int.natCast_one]
    omega
  · rw [hconcat, List.map_append, ← List.append_assoc, ← List.cons_append]
    simp only [Expression.mk.injEq, List.map_cons, List.map_nil, List.getLastD_concat,
      List.length_append, List.length_cons, List.length_map, List.length_nil, hlength]
    refine ⟨by omega, by omega, by omega, ?_⟩
    rw [if_neg (by omega)]
    omega

/-- Nothing is moved by nothing. -/
theorem Expression.after_nil (e : Expression) : e.after [] = e := by
  simp [Expression.after, Text.lineStarts, Text.laterLineStarts, Text.newlines]

/-- The place of an expression does not depend on what follows. -/
theorem place_append (grammar : Grammar) {source : Text} (rest : Text) {i : Nat} (j : Nat)
    (hi : i ≤ source.length) :
    (Context.of grammar (source ++ rest)).place i j = (Context.of grammar source).place i j :=
  ((Surround.mk [] rest).place_text grammar j hi).trans (Expression.after_nil _)

/-! ## Nodes -/

mutual

/-- The node with its label changed, and those of all nodes below it. -/
def Node.map (g : Label → Label) : Node → Node
  | ⟨l, attributes, value, children, elseBlock, pending, thenBlock, catchBlock⟩ =>
    ⟨g l, mapAll g attributes, mapValue g value, mapAll g children, mapBranch g elseBlock,
      mapBranch g pending, mapBranch g thenBlock, mapBranch g catchBlock⟩

/-- Changed nodes. -/
def Node.mapAll (g : Label → Label) : List Node → List Node
  | [] => []
  | n :: ns => map g n :: mapAll g ns

/-- A changed value. -/
def Node.mapValue (g : Label → Label) : Option (List Node) → Option (List Node)
  | none => none
  | some ns => some (mapAll g ns)

/-- A changed branch. -/
def Node.mapBranch (g : Label → Label) : Option Node → Option Node
  | none => none
  | some n => some (map g n)

end

namespace Node

variable {g : Label → Label}

theorem mapAll_eq (g : Label → Label) (ns : List Node) : mapAll g ns = ns.map (map g) := by
  induction ns with
  | nil => rfl
  | cons n ns ih => rw [mapAll, ih, List.map_cons]

theorem mapValue_eq (g : Label → Label) (value : Option (List Node)) :
    mapValue g value = value.map (List.map (map g)) := by
  cases value with
  | none => rfl
  | some ns => exact congrArg some (mapAll_eq g ns)

theorem mapBranch_eq (g : Label → Label) (o : Option Node) : mapBranch g o = o.map (map g) := by
  cases o <;> rfl

theorem label_map (g : Label → Label) (n : Node) : (n.map g).label = g n.label := by
  cases n
  rfl

/-- A node joins another one before or after both have been changed. -/
theorem map_attach (hkind : ∀ l, (g l).kind = l.kind) (n m : Node) :
    (n.attach m).map g = (n.map g).attach (m.map g) := by
  have hm : (m.map g).kind = m.kind := (congrArg Label.kind (label_map g m)).trans (hkind _)
  unfold attach
  rw [hm]
  cases n
  split <;> simp [map, mapBranch_eq, mapAll_eq]

mutual

/-- One change after another. -/
theorem map_map (g h : Label → Label) : ∀ n : Node, (n.map g).map h = n.map (h ∘ g)
  | ⟨l, attributes, value, children, elseBlock, pending, thenBlock, catchBlock⟩ => by
    simp only [map, Function.comp, mapAll_mapAll g h attributes, mapValue_mapValue g h value,
      mapAll_mapAll g h children, mapBranch_mapBranch g h elseBlock,
      mapBranch_mapBranch g h pending, mapBranch_mapBranch g h thenBlock,
      mapBranch_mapBranch g h catchBlock]

theorem mapAll_mapAll (g h : Label → Label) : ∀ ns : List Node,
    mapAll h (mapAll g ns) = mapAll (h ∘ g) ns
  | [] => rfl
  | n :: ns => by rw [mapAll, mapAll, mapAll, map_map g h n, mapAll_mapAll g h ns]

theorem mapValue_mapValue (g h : Label → Label) : ∀ value : Option (List Node),
    mapValue h (mapValue g value) = mapValue (h ∘ g) value
  | none => rfl
  | some ns => congrArg some (mapAll_mapAll g h ns)

theorem mapBranch_mapBranch (g h : Label → Label) : ∀ o : Option Node,
    mapBranch h (mapBranch g o) = mapBranch (h ∘ g) o
  | none => rfl
  | some n => congrArg some (map_map g h n)

end

mutual

/-- **The expressions of a changed node.** -/
theorem expressions_map {f : Expression → Expression} (hkind : ∀ l, (g l).kind = l.kind)
    (hexpression : ∀ l, (g l).expression = l.expression.map f) :
    ∀ n : Node, (n.map g).expressions = n.expressions.map f
  | ⟨l, attributes, v, children, elseBlock, pending, thenBlock, catchBlock⟩ => by
    have hlist : (g l).expression.toList = l.expression.toList.map f := by
      rw [hexpression, Option.toList_map]
    rw [map, expressions, expressions, hkind]
    split <;> simp only [List.map_append, List.map_nil, hlist,
      expressions_mapAll hkind hexpression attributes, expressions_mapValue hkind hexpression v,
      expressions_mapAll hkind hexpression children,
      expressions_mapBranch hkind hexpression elseBlock,
      expressions_mapBranch hkind hexpression pending,
      expressions_mapBranch hkind hexpression thenBlock,
      expressions_mapBranch hkind hexpression catchBlock]

theorem expressions_mapAll {f : Expression → Expression} (hkind : ∀ l, (g l).kind = l.kind)
    (hexpression : ∀ l, (g l).expression = l.expression.map f) :
    ∀ ns : List Node, allExpressions (mapAll g ns) = (allExpressions ns).map f
  | [] => rfl
  | n :: ns => by
    rw [mapAll, allExpressions, allExpressions, expressions_map hkind hexpression n,
      expressions_mapAll hkind hexpression ns, List.map_append]

theorem expressions_mapValue {f : Expression → Expression} (hkind : ∀ l, (g l).kind = l.kind)
    (hexpression : ∀ l, (g l).expression = l.expression.map f) :
    ∀ v : Option (List Node), valueExpressions (mapValue g v) = (valueExpressions v).map f
  | none => rfl
  | some ns => expressions_mapAll hkind hexpression ns

theorem expressions_mapBranch {f : Expression → Expression} (hkind : ∀ l, (g l).kind = l.kind)
    (hexpression : ∀ l, (g l).expression = l.expression.map f) :
    ∀ o : Option Node, branchExpressions (mapBranch g o) = (branchExpressions o).map f
  | none => rfl
  | some ⟨_, _, _, children, _, _, _, _⟩ => expressions_mapAll hkind hexpression children

end

end Node

namespace Surround

/-- An offset of the text, in the longer text; what is written nowhere stays so. -/
def offset (w : Surround) (i : Int) : Int :=
  if i < 0 then i else i + w.before.length

/-- A moved label. -/
def label (w : Surround) (l : Label) : Label :=
  { l with
    start := w.offset l.start
    stop := w.offset l.stop
    expression := l.expression.map (·.after w.before)
    key := l.key.map (·.after w.before) }

/-- A node that is moved, with all nodes below it. -/
def node (w : Surround) : Node → Node :=
  Node.map w.label

/-- The open nodes of a text are carried along into the longer text: those inside the root are
moved, and the root of the longer text has the expressions `found` before theirs. -/
structure Carries (w : Surround) (found : List Expression) (st st' : Stack) : Prop where
  inner : st'.inner = st.inner.map w.node
  kind : st.root.kind = .fragment
  kind' : st'.root.kind = .fragment
  expressions : allExpressions st'.root.children
    = found ++ (allExpressions st.root.children).map (·.after w.before)

end Surround

/-- The expressions of nodes and of others after them. -/
theorem allExpressions_append (ms ns : List Node) :
    allExpressions (ms ++ ns) = allExpressions ms ++ allExpressions ns := by
  induction ms with
  | nil => rfl
  | cons m ms ih => rw [List.cons_append, allExpressions, ih, allExpressions, List.append_assoc]

/-- What a node contributes to its parent as a child. -/
theorem allExpressions_attach (n m : Node) :
    allExpressions (n.attach m).children
      = allExpressions n.children ++ if m.kind.isBranch then [] else m.expressions := by
  have happend : allExpressions (n.children ++ [m])
      = allExpressions n.children ++ m.expressions := by
    rw [allExpressions_append, allExpressions, allExpressions, List.append_nil]
  cases hm : m.kind with
  | branch b => cases b <;> simp [Node.attach, hm, Kind.isBranch]
  | _ => simp [Node.attach, hm, Kind.isBranch, happend]

namespace Stack

variable {st : Stack} {n : Node} {ns : List Node}

theorem closeOmitted_of_nil (stop : Int) (h : st.inner = []) : st.closeOmitted stop = st := by
  rw [closeOmitted]
  split
  · rfl
  · rename_i hcons
    cases hcons.symm.trans h

theorem closeOmitted_of_cons (stop : Int) (h : st.inner = n :: ns) :
    st.closeOmitted stop =
      if n.kind = .element .element && closingTagOmitted n.name none then
        (st.pop stop).closeOmitted stop
      else st := by
  rw [closeOmitted]
  split
  · rename_i hnil
    cases hnil.symm.trans h
  · rename_i hcons
    cases hcons.symm.trans h
    rfl

theorem closeBranches_of_cons (kind : Kind) (stop : Int) (h : st.inner = n :: ns) :
    st.closeBranches kind stop =
      if n.kind.isBranch
          || kind = .guarded .ifBlock && n.kind = .guarded .ifBlock && n.label.elseif then
        (st.pop stop).closeBranches kind stop
      else st := by
  rw [closeBranches]
  split
  · rename_i hnil
    cases hnil.symm.trans h
  · rename_i hcons
    cases hcons.symm.trans h
    rfl

theorem closeNamed_of_cons (name : Text) (start stop : Nat) (h : st.inner = n :: ns) :
    st.closeNamed name start stop =
      if n.kind.isElement && n.name = some name then .ok (st.pop stop)
      else if n.kind = .element .element then (st.pop start).closeNamed name start stop
      else .error ⟨.notOpen name, start⟩ := by
  rw [closeNamed]
  split
  · rename_i hnil
    cases hnil.symm.trans h
  · rename_i hcons
    cases hcons.symm.trans h
    rfl

end Stack

end ComponentDivision
