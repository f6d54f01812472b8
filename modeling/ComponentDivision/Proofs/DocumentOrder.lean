/-
# Expressions in document order

The expressions of a template are listed in the order of the text, and none of
them overlaps another one: the list is never sorted, the order comes from the
places of the nodes. Moved to the document, the expressions of a report are exact
copies of their ranges and know their lines.

* `InOrder` : expressions in a row between two offsets;
* `Node.Sound.inOrder` : the expressions of a tree are in order inside it;
* `divideLocated_expressions` : the expressions of a report.
-/
import ComponentDivision.Proofs.Template.Laminar
import ComponentDivision.Proofs.Tiling

namespace ComponentDivision

/-! ## Expressions in a row -/

/-- The expressions stand in a row between two offsets of the text and know their lines. -/
structure InOrder (source : Text) (lo hi : Int) (es : List Expression) : Prop where
  row : Row lo hi (es.map Expression.span)
  exact : ∀ e ∈ es, e.Exact source

namespace InOrder

variable {source : Text} {lo mid hi : Int} {es fs : List Expression}

theorem nil (h : lo ≤ hi) : InOrder source lo hi [] :=
  ⟨h, nofun⟩

theorem append (hes : InOrder source lo mid es) (hfs : InOrder source mid hi fs) :
    InOrder source lo hi (es ++ fs) := by
  refine ⟨?_, fun e he => ?_⟩
  · rw [List.map_append]
    exact row_append.2 ⟨mid, hes.row, hfs.row⟩
  · rcases List.mem_append.1 he with he | he
    · exact hes.exact e he
    · exact hfs.exact e he

theorem mono {lo' hi' : Int} (h : InOrder source lo hi es) (hlo : lo' ≤ lo) (hhi : hi ≤ hi') :
    InOrder source lo' hi' es :=
  ⟨h.row.mono hlo hhi, h.exact⟩

theorem sublist (h : InOrder source lo hi fs) (hsub : es.Sublist fs) :
    InOrder source lo hi es :=
  ⟨h.row.sublist (hsub.map _), fun e he => h.exact e (hsub.subset he)⟩

end InOrder

/-! ## The expressions of a tree -/

/-- The expressions of a node are those of some of its parts, in the order of its parts. -/
theorem expressions_sublist (n : Node) :
    n.expressions.Sublist (n.label.embedded ++ (allExpressions n.attributes
      ++ (valueExpressions n.value ++ (allExpressions n.children
        ++ (branchExpressions n.elseBlock ++ (branchExpressions n.pendingBlock
          ++ (branchExpressions n.thenBlock ++ branchExpressions n.catchBlock))))))) := by
  obtain ⟨label, attributes, value, children, elseBlock, pending, thenBlock, catchBlock⟩ := n
  have hexpr : label.expression.toList.Sublist label.embedded := List.sublist_append_left _ _
  have hskip {as bs cs : List Expression} (h : as.Sublist cs) : as.Sublist (bs ++ cs) :=
    h.trans (List.sublist_append_right bs cs)
  have hdone {as bs : List Expression} : as.Sublist (as ++ bs) := List.sublist_append_left as bs
  unfold Node.expressions
  split
  · exact hexpr.trans hdone
  · exact hexpr.trans hdone
  · exact hexpr.trans hdone
  · exact hskip ((List.Sublist.refl _).append (hskip hdone))
  · exact hskip (hskip hdone)
  · rw [List.append_assoc]
    exact hexpr.append (hskip (hskip ((List.Sublist.refl _).append hdone)))
  · rw [List.append_assoc, List.append_assoc]
    exact hexpr.append (hskip (hskip (hskip (hskip (List.Sublist.refl _)))))
  · exact List.nil_sublist _

variable {source : Text}

/-- The expressions of a tree are in order if those of the trees right below it are. -/
theorem Node.Sound.inOrder_of_parts {n : Node} (hn : n.Sound source) (hstart : 0 ≤ n.start)
    (hattributes : ∀ {lo hi : Int}, 0 ≤ lo → Listed source lo hi n.attributes →
      InOrder source lo hi (allExpressions n.attributes))
    (hvalue : ∀ {lo hi : Int}, 0 ≤ lo → Listed source lo hi (n.value.getD []) →
      InOrder source lo hi (valueExpressions n.value))
    (hchildren : ∀ {lo hi : Int}, 0 ≤ lo → Listed source lo hi n.children →
      InOrder source lo hi (allExpressions n.children))
    (hbranch : ∀ (b : BranchKind) {lo hi : Int}, 0 ≤ lo → (∀ m ∈ n.slot b, m.Sound source) →
      Row lo hi (((n.slot b).toList.filter fun m => !m.label.unwritten).map Node.span) →
      InOrder source lo hi (branchExpressions (n.slot b))) :
    InOrder source n.start n.stop n.expressions := by
  have hplaced := hn.placed hstart
  have hpart (m : Node) (hm : m ∈ n.attributes ∨ m ∈ n.value.getD [] ∨ m ∈ n.children) :
      m.Sound source := by
    apply hn.part
    simp only [Node.parts, List.mem_append]
    tauto
  have hslot (b : BranchKind) : ∀ m ∈ n.slot b, m.Sound source := by
    intro m hm
    apply hn.part
    cases b <;> simp_all [Node.parts, Node.slot]
  have hrow := hplaced.row
  simp only [Node.spans, Node.branches, List.filter_append, List.map_append, List.append_assoc,
    row_append] at hrow
  -- the row of all parts is cut where one sort of parts ends and the next one begins
  obtain ⟨m₁, h₁, m₂, h₂, m₃, h₃, m₄, h₄, m₅, h₅, m₆, h₆, m₇, h₇, h₈⟩ := hrow
  have hm₁ : 0 ≤ m₁ := Int.le_trans hstart h₁.le
  have hm₂ : 0 ≤ m₂ := Int.le_trans hm₁ h₂.le
  have hm₃ : 0 ≤ m₃ := Int.le_trans hm₂ h₃.le
  have hm₄ : 0 ≤ m₄ := Int.le_trans hm₃ h₄.le
  have hm₅ : 0 ≤ m₅ := Int.le_trans hm₄ h₅.le
  have hm₆ : 0 ≤ m₆ := Int.le_trans hm₅ h₆.le
  have hm₇ : 0 ≤ m₇ := Int.le_trans hm₆ h₇.le
  have hall := InOrder.append ⟨h₁, hplaced.exact⟩ <|
    (hattributes hm₁ ⟨h₂, fun m hm => hpart m (Or.inl hm)⟩).append <|
    (hvalue hm₂ ⟨h₃, fun m hm => hpart m (Or.inr (Or.inl hm))⟩).append <|
    (hchildren hm₃ ⟨h₄, fun m hm => hpart m (Or.inr (Or.inr hm))⟩).append <|
    (hbranch .elseBlock hm₄ (hslot _) h₅).append <|
    (hbranch .pendingBlock hm₅ (hslot _) h₆).append <|
    (hbranch .thenBlock hm₆ (hslot _) h₇).append (hbranch .catchBlock hm₇ (hslot _) h₈)
  exact hall.sublist (expressions_sublist n)

/-- The children of a branch are in a row where the branch is; one that is not written has
none. -/
theorem Node.Sound.listed_children {n : Node} {lo hi : Int} (hn : n.Sound source)
    (hrow : Row lo hi (([n].filter fun m => !m.label.unwritten).map Node.span)) :
    Listed source lo hi n.children := by
  rcases hn n (mem_walk.2 (Or.inl rfl)) with ⟨b, -, rfl⟩ | hplaced
  · exact .nil hrow
  · rw [List.filter_cons_of_pos (by rw [hplaced.written]; rfl), List.filter_nil] at hrow
    obtain ⟨hlo, -, hhi⟩ := hrow
    have hchildren : n.children.Sublist
        (n.attributes ++ n.value.getD [] ++ n.children ++ n.branches) :=
      (List.sublist_append_right _ _).trans (List.sublist_append_left _ _)
    have hspans : (n.children.map Node.span).Sublist n.spans :=
      (hchildren.map _).trans (List.sublist_append_right _ _)
    refine ⟨(hplaced.row.sublist hspans).mono hlo hhi, fun m hm => hn.part ?_⟩
    simp [Node.parts, hm]

mutual

/-- **The expressions of a tree are in order** inside it. -/
theorem Node.Sound.inOrder : ∀ {n : Node}, n.Sound source → 0 ≤ n.start →
    InOrder source n.start n.stop n.expressions
  | ⟨_, attributes, value, children, elseBlock, pending, thenBlock, catchBlock⟩, hn, hstart =>
    hn.inOrder_of_parts hstart (inOrder_all attributes) (inOrder_value value)
      (inOrder_all children) fun b => match b with
        | .elseBlock => inOrder_branch elseBlock
        | .pendingBlock => inOrder_branch pending
        | .thenBlock => inOrder_branch thenBlock
        | .catchBlock => inOrder_branch catchBlock

theorem inOrder_all : ∀ (ns : List Node) {lo hi : Int}, 0 ≤ lo → Listed source lo hi ns →
    InOrder source lo hi (allExpressions ns)
  | [], _, _, _, h => .nil h.row
  | n :: ns, lo, hi, h₀, h => by
    obtain ⟨⟨hlo, hle, hrest⟩, hns⟩ := h
    have hstart : 0 ≤ n.start := Int.le_trans h₀ hlo
    have hn := (hns n List.mem_cons_self).inOrder hstart
    have htail := inOrder_all ns (Int.le_trans hstart hle)
      ⟨hrest, fun m hm => hns m (List.mem_cons_of_mem n hm)⟩
    exact (hn.append htail).mono hlo (Int.le_refl hi)

theorem inOrder_value : ∀ (value : Option (List Node)) {lo hi : Int}, 0 ≤ lo →
    Listed source lo hi (value.getD []) → InOrder source lo hi (valueExpressions value)
  | none, _, _, _, h => .nil h.row
  | some ns, _, _, h₀, h => inOrder_all ns h₀ h

theorem inOrder_branch : ∀ (o : Option Node) {lo hi : Int}, 0 ≤ lo → (∀ n ∈ o, n.Sound source) →
    Row lo hi ((o.toList.filter fun m => !m.label.unwritten).map Node.span) →
      InOrder source lo hi (branchExpressions o)
  | none, _, _, _, _, hrow => .nil hrow
  | some ⟨_, _, _, children, _, _, _, _⟩, _, _, h₀, ho, hrow =>
    inOrder_all children h₀ ((ho _ rfl).listed_children hrow)

end

/-- The expressions of a parsed template are in order. -/
theorem inOrder_of_parseTemplate {grammar : Grammar} {root : Node}
    (h : parseTemplate grammar source = .ok root) :
    InOrder source 0 source.length (allExpressions root.children) := by
  obtain ⟨hsound, hstart, -⟩ := sound_of_parseTemplate h
  have hplaced := hsound.placed (by omega)
  have hwritten : ([root].filter fun m => !m.label.unwritten) = [root] := by
    rw [List.filter_cons_of_pos (by rw [hplaced.written]; rfl), List.filter_nil]
  refine inOrder_all _ (Int.le_refl 0) (hsound.listed_children ?_)
  rw [hwritten]
  exact ⟨hplaced.nonneg, hplaced.row.le, hplaced.stop_le⟩

/-! ## Expressions of a document -/

/-- The fragments stand in a row between two offsets of the document, each of them is in one
of the pieces, is not empty and is exact. -/
structure Extracted (document : Text) (pieces : List Fragment) (lo hi : Int)
    (found : List Fragment) : Prop where
  row : Row lo hi (found.map Fragment.span)
  inside : ∀ e ∈ found, ∃ f ∈ pieces, f.startChar ≤ e.startChar ∧ e.endChar ≤ f.endChar
  nonempty : ∀ e ∈ found, e.startChar < e.endChar
  exact : ∀ e ∈ found, e.Exact document

/-- An expression that is moved to the document is exact. -/
theorem exact_expression {document : Text} {a b : Int} {e : Expression} (ha : 0 ≤ a)
    (hab : a ≤ b) (hb : b ≤ document.length) (he : e.Exact (document.slice a b)) :
    ((Fragment.of document a b).expression e).Exact document := by
  have hlen := Text.length_slice ha hab hb
  have h₀ := he.nonneg
  have hlt := he.start_lt_stop
  have hstop := he.stop_le
  refine ⟨?_, ?_⟩
  · exact (Text.slice_slice ha hab hb h₀ (by omega) (by omega)).symm
  · have hline := Text.lineNumber_slice ha hb h₀ (by omega : a + e.start ≤ b)
    show (document.lineNumber a : Int) + e.line - 1
      = 1 + Text.newlines (document.take (a + e.start).toNat)
    rw [he.line_eq]
    rw [Text.lineNumber_eq (by omega) (by omega)] at hline
    omega

/-- Expressions that are moved together stay in a row. -/
theorem row_expression_map {lo hi : Int} {es : List Expression} (f : Fragment)
    (h : Row lo hi (es.map Expression.span)) :
    Row (f.startChar + lo) (f.startChar + hi) ((es.map f.expression).map Fragment.span) := by
  induction es generalizing lo with
  | nil =>
    rw [List.map_nil, row_nil] at h
    exact Int.add_le_add_left h _
  | cons e es ih =>
    obtain ⟨hlo, hle, hrest⟩ := h
    exact ⟨Int.add_le_add_left hlo _, Int.add_le_add_left hle _, ih hrest⟩

/-- The expressions of a piece of markup. -/
theorem extracted_of_expressions {grammar : Grammar} {fileName : Option Text} {document : Text}
    {a b : Int} {found : List Fragment} (ha : 0 ≤ a) (hab : a ≤ b) (hb : b ≤ document.length)
    (h : (Fragment.of document a b).expressions grammar fileName = .ok found) :
    Extracted document [.of document a b] a b found := by
  unfold Fragment.expressions at h
  split at h
  · cases h
  · rename_i root hroot
    cases h
    obtain ⟨hrow, hexact⟩ := inOrder_of_parseTemplate hroot
    have hlen : (((Fragment.of document a b).text.length : Nat) : Int) = b - a :=
      Text.length_slice ha hab hb
    have hmem {x : Fragment} (hx : x ∈ (Fragment.of document a b).treeExpressions root) :
        ∃ e, e.Exact (document.slice a b) ∧ (Fragment.of document a b).expression e = x := by
      obtain ⟨e, he, rfl⟩ := List.mem_map.1 hx
      exact ⟨e, hexact e he, rfl⟩
    refine ⟨?_, fun x hx => ?_, fun x hx => ?_, fun x hx => ?_⟩
    · have hmoved : Row (a + 0) (a + _) _ := row_expression_map (.of document a b) hrow
      rw [hlen] at hmoved
      exact hmoved.mono (by omega) (by omega)
    · obtain ⟨e, he, rfl⟩ := hmem hx
      have h₀ := he.nonneg
      have hstop : e.stop ≤ (document.slice a b).length := he.stop_le
      have hlen : ((document.slice a b).length : Int) = b - a := hlen
      refine ⟨_, List.mem_singleton_self _, ?_, ?_⟩
      · show a ≤ a + e.start
        omega
      · show a + e.stop ≤ b
        omega
    · obtain ⟨e, he, rfl⟩ := hmem hx
      have hlt := he.start_lt_stop
      show a + e.start < a + e.stop
      omega
    · obtain ⟨e, he, rfl⟩ := hmem hx
      exact exact_expression ha hab hb he

/-- The expressions of some pieces and of others after them. -/
theorem Extracted.append {document : Text} {ps qs xs ys : List Fragment} {lo mid hi : Int}
    (hx : Extracted document ps lo mid xs) (hy : Extracted document qs mid hi ys) :
    Extracted document (ps ++ qs) lo hi (xs ++ ys) := by
  refine ⟨?_, fun e he => ?_, fun e he => ?_, fun e he => ?_⟩
  · rw [List.map_append]
    exact row_append.2 ⟨mid, hx.row, hy.row⟩
  · rcases List.mem_append.1 he with he | he
    · obtain ⟨f, hf, hin⟩ := hx.inside e he
      exact ⟨f, List.mem_append_left _ hf, hin⟩
    · obtain ⟨f, hf, hin⟩ := hy.inside e he
      exact ⟨f, List.mem_append_right _ hf, hin⟩
  · exact (List.mem_append.1 he).elim (hx.nonempty e) (hy.nonempty e)
  · exact (List.mem_append.1 he).elim (hx.exact e) (hy.exact e)

section

variable {grammar : Grammar} {fileName : Option Text} {document : Text}

/-- The expressions of a first piece come before those of the others. -/
theorem markupExpressions_cons_eq_ok {f : Fragment} {fs found : List Fragment} :
    markupExpressions grammar fileName (f :: fs) = .ok found ↔
      ∃ first rest, f.expressions grammar fileName = .ok first ∧
        markupExpressions grammar fileName fs = .ok rest ∧ first ++ rest = found := by
  rw [markupExpressions, Except.bind_eq_ok_iff]
  constructor
  · rintro ⟨first, hfirst, h⟩
    obtain ⟨rest, hrest, h⟩ := Except.bind_eq_ok_iff.1 h
    cases h
    exact ⟨first, rest, hfirst, hrest, rfl⟩
  · rintro ⟨first, rest, hfirst, hrest, rfl⟩
    exact ⟨first, hfirst, Except.bind_eq_ok_iff.2 ⟨rest, hrest, rfl⟩⟩

/-- The expressions of several pieces of markup are in the order of the document. -/
theorem extracted_of_markupExpressions {pieces found : List Fragment} {lo : Int} (hlo : 0 ≤ lo)
    (hrange : ∀ f ∈ pieces, f = .of document f.startChar f.endChar)
    (hrow : Row lo document.length (pieces.map Fragment.span))
    (h : markupExpressions grammar fileName pieces = .ok found) :
    Extracted document pieces lo document.length found := by
  induction pieces generalizing lo found with
  | nil =>
    cases h
    exact ⟨hrow, nofun, nofun, nofun⟩
  | cons f fs ih =>
    obtain ⟨first, rest, hfirst, hrest, rfl⟩ := markupExpressions_cons_eq_ok.1 h
    obtain ⟨hstart, hle, htail⟩ := hrow
    have hstart : lo ≤ f.startChar := hstart
    have hle : f.startChar ≤ f.endChar := hle
    have hend : f.endChar ≤ document.length := htail.le
    have hf := hrange f List.mem_cons_self
    rw [hf] at hfirst
    have hhead := extracted_of_expressions (by omega) hle hend hfirst
    rw [← hf] at hhead
    have hmore := ih (by omega) (fun g hg => hrange g (List.mem_cons_of_mem f hg)) htail hrest
    obtain ⟨hrow, hinside, hnonempty, hexact⟩ := hhead.append hmore
    exact ⟨hrow.mono hstart (Int.le_refl _), hinside, hnonempty, hexact⟩

/-- Every piece of markup is a template, and none of its expressions is left out. -/
theorem complete_of_markupExpressions {pieces found : List Fragment}
    (h : markupExpressions grammar fileName pieces = .ok found) :
    ∀ f ∈ pieces, ∃ root, parseTemplate grammar f.text = .ok root ∧
      ∀ e ∈ allExpressions root.children, f.expression e ∈ found := by
  induction pieces generalizing found with
  | nil => exact nofun
  | cons g gs ih =>
    obtain ⟨first, rest, hfirst, hrest, rfl⟩ := markupExpressions_cons_eq_ok.1 h
    intro f hf
    rcases List.mem_cons.1 hf with rfl | hf
    · unfold Fragment.expressions at hfirst
      split at hfirst
      · cases hfirst
      · rename_i root hroot
        cases hfirst
        exact ⟨root, hroot, fun e he => List.mem_append_left _ (List.mem_map_of_mem he)⟩
    · obtain ⟨root, hroot, hall⟩ := ih hrest f hf
      exact ⟨root, hroot, fun e he => List.mem_append_right _ (hall e he)⟩

end

/-- **The expressions of a report are in document order.** They do not overlap, each of them
is in a piece of markup, is not empty, is an exact copy of its range and knows its line; if
they are asked for, none is left out. -/
theorem divideLocated_expressions {grammar : Grammar} {extract : Bool} {document : Text}
    {located : Located} {fileName : Option Text} {report : Report}
    (h : divideLocated grammar extract document located fileName = .ok report) :
    (report.expressions.Pairwise fun a b =>
      a.startChar < b.startChar ∧ a.endChar ≤ b.startChar) ∧
    (∀ e ∈ report.expressions, e.startChar < e.endChar ∧
      (∃ f ∈ report.markup, f.startChar ≤ e.startChar ∧ e.endChar ≤ f.endChar) ∧
      e.Exact document) ∧
    (extract = true → ∀ f ∈ report.markup, ∃ root, parseTemplate grammar f.text = .ok root ∧
      ∀ e ∈ allExpressions root.children, f.expression e ∈ report.expressions) := by
  obtain ⟨layout, found, hlayout, rfl, hfound⟩ := divideLocated_eq_ok_iff.1 h
  cases extract with
  | false =>
    cases hfound
    exact ⟨.nil, nofun, nofun⟩
  | true =>
    rw [if_pos rfl] at hfound
    have hrange : ∀ f ∈ (Report.assemble document layout fileName).markup,
        f = .of document f.startChar f.endChar := by
      intro f hf
      obtain ⟨s, -, rfl⟩ := List.mem_map.1 hf
      rfl
    obtain ⟨hrow, hinside, hnonempty, hexact⟩ := extracted_of_markupExpressions (Int.le_refl 0)
      hrange (row_markup_assemble hlayout) hfound
    refine ⟨?_, fun e he => ⟨hnonempty e he, hinside e he, hexact e he⟩,
      fun _ => complete_of_markupExpressions hfound⟩
    refine (List.pairwise_map.1 hrow.pairwise).imp_of_mem fun {a b} ha _ hab => ?_
    exact ⟨Int.lt_of_lt_of_le (hnonempty a ha) hab, hab⟩

/-- An expression in the head of an if block and one in its body. -/
theorem divideLocated_expressions_if_else :
    ∃ report,
      divideLocated .permissive true ifElse {} none = .ok report ∧
      report.expressions = [⟨['p'], 1, 5, 6⟩, ⟨['p'], 1, 8, 9⟩] ∧
      (report.expressions.Pairwise fun a b =>
        a.startChar < b.startChar ∧ a.endChar ≤ b.startChar) ∧
      ∀ e ∈ report.expressions, e.startChar < e.endChar ∧
        ∃ f ∈ report.markup, f.startChar ≤ e.startChar ∧ e.endChar ≤ f.endChar := by
  have hfound : markupExpressions .permissive none [⟨ifElse, 1, 0, 23⟩]
      = .ok [⟨['p'], 1, 5, 6⟩, ⟨['p'], 1, 8, 9⟩] := by
    refine markupExpressions_cons_eq_ok.2 ⟨[⟨['p'], 1, 5, 6⟩, ⟨['p'], 1, 8, 9⟩], [], ?_, rfl, rfl⟩
    unfold Fragment.expressions
    rw [parseTemplate_if_else]
    rfl
  have h : divideLocated .permissive true ifElse {} none
      = .ok
        { markup := [⟨ifElse, 1, 0, 23⟩]
          expressions := [⟨['p'], 1, 5, 6⟩, ⟨['p'], 1, 8, 9⟩] } :=
    divideLocated_eq_ok_iff.2 ⟨⟨[], [⟨0, 23⟩]⟩, _, by cbv, rfl, hfound⟩
  obtain ⟨horder, hall, -⟩ := divideLocated_expressions h
  exact ⟨_, h, rfl, horder, fun e he => ⟨(hall e he).1, (hall e he).2.1⟩⟩

end ComponentDivision
