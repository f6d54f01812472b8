/-
# Refused documents

A document with malformed markup is refused because of the first piece of markup that is
no template, and the report about it points into that piece, at the line of the place it
points at.

* `FirstRefused` : the first piece of markup that is no template;
* `markupDiagnostic?_place` : where the report about a piece of markup points;
* `divideLocated_malformed_iff` : the documents that are refused for their markup.
-/
import ComponentDivision.Proofs.DocumentOrder
import ComponentDivision.Proofs.Template.FaultPlace

namespace ComponentDivision

/-! ## The first piece that is refused -/

/-- The fragment is the first one that is no template, in the order of the document, and this
is its fault. -/
def FirstRefused (grammar : Grammar) (fragments : List Fragment) (f : Fragment) (fault : Fault) :
    Prop :=
  ∃ before after, fragments = before ++ f :: after ∧ parseTemplate grammar f.text = .error fault ∧
    (∀ g ∈ before, g.endChar ≤ f.startChar ∧ ∃ root, parseTemplate grammar g.text = .ok root) ∧
    ∀ g ∈ after, f.endChar ≤ g.startChar

section

variable {grammar : Grammar} {fileName name : Option Text} {f : Fragment} {fault : Fault}

/-- The expressions of a fragment are missing exactly if it is no template. -/
theorem expressions_eq_error_iff {r : Refusal} :
    f.expressions grammar fileName = .error r ↔
      ∃ fault, parseTemplate grammar f.text = .error fault ∧ r = .malformed f fault fileName := by
  unfold Fragment.expressions
  cases parseTemplate grammar f.text with
  | error fault => simp [eq_comm]
  | ok root => simp

/-- A first fragment is refused, or it is a template and one of the others is refused. -/
theorem markupExpressions_cons_eq_error {fs : List Fragment} {r : Refusal} :
    markupExpressions grammar fileName (f :: fs) = .error r ↔
      f.expressions grammar fileName = .error r ∨
        (∃ root, parseTemplate grammar f.text = .ok root) ∧
          markupExpressions grammar fileName fs = .error r := by
  rw [markupExpressions]
  unfold Fragment.expressions
  cases parseTemplate grammar f.text with
  | error fault => simp [bind, Except.bind]
  | ok root =>
    cases markupExpressions grammar fileName fs with
    | error r' => simp [bind, Except.bind]
    | ok found => simp [bind, Except.bind, pure, Except.pure]

/-- **Extraction ends at the first fragment that is no template.** -/
theorem markupExpressions_eq_error_iff {fragments : List Fragment} :
    markupExpressions grammar fileName fragments = .error (.malformed f fault name) ↔
      name = fileName ∧ ∃ before after, fragments = before ++ f :: after ∧
        parseTemplate grammar f.text = .error fault ∧
        ∀ g ∈ before, ∃ root, parseTemplate grammar g.text = .ok root := by
  induction fragments with
  | nil => simp [markupExpressions]
  | cons g gs ih =>
    rw [markupExpressions_cons_eq_error, expressions_eq_error_iff, ih]
    constructor
    · rintro (⟨fault, hfault, ⟨⟩⟩ | ⟨hg, rfl, before, after, rfl, hfault, hbefore⟩)
      · exact ⟨rfl, [], gs, rfl, hfault, List.forall_mem_nil _⟩
      · exact ⟨rfl, g :: before, after, rfl, hfault, List.forall_mem_cons.2 ⟨hg, hbefore⟩⟩
    · rintro ⟨rfl, before, after, heq, hfault, hbefore⟩
      cases before with
      | nil =>
        cases heq
        exact .inl ⟨fault, hfault, rfl⟩
      | cons b before =>
        cases heq
        obtain ⟨hg, hbefore⟩ := List.forall_mem_cons.1 hbefore
        exact .inr ⟨hg, rfl, before, after, rfl, hfault, hbefore⟩

/-- A document is refused for its markup if it is laid out and the extraction fails. -/
theorem divideLocated_eq_malformed_iff {extract : Bool} {document : Text} {located : Located} :
    divideLocated grammar extract document located fileName = .error (.malformed f fault name) ↔
      extract = true ∧ ∃ layout, Layout.resolve document located fileName = .ok layout ∧
        markupExpressions grammar fileName (Report.assemble document layout fileName).markup
          = .error (.malformed f fault name) := by
  unfold divideLocated
  cases Layout.resolve document located fileName with
  | error a => simp [Except.mapError, bind, Except.bind]
  | ok layout =>
    simp only [Except.mapError, bind, Except.bind, pure, Except.pure]
    cases extract with
    | false => simp
    | true =>
      cases hfound : markupExpressions grammar fileName
          (Report.assemble document layout fileName).markup with
      | error r => simp [hfound]
      | ok found => simp [hfound]

end

/-! ## Where reports point -/

/-- The report about a fault that points into a text points there too. -/
theorem Fault.Inside.diagnostic? {source : Text} {fault : Fault} (h : fault.Inside source) :
    ∃ n ≤ source.length, ∃ d, fault.diagnostic? source = some d ∧ d.position = n ∧
      d.line = source.lineNumber n := by
  obtain ⟨n, hn, hplace⟩ := h
  refine ⟨n, hn, ?_⟩
  cases fault with
  | misread m =>
    cases hplace
    exact ⟨_, rfl, rfl, rfl⟩
  | rejected start stop offset =>
    cases offset with
    | none => cases hplace
    | some k =>
      cases hplace
      exact ⟨_, rfl, rfl, rfl⟩

/-- The report about a piece of a document points into the piece, and it gives the line of the
document there. -/
theorem markupDiagnostic?_place {document : Text} {a b : Int} {fault : Fault}
    (fileName : Option Text) (ha : 0 ≤ a) (hab : a ≤ b) (hb : b ≤ document.length)
    (h : fault.Inside (Fragment.of document a b).text) :
    ∃ d, markupDiagnostic? (.of document a b) fault fileName = some d ∧ a ≤ d.char ∧ d.char ≤ b ∧
      d.line = 1 + Text.newlines (document.take d.char.toNat) := by
  obtain ⟨n, hn, d, hd, hposition, hline⟩ := h.diagnostic?
  have hlen : (((Fragment.of document a b).text.length : Nat) : Int) = b - a :=
    Text.length_slice ha hab hb
  have hmoved : document.lineNumber (a + n) + 1
      = document.lineNumber a + (document.slice a b).lineNumber n :=
    Text.lineNumber_slice ha hb (by omega) (by omega)
  rw [Text.lineNumber_eq (i := a + n) (by omega) (by omega)] at hmoved
  refine ⟨.of d (document.lineNumber a) a fileName, ?_, ?_, ?_, ?_⟩
  · rw [markupDiagnostic?, hd]
    rfl
  · show a ≤ a + d.position
    omega
  · show a + d.position ≤ b
    omega
  · show (document.lineNumber a : Int) + d.line - 1
      = 1 + Text.newlines (document.take (a + d.position).toNat)
    rw [hposition, hline]
    have htext : (Fragment.of document a b).text = document.slice a b := rfl
    rw [htext]
    omega

/-- **The documents that are refused for their markup.** Whatever a parser of the scripts marks,
the refusal is about the first piece of markup that is no template, and its report points into
that piece and gives the line of that place in the document. -/
theorem divideLocated_malformed_iff (parse : Text → SyntaxTree) (extract : Bool) (document : Text)
    (located : Located) (fileName name : Option Text) (f : Fragment) (fault : Fault) :
    divideLocated (.ofTrees parse) extract document located fileName
        = .error (.malformed f fault name) ↔
      extract = true ∧ name = fileName ∧
      ∃ layout, Layout.resolve document located fileName = .ok layout ∧
        FirstRefused (.ofTrees parse) (Report.assemble document layout fileName).markup f fault ∧
        ∃ d, markupDiagnostic? f fault fileName = some d ∧
          f.startChar ≤ d.char ∧ d.char ≤ f.endChar ∧
          d.line = 1 + Text.newlines (document.take d.char.toNat) := by
  rw [divideLocated_eq_malformed_iff]
  constructor
  · rintro ⟨rfl, layout, hlayout, herror⟩
    obtain ⟨rfl, before, after, hmarkup, hfault, hbefore⟩ := markupExpressions_eq_error_iff.1 herror
    have horder := markup_assemble_before hlayout
    have hmem : f ∈ (Report.assemble document layout name).markup := by
      rw [hmarkup]
      exact List.mem_append_right _ List.mem_cons_self
    have hrow := (row_markup_assemble hlayout).mem (List.mem_map_of_mem hmem)
    have hof : f = .of document f.startChar f.endChar := by
      obtain ⟨s, -, rfl⟩ := List.mem_map.1 hmem
      rfl
    have hinside := inside_of_parseTemplate (Grammar.pointsInside_ofTrees parse) hfault
    refine ⟨rfl, rfl, layout, hlayout, ⟨before, after, hmarkup, hfault,
      fun g hg => ⟨?_, hbefore g hg⟩, fun g hg => ?_⟩, ?_⟩
    · rw [hmarkup, List.pairwise_append] at horder
      exact (horder.2.2 g hg f List.mem_cons_self).2
    · rw [hmarkup, List.pairwise_append, List.pairwise_cons] at horder
      exact (horder.2.1.1 g hg).2
    · rw [hof] at hinside ⊢
      exact markupDiagnostic?_place name hrow.1 hrow.2.1 hrow.2.2 hinside
  · rintro ⟨rfl, rfl, layout, hlayout, ⟨before, after, hmarkup, hfault, hbefore, -⟩, -⟩
    refine ⟨rfl, layout, hlayout, markupExpressions_eq_error_iff.2
      ⟨rfl, before, after, hmarkup, hfault, fun g hg => (hbefore g hg).2⟩⟩

end ComponentDivision
