/-
# The lines of a report

The report about a template that is refused has three lines: what is wrong and where, the source
line of the place after its number, and a caret under the place.

* `Text.splitOnChar_append` : the lines of a text are read off one by one;
* `Text.IsLine.diagnostic_of` : a complaint about a place of a line;
* `Diagnostic.splitOnChar_text` : its report has three lines;
* `parseTemplate_report` : so has the report about every template that is refused.
-/
import Mathlib.Data.List.TakeWhile
import ComponentDivision.Proofs.Template.FaultPlace
import ComponentDivision.Proofs.Template.SharedRun

namespace ComponentDivision

/-! ## Lines of texts -/

namespace Text

variable {sep : Char} {s : Text}

/-- What stands before the first separator is the first part. -/
theorem splitOnChar_append (h : sep ∉ s) (t : Text) :
    splitOnChar sep (s ++ sep :: t) = s :: splitOnChar sep t := by
  induction s with
  | nil => rw [List.nil_append, splitOnChar, if_pos rfl]
  | cons c cs ih =>
    obtain ⟨hc, hcs⟩ := List.ne_and_not_mem_of_not_mem_cons h
    rw [List.cons_append, splitOnChar, if_neg (Ne.symm hc), ih hcs]

/-- Without a separator there is one part. -/
theorem splitOnChar_of_notMem (h : sep ∉ s) : splitOnChar sep s = [s] := by
  induction s with
  | nil => rfl
  | cons c cs ih =>
    obtain ⟨hc, hcs⟩ := List.ne_and_not_mem_of_not_mem_cons h
    rw [splitOnChar, if_neg (Ne.symm hc), ih hcs]

theorem firstLine_append (h : '\n' ∉ s) (t : Text) : firstLine (s ++ '\n' :: t) = s := by
  have hall : ∀ c ∈ s, (c != '\n') = true := by
    intro c hc
    rw [bne_iff_ne]
    rintro rfl
    exact h hc
  rw [firstLine, List.takeWhile_append_of_pos hall]
  exact List.append_nil s

/-- A number is written in one line. -/
theorem newline_notMem_decimal (i : Int) : '\n' ∉ decimal i := by
  have hdigits (n : Nat) : '\n' ∉ Nat.toDigits 10 n := fun hmem =>
    absurd (Nat.isDigit_of_mem_toDigits (by decide) (by decide) hmem) (by decide)
  cases i with
  | ofNat n => exact hdigits n
  | negSucc n => exact List.not_mem_cons_of_ne_of_not_mem (by decide) (hdigits (n + 1))

end Text

/-! ## The parts of a report -/

/-- What stands before the source line: its number. -/
def Diagnostic.margin (line : Nat) : Text :=
  Text.decimal line ++ ": ".toList

theorem Diagnostic.newline_notMem_margin (line : Nat) : '\n' ∉ margin line := by
  rw [margin, List.mem_append, not_or]
  exact ⟨Text.newline_notMem_decimal _, by decide⟩

section

variable {source before excerpt after : Text} {column : Nat}

/-- **A complaint about a place of a line** shows the whole line, with a caret under the place. -/
theorem Text.IsLine.diagnostic_of (h : source.IsLine before excerpt after)
    (hcolumn : column ≤ excerpt.length) (summary : Text) :
    Diagnostic.of summary source (before.length + column : Nat)
      = { summary := summary
          position := (before.length + column : Nat)
          line := before.newlines + 1
          column := column
          frame := Diagnostic.margin (before.newlines + 1) ++ excerpt ++ '\n' ::
            (List.replicate ((Diagnostic.margin (before.newlines + 1)).length + column) ' '
              ++ ['^']) } := by
  have hexcerpt : (source.take (before.length + excerpt.length)).drop before.length = excerpt := by
    rw [h.text_eq, List.take_length_add_append, List.take_left, List.drop_left]
  have hdifference : ((before.length + column : Nat) : Int) - before.length = column := by omega
  have hcaret (m : Nat) : ((m : Int) + column).toNat = m + column := by omega
  simp only [Diagnostic.of, h.lineNumber_eq hcolumn, h.lineStart_eq hcolumn, h.lineEnd_eq hcolumn,
    hexcerpt, hdifference, hcaret]
  rfl

/-- **The report about a place of a line has three lines.** -/
theorem Diagnostic.splitOnChar_text (h : source.IsLine before excerpt after)
    (hcolumn : column ≤ excerpt.length) {summary : Text} (hsummary : '\n' ∉ summary) :
    '\n' ∉ (Diagnostic.of summary source (before.length + column : Nat)).headline ∧
    (Diagnostic.of summary source (before.length + column : Nat)).text.splitOnChar '\n'
      = [(Diagnostic.of summary source (before.length + column : Nat)).headline,
        margin (before.newlines + 1) ++ excerpt,
        List.replicate ((margin (before.newlines + 1)).length + column) ' ' ++ ['^']] := by
  have hheadline (d : Diagnostic) (hd : '\n' ∉ d.summary) : '\n' ∉ d.headline := by
    have hline := Text.newline_notMem_decimal d.line
    have hcolumn := Text.newline_notMem_decimal d.column
    simp only [Diagnostic.headline, List.mem_append, List.mem_cons, not_or]
    exact ⟨⟨⟨⟨hd, by decide⟩, hline⟩, by decide, hcolumn⟩, by decide, List.not_mem_nil⟩
  have hexcerpt : '\n' ∉ margin (before.newlines + 1) ++ excerpt := by
    rw [List.mem_append, not_or]
    exact ⟨newline_notMem_margin _, h.unbroken⟩
  have hcaret (k : Nat) : '\n' ∉ List.replicate k ' ' ++ ['^'] := by
    rw [List.mem_append, not_or, List.mem_replicate]
    exact ⟨fun hmem => absurd hmem.2 (by decide), by decide⟩
  have hfirst := hheadline (Diagnostic.of summary source (before.length + column : Nat)) hsummary
  refine ⟨hfirst, ?_⟩
  rw [Diagnostic.text, Text.splitOnChar_append hfirst, h.diagnostic_of hcolumn,
    Text.splitOnChar_append hexcerpt, Text.splitOnChar_of_notMem (hcaret _)]

/-- The character at a place of a line stands in the source line of the report, right of the
margin. -/
theorem Text.IsLine.getElem?_excerpt (h : source.IsLine before excerpt after) {c : Char}
    (hcolumn : column ≤ excerpt.length) (hc : source[before.length + column]? = some c)
    (hne : c ≠ '\n') (margin : Text) : (margin ++ excerpt)[margin.length + column]? = some c := by
  rw [h.text_eq, List.getElem?_append_right (by omega), Nat.add_sub_cancel_left] at hc
  rw [List.getElem?_append_right (by omega), Nat.add_sub_cancel_left]
  rcases Nat.lt_or_eq_of_le hcolumn with hlt | rfl
  · rwa [List.getElem?_append_left hlt] at hc
  · rw [List.getElem?_append_right (by omega), Nat.sub_self, ← List.head?_eq_getElem?] at hc
    exact absurd (h.ends c hc) hne

/-- A place of a line with no character of the line is the end of the line. -/
theorem Text.IsLine.column_eq (h : source.IsLine before excerpt after)
    (hcolumn : column ≤ excerpt.length)
    (hend : ∀ c, source[before.length + column]? = some c → c = '\n') :
    column = excerpt.length := by
  by_contra hne
  have hlt : column < excerpt.length := by omega
  have hc : source[before.length + column]? = some excerpt[column] := by
    rw [h.text_eq, List.getElem?_append_right (by omega), Nat.add_sub_cancel_left,
      List.getElem?_append_left hlt, List.getElem?_eq_getElem hlt]
  exact h.unbroken (hend _ hc ▸ List.getElem_mem hlt)

end

/-! ## Templates that are refused -/

/-- A fault that can be reported is reported with a summary of one line. -/
theorem Fault.Reportable.exists_diagnostic {source : Text} {fault : Fault}
    (h : fault.Reportable source) :
    ∃ n ≤ source.length, ∃ summary : Text, '\n' ∉ summary ∧
      fault.diagnostic? source = some (.of summary source n) := by
  obtain ⟨⟨n, hn, hplace⟩, honeLine⟩ := h
  refine ⟨n, hn, ?_⟩
  cases fault with
  | misread m =>
    cases hplace
    exact ⟨_, Cause.newline_notMem_message honeLine, rfl⟩
  | rejected start stop offset =>
    obtain ⟨k, rfl, rfl⟩ := Option.map_eq_some_iff.1 hplace
    exact ⟨_, @Cause.newline_notMem_message .unexpectedToken (List.forall_mem_nil _), rfl⟩

/-- **The report about a template that is refused** has three lines. The first one has the summary,
the line and the column; the second one has the number of the line and the whole line of the
source; the third one has a caret under the character that the report points at, or right after
the line if it points at a line feed or at the end. What is reported about a fragment of markup
begins with the first line. -/
theorem parseTemplate_report (parse : Text → SyntaxTree) {source : Text} {fault : Fault}
    (h : parseTemplate (.ofTrees parse) source = .error fault) :
    ∃ (d : Diagnostic) (before excerpt after : Text) (line column k : Nat)
      (first second third : Text),
      fault.diagnostic? source = some d ∧
      (source.IsLine before excerpt after ∧ line = before.newlines + 1 ∧
        column ≤ excerpt.length ∧ d.position = (before.length + column : Nat)) ∧
      d.text.splitOnChar '\n' = [first, second, third] ∧
      first = d.summary ++ " (".toList ++ Text.decimal line ++ ':' :: Text.decimal column ++ [')'] ∧
      second = Text.decimal line ++ ": ".toList ++ excerpt ∧
      third = List.replicate k ' ' ++ ['^'] ∧ k = (Text.decimal line).length + 2 + column ∧
      (∀ c, source[before.length + column]? = some c → c ≠ '\n' → second[k]? = some c) ∧
      ((∀ c, source[before.length + column]? = some c → c = '\n') → k = second.length) ∧
      ∀ startLine startChar fileName,
        (MarkupDiagnostic.of d startLine startChar fileName).diagnostic = first := by
  have hreportable := reportable_of_parseTemplate (Grammar.pointsInside_ofTrees parse) h
  obtain ⟨n, hn, summary, hsummary, hdiagnostic⟩ := hreportable.exists_diagnostic
  obtain ⟨line, column, before, excerpt, after, hline, rfl, hcolumn, rfl⟩ := Text.exists_isAt hn
  obtain ⟨hfirst, hlines⟩ := Diagnostic.splitOnChar_text hline hcolumn hsummary
  have hof := hline.diagnostic_of hcolumn summary
  have hmargin : (Diagnostic.margin (before.newlines + 1)).length
      = (Text.decimal (before.newlines + 1 : Nat)).length + 2 := List.length_append
  refine ⟨_, before, excerpt, after, _, column, _, _, _, _, hdiagnostic,
    ⟨hline, rfl, hcolumn, rfl⟩, hlines, ?_, rfl, rfl, by rw [hmargin], ?_, ?_, ?_⟩
  · rw [hof]
    rfl
  · exact fun c hc hne => hline.getElem?_excerpt hcolumn hc hne _
  · intro hend
    rw [hline.column_eq hcolumn hend, List.length_append]
  · exact fun _ _ _ => Text.firstLine_append hfirst _

open Template in
/-- A comment that is left open on the second line. -/
theorem parseTemplate_open_comment (grammar : Grammar) :
    parseTemplate grammar "a\nb<!--".toList = .error (.misread ⟨.commentLeftOpen, 3⟩) := by
  refine (run_of_item (item_text rfl 0 _ _)).trans ?_
  exact run_of_error rfl

theorem parseTemplate_report_comment :
    ∃ fault d, parseTemplate (.ofTrees fun _ => default) "a\nb<!--".toList = .error fault ∧
      fault.diagnostic? "a\nb<!--".toList = some d ∧
      d.text.splitOnChar '\n' = [Cause.commentLeftOpen.message ++ " (2:1)".toList,
        "2: b<!--".toList, "    ^".toList] ∧
      ∀ startLine startChar fileName,
        (MarkupDiagnostic.of d startLine startChar fileName).diagnostic
          = Cause.commentLeftOpen.message ++ " (2:1)".toList := by
  obtain ⟨d, before, excerpt, after, line, column, k, first, second, third, hd, -, hlines, -, -, -,
    -, -, -, hmarkup⟩ := parseTemplate_report (fun _ => default) (parseTemplate_open_comment _)
  cases hd
  refine ⟨_, _, parseTemplate_open_comment _, rfl, by decide +kernel, ?_⟩
  have hsplit : ((Diagnostic.of Cause.commentLeftOpen.message
      "a\nb<!--".toList 3).text.splitOnChar '\n')
        = [Cause.commentLeftOpen.message ++ " (2:1)".toList, "2: b<!--".toList,
          "    ^".toList] := by
    decide +kernel
  cases hlines.symm.trans hsplit
  exact hmarkup

end ComponentDivision
