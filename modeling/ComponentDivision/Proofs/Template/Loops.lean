/-
# The loops of a reading

A template is read in loops: over its items, over the attributes of a tag, over the characters of a
value and over the pieces of an expression. Each turn that goes on moves forward in the text, and
none moves past its end, whatever the text is.

* `itemLoop`, `attributeLoop`, `valueLoop`, `scanLoop` : the loops, turn by turn;
* `moves_itemLoop`, `moves_attributeLoop`, `moves_valueLoop`, `moves_scanLoop` : what a turn does,
  and that the functions that read do the same.
-/
import ComponentDivision.Proofs.Expression.Step
import ComponentDivision.Proofs.Loop
import ComponentDivision.Proofs.Template.Gate
import ComponentDivision.Proofs.Template.Step

namespace ComponentDivision

namespace Cursor

variable {source : Text} {c d : Cursor}

/-- A place beyond the next character is a greater place in the text. -/
theorem On.forward (hc : c.On source) {first : Char} {rest : Text} (h : c.rest = first :: rest)
    (hd : (c.advance 1).Reaches d) : d.On source ∧ c.pos < d.pos ∧ d.pos ≤ source.length := by
  have hnext : c.Reaches (c.advance 1) := reaches_advance (by rw [h]; exact Nat.succ_pos _)
  have hon := (hnext.trans hd).on hc
  exact ⟨hon, hd.pos_le, hon.pos_le⟩

end Cursor

/-! ## Items -/

namespace Template

/-- One turn of the loop over the items. -/
def itemLoop (ctx : Context) : Loop Fault (Stack × Cursor) Node := fun (st, c) =>
  match c.rest with
  | [] => ((st.finish c.pos).mapError .misread).map .done
  | first :: _ => (Reader.item ctx c.pos first st (c.advance 1)).map .again

theorem moves_itemLoop {ctx : Context} {source : Text} {s : Stack × Cursor}
    (hs : s.2.On source) :
    (itemLoop ctx).Moves (·.2.On source) (·.2.pos) (fun _ => source.length) source.length
      (fun s => run ctx s.1 s.2) s := by
  obtain ⟨st, pos, rest⟩ := s
  cases rest with
  | nil =>
    cases hfinish : st.finish pos with
    | error m =>
      refine .error (e := .misread m) ?_ ?_
      · simp only [itemLoop, hfinish, Except.mapError, Except.map]
      · simp only [run_nil, hfinish, Except.mapError]
    | ok root =>
      refine .done (a := root) ?_ ?_ hs.pos_le (Nat.le_refl _)
      · simp only [itemLoop, hfinish, Except.mapError, Except.map]
      · simp only [run_nil, hfinish, Except.mapError]
  | cons first rest =>
    cases hitem : Reader.item ctx pos first st (Cursor.advance ⟨pos, first :: rest⟩ 1) with
    | error f =>
      refine .error (e := f) ?_ (run_of_error hitem)
      simp only [itemLoop, hitem, Except.map]
    | ok next =>
      obtain ⟨hon, hlt, hle⟩ := hs.forward rfl (Reader.forward_item _ _ _ _ hitem)
      refine .again (t := next) ?_ (run_of_item hitem) hon hlt hle
      simp only [itemLoop, hitem, Except.map]

end Template

/-! ## Attributes -/

/-- How far the attributes of a tag have been read: the names that are taken, the attributes and the
place after them. -/
structure AttributeState where
  seen : List Text
  read : List Node
  here : Cursor

/-- One turn of the loop over the attributes of a tag. -/
def attributeLoop (ctx : Context) : Loop Fault AttributeState (List Node × Cursor) := fun s =>
  let d := s.here.advance (s.here.rest.takeWhile isBlank).length
  match d.rest with
  | [] => .error (.misread ⟨.unexpectedEnd, d.pos⟩)
  | ch :: cs =>
    if ch == '>' || ch == '/' && cs.head? == some '>' then .ok (.done (s.read, d))
    else
      match Reader.oneAttribute ctx d.pos ch (d.advance 1) with
      | .error f => .error f
      | .ok (a, e) =>
        match seeAttribute s.seen a with
        | .error m => .error (.misread m)
        | .ok seen => .ok (.again ⟨seen, s.read ++ [a], e⟩)

/-- What the loop over the attributes gives from a state on. -/
def attributesFrom (ctx : Context) (s : AttributeState) : Except Fault (List Node × Cursor) :=
  (attributes ctx s.seen s.here).map fun (as, d) => (s.read ++ as, d)

theorem moves_attributeLoop {ctx : Context} {source : Text} {s : AttributeState}
    (hs : s.here.On source) :
    (attributeLoop ctx).Moves (·.here.On source) (·.here.pos) (·.2.pos) source.length
      (attributesFrom ctx) s := by
  obtain ⟨seen, read, c⟩ := s
  obtain ⟨d, hd⟩ : ∃ d, c.advance (c.rest.takeWhile isBlank).length = d := ⟨_, rfl⟩
  have hcd : c.Reaches d := hd ▸ Cursor.reaches_advance (List.takeWhile_prefix _).length_le
  have hdon := hcd.on hs
  cases hrest : d.rest with
  | nil =>
    refine .error (e := .misread ⟨.unexpectedEnd, d.pos⟩) ?_ ?_
    · simp only [attributeLoop, hd, hrest]
    · simp only [attributesFrom, Reader.attributes_of_nil hd hrest, Except.map]
  | cons ch cs =>
    have hread := @Reader.attributes_of_cons ctx seen _ _ _ _ hd hrest
    by_cases hends : (ch == '>' || ch == '/' && cs.head? == some '>') = true
    · refine .done (a := (read, d)) ?_ ?_ hcd.pos_le hdon.pos_le
      · simp only [attributeLoop, hd, hrest, if_pos hends]
      · simp only [attributesFrom, hread, if_pos hends, Except.map, List.append_nil]
    rw [if_neg hends, Reader.attributesTail] at hread
    cases ha : Reader.oneAttribute ctx d.pos ch (d.advance 1) with
    | error f =>
      refine .error (e := f) ?_ ?_
      · simp only [attributeLoop, hd, hrest, if_neg hends, ha]
      · simp only [attributesFrom, hread, Bind.bind, ha, Except.map]
    | ok p =>
      obtain ⟨a, e⟩ := p
      rw [Reader.bind_of_ok ha] at hread
      cases hsee : seeAttribute seen a with
      | error m =>
        refine .error (e := .misread m) ?_ ?_
        · simp only [attributeLoop, hd, hrest, if_neg hends, ha, hsee]
        · simp only [attributesFrom, hread, Bind.bind, Reader.ofExcept, hsee, Except.map]
      | ok seen' =>
        obtain ⟨hon, hlt, hle⟩ := hdon.forward hrest (Reader.forward_oneAttribute ctx _ _ ha)
        refine .again (t := ⟨seen', read ++ [a], e⟩) ?_ ?_ hon
          (Nat.lt_of_le_of_lt hcd.pos_le hlt) hle
        · simp only [attributeLoop, hd, hrest, if_neg hends, ha, hsee]
        · simp only [attributesFrom, hread, Bind.bind, Reader.ofExcept, hsee, Pure.pure]
          cases attributes ctx seen' e with
          | error f => rfl
          | ok q => simp only [Except.map, List.append_assoc, List.singleton_append]

/-! ## Values -/

/-- How far a value has been read: the chunks, the place where the text after them begins, and the
place that is reached in it. -/
structure ValueState where
  chunks : List Node
  opened : Cursor
  here : Cursor

namespace ValueState

/-- The chunks with the text that has been passed, if there is any. -/
def closeText (s : ValueState) : List Node :=
  let n := s.here.pos - s.opened.pos
  if n = 0 then s.chunks else s.chunks ++ [.ofText s.opened.pos (s.opened.rest.take n)]

/-- The state is in the text, and nothing has been passed that ends the text of a chunk. -/
structure On (source : Text) (quote : Option Char) (s : ValueState) : Prop where
  opened_on : s.opened.On source
  here_eq : ∃ n ≤ valueTextLength quote s.opened.rest, s.here = s.opened.advance n

end ValueState

/-- One turn of the loop over the characters of a value; braces are passed in one turn. -/
def valueLoop (ctx : Context) (quote : Option Char) :
    Loop Fault ValueState (List Node × Cursor) := fun s =>
  match s.here.rest with
  | [] => .error (.misread ⟨.unexpectedEnd, s.here.pos⟩)
  | ch :: cs =>
    if endsValue quote ch cs then .ok (.done (s.closeText, s.here))
    else if ch = '\x7b' then
      match Reader.valueMustache ctx s.here.pos (s.here.advance 1) with
      | .error f => .error f
      | .ok (chunk, e) => .ok (.again ⟨s.closeText ++ [chunk], e, e⟩)
    else .ok (.again { s with here := s.here.advance 1 })

/-- What the loop over a value gives from a state on. -/
def valueFrom (ctx : Context) (quote : Option Char) (s : ValueState) :
    Except Fault (List Node × Cursor) :=
  (valueChunks ctx quote s.opened).map fun (more, d) => (s.chunks ++ more, d)

/-- A text of a value goes on over a character exactly if the character neither ends the value nor
opens braces. -/
theorem lt_valueTextLength_iff {quote : Option Char} {t : Text} {n : Nat} {ch : Char} {cs : Text}
    (hn : n ≤ valueTextLength quote t) (hrest : t.drop n = ch :: cs) :
    n < valueTextLength quote t ↔ endsValue quote ch cs = false ∧ ch ≠ '\x7b' := by
  induction t generalizing n with
  | nil => cases List.drop_nil.symm.trans hrest
  | cons c t ih =>
    unfold valueTextLength at hn ⊢
    cases n with
    | zero =>
      cases hrest
      split
      · rename_i hends
        simp only [Bool.or_eq_true, beq_iff_eq] at hends
        exact iff_of_false (Nat.lt_irrefl _) fun h => by simp [h.1, h.2] at hends
      · rename_i hgo
        simp only [Bool.or_eq_true, beq_iff_eq, not_or, Bool.not_eq_true] at hgo
        exact iff_of_true (by omega) hgo
    | succ n =>
      split at hn
      · cases hn
      · rename_i hgo
        rw [if_neg hgo, ← ih (n := n) (by omega) hrest]
        omega

section

variable {ctx : Context} {source : Text} {quote : Option Char} {s : ValueState}

theorem ValueState.On.here_on (h : s.On source quote) : s.here.On source := by
  obtain ⟨n, hn, hhere⟩ := h.here_eq
  exact Cursor.Reaches.on ⟨n, hn.trans (valueTextLength_le quote _), hhere⟩ h.opened_on

/-- A text ends at the end of the value, at braces and at the end of the whole text. -/
theorem ValueState.On.advance_eq_here (h : s.On source quote)
    (hends : ∀ ch cs, s.here.rest = ch :: cs → ¬ (endsValue quote ch cs = false ∧ ch ≠ '\x7b')) :
    s.opened.advance (valueTextLength quote s.opened.rest) = s.here := by
  obtain ⟨n, hn, hhere⟩ := h.here_eq
  rw [hhere] at hends ⊢
  have hge : valueTextLength quote s.opened.rest ≤ n := by
    cases hrest : s.opened.rest.drop n with
    | nil => exact (valueTextLength_le quote _).trans (List.drop_eq_nil_iff.1 hrest)
    | cons ch cs =>
      exact Nat.le_of_not_lt fun hlt =>
        hends ch cs hrest ((lt_valueTextLength_iff hn hrest).1 hlt)
  rw [Nat.le_antisymm hge hn]

/-- Where a text ends, all of it has been passed. -/
theorem ValueState.closeText_eq
    (hends : s.opened.advance (valueTextLength quote s.opened.rest) = s.here) :
    s.closeText = s.chunks ++ Reader.valueText quote s.opened := by
  have hlength : s.here.pos - s.opened.pos = valueTextLength quote s.opened.rest := by
    rw [← hends]
    exact Nat.add_sub_cancel_left _ _
  simp only [closeText, hlength, Reader.valueText]
  split
  · exact (List.append_nil _).symm
  · rfl

theorem moves_valueLoop (hs : s.On source quote) :
    (valueLoop ctx quote).Moves (·.On source quote) (·.here.pos) (·.2.pos) source.length
      (valueFrom ctx quote) s := by
  cases hrest : s.here.rest with
  | nil =>
    have hhere := hs.advance_eq_here fun ch cs hcons => by cases hrest.symm.trans hcons
    refine .error (e := .misread ⟨.unexpectedEnd, s.here.pos⟩) ?_ ?_
    · simp only [valueLoop, hrest]
    · simp only [valueFrom, Reader.valueChunks_of_nil hhere hrest, Except.map]
  | cons ch cs =>
    -- the text that has been passed becomes a chunk at the end of the value and at a brace
    by_cases hends : endsValue quote ch cs = true
    · have hhere := hs.advance_eq_here fun ch cs hcons hgo => by
        cases hrest.symm.trans hcons
        cases hends.symm.trans hgo.1
      refine .done (a := (s.closeText, s.here)) ?_ ?_ (Nat.le_refl _) hs.here_on.pos_le
      · simp only [valueLoop, hrest, if_pos hends]
      · simp only [valueFrom, Reader.valueChunks_of_cons hhere hrest, if_pos hends, Except.map,
          ValueState.closeText_eq hhere]
    by_cases hbrace : ch = '\x7b'
    · have hhere := hs.advance_eq_here fun ch cs hcons hgo => by
        cases hrest.symm.trans hcons
        exact hgo.2 hbrace
      have hread := @Reader.valueChunks_of_cons ctx _ _ _ _ _ hhere hrest
      rw [if_neg hends, Reader.valueTail] at hread
      cases hchunk : Reader.valueMustache ctx s.here.pos (s.here.advance 1) with
      | error f =>
        refine .error (e := f) ?_ ?_
        · simp only [valueLoop, hrest, if_neg hends, if_pos hbrace, hchunk]
        · simp only [valueFrom, hread, Bind.bind, hchunk, Except.map]
      | ok p =>
        obtain ⟨chunk, e⟩ := p
        rw [Reader.bind_of_ok hchunk] at hread
        obtain ⟨hon, hlt, hle⟩ :=
          hs.here_on.forward hrest (Reader.forward_valueMustache ctx _ hchunk)
        refine .again (t := ⟨s.closeText ++ [chunk], e, e⟩) ?_ ?_
          ⟨hon, 0, Nat.zero_le _, (Cursor.advance_zero e).symm⟩ hlt hle
        · simp only [valueLoop, hrest, if_neg hends, if_pos hbrace, hchunk]
        · simp only [valueFrom, hread, Bind.bind, Pure.pure, ValueState.closeText_eq hhere]
          cases valueChunks ctx quote e with
          | error f => rfl
          | ok q => simp only [Except.map, List.append_assoc, List.singleton_append]
    · obtain ⟨-, hlt, hle⟩ := hs.here_on.forward hrest (.refl _)
      refine .again (t := { s with here := s.here.advance 1 }) ?_ rfl ⟨hs.opened_on, ?_⟩ hlt hle
      · simp only [valueLoop, hrest, if_neg hends, if_neg hbrace]
      · obtain ⟨n, hn, hhere⟩ := hs.here_eq
        rw [hhere] at hrest
        exact ⟨n + 1, (lt_valueTextLength_iff hn hrest).2 ⟨Bool.eq_false_iff.2 hends, hbrace⟩,
          by rw [hhere, Cursor.advance_advance]⟩

end

/-! ## Expressions -/

/-- One turn of the scan for the end of an expression, where the character `c` is next. -/
def scanTurn (options : ScanOptions) (s : ScanState) (c : Char) (cs : Text) :
    Except Misread (Turn (ScanState × Text) Scan) :=
  match gap? c cs with
  | .error cause => .error ⟨cause, s.offset⟩
  | .ok (some .blank) => .ok (.again (s.pass .blank, cs))
  | .ok (some (.comment more)) => .ok (.again (s.pass (.comment more), cs.drop more))
  | .ok none =>
    if s.depth.isEmpty && options.terminators.contains c then (s.halt options none).map .done
    else
      match s.stopWord? options c cs with
      | some word => (s.halt options (some word)).map .done
      | none =>
        match scanToken s c cs with
        | .error (cause, n) => .error ⟨cause, s.offset + n⟩
        | .ok token => .ok (.again (s.take token, cs.drop token.more))

/-- One turn of the scan for the end of an expression. -/
def scanLoop (options : ScanOptions) : Loop Misread (ScanState × Text) Scan := fun (s, t) =>
  match t with
  | [] => .error ⟨.unexpectedEnd, s.offset⟩
  | c :: cs => scanTurn options s c cs

/-- A scan that began at the offset `start` has come to a place in the text. -/
structure ScanState.On (source : Text) (start : Nat) (s : ScanState × Text) : Prop where
  offset_le : start + s.1.offset ≤ source.length
  rest_eq : s.2 = source.drop (start + s.1.offset)

/-- What a turn of a scan that began at the offset `start` does. -/
abbrev ScanState.Moves (options : ScanOptions) (source : Text) (start : Nat)
    (s : ScanState × Text) : Prop :=
  (scanLoop options).Moves (ScanState.On source start) (start + ·.1.offset) (start + ·.next)
    source.length (fun s => scanFrom options s.1 s.2) s

section

variable {options : ScanOptions} {source : Text} {start : Nat} {s : ScanState} {c : Char}
  {cs : Text}

/-- A turn that passes a character and more goes on further in the text. -/
theorem ScanState.On.moves (h : ScanState.On source start (s, c :: cs)) (s' : ScanState)
    (more : Nat) (hmore : more ≤ cs.length) (hoffset : s'.offset = s.offset + (more + 1))
    (hturn : scanTurn options s c cs = .ok (.again (s', cs.drop more)))
    (hf : scanFrom options s (c :: cs) = scanFrom options s' (cs.drop more)) :
    ScanState.Moves options source start (s, c :: cs) := by
  have hrest : c :: cs = source.drop (start + s.offset) := h.rest_eq
  have hlength := congrArg List.length hrest
  simp only [List.length_cons, List.length_drop] at hlength
  have hlt : start + s.offset < start + s'.offset := by omega
  have hle : start + s'.offset ≤ source.length := by omega
  refine .again hturn hf ⟨hle, ?_⟩ hlt hle
  show cs.drop more = source.drop (start + s'.offset)
  rw [hoffset, ← Nat.add_assoc, ← List.drop_drop, ← hrest, List.drop_succ_cons]

/-- A turn that halts ends at the offset. -/
theorem ScanState.On.moves_halt (h : ScanState.On source start (s, c :: cs)) (w : Option Text)
    (hturn : scanTurn options s c cs = (s.halt options w).map .done)
    (hf : scanFrom options s (c :: cs) = s.halt options w) :
    ScanState.Moves options source start (s, c :: cs) := by
  cases hhalt : s.halt options w with
  | error m =>
    rw [hhalt] at hturn hf
    exact .error hturn hf
  | ok r =>
    rw [hhalt] at hturn hf
    have hnext := ScanState.halt_next hhalt
    refine .done hturn hf ?_ ?_
    · rw [hnext]
    · rw [hnext]
      exact h.offset_le

end

theorem moves_scanLoop {options : ScanOptions} {source : Text} {start : Nat}
    {s : ScanState × Text} (hs : ScanState.On source start s) :
    ScanState.Moves options source start s := by
  obtain ⟨s, t⟩ := s
  have hscan := scanFrom.eq_def options s t
  cases t with
  | nil => exact .error rfl hscan
  | cons c cs =>
    -- both sides look at the same things in the same order; `delta` opens the turn as it is written
    cases hgap : gap? c cs with
    | error cause =>
      simp only [hgap] at hscan
      refine .error (show scanTurn options s c cs = .error ⟨cause, s.offset⟩ from ?_) hscan
      delta scanTurn
      rw [hgap]
    | ok gap =>
      cases gap with
      | some gap =>
        cases gap with
        | blank =>
          simp only [hgap] at hscan
          refine hs.moves (s.pass .blank) 0 (Nat.zero_le _) rfl ?_ hscan
          delta scanTurn
          rw [hgap]
          rfl
        | comment more =>
          simp only [hgap] at hscan
          obtain ⟨p, rest, -, htext, hmore, -⟩ := exists_comment hgap
          have hlength := congrArg List.length htext
          simp only [List.length_cons, List.length_append] at hlength
          refine hs.moves (s.pass (.comment more)) more (by omega) rfl ?_ hscan
          delta scanTurn
          rw [hgap]
      | none =>
        simp only [hgap] at hscan
        by_cases hend : (s.depth.isEmpty && options.terminators.contains c) = true
        · rw [if_pos hend] at hscan
          refine hs.moves_halt none ?_ hscan
          delta scanTurn
          rw [hgap]
          exact if_pos hend
        rw [if_neg hend] at hscan
        cases hword : s.stopWord? options c cs with
        | some word =>
          rw [hword] at hscan
          refine hs.moves_halt (some word) ?_ hscan
          delta scanTurn
          rw [hgap]
          simp only [if_neg hend, hword]
        | none =>
          rw [hword] at hscan
          cases htoken : scanToken s c cs with
          | error fault =>
            obtain ⟨cause, n⟩ := fault
            simp only [htoken] at hscan
            refine .error (show scanTurn options s c cs = .error ⟨cause, s.offset + n⟩ from ?_)
              hscan
            delta scanTurn
            simp only [hgap, if_neg hend, hword, htoken]
          | ok token =>
            simp only [htoken] at hscan
            obtain ⟨p, rest, -, htext, hmore, -⟩ := readsPiece_of_scanToken hgap htoken
            have hlength := congrArg List.length htext
            simp only [List.length_cons, List.length_append] at hlength
            refine hs.moves (s.take token) token.more (by omega) rfl ?_ hscan
            delta scanTurn
            simp only [hgap, if_neg hend, hword, htoken]

end ComponentDivision
