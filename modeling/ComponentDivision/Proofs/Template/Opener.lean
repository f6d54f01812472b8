/-
# Openers with a whole expression

An opener of a block, from its keyword on: blanks, an expression that is scanned whole, and what
follows it. Whether the opener is read depends on the grammar's verdict on the expression alone.

* `ScannedWhole.requireBlank`, `Reader.readExpressionAt_eq_ok` : the parts of an opener;
* `Template.item_if_eq_ok`, `Template.item_elseIf` : the opener of an if block, and the tag by which
  it goes on with another guard.
-/
import ComponentDivision.Proofs.Expression.Whole
import ComponentDivision.Proofs.Template.Step

namespace ComponentDivision

namespace Reader

variable {ctx : Context} {c d : Cursor}

/-- **An expression that is scanned whole is read if the grammar accepts it.** -/
theorem readExpressionAt_eq_ok {options : ScanOptions} {n next : Nat} {u v : Text}
    {word : Option Text} {x : Expression}
    (hscan : scan options (u ++ v) = .ok ⟨0, u.length, next, word⟩) :
    readExpressionAt ctx options ⟨n, u ++ v⟩ = .ok (x, d) ↔
      ctx.grammar.expression u = .accepted ∧ x = ctx.place n (n + u.length) ∧
        d = (Cursor.mk n (u ++ v)).advance next := by
  have hdelimited : delimited options ⟨n, u ++ v⟩
      = .ok (⟨⟨n, n + u.length, n + next, word⟩, u⟩, (Cursor.mk n (u ++ v)).advance next) := by
    unfold delimited
    simp only [hscan, Scan.shift, List.drop_zero, Nat.sub_zero, List.take_left, Nat.add_zero,
      Nat.add_comm]
  unfold readExpressionAt
  rw [bind_of_ok hdelimited, checked_eq_ok]
  exact and_congr_right' (and_congr eq_comm eq_comm)

end Reader

/-- One blank is passed over, before an expression that is scanned whole. -/
theorem ScannedWhole.requireBlank {stopWords : List Text} {e : Text}
    (he : ScannedWhole stopWords e) (n : Nat) (rest : Text) :
    Reader.requireBlank ⟨n, ' ' :: (e ++ rest)⟩ = .ok ((), ⟨n + 1, e ++ rest⟩) := by
  obtain ⟨ch, cs, rfl, hblank⟩ := he.exists_cons
  have htake : (' ' :: (ch :: cs ++ rest)).takeWhile isBlank = [' '] := by
    rw [List.takeWhile_cons_of_pos rfl, List.cons_append,
      List.takeWhile_cons_of_neg (by rw [hblank]; exact nofun)]
  show Except.ok ((), (Cursor.mk n (' ' :: (ch :: cs ++ rest))).advance
    ((' ' :: (ch :: cs ++ rest)).takeWhile isBlank).length) = _
  rw [htake]
  rfl

namespace Template

open Reader

variable {ctx : Context} {st st' : Stack} {d : Cursor} {root : Node}

/-- **The opener of an if block** is read if the grammar accepts its guard. -/
theorem item_if_eq_ok {e : Text} (he : ScannedWhole [] e) (n : Nat) (rest : Text) :
    item ctx n '{' st ⟨n + 1, '#' :: 'i' :: 'f' :: ' ' :: (e ++ '}' :: rest)⟩ = .ok (st', d) ↔
      ctx.grammar.expression e = .accepted ∧
        st' = st.push { label := { kind := .guarded .ifBlock, start := n
                                   expression := some (ctx.place (n + 5) (n + 5 + e.length)) } } ∧
        d = ⟨n + 5 + e.length + 1, rest⟩ := by
  have hend : (Cursor.mk (n + 5) (e ++ '}' :: rest)).advance e.length
      = ⟨n + 5 + e.length, '}' :: rest⟩ := by
    rw [Cursor.advance, List.drop_left]
  have hread (x : Expression) (c : Cursor) :
      readExpressionAt ctx {} ⟨n + 5, e ++ '}' :: rest⟩ = .ok (x, c) ↔
        ctx.grammar.expression e = .accepted ∧ x = ctx.place (n + 5) (n + 5 + e.length) ∧
          c = (Cursor.mk (n + 5) (e ++ '}' :: rest)).advance e.length :=
    readExpressionAt_eq_ok (he.scan_brace rest)
  show (requireBlank >>= fun _ => readExpressionAt ctx {} >>= fun x => do
    expect ['}']
    return st.push { label := { kind := .guarded .ifBlock, start := n, expression := some x } })
    ⟨n + 4, ' ' :: (e ++ '}' :: rest)⟩ = _ ↔ _
  rw [bind_of_ok (he.requireBlank (n + 4) _), bind_eq_ok]
  constructor
  · rintro ⟨x, c, hx, h⟩
    obtain ⟨haccepted, rfl, rfl⟩ := (hread x c).1 hx
    rw [hend] at h
    cases h
    exact ⟨haccepted, rfl, rfl⟩
  · rintro ⟨haccepted, rfl, rfl⟩
    refine ⟨_, _, (hread _ _).2 ⟨haccepted, rfl, rfl⟩, ?_⟩
    rw [hend]
    rfl

/-- The tag by which an if block goes on with another guard, after the elements whose closing tags
are left out. -/
theorem item_elseIf {e : Text} (he : ScannedWhole [] e)
    (haccepted : ctx.grammar.expression e = .accepted) {n : Nat}
    (hif : (st.closeOmitted n).current.kind = .guarded .ifBlock)
    (hnone : (st.closeOmitted n).current.elseBlock = none) (rest : Text) :
    item ctx n '{' st
        ⟨n + 1, ':' :: 'e' :: 'l' :: 's' :: 'e' :: ' ' :: 'i' :: 'f' :: ' ' :: (e ++ '}' :: rest)⟩
      = .ok (((st.closeOmitted n).push (.branch .elseBlock n)).push
          { label := { kind := .guarded .ifBlock, start := n, elseif := true
                       expression := some (ctx.place (n + 10) (n + 10 + e.length)) } },
        ⟨n + 10 + e.length + 1, rest⟩) := by
  have hopen : ((st.closeOmitted n).current.kind == .guarded .ifBlock
      && (st.closeOmitted n).current.elseBlock.isNone) = true := by
    rw [hif, hnone]
    rfl
  have hread := (readExpressionAt_eq_ok (n := n + 10) (he.scan_brace rest)).2
    ⟨haccepted, rfl, rfl⟩
  have hend : (Cursor.mk (n + 10) (e ++ '}' :: rest)).advance e.length
      = ⟨n + 10 + e.length, '}' :: rest⟩ := by
    rw [Cursor.advance, List.drop_left]
  show (requireBlank >>= fun _ =>
    if ((st.closeOmitted n).current.kind == .guarded .ifBlock
        && (st.closeOmitted n).current.elseBlock.isNone) = true then
      readExpressionAt ctx {} >>= fun x => do
        expect ['}']
        return ((st.closeOmitted n).push (.branch .elseBlock n)).push
          { label := { kind := .guarded .ifBlock, start := n, expression := some x
                       elseif := true } }
    else failAt .elseIfOutsideIf n) ⟨n + 9, ' ' :: (e ++ '}' :: rest)⟩ = _
  rw [bind_of_ok (he.requireBlank (n + 9) _), if_pos hopen, bind_of_ok hread, hend]
  rfl

end Template

end ComponentDivision
