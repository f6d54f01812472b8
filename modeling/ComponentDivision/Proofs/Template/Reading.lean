/-
# What readers find

A reader that succeeds is taken apart step by step: each part of it succeeded, and
each began where the one before it ended. For the expressions of a template this
says where they stand and that the grammar accepts them.

* `Reader.bind_eq_ok` : one reader after another;
* `Cursor.On` : a place in a given text;
* `Embedded` : an expression that was read between two places;
* `Embedded.exact` : such an expression knows its place, its line and its column.
-/
import ComponentDivision.Proofs.Expression.Bounds
import ComponentDivision.Proofs.Template.LineTable

namespace ComponentDivision

/-! ## Places -/

namespace Cursor

/-- The cursor is a place in `source`. -/
structure On (source : Text) (c : Cursor) : Prop where
  pos_le : c.pos ≤ source.length
  rest_eq : c.rest = source.drop c.pos

/-- Moving forward does not lessen the offset. -/
theorem Reaches.pos_le {c d : Cursor} (h : c.Reaches d) : c.pos ≤ d.pos := by
  obtain ⟨n, -, rfl⟩ := h
  exact Nat.le_add_right _ _

/-- Moving forward stays in the text. -/
theorem Reaches.on {source : Text} {c d : Cursor} (h : c.Reaches d) (hc : c.On source) :
    d.On source := by
  obtain ⟨n, hn, rfl⟩ := h
  obtain ⟨hpos, hrest⟩ := hc
  rw [hrest, List.length_drop] at hn
  refine ⟨?_, ?_⟩
  · show c.pos + n ≤ source.length
    omega
  · show c.rest.drop n = source.drop (c.pos + n)
    rw [hrest, List.drop_drop]

end Cursor

/-! ## Readers that succeed -/

/-- A result of which something is known is there. -/
theorem exists_ok_of_toOption_map {ε α β : Type} {r : Except ε α} {f : α → β} {b : β}
    (h : r.toOption.map f = some b) : ∃ a, r = .ok a ∧ f a = b := by
  cases r with
  | error m => cases h
  | ok a => exact ⟨a, rfl, Option.some.inj h⟩

namespace Reader

variable {α β : Type}

/-- One reader after another: the second one begins where the first one ends. -/
theorem bind_eq_ok {r : Reader α} {f : α → Reader β} {c e : Cursor} {b : β} :
    (r >>= f) c = .ok (b, e) ↔ ∃ a d, r c = .ok (a, d) ∧ f a d = .ok (b, e) := by
  simp only [Bind.bind]
  constructor
  · intro h
    split at h
    · cases h
    · rename_i a d hd
      exact ⟨a, d, hd, h⟩
  · rintro ⟨a, d, hd, h⟩
    rw [hd]
    exact h

/-- After a reader that succeeded the next one goes on. -/
theorem bind_of_ok {r : Reader α} {f : α → Reader β} {c d : Cursor} {a : α}
    (h : r c = .ok (a, d)) : (r >>= f) c = f a d := by
  simp only [Bind.bind]
  rw [h]

theorem pure_eq_ok {a b : α} {c d : Cursor} :
    (pure a : Reader α) c = .ok (b, d) ↔ a = b ∧ c = d := by
  show Except.ok (a, c) = .ok (b, d) ↔ _
  rw [Except.ok.injEq, Prod.mk.injEq]

theorem ofExcept_eq_ok {r : Except Misread α} {c d : Cursor} {a : α} :
    ofExcept r c = .ok (a, d) ↔ r = .ok a ∧ c = d := by
  unfold ofExcept
  cases r with
  | error m =>
    constructor
    · intro h
      cases h
    · rintro ⟨h, -⟩
      cases h
  | ok b => simp only [Except.ok.injEq, Prod.mk.injEq]

theorem position_eq_ok {c d : Cursor} {n : Nat} : position c = .ok (n, d) ↔ c.pos = n ∧ c = d := by
  show Except.ok (c.pos, c) = .ok (n, d) ↔ _
  rw [Except.ok.injEq, Prod.mk.injEq]

theorem ite_eq_ok {p : Prop} [Decidable p] {r s : Reader α} {c d : Cursor} {a : α} :
    (if p then r else s) c = .ok (a, d) ↔ p ∧ r c = .ok (a, d) ∨ ¬ p ∧ s c = .ok (a, d) := by
  by_cases hp : p
  · rw [if_pos hp]
    constructor
    · exact fun h => Or.inl ⟨hp, h⟩
    · rintro (⟨-, h⟩ | ⟨hn, -⟩)
      · exact h
      · exact absurd hp hn
  · rw [if_neg hp]
    constructor
    · exact fun h => Or.inr ⟨hp, h⟩
    · rintro (⟨hy, -⟩ | ⟨-, h⟩)
      · exact absurd hy hp
      · exact h

end Reader

/-! ## Expressions that were read -/

/-- The expression was delimited between the places `c` and `d`, and the grammar accepts it. -/
def Embedded (ctx : Context) (c d : Cursor) (e : Expression) : Prop :=
  ∃ (options : ScanOptions) (before after : Cursor) (x : Delimited),
    c.Reaches before ∧ Reader.delimited options before = .ok (x, after) ∧ after.Reaches d ∧
      x.scan.start < x.scan.stop ∧ ctx.grammar.expression x.text = .accepted ∧
      e = ctx.place x.scan.start x.scan.stop

/-- An expression that was read between two places was read between wider ones. -/
theorem Embedded.widen {ctx : Context} {c d c' d' : Cursor} {e : Expression}
    (h : Embedded ctx c d e) (hc : c'.Reaches c) (hd : d.Reaches d') : Embedded ctx c' d' e := by
  obtain ⟨options, before, after, x, hbefore, hx, hafter, hrest⟩ := h
  exact ⟨options, before, after, x, hc.trans hbefore, hx, hafter.trans hd, hrest⟩

/-- An expression that was read leads from the first place to the second one. -/
theorem Embedded.reaches {ctx : Context} {c d : Cursor} {e : Expression}
    (h : Embedded ctx c d e) : c.Reaches d := by
  obtain ⟨options, before, after, x, hbefore, hx, hafter, -⟩ := h
  exact (hbefore.trans (Reader.forward_delimited options hx)).trans hafter

/-- What is delimited stands between the place before and the place after. -/
theorem delimited_bounds {options : ScanOptions} {c d : Cursor} {x : Delimited}
    (h : Reader.delimited options c = .ok (x, d)) :
    c.pos ≤ x.scan.start ∧ x.scan.Ordered options ∧ x.scan.next = d.pos := by
  unfold Reader.delimited at h
  split at h
  · cases h
  · rename_i s hs
    obtain ⟨⟨hle, hstop, hlt⟩, -⟩ := scan_bounds hs
    cases h
    refine ⟨Nat.le_add_left _ _, ⟨?_, ?_, ?_⟩, ?_⟩
    · exact Nat.add_le_add_right hle c.pos
    · exact Nat.add_le_add_right hstop c.pos
    · exact fun hempty => Nat.add_lt_add_right (hlt hempty) c.pos
    · exact Nat.add_comm _ _

/-- A check reads nothing, and goes on if the verdict lets it. -/
theorem require_eq_ok {v : Verdict} {x : Delimited} {c d : Cursor} {u : Unit} :
    Reader.require v x c = .ok (u, d) ↔ v = .accepted ∧ c = d := by
  cases v with
  | accepted => simp [Reader.require]
  | rejected offset => simp [Reader.require]

/-- A checked expression is accepted by the grammar. -/
theorem checked_eq_ok {ctx : Context} {x : Delimited} {c d : Cursor} {e : Expression} :
    Reader.checked ctx x c = .ok (e, d) ↔
      ctx.grammar.expression x.text = .accepted ∧ ctx.place x.scan.start x.scan.stop = e ∧
        c = d := by
  unfold Reader.checked
  rw [Reader.bind_eq_ok]
  simp only [require_eq_ok, Reader.pure_eq_ok]
  constructor
  · rintro ⟨_, d', ⟨hacc, rfl⟩, he, rfl⟩
    exact ⟨hacc, he, rfl⟩
  · rintro ⟨hacc, he, rfl⟩
    exact ⟨(), c, ⟨hacc, rfl⟩, he, rfl⟩

/-- An expression that is read is embedded. -/
theorem embedded_of_readExpressionAt {ctx : Context} {options : ScanOptions} {c d : Cursor}
    {e : Expression} (hoptions : options.allowEmpty = false)
    (h : Reader.readExpressionAt ctx options c = .ok (e, d)) : Embedded ctx c d e := by
  unfold Reader.readExpressionAt at h
  obtain ⟨x, d', hx, hchecked⟩ := Reader.bind_eq_ok.1 h
  obtain ⟨hacc, rfl, rfl⟩ := checked_eq_ok.1 hchecked
  obtain ⟨-, hordered, -⟩ := delimited_bounds hx
  exact ⟨options, c, d', x, .refl c, hx, .refl d', hordered.start_lt hoptions, hacc, rfl⟩

/-- An expression that is delimited and accepted is read. -/
theorem readExpressionAt_of_scan {ctx : Context} {options : ScanOptions} {c : Cursor} {s : Scan}
    (hscan : scan options c.rest = .ok s)
    (hacc : ctx.grammar.expression ((c.rest.drop s.start).take (s.stop - s.start)) = .accepted) :
    Reader.readExpressionAt ctx options c
      = .ok (ctx.place (s.start + c.pos) (s.stop + c.pos), c.advance s.next) := by
  have hdelimited : Reader.delimited options c = .ok (⟨s.shift c.pos,
      (c.rest.drop s.start).take (s.stop - s.start)⟩, c.advance s.next) := by
    unfold Reader.delimited
    rw [hscan]
  refine (Reader.bind_of_ok hdelimited).trans ?_
  exact checked_eq_ok.2 ⟨hacc, rfl, rfl⟩

/-! ## Lines of expressions -/

/-- An expression stands in the line of its first character, as far behind its beginning. -/
theorem place_line_column (grammar : Grammar) {source : Text} {start : Nat} (stop : Nat)
    (h : start ≤ source.length) :
    ((⟨grammar, source.lineStarts⟩ : Context).place start stop).line = source.lineNumber start ∧
      ((⟨grammar, source.lineStarts⟩ : Context).place start stop).column
        = start - source.lineStart start := by
  obtain ⟨line, column, before, content, after, hline, -, hcolumn, rfl⟩ := Text.exists_isAt h
  rw [hline.place_eq grammar stop hcolumn, hline.lineNumber_eq hcolumn,
    hline.lineStart_eq hcolumn]
  refine ⟨rfl, ?_⟩
  show (column : Int) = _
  omega

/-- The expression is not empty, lies in the text and knows the line and the column it begins at. -/
structure Expression.Exact (source : Text) (e : Expression) : Prop where
  nonneg : 0 ≤ e.start
  start_lt_stop : e.start < e.stop
  stop_le : e.stop ≤ source.length
  line_eq : e.line = source.lineNumber e.start
  column_eq : e.column = e.start - source.lineStart e.start

/-- An embedded expression stands between the places where it was read. -/
theorem Embedded.bounds {ctx : Context} {c d : Cursor} {e : Expression}
    (h : Embedded ctx c d e) : c.pos ≤ e.start ∧ e.start < e.stop ∧ e.stop ≤ d.pos := by
  obtain ⟨options, before, after, x, hbefore, hx, hafter, hlt, -, rfl⟩ := h
  obtain ⟨hstart, hordered, hnext⟩ := delimited_bounds hx
  have h₁ := hbefore.pos_le
  have h₂ := hordered.stop_le
  have h₃ := hafter.pos_le
  simp only [Context.place]
  omega

/-- An embedded expression knows its place, its line and its column. -/
theorem Embedded.exact {grammar : Grammar} {source : Text} {c d : Cursor} {e : Expression}
    (h : Embedded ⟨grammar, source.lineStarts⟩ c d e) (hd : d.On source) : e.Exact source := by
  obtain ⟨hstart, hlt, hstop⟩ := h.bounds
  have hpos := hd.pos_le
  obtain ⟨options, before, after, x, -, -, -, -, -, rfl⟩ := h
  have hle : x.scan.start ≤ source.length := by
    simp only [Context.place] at hlt hstop
    omega
  obtain ⟨hline, hcolumn⟩ := place_line_column grammar x.scan.stop hle
  exact ⟨by omega, hlt, by omega, hline, hcolumn⟩

end ComponentDivision
