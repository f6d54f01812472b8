/-
# Reading embedded expressions

An embedded expression is delimited first and then checked by the grammar. Its
line and column come from the table of the places where lines begin.

* `Context` : the grammar and the lines of the text that is read;
* `readExpressionAt` : delimits and checks an expression;
* `readPattern` : delimits and checks a pattern, if there is one.
-/
import ComponentDivision.Expression.Scan
import ComponentDivision.Script.Check
import ComponentDivision.Template.Cursor
import ComponentDivision.Template.Node

namespace ComponentDivision

/-! ## Lines -/

/-- The offsets at which the lines after the first begin, in a text that itself
begins at the offset `pos`. -/
def Text.laterLineStarts (pos : Nat) : Text → List Nat
  | [] => []
  | c :: cs =>
    if c = '\n' then (pos + 1) :: laterLineStarts (pos + 1) cs else laterLineStarts (pos + 1) cs

/-- The offsets at which the lines of a text begin, in increasing order. -/
def Text.lineStarts (t : Text) : List Nat :=
  0 :: Text.laterLineStarts 0 t

/-- What reading a template depends on besides its text. -/
structure Context where
  grammar : Grammar
  /-- The offsets at which the lines of the text begin. -/
  lineStarts : List Nat

/-- The place of an expression from `start` to `stop`, by the lines of the text. -/
def Context.place (ctx : Context) (start stop : Nat) : Expression :=
  let begun := ctx.lineStarts.filter (· ≤ start)
  ⟨start, stop, begun.length, start - begun.getLastD 0⟩

/-! ## Readers -/

/-- A delimited piece of script with its text. -/
structure Delimited where
  scan : Scan
  text : Text

namespace Reader

/-- Delimits an expression and stops where the scan halts. -/
def delimited (options : ScanOptions) : Reader Delimited := fun c =>
  match scan options c.rest with
  | .error m => .error (.misread (m.shift c.pos))
  | .ok s =>
    .ok (⟨s.shift c.pos, (c.rest.drop s.start).take (s.stop - s.start)⟩, c.advance s.next)

/-- Fails if the grammar rejects the text of `d`. -/
def require (verdict : Verdict) (d : Delimited) : Reader Unit := fun c =>
  match verdict with
  | .accepted => .ok ((), c)
  | .rejected offset => .error (.rejected d.scan.start d.scan.stop offset)

/-- The place of a delimited expression, which the grammar has to accept. -/
def checked (ctx : Context) (d : Delimited) : Reader Expression := do
  require (ctx.grammar.expression d.text) d
  return ctx.place d.scan.start d.scan.stop

/-- Delimits and checks an expression. -/
def readExpressionAt (ctx : Context) (options : ScanOptions) : Reader Expression := do
  let d ← delimited options
  checked ctx d

/-- Delimits and checks a pattern; there may be none. -/
def readPattern (ctx : Context) (terminators : Text) : Reader (Option Text) := do
  let d ← delimited { terminators, allowEmpty := true }
  if d.scan.empty then return none
  require (ctx.grammar.pattern d.text) d
  return some d.text

end Reader

/-! ## These readers move forward -/

namespace Reader

theorem forward_delimited (options : ScanOptions) : Forward (delimited options) := by
  intro c a d h
  simp only [delimited] at h
  split at h
  · cases h
  · rename_i s hs
    cases h
    have := scanFrom_next hs
    simp only [Nat.zero_add] at this
    exact Cursor.reaches_advance (Nat.le_of_lt this.2)

theorem forward_require (v : Verdict) (d : Delimited) : Forward (require v d) := by
  intro c a e h
  unfold require at h
  split at h
  · cases h
    exact Cursor.Reaches.refl c
  · cases h

theorem forward_checked (ctx : Context) (d : Delimited) : Forward (checked ctx d) :=
  (forward_require _ d).bind fun _ => Forward.pure _

theorem forward_readExpressionAt (ctx : Context) (options : ScanOptions) :
    Forward (readExpressionAt ctx options) :=
  (forward_delimited options).bind fun d => forward_checked ctx d

theorem forward_readPattern (ctx : Context) (terminators : Text) :
    Forward (readPattern ctx terminators) :=
  (forward_delimited _).bind fun d =>
    (Forward.pure _).ite ((forward_require _ d).bind fun _ => Forward.pure _)

end Reader

end ComponentDivision
