/-
# Frames

A frame says where a reading stands: the rules that are being read, each with what
may follow it. A lexeme or a category that has been read moves a frame on to the
next one. Where a rule that has been read to the end meets one that goes on, the
preferences decide; without a preference both ways are taken.

* `Frame` : marked rules with the classes that may follow them;
* `Table.expected` : the lexical classes that a frame can go on with;
* `Table.advance` : the frame after a symbol;
* `Table.choose` : what to do with a lexeme.
-/
import ComponentDivision.Script.Table

namespace ComponentDivision.Script

/-- A marked rule and the classes that may follow the rule. -/
structure Item where
  mark : Nat
  follow : Nat
  deriving DecidableEq, Repr

/-- The rules that are being read, in increasing order of their marks. -/
abbrev Frame := List Item

/-- The rules of two frames together. -/
def Frame.merge : Frame → Frame → Frame
  | [], g => g
  | f, [] => f
  | a :: f, b :: g =>
    if a.mark < b.mark then a :: Frame.merge f (b :: g)
    else if b.mark < a.mark then b :: Frame.merge (a :: f) g
    else ⟨a.mark, a.follow ||| b.follow⟩ :: Frame.merge f g
termination_by f g => f.length + g.length
decreasing_by all_goals simp only [List.length_cons]; omega

namespace Table

/-- The symbol after a mark. -/
def nextSymbol (t : Table) (mark : Nat) : Option Nat :=
  t.next.getD mark none

/-- The classes that may follow a mark: those its next symbol can begin with, or
what may follow the rule if it has been read to the end. -/
def ahead (t : Table) (i : Item) : Nat :=
  match t.nextSymbol i.mark with
  | some s => t.first.getD s 0
  | none => i.follow

/-- The lexical classes that a frame can go on with. -/
def expected (t : Table) (f : Frame) : Nat :=
  f.foldl (fun bits i => bits ||| t.ahead i) 0

/-- The rules that one rule of a frame moves on to with a symbol. -/
def advanceItem (t : Table) (symbol : Nat) (i : Item) : Frame :=
  match t.nextSymbol i.mark with
  | none => []
  | some s =>
    let after := t.ahead ⟨i.mark + 1, i.follow⟩
    let opened := ((t.openings.getD s #[]).getD symbol []).map fun o =>
      (⟨o.mark, if o.inherits then o.follow ||| after else o.follow⟩ : Item)
    if s = symbol then Frame.merge [⟨i.mark + 1, i.follow⟩] opened else opened

/-- The frame after a symbol. -/
def advance (t : Table) (f : Frame) (symbol : Nat) : Frame :=
  f.foldl (fun acc i => acc.merge (t.advanceItem symbol i)) []

/-- The frame after a lexeme of some classes. -/
def shift (t : Table) (f : Frame) (classes : Nat) : Frame :=
  (List.range t.lexemes.size).foldl
    (fun acc i =>
      if classes.testBit i then acc.merge (t.advance f (Category.count + i)) else acc)
    []

/-- The frame before anything has been read. -/
def start (t : Table) (goal : Category) : Frame :=
  match t.rules.findIdx? (·.head == goal) with
  | none => []
  | some r => ((List.range t.owner.size).find? fun m => t.owner.getD m 0 == r).toList.map (⟨·, 0⟩)

/-! ## Choices -/

/-- What to do with a lexeme: the rules that it ends, and whether it is read. -/
structure Choice where
  ended : List Rule
  goesOn : Bool

/-- The rule of a marked rule. -/
def rule? (t : Table) (mark : Nat) : Option Rule :=
  t.rules[t.owner.getD mark 0]?

/-- The choice between rules that a lexeme ends and rules that it continues. -/
def choice (ended continued : List Rule) : Choice :=
  let ended := ended.filter fun r => !ended.any (·.beats r)
  let beaten := continued.any fun c => ended.any (·.beats c)
  let beating := continued.any fun c => ended.any (c.beats ·)
  match beating, beaten with
  | true, false => ⟨[], true⟩
  | false, true => ⟨ended, false⟩
  | true, true => ⟨ended, true⟩
  | false, false =>
    if ended.isEmpty || continued.isEmpty then ⟨ended, !continued.isEmpty⟩
    else if ended.all (·.side == some .left) then ⟨ended, false⟩
    else if ended.all (·.side == some .right) then ⟨[], true⟩
    else ⟨ended, true⟩

/-- What to do in a frame with a lexeme of some classes. -/
def choose (t : Table) (f : Frame) (classes : Nat) : Choice :=
  let concerned := f.filter fun i => t.ahead i &&& classes != 0
  let rulesWhere := fun (p : Item → Bool) => (concerned.filter p).filterMap (t.rule? ·.mark)
  choice (rulesWhere fun i => (t.nextSymbol i.mark).isNone)
    (rulesWhere fun i => (t.nextSymbol i.mark).isSome)

end Table

end ComponentDivision.Script
