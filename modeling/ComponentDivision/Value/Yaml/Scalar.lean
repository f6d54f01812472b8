/-
# Reading YAML: scalars

A scalar is plain, quoted or a block of lines. Where a scalar goes on over several
lines a single line end becomes a space, and of several the first one is dropped.

* `Yaml.Input.plain` : a plain scalar;
* `Yaml.Input.quoted` : a scalar in single or double quotes;
* `Yaml.Input.block` : a literal or folded block.
-/
import ComponentDivision.Text.Digit
import ComponentDivision.Value.Yaml.Input

namespace ComponentDivision.Yaml

namespace Input

/-- The fuel for a loop that takes a character in each round. -/
def fuel (i : Input) : Nat :=
  i.rest.length + 1

/-- A line end and the ones after it, as they stand in a scalar. -/
def foldBreaks (first : Char) (more : Text) : Text :=
  if first != '\n' then first :: more else if more.isEmpty then [' '] else more

/-! ## Plain scalars -/

/-- The length of the word at the front of a plain scalar; between brackets more
characters end it. -/
def plainLength (inFlow : Bool) : Text → Nat
  | [] => 0
  | c :: cs =>
    let colon := c = ':' && (endsWord cs.head?
      || inFlow && cs.head?.any fun d => ",[]\x7b\x7d".toList.contains d)
    if endsWord (some c) || colon || inFlow && ",?[]\x7b\x7d".toList.contains c then 0
    else 1 + plainLength inFlow cs

/-- The line ends and spaces at the front, up to a mark between documents: the line
ends, and whether such a mark was met. -/
def plainBreaks : Nat → Input → Text → Text × Input × Bool
  | 0, i, breaks => (breaks, i, false)
  | fuel + 1, i, breaks =>
    if i.peek == some ' ' then plainBreaks fuel i.next breaks
    else
      match i.lineBreak? with
      | none => (breaks, i, false)
      | some (c, j) =>
        if j.atSeparator then (breaks, j, true) else plainBreaks fuel j (breaks ++ [c])

/-- The white space after a word of a plain scalar, as it stands in the scalar; empty
if the scalar ends there. Says too whether a line ended. -/
def plainSpaces (i : Input) : Text × Input × Bool :=
  let spaces := i.rest.takeWhile (· = ' ')
  let j := i.advance spaces.length
  match j.lineBreak? with
  | none => (spaces, j, false)
  | some (first, k) =>
    if k.atSeparator then ([], k, true)
    else
      match plainBreaks k.fuel k [] with
      | (_, l, true) => ([], l, true)
      | (breaks, l, false) => (foldBreaks first breaks, l, true)

/-- The words of a plain scalar from here on; `spaces` come before the next one. -/
def plainWords (inFlow : Bool) (indent : Int) :
    Nat → Input → Text → Text → Bool → Text × Input × Bool
  | 0, i, _, acc, ended => (acc, i, ended)
  | fuel + 1, i, spaces, acc, ended =>
    let length := if i.peek == some '#' then 0 else plainLength inFlow i.rest
    if length = 0 then (acc, i, ended)
    else
      let acc := acc ++ spaces ++ i.rest.take length
      let (spaces, j, ended) := (i.advance length).plainSpaces
      if spaces.isEmpty || j.peek == some '#' || !inFlow && j.column < indent then
        (acc, j, ended)
      else plainWords inFlow indent fuel j spaces acc ended

/-- A plain scalar inside a block of this indentation: its text, and whether a line
ended after it. -/
def plain (i : Input) (inFlow : Bool) (indent : Int) : Text × Input × Bool :=
  plainWords inFlow (indent + 1) i.fuel i [] [] false

/-! ## Quoted scalars -/

/-- The character of an escape of one letter. -/
def escaped? (c : Char) : Option Nat :=
  [('0', 0), ('a', 7), ('b', 8), ('t', 9), ('\t', 9), ('n', 10), ('v', 11), ('f', 12), ('r', 13),
   ('e', 27), (' ', 32), ('"', 34), ('\\', 92), ('/', 47), ('N', 0x85), ('_', 0xA0),
   ('L', 0x2028), ('P', 0x2029)].lookup c

/-- The number of digits of an escape by code point. -/
def escapeDigits? (c : Char) : Option Nat :=
  [('x', 2), ('u', 4), ('U', 8)].lookup c

/-- The line ends in a quoted scalar, without the blanks around them. -/
def quotedBreaks : Nat → Input → Text → Except Problem (Text × Input)
  | 0, i, breaks => .ok (breaks, i)
  | fuel + 1, i, breaks =>
    if i.atSeparator then .error .badQuoting
    else
      let j := i.skipWhile fun c => c = ' ' || c = '\t'
      match j.lineBreak? with
      | some (c, k) => quotedBreaks fuel k (breaks ++ [c])
      | none => .ok (breaks, j)

/-- The escape after a backslash. -/
def quotedEscape (i : Input) : Except Problem (Text × Input) :=
  match i.peek with
  | none => .error .badQuoting
  | some c =>
    match escaped? c, escapeDigits? c, i.lineBreak? with
    | some n, _, _ => .ok ([Char.ofNat n], i.next)
    | none, some length, _ =>
      let digits := i.next.rest.take length
      if digits.length = length && digits.all isHexDigit then
        .ok ([Char.ofNat (numberOf 16 digits)], i.advance (length + 1))
      else .error .badQuoting
    | none, none, some (_, j) => quotedBreaks j.fuel j []
    | none, none, none => .error .badQuoting

/-- The white space in a quoted scalar. -/
def quotedSpaces (i : Input) : Except Problem (Text × Input) :=
  let spaces := i.rest.takeWhile fun c => c = ' ' || c = '\t'
  let j := i.advance spaces.length
  match j.lineBreak? with
  | none => if j.rest.isEmpty then .error .badQuoting else .ok (spaces, j)
  | some (first, k) => do
    let (breaks, l) ← quotedBreaks k.fuel k []
    return (foldBreaks first breaks, l)

/-- The rest of a scalar in quotes, up to its closing quote. -/
def quotedRest (quote : Char) : Nat → Input → Text → Except Problem (Text × Input)
  | 0, _, _ => .error .badQuoting
  | fuel + 1, i, acc =>
    match i.peek with
    | none => .error .badQuoting
    | some c =>
      if c = quote then
        if quote = '\'' && i.peekAt 1 == some '\'' then
          quotedRest quote fuel (i.advance 2) (acc ++ ['\''])
        else .ok (acc, i.next)
      else if c = '\\' && quote = '"' then do
        let (t, j) ← i.next.quotedEscape
        quotedRest quote fuel j (acc ++ t)
      else if endsWord (some c) then do
        let (t, j) ← i.quotedSpaces
        quotedRest quote fuel j (acc ++ t)
      else quotedRest quote fuel i.next (acc ++ [c])

/-- A scalar in quotes, from its opening quote on. -/
def quoted (i : Input) (quote : Char) : Except Problem (Text × Input) :=
  quotedRest quote i.fuel i.next []

/-! ## Blocks -/

/-- What the header of a block says about the line ends after it: keep them all, keep
one, or keep none. -/
inductive Chomping where
  | keep
  | clip
  | strip
  deriving DecidableEq

/-- The sign of a header, if there is one. -/
def chomping? (i : Input) : Option Chomping :=
  match i.peek with
  | some '+' => some .keep
  | some '-' => some .strip
  | _ => none

/-- The indentation that a header asks for, if it does. -/
def increment? (i : Input) : Except Problem (Option Nat) :=
  match i.peek with
  | some c =>
    if !c.isDigit then .ok none
    else if c = '0' then .error .badHeader
    else .ok (some (digitValue c))
  | none => .ok none

/-- The header of a block: a sign and a digit in either order, and a comment. -/
def blockHeader (i : Input) : Except Problem (Chomping × Option Nat × Input) := do
  let first := i.chomping?
  let i := if first.isSome then i.next else i
  let increment ← i.increment?
  let i := if increment.isSome then i.next else i
  let second := if first.isNone && increment.isSome then i.chomping? else none
  let i := if second.isSome then i.next else i
  if i.peek == some '\t' || !endsWord i.peek then .error .badHeader
  let i := i.skipWhile (· = ' ')
  let i := if i.peek == some '#' then i.skipWhile fun c => !isBreak c else i
  match i.lineBreak? with
  | some (_, j) => return ((first <|> second).getD .clip, increment, j)
  | none =>
    if i.rest.isEmpty then return ((first <|> second).getD .clip, increment, i)
    else .error .badHeader

/-- The blank lines at the front of a block, and the widest indentation of them. -/
def blockIndent : Nat → Input → Text → Nat → Text × Nat × Input
  | 0, i, breaks, widest => (breaks, widest, i)
  | fuel + 1, i, breaks, widest =>
    if i.peek == some ' ' then blockIndent fuel i.next breaks (max widest i.next.column)
    else
      match i.lineBreak? with
      | some (c, j) => blockIndent fuel j (breaks ++ [c]) widest
      | none => (breaks, widest, i)

/-- Passes over indentation up to a column. -/
def toColumn (i : Input) (column : Nat) : Input :=
  i.advance ((i.rest.take (column - i.column)).takeWhile (· = ' ')).length

/-- The blank lines before the next line of a block. -/
def blockBreaks (indent : Nat) : Nat → Input → Text → Text × Input
  | 0, i, breaks => (breaks, i)
  | fuel + 1, i, breaks =>
    match (i.toColumn indent).lineBreak? with
    | some (c, j) => blockBreaks indent fuel j (breaks ++ [c])
    | none => (breaks, i.toColumn indent)

/-- The lines of a block from here on: its text, and the line ends at its end. -/
def blockLines (folded : Bool) (indent : Nat) :
    Nat → Input → Text → Text → Text → Text × Text × Text × Input
  | 0, i, breaks, lineEnd, acc => (acc, lineEnd, breaks, i)
  | fuel + 1, i, breaks, lineEnd, acc =>
    if i.column != indent || i.rest.isEmpty then (acc, lineEnd, breaks, i)
    else
      let indented := fun j : Input => j.peek == some ' ' || j.peek == some '\t'
      let line := i.rest.takeWhile fun c => !isBreak c
      let afterLine := i.advance line.length
      let (lineEnd, j) :=
        match afterLine.lineBreak? with
        | some (c, j) => ([c], j)
        | none => ([], afterLine)
      let acc := acc ++ breaks ++ line
      let (breaks, k) := blockBreaks indent j.fuel j []
      if k.column != indent || k.rest.isEmpty then (acc, lineEnd, breaks, k)
      else if folded && lineEnd == ['\n'] && !indented i && !indented k then
        blockLines folded indent fuel k breaks lineEnd
          (if breaks.isEmpty then acc ++ [' '] else acc)
      else blockLines folded indent fuel k breaks lineEnd (acc ++ lineEnd)

/-- A block inside one of this indentation, from its sign on. -/
def block (i : Input) (folded : Bool) (indent : Int) : Except Problem (Text × Input) := do
  let (chomping, increment, i) ← i.next.blockHeader
  let least := (max 1 (indent + 1)).toNat
  let (width, breaks, i) :=
    match increment with
    | some n =>
      let (breaks, j) := blockBreaks (least + n - 1) i.fuel i []
      (least + n - 1, breaks, j)
    | none =>
      let (breaks, widest, j) := blockIndent i.fuel i [] 0
      (max least widest, breaks, j)
  let (acc, lineEnd, breaks, i) := blockLines folded width i.fuel i breaks [] []
  match chomping with
  | .strip => return (acc, i)
  | .clip => return (acc ++ lineEnd, i)
  | .keep => return (acc ++ lineEnd ++ breaks, i)

end Input

end ComponentDivision.Yaml
