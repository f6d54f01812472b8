/-
# The end of a statement

A statement may end without a semicolon before a closing brace, at the end of the
script, and at the end of a line if the next line cannot continue it.

* `statementStop` : whether a statement may end before a text, and how far the
  text was looked at to find out.
-/
import ComponentDivision.Script.Word
import ComponentDivision.Text.Alphanumeric

namespace ComponentDivision.Script

/-! ## Passing comments -/

/-- How blanks and comments were passed. -/
inductive Pass where
  /-- To what follows them, or to the end of a comment that spans lines. -/
  | through
  /-- To the end of a comment on one line. -/
  | sameLine
  /-- To a slash that begins no comment. -/
  | slash
  deriving DecidableEq, Repr

/-- Where passing blanks and comments has led. -/
structure Passed where
  how : Pass
  /-- Whether there was a comment. -/
  commented : Bool
  rest : Text

/-- Passes blanks and comments: all of them if `throughout`, otherwise up to the
first block comment with no slash right after it. `broken` says whether a comment
so far spans lines. -/
def passComments (throughout : Bool) : Nat → Bool → Bool → Text → Passed
  | 0, _, commented, t => ⟨.through, commented, t⟩
  | fuel + 1, broken, commented, t =>
    match t.dropWhile isLayout with
    | '/' :: '/' :: cs =>
      passComments throughout fuel broken true (cs.dropWhile fun c => !isBreak c)
    | '/' :: '*' :: cs =>
      match Text.find? "*/".toList cs with
      | none => ⟨.through, commented, []⟩
      | some n =>
        let broken := broken || (cs.take n).any isBreak
        let rest := cs.drop (n + 2)
        if !throughout && rest.head? != some '/' then
          ⟨if broken then .through else .sameLine, true, rest⟩
        else passComments throughout fuel broken true rest
    | '/' :: cs => ⟨.slash, commented, cs⟩
    | rest => ⟨.through, commented, rest⟩

/-! ## Stops -/

/-- Whether a statement ends before a text, whether a comment was passed to find
out, and the text that was looked at last. -/
structure Stop where
  ends : Bool
  commented : Bool
  rest : Text

/-- A letter of any script. -/
def isLetter (c : Char) : Bool :=
  c.isAlpha || 127 < c.toNat && isAlphanumeric c

/-- Whether a statement ends before a line that begins with the letter `i`: not if
the line begins with one of the two operators that are words. -/
def wordStop (commented : Bool) (t : Text) : Stop :=
  match t with
  | 'n' :: cs =>
    if !(cs.head?.map isLetter).getD false then ⟨false, commented, cs⟩
    else
      let tail := cs.drop 8
      ⟨!("stanceof".toList.isPrefixOf cs && !(tail.head?.map isLetter).getD false), commented, tail⟩
  | _ => ⟨true, commented, t⟩

/-- Whether a statement ends before a new line. -/
def lineStop (commented : Bool) (t : Text) : Stop :=
  let passed := passComments true (t.length + 1) false false t
  let commented := commented || passed.commented
  if passed.how = .slash then ⟨false, commented, passed.rest⟩
  else
    match passed.rest with
    | '.' :: cs => ⟨(cs.head?.map Char.isDigit).getD false, commented, cs⟩
    | '+' :: cs => ⟨cs.head? == some '+', commented, cs⟩
    | '-' :: cs => ⟨cs.head? == some '-', commented, cs⟩
    | '!' :: cs => ⟨cs.head? != some '=', commented, cs⟩
    | 'i' :: cs => wordStop commented cs
    | c :: cs => ⟨!"`,:;*%><=[(?^|&/".toList.contains c, commented, c :: cs⟩
    | [] => ⟨true, commented, []⟩

/-- Whether a statement ends before a text. A comment counts as the end of a line
if `loose`, unless a comma or an equals sign follows it. -/
def statementStop (loose : Bool) (t : Text) : Stop :=
  go (t.length + 1) false t
where
  go : Nat → Bool → Text → Stop
    | 0, commented, t => ⟨false, commented, t⟩
    | _, commented, [] => ⟨true, commented, []⟩
    | fuel + 1, commented, c :: cs =>
      let passed :=
        if c = '/' then passComments false (cs.length + 2) false false (c :: cs)
        else ⟨.sameLine, false, c :: cs⟩
      let commented := commented || passed.commented
      let next := passed.rest.head?
      if passed.how = .slash then ⟨false, commented, passed.rest⟩
      else if passed.how = .through && loose && next != some ',' && next != some '=' then
        ⟨true, commented, passed.rest⟩
      else
        match passed.rest with
        | [] => ⟨false, commented, []⟩
        | d :: ds =>
          if d = '}' then ⟨true, commented, d :: ds⟩
          else if isBreak d then lineStop commented ds
          else if isLayout d then go fuel commented ds
          else ⟨false, commented, d :: ds⟩

end ComponentDivision.Script
