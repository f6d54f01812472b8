/-
# The next lexeme

Which lexeme comes next depends on the classes that can go on: a statement may end
without a semicolon only where a statement can end at all, and the text between
tags is taken as it stands. Otherwise the longest lexeme of any expected class is
taken, after blanks and comments.

* `Table.read` : the next lexeme, or a comment to be passed over.
-/
import ComponentDivision.Script.Frame
import ComponentDivision.Script.StatementEnd

namespace ComponentDivision.Script

/-- What a text begins with. -/
inductive Reading where
  /-- A comment; the text after it. -/
  | comment (rest : Text)
  /-- A lexeme of some classes; the text after it. -/
  | lexeme (classes : Nat) (rest : Text)

/-- The text after the question mark of a conditional expression. -/
def skipQuestion? (t : Text) : Option Text :=
  match t.dropWhile isLayout with
  | '?' :: '?' :: _ => none
  | '?' :: '.' :: cs => if (cs.head?.map Char.isDigit).getD false then some ('.' :: cs) else none
  | '?' :: cs => some cs
  | _ => none

namespace Table

/-- The longest lexeme among the expected classes: its length and the classes that
it is of. Fixed characters win over a class of the same length, and where any name
can stand an identifier may be reserved. -/
def longest (t : Table) (expected : Nat) (text : Text) : Option (Nat × Nat) :=
  let found := (t.lexemes.toList.zipIdx.filter fun e => expected.testBit e.2).filterMap
    fun (l, i) => (l.length? text).map fun n => (n, l.isMark, 1 <<< i)
  let n := found.foldl (fun n e => max n e.1) 0
  let best := found.filter (·.1 == n)
  let marks := best.filter (·.2.1)
  let classes := (if marks.isEmpty then best else marks).foldl (fun bits e => bits ||| e.2.2) 0
  if n = 0 then none
  else if classes &&& t.bit .name = 0 then some (n, classes)
  else some (n, classes ||| (expected &&& t.bit .identifier))

/-- The next lexeme among the expected classes, after blanks, or the next comment. -/
def readPlain (t : Table) (expected : Nat) (text : Text) : Option Reading :=
  let rest := skipSpace text
  match commentLength? rest with
  | some n => some (.comment (rest.drop n))
  | none => (t.longest expected rest).map fun (n, classes) => .lexeme classes (rest.drop n)

/-- The next lexeme where a statement may end. -/
def readStop (t : Table) (expected : Nat) (text : Text) : Option Reading :=
  let stop := statementStop (expected &&& t.bit (.mark "||".toList) == 0) text
  if stop.ends then some (.lexeme (t.bit .statementEnd) text)
  else if !stop.commented && expected &&& t.bit .question != 0 && stop.rest.head? == some '?' then
    match skipQuestion? stop.rest with
    | some rest => some (.lexeme (t.bit .question) rest)
    | none => t.readPlain expected text
  else t.readPlain expected text

/-- The next lexeme of a class that is taken as it stands. -/
def readRun (t : Table) (l : Lexeme) (length : Option Nat) (text : Text) : Option Reading :=
  match length with
  | some (n + 1) => some (.lexeme (t.bit l) (text.drop (n + 1)))
  | _ => none

/-- What a text begins with, where some classes are expected. Markup comments count
where no operator can stand. -/
def read (t : Table) (expected : Nat) (text : Text) : Option Reading :=
  let isExpected := fun l => expected &&& t.bit l != 0
  if isExpected .templateText then
    t.readRun .templateText (templateTextLength text) text <|> t.readPlain expected text
  else if isExpected .patternRest then t.readRun .patternRest (patternRestLength text) text
  else if isExpected .statementEnd then t.readStop expected text
  else if isExpected .question then
    (skipQuestion? text).map (.lexeme (t.bit .question)) <|> t.readPlain expected text
  else if isExpected (.mark "||".toList) then t.readPlain expected text
  else
    (if isExpected .markupText then t.readRun .markupText (markupTextLength text) text else none)
      <|> (skipMarkupComment? text).map .comment <|> t.readPlain expected text

end Table

end ComponentDivision.Script
