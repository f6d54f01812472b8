/-
# Checking embedded scripts

A grammar decides which texts are expressions and which are patterns. The
built-in one reads a text in brackets: an expression as a parenthesised
expression, a pattern as the parameters of an arrow function.

* `Grammar` : verdicts on expressions and patterns;
* `Grammar.script` : the built-in grammar.
-/
import ComponentDivision.Script.Recogniser
import ComponentDivision.Script.Grammar.Statements
import ComponentDivision.Script.Grammar.Markup

namespace ComponentDivision

/-- What a grammar says about a text. -/
inductive Verdict where
  | accepted
  /-- The text is refused; `offset` is the character that is pointed at, if any. -/
  | rejected (offset : Option Nat)
  deriving DecidableEq, Repr

/-- A grammar of the scripts in a template. -/
structure Grammar where
  expression : Text → Verdict
  pattern : Text → Verdict

namespace Script

/-- All rules of the script grammar. -/
def rules : List Rule :=
  expressionRules ++ binaryRules ++ callRules ++ primaryRules ++ collectionRules ++ functionRules
    ++ classRules ++ patternRules ++ statementRules ++ controlRules ++ moduleRules ++ markupRules

/-- The tables of the script grammar. -/
def table : Table :=
  Table.ofRules rules

/-- What is put around a text before it is checked. -/
structure Wrap where
  before : Text
  after : Text
  /-- What the wrapped text has to be. -/
  goal : Category

/-- An expression stands in parentheses; the closing one is on a line of its own,
where no comment can hide it. -/
def Wrap.expression : Wrap where
  before := ['(']
  after := "\n)".toList
  goal := .parenthesized

/-- A pattern stands for the parameters of an arrow function. -/
def Wrap.pattern : Wrap where
  before := ['(']
  after := "\n) => 0".toList
  goal := .arrow

/-- The text with what is put around it. -/
def Wrap.apply (w : Wrap) (t : Text) : Text :=
  w.before ++ t ++ w.after

/-- Whether the script grammar accepts a text. No lexeme and no comment holds the
null character. -/
def accepts (w : Wrap) (t : Text) : Bool :=
  !t.contains '\x00' && table.recognises w.goal (w.apply t)

end Script

/-- The built-in grammar; it does not say where a text goes wrong. -/
def Grammar.script : Grammar where
  expression t := if Script.accepts .expression t then .accepted else .rejected none
  pattern t := if Script.accepts .pattern t then .accepted else .rejected none

/-- The grammar that accepts everything. -/
def Grammar.permissive : Grammar where
  expression _ := .accepted
  pattern _ := .accepted

end ComponentDivision
