/-
# Rules of a grammar

A grammar for the script language is a list of rules over categories and lexical
classes. No rule is empty, so that no category stands for the empty text. A rule
may say how strongly it binds and to which side it groups; this decides between
rules that fit the same text.

* `Category` : what a rule can be about;
* `Part` : a place in a rule, where one of several symbols may stand;
* `Rule` : a category and the symbols it is made of, in order;
* `rulesFor`, `bindingRules` : the alternatives of one category.
-/
import ComponentDivision.Script.Lexeme

namespace ComponentDivision.Script

/-! ## Symbols -/

/-- The categories of the script grammar. -/
inductive Category where
  -- expressions
  | script | expression | primary | sequence | sequenceTail | parenthesized | assignment
  | augmented | augmentedTarget | augmentedOperator | awaiting | yielding | unary | unaryOperator
  | binary | timesOperator | plusOperator | shiftOperator | relationOperator | equalityOperator
  | ternary | update | updateOperator | newExpression | member | subscript | call | arguments
  | importWord | metaProperty | template | templateParts | substitution | regex
  -- literals with parts
  | object | objectTail | array | arrayTail | spread | pair | propertyName | computedName
  | method | decorator | decoratorMember | decoratorCall | decorators
  -- functions and classes
  | function | generator | arrow | formals | formalTail | classLiteral | heritage | classBody
  | classMembers | field | staticBlock
  -- patterns
  | destructuring | pattern | restPattern | assignmentPattern | initializer | objectPattern
  | patternTail | pairPattern | defaultPattern | arrayPattern | slotTail
  -- statements
  | statement | statements | declaration | expressionStatement | emptyStatement | block
  | functionDeclaration | generatorDeclaration | classDeclaration | lexicalDeclaration
  | varDeclaration | usingDeclaration | declarator | declaratorTail | ifStatement | elseClause
  | switchStatement | switchBody | switchCases | switchCase | switchDefault | forStatement
  | forInStatement | forHeader | whileStatement | doStatement | tryStatement | catchClause
  | finallyClause | withStatement | breakStatement | continueStatement | debuggerStatement
  | returnStatement | throwStatement | labeledStatement
  -- modules
  | exportStatement | namespaceExport | exportClause | exportTail | exportSpecifier | moduleName
  | importStatement | importClause | namespaceImport | namedImports | importTail
  | importSpecifier | importAttribute | fromClause
  -- embedded markup
  | markupElement | markupEmpty | markupOpening | markupClosing | markupChildren
  | markupAttributes | markupAttribute | markupDottedName | markupQualifiedName | markupHole
  deriving DecidableEq, Repr

/-- The number of categories. -/
def Category.count : Nat :=
  Category.markupHole.ctorIdx + 1

/-- A category or a lexical class. -/
inductive Symbol where
  | category (c : Category)
  | lexeme (l : Lexeme)
  deriving DecidableEq, Repr

/-! ## Binding -/

/-- How strongly a rule binds. -/
inductive Strength where
  | member | templateCall | construction | call | prefixed | power | times | plus | shift
  | relation | equality | bitAnd | bitXor | bitOr | conjunction | disjunction | ternary | assign
  | declare | literal | object
  deriving DecidableEq, Repr

/-- The side to which a rule groups when it meets itself. -/
inductive Side where
  | left
  | right
  deriving DecidableEq, Repr

/-- A category and the symbols it is made of. -/
structure Rule where
  head : Category
  parts : List Symbol
  strength : Option Strength
  side : Option Side
  deriving DecidableEq, Repr

/-! ## Writing rules -/

/-- A place in a rule: one of some symbols, or nothing if it is optional. -/
structure Part where
  choices : List Symbol
  optional : Bool := false
  deriving DecidableEq, Repr

instance : Coe Category Part := ⟨fun c => ⟨[.category c], false⟩⟩

instance : Coe Lexeme Part := ⟨fun l => ⟨[.lexeme l], false⟩⟩

instance : Coe String Part := ⟨fun s => ⟨[.lexeme (.mark s.toList)], false⟩⟩

/-- The opening brace. -/
def lbrace : Part := "\x7b"

/-- The closing brace. -/
def rbrace : Part := "\x7d"

/-- The same part, which may be left out. -/
def opt (p : Part) : Part :=
  { p with optional := true }

/-- A part that is one of several. -/
def oneOf (ps : List Part) : Part :=
  ⟨ps.flatMap (·.choices), ps.any (·.optional)⟩

/-- The sequences of symbols that some parts in order stand for. -/
def sequences : List Part → List (List Symbol)
  | [] => [[]]
  | p :: ps =>
    let tails := sequences ps
    p.choices.flatMap (fun s => tails.map (s :: ·)) ++ if p.optional then tails else []

/-- The alternatives of a category, with the strength and the side of its rules. -/
def bindingRules (strength : Option Strength) (side : Option Side) (head : Category)
    (alternatives : List (List Part)) : List Rule :=
  (alternatives.flatMap sequences).map fun parts => ⟨head, parts, strength, side⟩

/-- The alternatives of a category that binds in no special way. -/
def rulesFor (head : Category) (alternatives : List (List Part)) : List Rule :=
  bindingRules none none head alternatives

/-- The alternatives of a category of repetitions: each item alone, and each after
a repetition. -/
def repeatRules (head : Category) (items : List (List Part)) : List Rule :=
  rulesFor head (items ++ items.map ((head : Part) :: ·))

end ComponentDivision.Script
