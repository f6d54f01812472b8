/-
# The grammar of expressions

What an operator takes together is decided by the strengths of the rules, not by
their shape: an operand may be any expression.
-/
import ComponentDivision.Script.Rule

namespace ComponentDivision.Script

open Category Lexeme

/-! ## Parts in common -/

/-- A name of a variable. -/
def variableName : Part :=
  oneOf ["undefined", identifier]

/-- A word with a meaning of its own that may also name a variable. -/
def contextualName : Part :=
  oneOf ["get", "set", "async", "await", "static", "export", "let"]

/-- What can be assigned to. -/
def leftSide : Part :=
  oneOf [member, subscript, variableName, contextualName, destructuring]

/-- One expression or several with commas between them. -/
def expressions : Part :=
  oneOf [expression, sequence]

/-- An element of an array, an argument of a call. -/
def arrayItem : Part :=
  oneOf [expression, spread]

/-- An element of an array pattern, a parameter of a function. -/
def slot : Part :=
  oneOf [pattern, assignmentPattern]

/-! ## Operators -/

/-- The operators of one binary rule, with the strength and the side of the rule. -/
def operatorRules (strength : Strength) (side : Side) (operator : Part) : List Rule :=
  bindingRules (some strength) (some side) binary [[expression, operator, expression]]

/-- Operators between two expressions. -/
def binaryRules : List Rule :=
  operatorRules .conjunction .left "&&"
  ++ operatorRules .disjunction .left "||"
  ++ operatorRules .shift .left shiftOperator
  ++ operatorRules .bitAnd .left "&"
  ++ operatorRules .bitXor .left "^"
  ++ operatorRules .bitOr .left "|"
  ++ operatorRules .plus .left plusOperator
  ++ operatorRules .times .left timesOperator
  ++ operatorRules .power .right "**"
  ++ operatorRules .relation .left relationOperator
  ++ operatorRules .equality .left equalityOperator
  ++ operatorRules .ternary .left "??"
  ++ bindingRules (some .relation) (some .left) binary [[privateName, "in", expression]]
  ++ rulesFor shiftOperator [[oneOf [">>", ">>>", "<<"]]]
  ++ rulesFor plusOperator [[oneOf ["+", "-"]]]
  ++ rulesFor timesOperator [[oneOf ["*", "/", "%"]]]
  ++ rulesFor relationOperator [[oneOf ["<", "<=", ">=", ">", "instanceof", "in"]]]
  ++ rulesFor equalityOperator [[oneOf ["==", "===", "!=", "!=="]]]

/-- Expressions and the other operators. -/
def expressionRules : List Rule :=
  rulesFor expression
    [[oneOf [primary, markupElement, markupEmpty, assignment, augmented, awaiting, unary, binary,
      ternary, update, newExpression, yielding]]]
  ++ bindingRules none (some .right) sequence [[expression, sequenceTail]]
  ++ repeatRules sequenceTail [[",", expression]]
  ++ rulesFor parenthesized [["(", expressions, ")"]]
  ++ bindingRules (some .assign) (some .right) assignment
    [[oneOf [parenthesized, leftSide], "=", expression]]
  ++ bindingRules (some .assign) (some .right) augmented
    [[augmentedTarget, augmentedOperator, expression]]
  ++ rulesFor augmentedTarget
    [[oneOf [member, subscript, contextualName, identifier, parenthesized]]]
  ++ rulesFor augmentedOperator
    [[oneOf ["+=", "-=", "*=", "/=", "%=", "^=", "&=", "|=", ">>=", ">>>=", "<<=", "**=", "&&=",
      "||=", "??="]]]
  ++ bindingRules (some .prefixed) none awaiting [["await", expression]]
  ++ bindingRules (some .prefixed) (some .left) unary [[unaryOperator, expression]]
  ++ rulesFor unaryOperator [[oneOf ["!", "~", "-", "+", "typeof", "void", "delete"]]]
  ++ bindingRules none (some .left) update
    [[expression, updateOperator], [updateOperator, expression]]
  ++ rulesFor updateOperator [[oneOf ["++", "--"]]]
  ++ bindingRules (some .ternary) (some .right) ternary
    [[expression, question, expression, ":", expression]]
  ++ bindingRules none (some .right) yielding
    [["yield", opt expression], ["yield", "*", expression]]

/-! ## Primary expressions -/

/-- Members, calls and what is made by them. -/
def callRules : List Rule :=
  bindingRules (some .member) none member
    [[oneOf [expression, primary, importWord], oneOf [".", "?."], oneOf [privateName, name]]]
  ++ bindingRules (some .member) (some .right) subscript
    [[oneOf [expression, primary], opt "?.", "[", expressions, "]"]]
  ++ bindingRules (some .call) none call [[oneOf [expression, importWord], arguments]]
  ++ bindingRules (some .templateCall) none call [[oneOf [primary, newExpression], template]]
  ++ bindingRules (some .member) none call [[primary, "?.", arguments]]
  ++ bindingRules (some .construction) (some .right) newExpression
    [["new", oneOf [primary, newExpression], opt arguments]]
  ++ rulesFor arguments [["(", opt arrayItem, opt arrayTail, ")"]]
  ++ rulesFor importWord [["import"]]
  ++ rulesFor metaProperty [["new", ".", "target"], ["import", ".", "meta"]]

/-- What stands between operators. -/
def primaryRules : List Rule :=
  rulesFor primary
    [[oneOf [subscript, member, parenthesized, variableName, contextualName, "this", "super",
      number, string, template, regex, "true", "false", "null", object, array, function, arrow,
      generator, classLiteral, metaProperty, call]]]
  ++ rulesFor template [["`", opt templateParts, "`"]]
  ++ repeatRules templateParts [[templateText], [substitution]]
  ++ rulesFor substitution [["$\x7b", expressions, rbrace]]
  ++ rulesFor regex [["/", patternRest]]

/-- Object and array literals. -/
def collectionRules : List Rule :=
  let item := oneOf [pair, spread, method, identifier, contextualName]
  bindingRules (some .object) none object [[lbrace, opt item, opt objectTail, rbrace]]
  ++ repeatRules objectTail [[",", opt item]]
  ++ rulesFor array [["[", opt arrayItem, opt arrayTail, "]"]]
  ++ repeatRules arrayTail [[",", opt arrayItem]]
  ++ rulesFor spread [["...", expression]]
  ++ rulesFor pair [[propertyName, ":", expression]]
  ++ rulesFor propertyName
    [[oneOf [name, contextualName, privateName, string, number, computedName]]]
  ++ rulesFor computedName [["[", expression, "]"]]

end ComponentDivision.Script
