/-
# The grammar of functions, classes and patterns
-/
import ComponentDivision.Script.Grammar.Expressions

namespace ComponentDivision.Script

open Category Lexeme

/-- What ends a statement: a semicolon, or nothing where it may be left out. -/
def ending : Part :=
  oneOf [statementEnd, ";"]

/-- Functions and their parameters. -/
def functionRules : List Rule :=
  bindingRules (some .literal) none function
    [[opt "async", "function", opt identifier, formals, block]]
  ++ bindingRules (some .declare) (some .right) functionDeclaration
    [[opt "async", "function", identifier, formals, block, opt statementEnd]]
  ++ bindingRules (some .literal) none generator
    [[opt "async", "function", "*", opt identifier, formals, block]]
  ++ bindingRules (some .declare) (some .right) generatorDeclaration
    [[opt "async", "function", "*", identifier, formals, block, opt statementEnd]]
  ++ rulesFor arrow
    [[opt "async", oneOf [contextualName, identifier, formals], "=>", oneOf [expression, block]]]
  ++ rulesFor formals [["(", ")"], ["(", slot, opt formalTail, opt ",", ")"]]
  ++ repeatRules formalTail [[",", slot]]

/-- Classes and what stands in them. -/
def classRules : List Rule :=
  bindingRules (some .literal) none classLiteral
    [[opt decorators, "class", opt identifier, opt heritage, classBody]]
  ++ bindingRules (some .declare) none classDeclaration
    [[opt decorators, "class", identifier, opt heritage, classBody, opt statementEnd]]
  ++ rulesFor heritage [["extends", expression]]
  ++ rulesFor classBody [[lbrace, opt classMembers, rbrace]]
  ++ repeatRules classMembers [[method, opt ";"], [field, ending], [staticBlock], [";"]]
  ++ rulesFor method
    [[opt decorators, opt (oneOf ["static", staticGet]), opt "async",
      opt (oneOf ["get", "set", "*"]), propertyName, formals, block]]
  ++ rulesFor field [[opt decorators, opt "static", propertyName, opt initializer]]
  ++ rulesFor staticBlock [["static", opt statementEnd, block]]
  ++ rulesFor decorator [["@", oneOf [identifier, decoratorMember, decoratorCall]]]
  ++ repeatRules decorators [[decorator]]
  ++ bindingRules (some .member) none decoratorMember
    [[oneOf [identifier, decoratorMember], ".", identifier]]
  ++ bindingRules (some .call) none decoratorCall
    [[oneOf [identifier, decoratorMember], arguments]]

/-- What an assignment or a parameter can bind. -/
def patternRules : List Rule :=
  let item := oneOf [pairPattern, restPattern, defaultPattern, identifier, contextualName]
  rulesFor destructuring [[oneOf [objectPattern, arrayPattern]]]
  ++ rulesFor pattern [[oneOf [leftSide, restPattern]]]
  ++ bindingRules none (some .right) restPattern [["...", leftSide]]
  ++ rulesFor assignmentPattern [[pattern, "=", expression]]
  ++ rulesFor initializer [["=", expression]]
  ++ bindingRules (some .object) none objectPattern [[lbrace, opt item, opt patternTail, rbrace]]
  ++ repeatRules patternTail [[",", opt item]]
  ++ rulesFor pairPattern [[propertyName, ":", slot]]
  ++ rulesFor defaultPattern
    [[oneOf [contextualName, identifier, destructuring], "=", expression]]
  ++ rulesFor arrayPattern [["[", opt slot, opt slotTail, "]"]]
  ++ repeatRules slotTail [[",", opt slot]]

end ComponentDivision.Script
