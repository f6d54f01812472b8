/-
# The grammar of statements

What stands in the bodies of functions.
-/
import ComponentDivision.Script.Grammar.Functions

namespace ComponentDivision.Script

open Category Lexeme

/-- What a declaration binds. -/
def boundName : Part :=
  oneOf [identifier, destructuring]

/-- Simple statements and declarations. -/
def statementRules : List Rule :=
  repeatRules statements [[statement]]
  ++ rulesFor script [[statements]]
  ++ rulesFor statement
    [[oneOf [exportStatement, importStatement, debuggerStatement, expressionStatement,
      declaration, block, ifStatement, switchStatement, forStatement, forInStatement,
      whileStatement, doStatement, tryStatement, withStatement, breakStatement,
      continueStatement, returnStatement, throwStatement, emptyStatement, labeledStatement]]]
  ++ rulesFor declaration
    [[oneOf [functionDeclaration, generatorDeclaration, classDeclaration, lexicalDeclaration,
      varDeclaration, usingDeclaration]]]
  ++ rulesFor expressionStatement [[expressions, ending]]
  ++ rulesFor varDeclaration [["var", declarator, opt declaratorTail, ending]]
  ++ rulesFor lexicalDeclaration
    [[oneOf ["let", "const"], declarator, opt declaratorTail, ending]]
  ++ rulesFor usingDeclaration [[opt "await", "using", declarator, opt declaratorTail, ending]]
  ++ rulesFor declarator [[oneOf [boundName, "of"], opt initializer]]
  ++ repeatRules declaratorTail [[",", declarator]]
  ++ bindingRules none (some .right) block [[lbrace, opt statements, rbrace, opt statementEnd]]
  ++ rulesFor emptyStatement [[";"]]
  ++ rulesFor debuggerStatement [["debugger", ending]]
  ++ rulesFor breakStatement [["break", opt identifier, ending]]
  ++ rulesFor continueStatement [["continue", opt identifier, ending]]
  ++ rulesFor returnStatement [["return", opt expressions, ending]]
  ++ rulesFor throwStatement [["throw", expressions, ending]]
  ++ rulesFor labeledStatement [[oneOf [identifier, contextualName], ":", statement]]

/-- The first two parts of the head of a counting loop, with their semicolons. -/
def countingHeads : List (List Part) :=
  [[oneOf [lexicalDeclaration, varDeclaration, emptyStatement]], [expressions, ";"]].flatMap
    fun start => [[(emptyStatement : Part)], [expressions, ";"]].map (start ++ ·)

/-- Conditionals, loops and handlers. -/
def controlRules : List Rule :=
  bindingRules none (some .right) ifStatement
    [["if", parenthesized, statement, opt elseClause]]
  ++ rulesFor elseClause [["else", statement]]
  ++ rulesFor switchStatement [["switch", parenthesized, switchBody]]
  ++ rulesFor switchBody [[lbrace, opt switchCases, rbrace]]
  ++ repeatRules switchCases [[switchCase], [switchDefault]]
  ++ rulesFor switchCase [["case", expressions, ":", opt statements]]
  ++ rulesFor switchDefault [["default", ":", opt statements]]
  ++ rulesFor forStatement
    (countingHeads.map fun head =>
      [("for" : Part), "("] ++ head ++ [opt expressions, ")", statement])
  ++ rulesFor forInStatement [["for", opt "await", forHeader, statement]]
  ++ rulesFor forHeader
    ([[oneOf [leftSide, parenthesized]], ["var", boundName, opt initializer],
      [oneOf ["let", "const"], boundName, opt statementEnd]].map fun left =>
      [("(" : Part)] ++ left ++ [oneOf ["in", "of"], expressions, ")"])
  ++ rulesFor whileStatement [["while", parenthesized, statement]]
  ++ bindingRules none (some .right) doStatement
    [["do", statement, "while", parenthesized, opt ending]]
  ++ rulesFor tryStatement [["try", block, opt catchClause, opt finallyClause]]
  ++ rulesFor catchClause [["catch", block], ["catch", "(", boundName, ")", block]]
  ++ rulesFor finallyClause [["finally", block]]
  ++ rulesFor withStatement [["with", parenthesized, statement]]

/-- What a script takes from other scripts and gives to them. -/
def moduleRules : List Rule :=
  rulesFor exportStatement
    [["export", "*", fromClause, ending], ["export", namespaceExport, fromClause, ending],
     ["export", exportClause, opt fromClause, ending],
     [opt decorators, "export", opt "default", declaration],
     [opt decorators, "export", "default", expression, ending]]
  ++ rulesFor namespaceExport [["*", "as", moduleName]]
  ++ rulesFor exportClause
    [[lbrace, opt ",", rbrace], [lbrace, exportSpecifier, opt exportTail, opt ",", rbrace]]
  ++ repeatRules exportTail [[",", exportSpecifier]]
  ++ rulesFor exportSpecifier [[moduleName], [moduleName, "as", moduleName]]
  ++ rulesFor moduleName [[oneOf [identifier, string, "default"]]]
  ++ rulesFor fromClause [["from", string]]
  ++ rulesFor importStatement
    [["import", importClause, fromClause, opt importAttribute, ending],
     ["import", string, opt importAttribute, ending]]
  ++ rulesFor importClause
    [[oneOf [namespaceImport, namedImports, identifier]],
     [identifier, ",", oneOf [namespaceImport, namedImports]]]
  ++ rulesFor namespaceImport [["*", "as", identifier]]
  ++ rulesFor namedImports
    [[lbrace, opt ",", rbrace], [lbrace, importSpecifier, opt importTail, opt ",", rbrace]]
  ++ repeatRules importTail [[",", importSpecifier]]
  ++ rulesFor importSpecifier [[identifier], [moduleName, "as", identifier]]
  ++ rulesFor importAttribute [["with", object]]

end ComponentDivision.Script
