/-
# The grammar of markup in expressions
-/
import ComponentDivision.Script.Rule

namespace ComponentDivision.Script

open Category Lexeme

/-- A name without a qualifier. -/
def simpleName : Part :=
  oneOf [markupName, identifier]

/-- The name of an element. -/
def elementName : Part :=
  oneOf [simpleName, markupDottedName, markupQualifiedName]

/-- Elements, their attributes and what stands in them. -/
def markupRules : List Rule :=
  rulesFor markupElement [[markupOpening, opt markupChildren, markupClosing]]
  ++ rulesFor markupOpening [["<", ">"], ["<", elementName, opt markupAttributes, ">"]]
  ++ rulesFor markupClosing [["</", opt elementName, ">"]]
  ++ rulesFor markupEmpty [["<", elementName, opt markupAttributes, "/>"]]
  ++ repeatRules markupChildren
    [[oneOf [markupText, markupReference, markupElement, markupEmpty, markupHole]]]
  ++ repeatRules markupAttributes [[oneOf [markupAttribute, markupHole]]]
  ++ rulesFor markupAttribute
    [[oneOf [simpleName, markupQualifiedName]],
     [oneOf [simpleName, markupQualifiedName], "=",
      oneOf [markupString, markupHole, markupElement, markupEmpty]]]
  ++ bindingRules (some .member) none markupDottedName
    [[oneOf [identifier, markupDottedName], ".", identifier]]
  ++ rulesFor markupQualifiedName [[simpleName, ":", simpleName]]
  ++ rulesFor markupHole
    [[lbrace, rbrace], [lbrace, oneOf [expression, sequence, spread], rbrace]]

end ComponentDivision.Script
