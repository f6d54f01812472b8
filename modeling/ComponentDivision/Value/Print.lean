/-
# Writing values

Values in JSON notation, on one line or with two blanks of indentation for each
level. Characters outside ASCII stand for themselves.

* `quoteText` : a text in quotes;
* `Value.inline` : a value on one line;
* `Value.indented` : a value with a line for each item.
-/
import ComponentDivision.Text.Position
import ComponentDivision.Value.Basic

namespace ComponentDivision

/-! ## Texts -/

/-- A character inside quotes. -/
def quoteChar (c : Char) : Text :=
  match c with
  | '"' => "\\\"".toList
  | '\\' => "\\\\".toList
  | '\n' => "\\n".toList
  | '\r' => "\\r".toList
  | '\t' => "\\t".toList
  | c =>
    if c.toNat = 8 then "\\b".toList
    else if c.toNat = 12 then "\\f".toList
    else if c.toNat < 32 then
      "\\u00".toList ++ [Nat.digitChar (c.toNat / 16), Nat.digitChar (c.toNat % 16)]
    else [c]

/-- A text in quotes. -/
def quoteText (t : Text) : Text :=
  '"' :: t.flatMap quoteChar ++ ['"']

namespace Value

/-- A value that has no parts. -/
def scalar : Value → Text
  | null => "null".toList
  | bool true => "true".toList
  | bool false => "false".toList
  | integer n => Text.decimal n
  | real literal => literal
  | text t => quoteText t
  | date literal => quoteText literal
  | dateTime literal => quoteText literal
  | list _ => []
  | table _ => []

/-! ## On one line -/

mutual

/-- A value on one line. -/
def inline : Value → Text
  | list items => '[' :: [',', ' '].intercalate (inlineItems items) ++ [']']
  | table entries => '\x7b' :: [',', ' '].intercalate (inlineEntries entries) ++ ['\x7d']
  | v => v.scalar

def inlineItems : List Value → List Text
  | [] => []
  | v :: vs => v.inline :: inlineItems vs

def inlineEntries : List (Text × Value) → List Text
  | [] => []
  | (name, v) :: rest => (quoteText name ++ ':' :: ' ' :: v.inline) :: inlineEntries rest

end

/-! ## With indentation -/

/-- Items between brackets, each on a line of its own. -/
def bracketed (left right : Char) (depth : Nat) (items : List Text) : Text :=
  if items.isEmpty then [left, right]
  else
    let line := '\n' :: List.replicate (2 * depth) ' '
    left :: line ++ [' ', ' '] ++ (',' :: line ++ [' ', ' ']).intercalate items
      ++ line ++ [right]

mutual

/-- A value at this depth, with a line for each item. -/
def indented (depth : Nat) : Value → Text
  | list items => bracketed '[' ']' depth (indentedItems (depth + 1) items)
  | table entries => bracketed '\x7b' '\x7d' depth (indentedEntries (depth + 1) entries)
  | v => v.scalar

def indentedItems (depth : Nat) : List Value → List Text
  | [] => []
  | v :: vs => v.indented depth :: indentedItems depth vs

def indentedEntries (depth : Nat) : List (Text × Value) → List Text
  | [] => []
  | (name, v) :: rest =>
    (quoteText name ++ ':' :: ' ' :: v.indented depth) :: indentedEntries depth rest

end

end Value

end ComponentDivision
