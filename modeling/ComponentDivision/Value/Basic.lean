/-
# Values

The values that configuration files hold and that reports are written as: numbers,
texts, lists, tables and dates.

* `Value` : a value;
* `Value.typeName` : the name of its type, as errors give it;
* `Value.field?` : the value of a field of a table.
-/
import ComponentDivision.Text.Basic

namespace ComponentDivision

/-- A value. A number with a fraction or an exponent, and a date, keep their
spelling. -/
inductive Value where
  | null
  | bool (b : Bool)
  | integer (n : Int)
  | real (literal : Text)
  | text (t : Text)
  | date (literal : Text)
  | dateTime (literal : Text)
  | list (items : List Value)
  /-- The entries in the order in which they are written; the last of several with
  one name counts. -/
  | table (entries : List (Text × Value))
  deriving Inhabited

namespace Value

/-- The name of the type of a value. -/
def typeName : Value → Text
  | null => "NoneType".toList
  | bool _ => "bool".toList
  | integer _ => "int".toList
  | real _ => "float".toList
  | text _ => "str".toList
  | date _ => "date".toList
  | dateTime _ => "datetime".toList
  | list _ => "list".toList
  | table _ => "dict".toList

/-- The last value of this name in a table; other values have no fields. -/
def field? (name : Text) : Value → Option Value
  | table entries => entries.reverse.lookup name
  | _ => none

end Value

end ComponentDivision
