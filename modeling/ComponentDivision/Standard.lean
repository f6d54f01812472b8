/-
# The built-in tools

What the command line is run with: the built-in grammar, the built-in reader of
lenient markup, and the readers of JSON and YAML.

* `Tools.standard` : what a division relies on;
* `Formats.standard` : the readers of the formats of settings.
-/
import ComponentDivision.Division
import ComponentDivision.Markup.Lenient
import ComponentDivision.Script.Check
import ComponentDivision.Settings.Load
import ComponentDivision.Value.Json
import ComponentDivision.Value.Yaml.Resolve

namespace ComponentDivision

/-- The built-in grammar and reader. The calls may nest as deep as they need. -/
def Tools.standard : Tools Markup.LocateError where
  grammar := .script
  reader := Markup.lenient

/-- Why a text in one of the formats has no value. -/
inductive FormatError where
  | json (e : JsonError)
  | yaml (e : Yaml.Error)
  deriving DecidableEq, Repr

/-- The wording of an error. -/
def FormatError.message : FormatError → Text
  | .json e => e.message
  | .yaml e => e.message

/-- The built-in readers. -/
def Formats.standard : Formats FormatError where
  json t := (Value.ofJson t).mapError .json
  yaml t := (Value.ofYaml t).mapError .yaml
  message := FormatError.message

end ComponentDivision
