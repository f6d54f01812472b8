/-
# Loading settings

Settings are read from a JSON or YAML file, by the ending of its name. A field that is
not there keeps its value, a field of the wrong type is refused, and fields of other
names are passed over.

* `Formats` : readers of both formats;
* `LoadError` : why settings are not loaded;
* `Settings.load` : the settings with those of a file on top.
-/
import ComponentDivision.File.Store
import ComponentDivision.Settings
import ComponentDivision.Text.LetterCase
import ComponentDivision.Value.Basic

namespace ComponentDivision

/-- A field whose value has the wrong type. -/
structure Mistyped where
  path : Text
  field : Text
  expected : Text
  found : Text
  deriving DecidableEq, Repr

/-- The wording of a wrong type. -/
def Mistyped.message (m : Mistyped) : Text :=
  m.path ++ ": '".toList ++ m.field ++ "' must be a ".toList ++ m.expected ++ ", got ".toList
    ++ m.found

/-- Readers of the formats in which settings are written. -/
structure Formats (ν : Type) where
  json : Text → Except ν Value
  yaml : Text → Except ν Value
  /-- The wording of an error of either. -/
  message : ν → Text

/-- Why settings are not loaded. -/
inductive LoadError (ν : Type) where
  | unread (e : ReadError)
  | malformed (e : ν)
  | mistyped (m : Mistyped)
  deriving DecidableEq, Repr

variable {ν : Type}

/-- The wording of an error. -/
def LoadError.message (formats : Formats ν) : LoadError ν → Text
  | .unread e => e.message
  | .malformed e => formats.message e
  | .mistyped m => m.message

namespace Settings

/-- The value of a file's text, by the ending of its name. -/
def parse (formats : Formats ν) (path t : Text) : Except ν Value :=
  if ["yaml", "yml"].any fun w => lowercase (Path.of path).suffix == '.' :: w.toList then
    formats.yaml t
  else formats.json t

/-- The settings with the fields of a value on top. -/
def update (path : Text) (settings : Settings) (v : Value) : Except Mistyped Settings := do
  let features ←
    match v.field? "markup_features".toList with
    | none => pure settings.features
    | some (.text t) => pure t
    | some other => .error ⟨path, "markup_features".toList, "str".toList, other.typeName⟩
  let extract ←
    match v.field? "extract_expressions".toList with
    | none => pure settings.extract
    | some (.bool b) => pure b
    | some other => .error ⟨path, "extract_expressions".toList, "bool".toList, other.typeName⟩
  return { features, extract }

/-- The settings with those of a file on top, if a file is named. -/
def load (formats : Formats ν) (files : Files) (path : Option Text) (settings : Settings) :
    Except (LoadError ν) Settings :=
  match path with
  | none | some [] => .ok settings
  | some path => do
    let t ← (files.readText path).mapError .unread
    let v ← (parse formats path t).mapError .malformed
    (update path settings v).mapError .mistyped

end Settings

end ComponentDivision
