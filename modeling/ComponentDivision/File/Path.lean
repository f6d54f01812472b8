/-
# Paths

A path is a root and the names after it. Empty names and single dots do not count,
so that a path has one spelling in messages.

* `Path.of` : the path that a text names;
* `Path.spelling` : a path as messages show it;
* `Path.suffix` : the ending of its last name.
-/
import ComponentDivision.Text.Basic

namespace ComponentDivision

/-- A path; its root is empty unless the path is absolute. -/
structure Path where
  root : Text
  names : List Text
  deriving DecidableEq, Repr

namespace Path

/-- The path that a text names. Two slashes at the front, and no more, are a root of
their own. -/
def of (t : Text) : Path where
  root :=
    match (t.takeWhile (· = '/')).length with
    | 0 => []
    | 2 => ['/', '/']
    | _ => ['/']
  names := (Text.splitOnChar '/' t).filter fun name => !name.isEmpty && name != ['.']

/-- A path as messages show it. -/
def spelling (p : Path) : Text :=
  if p.root.isEmpty && p.names.isEmpty then ['.'] else p.root ++ ['/'].intercalate p.names

/-- The ending of the last name from its last dot on. A dot at the front or at the end
of a name is no ending. -/
def suffix (p : Path) : Text :=
  let name := p.names.getLastD []
  let ending := (name.reverse.takeWhile (· != '.')).reverse
  if ending.isEmpty || name.length ≤ ending.length + 1 then [] else '.' :: ending

end Path

end ComponentDivision
