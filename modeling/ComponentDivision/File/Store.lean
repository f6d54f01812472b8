/-
# Files

What can be read at a path, and the text of a file. A text file is UTF-8, and every
line end in it is read as a line feed.

* `Files` : what is at each path;
* `Files.ofEntries` : the files below one directory;
* `Files.readText` : the text of a file, or why there is none.
-/
import ComponentDivision.File.Path
import ComponentDivision.Text.Encoding
import ComponentDivision.Text.Shown

namespace ComponentDivision

/-! ## Errors -/

/-- Why a file is not opened. -/
inductive OpenProblem where
  | missing
  | isDirectory
  | notDirectory
  /-- Any other reason, by its number and name. -/
  | other (code : Nat) (reason : Text)
  deriving DecidableEq, Repr

/-- The wording of a problem at a path. -/
def OpenProblem.message (path : Path) (p : OpenProblem) : Text :=
  let (code, reason) :=
    match p with
    | missing => (2, "No such file or directory".toList)
    | isDirectory => (21, "Is a directory".toList)
    | notDirectory => (20, "Not a directory".toList)
    | other code reason => (code, reason)
  "[Errno ".toList ++ Text.decimal code ++ "] ".toList ++ reason ++ ": ".toList
    ++ path.spelling.shown

/-- Why a file has no text. -/
inductive ReadError where
  /-- The path holds a character that no path holds. -/
  | nullCharacter
  | unopened (path : Path) (p : OpenProblem)
  | undecodable (e : DecodeError)
  deriving DecidableEq, Repr

/-- The wording of an error. -/
def ReadError.message : ReadError → Text
  | .nullCharacter => "embedded null byte".toList
  | .unopened path p => p.message path
  | .undecodable e => e.message

/-! ## Files -/

/-- The bytes of the file at each path. -/
abbrev Files := Path → Except OpenProblem (List UInt8)

/-- The text of the file at a path. -/
def Files.readText (files : Files) (path : Text) : Except ReadError Text :=
  if path.contains (Char.ofNat 0) then .error .nullCharacter
  else
    match files (Path.of path) with
    | .error p => .error (.unopened (Path.of path) p)
    | .ok bytes =>
      match decode bytes with
      | .error e => .error (.undecodable e)
      | .ok t => .ok (unifyNewlines t)

/-! ## One directory -/

/-- What stands at a place below a directory. -/
inductive Entry where
  | file (bytes : List UInt8)
  | directory
  deriving DecidableEq, Repr

/-- The entries below a directory, by the names that lead to them. -/
abbrev Directory := List (List Text × Entry)

namespace Directory

/-- What stands at the end of these names. The directories on the way to an entry are
there too. -/
def entry? (d : Directory) (names : List Text) : Option Entry :=
  match d.lookup names with
  | some e => some e
  | none =>
    if names.isEmpty || d.any fun (ns, _) => names.isPrefixOf ns then some .directory else none

/-- Follows names from a directory on. Two dots lead back, and nothing is known of
what is around the directory. -/
def follow (d : Directory) (here : List Text) : List Text → Except OpenProblem Entry
  | [] => .ok .directory
  | name :: names =>
    if name = ['.', '.'] then
      if !here.isEmpty then follow d here.dropLast names
      else if names.all (· = ['.', '.']) then .ok .directory
      else .error .missing
    else
      match d.entry? (here ++ [name]) with
      | none => .error .missing
      | some .directory => follow d (here ++ [name]) names
      | some (.file bytes) => if names.isEmpty then .ok (.file bytes) else .error .notDirectory

end Directory

/-- The files below a directory, in which nothing else can be read. -/
def Files.ofEntries (entries : List (Text × Entry)) : Files := fun path =>
  let d : Directory := entries.map fun (name, e) => ((Path.of name).names, e)
  if path.root.isEmpty then
    match d.follow [] path.names with
    | .error p => .error p
    | .ok .directory => .error .isDirectory
    | .ok (.file bytes) => .ok bytes
  else if path.names.isEmpty then .error .isDirectory
  else .error .missing

end ComponentDivision
