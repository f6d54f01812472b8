/-
# Running the command line

The command line divides one file and prints its report. A run is a function of the
files and the arguments, and of the tools that it relies on: it gives what is printed
and how the run ends.

* `Run` : what is printed, and the ending;
* `run` : the run of a command line.
-/
import ComponentDivision.Command.Usage
import ComponentDivision.Progress
import ComponentDivision.Report.Written
import ComponentDivision.Settings.Load
import ComponentDivision.Value.Print

namespace ComponentDivision.Command

/-! ## Endings -/

/-- A failure that is not reported in the way of the command line. -/
inductive Crash (ε : Type) where
  | unread (e : ReadError)
  | unlocated (e : ε)
  | exhausted
  deriving DecidableEq, Repr

variable {ε ν : Type}

/-- The wording of a crash, by the wording of the errors of the reader. -/
def Crash.message (wording : ε → Text) : Crash ε → Text
  | .unread e => e.message
  | .unlocated e => wording e
  | .exhausted => "maximum recursion depth exceeded".toList

/-- How a run ends. -/
inductive Ending (ε : Type) where
  | exit (code : Nat)
  | crash (c : Crash ε)
  deriving DecidableEq, Repr

/-- What a run prints, and how it ends. -/
structure Run (ε : Type) where
  stdout : Text := []
  stderr : Text := []
  ending : Ending ε
  deriving DecidableEq, Repr

namespace Run

/-- A run that prints one message about the file at `path` and fails. -/
def failed (o : Options) (message : Text) : Run ε :=
  if o.json then
    let v := Value.table [("error".toList, .text message), ("file".toList, .text o.path)]
    { stdout := v.inline ++ ['\n'], ending := .exit 2 }
  else { stderr := "Error: ".toList ++ message ++ ['\n'], ending := .exit 2 }

/-- A run that prints a report. -/
def succeeded (o : Options) (r : Report) : Run ε where
  stdout := (if o.json then r.toValue.indented 0 else r.human) ++ ['\n']
  ending := .exit 0

/-- The run with notes printed before everything else. -/
def withNotes (r : Run ε) (ns : List Note) : Run ε :=
  { r with stderr := ns.flatMap Note.line ++ r.stderr }

end Run

/-! ## Runs -/

/-- The settings of a file, with the options of the command line on top. -/
def Options.settings (formats : Formats ν) (files : Files) (o : Options) :
    Except (LoadError ν) Settings := do
  let settings ← Settings.load formats files o.config {}
  let settings := if o.noExpressions then { settings with extract := false } else settings
  match o.markupParser with
  | none | some [] => return settings
  | some features => return { settings with features }

/-- The name that a report gives its file. -/
def Options.displayName (o : Options) : Text :=
  match o.name with
  | none | some [] => o.path
  | some name => name

/-- Divides a document and prints the report. -/
def divideDocument (tools : Tools ε) (o : Options) (settings : Settings) (document : Text) :
    Run ε :=
  let name := some o.displayName
  let r : Run ε :=
    match divide tools settings document name with
    | .ok report => .succeeded o report
    | .error (.refused e) => .failed o e.message
    | .error (.unlocated e) => { ending := .crash (.unlocated e) }
    | .error .exhausted => { ending := .crash .exhausted }
  if o.verbose then r.withNotes (notes tools settings document name) else r

/-- Divides the file that the options name. A file that is not text in UTF-8, or a path
that no file can have, is a crash; a file that cannot be opened is reported. -/
def divideFile (tools : Tools ε) (formats : Formats ν) (files : Files) (o : Options) : Run ε :=
  match o.settings formats files with
  | .error e => .failed o ("Failed to load divider config: ".toList ++ e.message formats)
  | .ok settings =>
    match files.readText o.path with
    | .ok document => divideDocument tools o settings document
    | .error (.unopened path p) => .failed o ("Failed to read file: ".toList ++ p.message path)
    | .error e => { ending := .crash (.unread e) }

/-- The run of a command line. -/
def run (tools : Tools ε) (formats : Formats ν) (files : Files) (args : List Text) : Run ε :=
  match Options.read args with
  | .error e => { stderr := e.report, ending := .exit 2 }
  | .ok .help => { stdout := help, ending := .exit 0 }
  | .ok (.divide o) => divideFile tools formats files o

end ComponentDivision.Command
