/-
# Command line options

The options of the command line. A long option may be shortened as long as it stays
clear which one is meant, and its value may follow an equals sign or be the next
argument. What follows two dashes alone is no option.

* `Choice` : the options;
* `Options` : what a command line asks for;
* `Options.read` : the options of a command line, or what is wrong with it.
-/
import ComponentDivision.Text.Shown

namespace ComponentDivision.Command

/-! ## Options -/

/-- An option. -/
inductive Choice where
  | help
  | name
  | config
  | noExpressions
  | markupParser
  | json
  | verbose
  deriving DecidableEq, Repr

namespace Choice

/-- The options by their spellings. -/
def spellings : List (Text × Choice) :=
  [("-h", help), ("--help", help), ("--name", name), ("--config", config),
   ("--no-expressions", noExpressions), ("--markup-parser", markupParser), ("--json", json),
   ("--verbose", verbose)].map fun (s, c) => (s.toList, c)

/-- An option as messages name it. -/
def label (c : Choice) : Text :=
  ['/'].intercalate ((spellings.filter (·.2 == c)).map (·.1))

/-- Whether an option has a value. -/
def takesValue : Choice → Bool
  | name | config | markupParser => true
  | _ => false

end Choice

/-- What a command line asks for. -/
structure Options where
  path : Text
  name : Option Text := none
  config : Option Text := none
  markupParser : Option Text := none
  noExpressions : Bool := false
  json : Bool := false
  verbose : Bool := false
  deriving DecidableEq, Repr

/-! ## Errors -/

/-- What is wrong with a command line. -/
inductive UsageError where
  | missingPath
  | missingValue (c : Choice)
  | unusedValue (c : Choice) (value : Text)
  | unrecognised (arguments : List Text)
  | ambiguous (argument : Text) (spellings : List Text)
  deriving DecidableEq, Repr

/-- The wording of an error. -/
def UsageError.message : UsageError → Text
  | .missingPath => "the following arguments are required: path".toList
  | .missingValue c => "argument ".toList ++ c.label ++ ": expected one argument".toList
  | .unusedValue c value =>
    "argument ".toList ++ c.label ++ ": ignored explicit argument ".toList ++ value.shown
  | .unrecognised arguments =>
    "unrecognized arguments: ".toList ++ [' '].intercalate arguments
  | .ambiguous argument spellings =>
    "ambiguous option: ".toList ++ argument ++ " could match ".toList
      ++ [',', ' '].intercalate spellings

/-! ## Arguments -/

/-- What an argument is taken for. -/
inductive Argument where
  | plain (t : Text)
  | option (c : Choice) (value : Option Text)
  | unknown (t : Text)
  /-- The two dashes after which there are no options. -/
  | dashes
  deriving DecidableEq, Repr

/-- Whether a text is a negative number; a line feed may follow it. -/
def isNegativeNumber (t : Text) : Bool :=
  let body := if t.getLast? == some '\n' then t.dropLast else t
  match body with
  | '-' :: cs =>
    let digits := cs.takeWhile isDecimalDigit
    match cs.drop digits.length with
    | [] => !digits.isEmpty
    | '.' :: fraction => !fraction.isEmpty && fraction.all isDecimalDigit
    | _ => false
  | _ => false

/-- The value of the one option of a single letter, which may be written behind it more
than once. -/
def shortValue (value : Text) : Option Text :=
  let rest := value.dropWhile (· = 'h')
  if !value.isEmpty && rest.isEmpty then none else some rest

/-- An option as it is spelled, with its value. -/
def spelled (spelling : Text) (c : Choice) (value : Option Text) : Argument :=
  if spelling == ['-', 'h'] then .option c (value.bind shortValue) else .option c value

/-- The option whose spelling begins as an argument with two dashes does, with the value
after an equals sign. -/
def shortened? (t : Text) : Except UsageError (Option Argument) :=
  let (stem, value) := Text.cut '=' t
  match Choice.spellings.filter fun (s, _) => stem.isPrefixOf s with
  | [] => .ok none
  | [(s, c)] => .ok (some (spelled s c value))
  | several => .error (.ambiguous t (several.map (·.1)))

/-- The option that an argument spells, in full or not. -/
def option? (t : Text) : Except UsageError (Option Argument) :=
  let (stem, value) := Text.cut '=' t
  match Choice.spellings.lookup t, Choice.spellings.lookup stem with
  | some c, _ => .ok (some (.option c none))
  | none, some c => .ok (some (spelled stem c value))
  | none, none =>
    if ['-', '-'].isPrefixOf t then shortened? t
    else if ['-', 'h'].isPrefixOf t then .ok (some (spelled ['-', 'h'] .help (some (t.drop 2))))
    else .ok none

/-- What an argument before the two dashes is taken for. -/
def argument (t : Text) : Except UsageError Argument := do
  if t.head? != some '-' || t == ['-'] then return .plain t
  match ← option? t with
  | some a => return a
  | none =>
    if isNegativeNumber t || t.contains ' ' then return .plain t else return .unknown t

/-- What the arguments of a command line are taken for. -/
def arguments : List Text → Except UsageError (List Argument)
  | [] => .ok []
  | t :: ts => do
    if t == ['-', '-'] then return .dashes :: ts.map .plain
    let a ← argument t
    let rest ← arguments ts
    return a :: rest

/-! ## Reading -/

/-- What a command line comes to. -/
inductive Invocation where
  | help
  | divide (o : Options)
  deriving DecidableEq, Repr

/-- What has been read of a command line. -/
structure Reading where
  options : Options := { path := [] }
  path : Option Text := none
  extras : List Text := []

namespace Reading

/-- Notes the value of an option. Two dashes are no value. -/
def setValue (r : Reading) (c : Choice) (value : Text) : Reading :=
  let value := if value == ['-', '-'] then [] else value
  match c with
  | .name => { r with options.name := some value }
  | .config => { r with options.config := some value }
  | .markupParser => { r with options.markupParser := some value }
  | _ => r

/-- Notes an option without a value. -/
def setFlag (r : Reading) (c : Choice) : Reading :=
  match c with
  | .noExpressions => { r with options.noExpressions := true }
  | .json => { r with options.json := true }
  | .verbose => { r with options.verbose := true }
  | _ => r

/-- Notes an argument that belongs to nothing. -/
def addExtra (r : Reading) (t : Text) : Reading :=
  { r with extras := r.extras ++ [t] }

/-- The end of a command line. -/
def finish (r : Reading) : Except UsageError Invocation :=
  match r.path, r.extras with
  | none, _ => .error .missingPath
  | some path, [] => .ok (.divide { r.options with path })
  | some _, extras => .error (.unrecognised extras)

/-- Reads the arguments from the left to the right. The first plain one is the path, and
the two dashes next to it belong to it. -/
def read : Reading → List Argument → Except UsageError Invocation
  | r, [] => r.finish
  | r, .plain t :: .dashes :: rest =>
    if r.path.isNone then read { r with path := some t } rest
    else read ((r.addExtra t).addExtra ['-', '-']) rest
  | r, .plain t :: rest =>
    if r.path.isNone then read { r with path := some t } rest else read (r.addExtra t) rest
  | r, .dashes :: rest => if r.path.isNone then read r rest else read (r.addExtra ['-', '-']) rest
  | r, .unknown t :: rest => read (r.addExtra t) rest
  | r, .option c (some value) :: rest =>
    if c.takesValue then read (r.setValue c value) rest else .error (.unusedValue c value)
  | r, .option c none :: rest =>
    if c = .help then .ok .help
    else if c.takesValue then
      match rest with
      | .plain value :: rest => read (r.setValue c value) rest
      | _ => .error (.missingValue c)
    else read (r.setFlag c) rest

end Reading

/-- What a command line asks for, or what is wrong with it. -/
def Options.read (args : List Text) : Except UsageError Invocation := do
  Reading.read {} (← arguments args)

end ComponentDivision.Command
