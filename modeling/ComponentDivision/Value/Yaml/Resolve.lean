/-
# Reading YAML: values

A plain scalar may stand for nothing, for a truth value, for a number or for a date,
by the way it is spelled; every other scalar is a text.

* `Yaml.plainValue` : what a plain scalar stands for;
* `Value.ofYaml` : the value that a text stands for.
-/
import ComponentDivision.Text.Position
import ComponentDivision.Value.Basic
import ComponentDivision.Value.Yaml.Node

namespace ComponentDivision.Yaml

/-! ## Errors -/

/-- A part of a date that is out of range. -/
inductive DateProblem where
  | year (n : Nat)
  | month
  | day
  | hour
  | minute
  | second
  deriving DecidableEq, Repr

/-- The wording of a problem with a date. -/
def DateProblem.message : DateProblem → Text
  | .year n => "year ".toList ++ Text.decimal n ++ " is out of range".toList
  | .month => "month must be in 1..12".toList
  | .day => "day is out of range for month".toList
  | .hour => "hour must be in 0..23".toList
  | .minute => "minute must be in 0..59".toList
  | .second => "second must be in 0..59".toList

/-- Why a text has no value. -/
inductive Error where
  | malformed (p : Problem)
  | date (p : DateProblem)
  deriving DecidableEq, Repr

/-- The wording of an error. -/
def Error.message : Error → Text
  | .malformed p => p.message.toList
  | .date p => p.message

/-! ## Words -/

/-- The spellings of a word: in lower case, with a capital, in upper case. -/
def spellings (word : String) : List Text :=
  let t := word.toList
  [t, (t.take 1).map Char.toUpper ++ t.tail, t.map Char.toUpper]

/-- The words for values. -/
def wordValue? (t : Text) : Option Value :=
  if t.isEmpty || t == ['~'] || (spellings "null").contains t then some .null
  else if ["yes", "true", "on"].any fun w => (spellings w).contains t then some (.bool true)
  else if ["no", "false", "off"].any fun w => (spellings w).contains t then some (.bool false)
  else none

/-! ## Numbers -/

/-- A digit of a base, or an underscore, which may stand between digits. -/
def isDigitOf (base : Nat) (c : Char) : Bool :=
  c = '_' || isHexDigit c && digitValue c < base

/-- The number that digits with underscores between them stand for. -/
def numberIn (base : Nat) (digits : Text) : Nat :=
  numberOf base (digits.filter (· != '_'))

/-- A part of a number in base sixty: one or two digits below sixty. -/
def isSixtieth : Text → Bool
  | [a] => a.isDigit
  | [a, b] => '0' ≤ a && a ≤ '5' && b.isDigit
  | _ => false

/-- The integer without a sign that a text stands for: in base two, eight, sixteen or
ten, or in base sixty with colons. -/
def natural? (t : Text) : Option Nat :=
  match t with
  | ['0'] => some 0
  | '0' :: 'b' :: ds => if !ds.isEmpty && ds.all (isDigitOf 2) then some (numberIn 2 ds) else none
  | '0' :: 'x' :: ds => if !ds.isEmpty && ds.all (isDigitOf 16) then some (numberIn 16 ds) else none
  | '0' :: ds => if ds.all (isDigitOf 8) then some (numberIn 8 ds) else none
  | t =>
    match Text.splitOnChar ':' t with
    | first :: rest =>
      if first.head?.any Char.isDigit && first.all (isDigitOf 10) && rest.all isSixtieth then
        some (rest.foldl (fun n part => 60 * n + numberOf 10 part) (numberIn 10 first))
      else none
    | [] => none

/-- A sign, if there is one, and what follows it. -/
def splitSign (t : Text) : Text × Text :=
  match t with
  | '+' :: rest => (['+'], rest)
  | '-' :: rest => (['-'], rest)
  | t => ([], t)

/-- The integer that a text stands for. -/
def integer? (t : Text) : Option Int :=
  let (sign, rest) := splitSign t
  (natural? rest).map fun n => if sign == ['-'] then -(n : Int) else n

/-- An exponent, which has a sign, or nothing. -/
def isExponent : Text → Bool
  | [] => true
  | e :: s :: ds =>
    (e = 'e' || e = 'E') && (s = '+' || s = '-') && !ds.isEmpty && ds.all Char.isDigit
  | _ => false

/-- Whether a text stands for a number with a fraction, or for one that is not finite. -/
def isReal (t : Text) : Bool :=
  let (sign, rest) := splitSign t
  let whole := rest.takeWhile fun c => isDigitOf 10 c || c = ':'
  let tail := (rest.drop whole.length).tail
  let digits := tail.takeWhile (isDigitOf 10)
  if (rest.drop whole.length).head? != some '.' then false
  else if whole.isEmpty then
    (spellings "inf").contains tail
      || sign.isEmpty && ["nan", "NaN", "NAN"].any (fun w => w.toList == tail)
      || sign.isEmpty && digits.head?.any Char.isDigit && isExponent (tail.drop digits.length)
  else
    match Text.splitOnChar ':' whole with
    | [_] => whole.head?.any Char.isDigit && isExponent (tail.drop digits.length)
    | first :: parts =>
      first.head?.any Char.isDigit && parts.all isSixtieth && digits.length == tail.length
    | [] => false

/-! ## Dates -/

/-- The number at the front with at least `least` and at most `most` digits, and what
follows it. -/
def digits? (least most : Nat) (t : Text) : Option (Nat × Text) :=
  let ds := (t.take most).takeWhile Char.isDigit
  if least ≤ ds.length then some (numberOf 10 ds, t.drop ds.length) else none

/-- What follows a character. -/
def after? (c : Char) : Text → Option Text
  | d :: rest => if c = d then some rest else none
  | [] => none

/-- A year, a month and a day. -/
structure Day where
  year : Nat
  month : Nat
  day : Nat

/-- The day at the front, and what follows it. -/
def day? (least : Nat) (t : Text) : Option (Day × Text) := do
  let (year, t) ← digits? 4 4 t
  let (month, t) ← digits? least 2 (← after? '-' t)
  let (day, t) ← digits? least 2 (← after? '-' t)
  return (⟨year, month, day⟩, t)

/-- The length of a month. -/
def Day.monthLength (d : Day) : Nat :=
  let leap := d.year % 4 == 0 && (d.year % 100 != 0 || d.year % 400 == 0)
  if d.month = 2 then if leap then 29 else 28
  else if [4, 6, 9, 11].contains d.month then 30
  else 31

/-- What is out of range in a day. -/
def Day.problem? (d : Day) : Option DateProblem :=
  if d.year = 0 then some (.year 0)
  else if d.month = 0 || 12 < d.month then some .month
  else if d.day = 0 || d.monthLength < d.day then some .day
  else none

/-- Whether a text is the zone of a time, or empty. -/
def isZone (t : Text) : Bool :=
  let blanks := (t.takeWhile fun c => c = ' ' || c = '\t').length
  match t.drop blanks with
  | [] => blanks = 0
  | ['Z'] => true
  | s :: rest =>
    let minutes := fun rest : Text =>
      match rest with
      | [] => true
      | ':' :: ds => ds.length = 2 && ds.all Char.isDigit
      | _ => false
    (s = '+' || s = '-') && match digits? 1 2 rest with
      | some (_, rest) => minutes rest
      | none => false

/-- The hour, minute and second after a day. -/
def time? (t : Text) : Option (Nat × Nat × Nat) := do
  let afterDay ←
    match t with
    | c :: rest =>
      if c = 'T' || c = 't' then some rest
      else if c = ' ' || c = '\t' then some (t.dropWhile fun c => c = ' ' || c = '\t')
      else none
    | [] => none
  let (hour, t) ← digits? 1 2 afterDay
  let (minute, t) ← digits? 2 2 (← after? ':' t)
  let (second, t) ← digits? 2 2 (← after? ':' t)
  let t := if t.head? == some '.' then t.tail.dropWhile Char.isDigit else t
  if isZone t then return (hour, minute, second) else none

/-- What is out of range in a time. -/
def timeProblem? : Nat × Nat × Nat → Option DateProblem
  | (hour, minute, second) =>
    if 23 < hour then some .hour
    else if 59 < minute then some .minute
    else if 59 < second then some .second
    else none

/-- The date that a text stands for. -/
def dateValue? (t : Text) : Option (Except DateProblem Value) :=
  match day? 2 t, day? 1 t with
  | some (d, []), _ => some (d.problem?.elim (.ok (.date t)) .error)
  | _, some (d, rest) =>
    (time? rest).map fun time =>
      (d.problem? <|> timeProblem? time).elim (.ok (.dateTime t)) .error
  | _, none => none

/-! ## Values -/

/-- What a plain scalar stands for. -/
def plainValue (t : Text) : Except Error Value :=
  match wordValue? t, integer? t, dateValue? t with
  | some v, _, _ => .ok v
  | none, some n, _ => .ok (.integer n)
  | none, none, some (.ok v) => .ok v
  | none, none, some (.error p) => .error (.date p)
  | none, none, none =>
    if isReal t then .ok (.real t)
    else if t == ['='] || t == ['<', '<'] then .error (.malformed .noValue)
    else .ok (.text t)

/-- The name that a key stands for, if it is a text. -/
def keyName? : Node → Except Error (Option Text)
  | .scalar t false => .ok (some t)
  | .scalar t true =>
    if t == ['='] then .ok (some t)
    else
      match plainValue t with
      | .ok (.text name) => .ok (some name)
      | .ok _ => .ok none
      | .error e => .error e
  | _ => .error (.malformed .badKey)

/-- Whether an entry takes in the entries of other mappings. -/
def isMerge (n : Node) : Bool :=
  match n with
  | .scalar t true => t == ['<', '<']
  | _ => false

mutual

/-- What a node stands for. Only entries with a text for a key are kept. -/
def nodeValue : Node → Except Error Value
  | .scalar t true => plainValue t
  | .scalar t false => .ok (.text t)
  | .sequence items => do return .list (← itemValues items)
  | .mapping entries => do
    let (merged, own) ← entryValues entries
    return .table (merged ++ own)

def itemValues : List Node → Except Error (List Value)
  | [] => .ok []
  | n :: ns => do
    let v ← nodeValue n
    let vs ← itemValues ns
    return v :: vs

/-- The entries of a mapping: those taken in from other mappings, and its own. -/
def entryValues : List (Node × Node) →
    Except Error (List (Text × Value) × List (Text × Value))
  | [] => .ok ([], [])
  | (key, n) :: rest => do
    if isMerge key then
      let taken ← match ← nodeValue n with
        | .table es => pure es
        | .list vs => mergeTables vs
        | _ => .error (.malformed .noValue)
      let (merged, own) ← entryValues rest
      return (taken ++ merged, own)
    else
      let name ← keyName? key
      let v ← nodeValue n
      let (merged, own) ← entryValues rest
      match name with
      | some name => return (merged, (name, v) :: own)
      | none => return (merged, own)
where
  /-- The entries of tables, of which the first counts most. -/
  mergeTables (vs : List Value) : Except Error (List (Text × Value)) :=
    vs.foldlM (fun taken v =>
      match v with
      | .table es => .ok (es ++ taken)
      | _ => .error (.malformed .noValue)) []

end

end ComponentDivision.Yaml

namespace ComponentDivision

/-- The value that a YAML text stands for; nothing if it holds no document. -/
def Value.ofYaml (t : Text) : Except Yaml.Error Value :=
  match Yaml.document? t with
  | .error p => .error (.malformed p)
  | .ok none => .ok .null
  | .ok (some node) => Yaml.nodeValue node

end ComponentDivision
