/-
# Reading JSON

JSON as configuration files are written in it. The three names for numbers that are
not finite are read too. What cannot be read is reported with its line, its column
and its offset.

* `JsonError` : what is wrong, and where;
* `Value.ofJson` : the value that a text stands for.
-/
import ComponentDivision.Text.Digit
import ComponentDivision.Text.Position
import ComponentDivision.Value.Basic

namespace ComponentDivision

/-! ## Errors -/

/-- What can be wrong with a JSON text. -/
inductive JsonProblem where
  | byteOrderMark
  | noValue
  | noName
  | noColon
  | noComma
  | extraData
  | openString
  | badEscape
  | badCodeUnit
  | controlCharacter
  deriving DecidableEq, Repr

/-- The wording of a problem. -/
def JsonProblem.message : JsonProblem → String
  | .byteOrderMark => "Unexpected UTF-8 BOM (decode using utf-8-sig)"
  | .noValue => "Expecting value"
  | .noName => "Expecting property name enclosed in double quotes"
  | .noColon => "Expecting ':' delimiter"
  | .noComma => "Expecting ',' delimiter"
  | .extraData => "Extra data"
  | .openString => "Unterminated string starting at"
  | .badEscape => "Invalid \\escape"
  | .badCodeUnit => "Invalid \\uXXXX escape"
  | .controlCharacter => "Invalid control character at"

/-- A problem with its place. -/
structure JsonError where
  problem : JsonProblem
  line : Nat
  column : Nat
  offset : Nat
  deriving DecidableEq, Repr

namespace JsonError

/-- A problem at an offset of a text. -/
def at_ (problem : JsonProblem) (t : Text) (offset : Nat) : JsonError :=
  ⟨problem, t.lineNumber offset, offset - t.lineStart offset + 1, offset⟩

/-- The wording of an error. -/
def message (e : JsonError) : Text :=
  e.problem.message.toList ++ ": line ".toList ++ Text.decimal e.line ++ " column ".toList
    ++ Text.decimal e.column ++ " (char ".toList ++ Text.decimal e.offset ++ [')']

end JsonError

namespace Json

/-- A problem, with the number of characters that were left. -/
abbrev Trouble := JsonProblem × Nat

/-- What is left after the white space at the front. -/
def skipBlank (t : Text) : Text :=
  t.dropWhile fun c => c = ' ' || c = '\t' || c = '\n' || c = '\r'

/-! ## Strings -/

/-- The character of a short escape. -/
def escaped? (c : Char) : Option Nat :=
  match c with
  | '"' => some 34
  | '\\' => some 92
  | '/' => some 47
  | 'b' => some 8
  | 'f' => some 12
  | 'n' => some 10
  | 'r' => some 13
  | 't' => some 9
  | _ => none

/-- The rest of a string as code units, and what follows its closing quote; `opening`
characters were left at its opening quote. -/
def stringUnits (opening : Nat) : Text → Except Trouble (List Nat × Text)
  | [] => .error (.openString, opening)
  | '"' :: rest => .ok ([], rest)
  | '\\' :: 'u' :: a :: b :: c :: d :: rest =>
    if [a, b, c, d].all isHexDigit && !rest.isEmpty then do
      let (units, rest) ← stringUnits opening rest
      return (numberOf 16 [a, b, c, d] :: units, rest)
    else .error (.badCodeUnit, rest.length + 5)
  | '\\' :: 'u' :: rest => .error (.badCodeUnit, rest.length + 1)
  | '\\' :: c :: rest =>
    match escaped? c with
    | some unit => do
      let (units, rest) ← stringUnits opening rest
      return (unit :: units, rest)
    | none => .error (.badEscape, rest.length + 2)
  | ['\\'] => .error (.openString, opening)
  | c :: rest =>
    if c.toNat < 32 then .error (.controlCharacter, rest.length + 1)
    else do
      let (units, rest) ← stringUnits opening rest
      return (c.toNat :: units, rest)

/-- The text of code units: two halves of a character are put together, and a half
alone is replaced. -/
def joinUnits : List Nat → Text
  | [] => []
  | [unit] => [if 0xD800 ≤ unit && unit ≤ 0xDFFF then Char.ofNat 0xFFFD else Char.ofNat unit]
  | high :: low :: units =>
    if 0xD800 ≤ high && high ≤ 0xDBFF && 0xDC00 ≤ low && low ≤ 0xDFFF then
      Char.ofNat (0x10000 + (high - 0xD800) * 0x400 + (low - 0xDC00)) :: joinUnits units
    else if 0xD800 ≤ high && high ≤ 0xDFFF then Char.ofNat 0xFFFD :: joinUnits (low :: units)
    else Char.ofNat high :: joinUnits (low :: units)

/-- The string after an opening quote, and what follows it. -/
def string (t : Text) : Except Trouble (Text × Text) := do
  let (units, rest) ← stringUnits (t.length + 1) t
  return (joinUnits units, rest)

/-! ## Numbers -/

/-- The integer digits at the front: a zero stands alone. -/
def integerDigits : Text → Text
  | '0' :: _ => ['0']
  | t => t.takeWhile Char.isDigit

/-- The fraction at the front, with its point. -/
def fraction : Text → Text
  | '.' :: rest =>
    let digits := rest.takeWhile Char.isDigit
    if digits.isEmpty then [] else '.' :: digits
  | _ => []

/-- The exponent at the front, with its letter and sign. -/
def exponent : Text → Text
  | [] => []
  | e :: rest =>
    if e = 'e' || e = 'E' then
      let sign := (rest.take 1).takeWhile fun c => c = '+' || c = '-'
      let digits := (rest.drop sign.length).takeWhile Char.isDigit
      if digits.isEmpty then [] else e :: sign ++ digits
    else []

/-- The number at the front, and what follows it. -/
def number? (t : Text) : Option (Value × Text) :=
  let sign := (t.take 1).takeWhile (· = '-')
  let digits := integerDigits (t.drop sign.length)
  let afterDigits := t.drop (sign.length + digits.length)
  let tail := fraction afterDigits
  let tail := tail ++ exponent (afterDigits.drop tail.length)
  let n : Int := numberOf 10 digits
  if digits.isEmpty then none
  else if tail.isEmpty then some (.integer (if sign.isEmpty then n else -n), afterDigits)
  else some (.real (sign ++ digits ++ tail), afterDigits.drop tail.length)

/-! ## Values -/

/-- The values that are written as words. -/
def wordValues : List (Text × Value) :=
  [("null", .null), ("true", .bool true), ("false", .bool false), ("NaN", .real "NaN".toList),
   ("Infinity", .real "Infinity".toList), ("-Infinity", .real "-Infinity".toList)].map
    fun (word, v) => (word.toList, v)

/-- The value at the front that has no parts, and what follows it. -/
def scalar (t : Text) : Except Trouble (Value × Text) :=
  match wordValues.find? fun (word, _) => word.isPrefixOf t with
  | some (word, v) => .ok (v, t.drop word.length)
  | none =>
    match number? t with
    | some found => .ok found
    | none => .error (.noValue, t.length)

mutual

/-- The value at the front, and what follows it. The fuel bounds the nesting and the
number of items together. -/
def value : Nat → Text → Except Trouble (Value × Text)
  | 0, t => .error (.noValue, t.length)
  | fuel + 1, t =>
    match t with
    | '"' :: rest => do
      let (s, rest) ← string rest
      return (.text s, rest)
    | '[' :: rest =>
      match skipBlank rest with
      | ']' :: rest => .ok (.list [], rest)
      | rest => do
        let (vs, rest) ← items fuel rest
        return (.list vs, rest)
    | '\x7b' :: rest =>
      match skipBlank rest with
      | '\x7d' :: rest => .ok (.table [], rest)
      | rest => do
        let (es, rest) ← entries fuel rest
        return (.table es, rest)
    | t => scalar t

/-- The items of a list up to its end. -/
def items : Nat → Text → Except Trouble (List Value × Text)
  | 0, t => .error (.noValue, t.length)
  | fuel + 1, t => do
    let (v, rest) ← value fuel t
    match skipBlank rest with
    | ']' :: rest => return ([v], rest)
    | ',' :: rest =>
      let (vs, rest) ← items fuel (skipBlank rest)
      return (v :: vs, rest)
    | rest => .error (.noComma, rest.length)

/-- The entries of a table up to its end. -/
def entries : Nat → Text → Except Trouble (List (Text × Value) × Text)
  | 0, t => .error (.noValue, t.length)
  | fuel + 1, t =>
    match t with
    | '"' :: rest => do
      let (name, rest) ← string rest
      match skipBlank rest with
      | ':' :: rest =>
        let (v, rest) ← value fuel (skipBlank rest)
        match skipBlank rest with
        | '\x7d' :: rest => return ([(name, v)], rest)
        | ',' :: rest =>
          let (es, rest) ← entries fuel (skipBlank rest)
          return ((name, v) :: es, rest)
        | rest => .error (.noComma, rest.length)
      | rest => .error (.noColon, rest.length)
    | t => .error (.noName, t.length)

end

/-- The only value of a text. -/
def whole (t : Text) : Except Trouble Value := do
  let (v, rest) ← value (2 * t.length + 2) (skipBlank t)
  match skipBlank rest with
  | [] => return v
  | rest => .error (.extraData, rest.length)

end Json

/-- The value that a JSON text stands for. -/
def Value.ofJson (t : Text) : Except JsonError Value :=
  if t.head? == some (Char.ofNat 0xFEFF) then .error (.at_ .byteOrderMark t 0)
  else
    match Json.whole t with
    | .ok v => .ok v
    | .error (problem, left) => .error (.at_ problem t (t.length - left))

end ComponentDivision
