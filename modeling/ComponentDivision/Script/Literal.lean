/-
# Literals of scripts

How long the literals are that a text begins with: numbers, strings, the text of
templates and what follows the first slash of a regular expression.

* `numberLength`, `stringLength`, `templateTextLength`, `patternRestLength`;
* `attributeStringLength`, `referenceLength`, `markupTextLength` : the same for
  markup embedded in scripts.
-/
import ComponentDivision.Script.Word

namespace ComponentDivision.Script

/-! ## Numbers -/

/-- The length of digits with single underscores between them. -/
def digitsLength (digit : Char → Bool) : Text → Nat
  | [] => 0
  | c :: '_' :: d :: ds =>
    if digit c then
      if digit d then 2 + digitsLength digit (d :: ds) else 1
    else 0
  | c :: cs => if digit c then 1 + digitsLength digit cs else 0

/-- The length of an exponent, nothing if there is none. -/
def exponentLength : Text → Nat
  | e :: cs =>
    if e == 'e' || e == 'E' then
      let sign := if cs.head? == some '-' || cs.head? == some '+' then 1 else 0
      let n := digitsLength Char.isDigit (cs.drop sign)
      if n = 0 then 0 else 1 + sign + n
    else 0
  | [] => 0

/-- The length of a number in another base, with the mark of a big integer. -/
def radixLength (digit : Char → Bool) (cs : Text) : Option Nat :=
  match digitsLength digit cs with
  | 0 => none
  | n => some (2 + n + if (cs.drop n).head? == some 'n' then 1 else 0)

/-- Whether the digits may be followed by a fraction or an exponent: a leading
zero stands alone or before a digit that is not zero. -/
def isPlainInteger : Text → Bool
  | ['0'] => true
  | '0' :: c :: _ => c.isDigit && c != '0'
  | _ => true

/-- The length of a number in base ten. -/
def decimalLength (t : Text) : Option Nat :=
  let whole := digitsLength Char.isDigit t
  let rest := t.drop whole
  if whole = 0 then
    match rest with
    | '.' :: cs =>
      match digitsLength Char.isDigit cs with
      | 0 => none
      | n => some (1 + n + exponentLength (cs.drop n))
    | _ => none
  else if rest.head? == some 'n' then some (whole + 1)
  else if isPlainInteger (t.take whole) then
    match rest with
    | '.' :: cs =>
      let n := digitsLength Char.isDigit cs
      some (whole + 1 + n + exponentLength (cs.drop n))
    | _ => some (whole + exponentLength rest)
  else some whole

/-- The length of a number. -/
def numberLength (t : Text) : Option Nat :=
  let based :=
    match t with
    | '0' :: b :: cs =>
      if b == 'x' || b == 'X' then radixLength isHexDigit cs
      else if b == 'b' || b == 'B' then radixLength (fun c => c == '0' || c == '1') cs
      else if b == 'o' || b == 'O' then radixLength (fun c => '0' ≤ c && c ≤ '7') cs
      else none
    | _ => none
  based <|> decimalLength t

/-! ## Strings and templates -/

/-- The length of an escape sequence, after the backslash. -/
def escapeLength : Text → Option Nat
  | [] => none
  | 'x' :: cs => if ((cs.take 2).takeWhile isHexDigit).length = 2 then some 3 else none
  | 'u' :: cs => codePointLength ('u' :: cs)
  | c :: cs =>
    if '0' ≤ c && c ≤ '7' then
      some (1 + ((cs.take 2).takeWhile fun d => '0' ≤ d && d ≤ '7').length)
    else if (c == '\r' || c == '?') && (cs.head?.map isBreak).getD false then some 2
    else some 1

/-- The rest of a string literal after its opening quote. A line does not end
inside it, except that blanks and comments may stand after the end of the line,
before the closing quote. -/
def quotedLength (quote : Char) (t : Text) : Option Nat :=
  go t.length t
where
  go : Nat → Text → Option Nat
    | 0, _ => none
    | _, [] => none
    | fuel + 1, '\\' :: cs =>
      match escapeLength cs with
      | some n => (go fuel (cs.drop n)).map (· + (n + 1))
      | none => none
    | fuel + 1, c :: cs =>
      if c = quote then some 1
      else if c = '\n' || c = '\r' then
        let rest := skipSpace cs
        let passed := cs.length - rest.length + 1
        if rest.head? == some quote then some (passed + 1)
        else
          match commentLength? rest with
          | some n => (go fuel (rest.drop n)).map (· + (passed + n))
          | none => none
      else (go fuel cs).map (· + 1)

/-- The length of a string literal. -/
def stringLength : Text → Option Nat
  | '"' :: cs => (quotedLength '"' cs).map (· + 1)
  | '\'' :: cs => (quotedLength '\'' cs).map (· + 1)
  | _ => none

/-- The length of the text of a template up to its end or a substitution. -/
def templateTextLength : Text → Option Nat
  | [] => none
  | '\\' :: cs =>
    match escapeLength cs with
    | some n => (templateTextLength (cs.drop n)).map (· + (n + 1))
    | none => none
  | '`' :: _ => some 0
  | '$' :: '{' :: _ => some 0
  | _ :: cs => (templateTextLength cs).map (· + 1)
termination_by t => t.length
decreasing_by all_goals simp only [List.length_cons, List.length_drop]; omega

/-! ## Regular expressions -/

/-- The body of a regular expression with its closing slash and its flags. -/
def patternLength (inClass : Bool) : Text → Option Nat
  | [] => none
  | '\n' :: _ => none
  | '\\' :: c :: cs => if c = '\n' then none else (patternLength inClass cs).map (· + 2)
  | '\\' :: [] => none
  | '[' :: cs => (patternLength true cs).map (· + 1)
  | ']' :: cs => (patternLength false cs).map (· + 1)
  | '/' :: cs =>
    if inClass then (patternLength inClass cs).map (· + 1)
    else some (1 + (cs.takeWhile fun d => 'a' ≤ d && d ≤ 'z').length)
  | _ :: cs => (patternLength inClass cs).map (· + 1)

/-- What follows the opening slash of a regular expression. The body is not
empty; comments may stand before it. -/
def patternRestLength (t : Text) : Option Nat :=
  go t.length t
where
  go : Nat → Text → Option Nat
    | 0, _ => none
    | fuel + 1, t =>
      let rest := skipSpace t
      match commentLength? rest with
      | some n => (go fuel (rest.drop n)).map (· + (t.length - rest.length + n))
      | none => if t.head? == some '/' then none else patternLength false t

/-! ## Embedded markup -/

/-- A character of the text between the tags of embedded markup. -/
def isMarkupText (c : Char) : Bool :=
  c.toNat != 0 && c != '<' && c != '>' && c != '{' && c != '}' && c != '&'

/-- The length of a run of text between tags. -/
def markupTextLength (t : Text) : Option Nat :=
  let run := t.takeWhile isMarkupText
  if run.all isLayout then none else some run.length

/-- The length of a character reference. -/
def referenceLength : Text → Option Nat
  | '&' :: '#' :: cs =>
    let hex := cs.head? == some 'x' || cs.head? == some 'X'
    let digits := if hex then cs.tail.takeWhile isHexDigit else cs.takeWhile Char.isDigit
    let lead := if hex then 3 else 2
    if 0 < digits.length && digits.length ≤ (if hex then 6 else 5)
        && (('&' :: '#' :: cs).drop (lead + digits.length)).head? == some ';' then
      some (lead + digits.length + 1)
    else none
  | '&' :: cs =>
    let n := (cs.takeWhile Char.isAlpha).length
    if 0 < n && n ≤ 30 && (cs.drop n).head? == some ';' then some (n + 2) else none
  | _ => none

/-- The length of a name with hyphens. -/
def hyphenatedLength (t : Text) : Option Nat :=
  let isPart := fun c : Char => c.isAlphanum || c == '_' || c == '$'
  match t with
  | [] => none
  | c :: _ =>
    let word := (t.takeWhile isPart).length
    if (c.isAlpha || c == '_' || c == '$') && (t.drop word).head? == some '-' then
      some (t.takeWhile fun d => isPart d || d == '-').length
    else none

/-- The length of a run of characters in an attribute string. An ampersand takes
the next character with it, if no reference can begin there. -/
def attributeRun (quote : Char) : Text → Nat
  | [] => 0
  | ['&'] => 0
  | '&' :: c :: cs => if c == '#' || c.isAlpha then 0 else 2 + attributeRun quote cs
  | c :: cs => if c = quote then 0 else 1 + attributeRun quote cs

/-- The rest of an attribute string after its opening quote. It may span lines,
knows references but no escapes, and a markup comment may begin where a run of
characters does. -/
def attributeRest (quote : Char) (t : Text) : Option Nat :=
  go t.length t
where
  go : Nat → Text → Option Nat
    | 0, _ => none
    | fuel + 1, t =>
      match skipMarkupComment? t with
      | some rest => (go fuel rest).map (· + (t.length - rest.length))
      | none =>
        match attributeRun quote t, referenceLength t with
        | 0, some n => (go fuel (t.drop n)).map (· + n)
        | 0, none => if t.head? == some quote then some 1 else none
        | n + 1, _ => (go fuel (t.drop (n + 1))).map (· + (n + 1))

/-- The length of an attribute string. -/
def attributeStringLength : Text → Option Nat
  | '"' :: cs => (attributeRest '"' cs).map (· + 1)
  | '\'' :: cs => (attributeRest '\'' cs).map (· + 1)
  | _ => none

end ComponentDivision.Script
