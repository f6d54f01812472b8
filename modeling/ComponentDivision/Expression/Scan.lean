/-
# Expression boundaries

Where an expression embedded in a template ends. The scan knows no grammar: it
goes from lexeme to lexeme far enough to balance the brackets and to pass over
literals and comments, and halts at a terminating character or a stop word that
stands outside every bracket.

* `scan` : the expression a text begins with; all offsets count from the
  beginning of that text, so that nothing before it matters;
* `readExpression` : the same from an offset of a source text.
-/
import ComponentDivision.Text.Blank
import ComponentDivision.Expression.Identifier
import ComponentDivision.Fault

namespace ComponentDivision

/-! ## Brackets -/

/-- An open bracket; a substitution is the opening of a template literal's
expression part. -/
inductive Bracket where
  | round
  | square
  | curly
  | substitution
  deriving DecidableEq, Repr

namespace Bracket

/-- The bracket that a character opens. -/
def ofOpener? : Char → Option Bracket
  | '(' => some round
  | '[' => some square
  | '{' => some curly
  | _ => none

/-- The character that closes a bracket. -/
def closer : Bracket → Char
  | round => ')'
  | square => ']'
  | curly => '}'
  | substitution => '}'

end Bracket

/-- A character that closes some bracket. -/
def isCloser (c : Char) : Bool :=
  c == ')' || c == ']' || c == '}'

/-! ## Literals and comments

Each length counts the characters after the one that begins the literal. -/

/-- The rest of a string literal, with its closing quote. A backslash hides the
character after it, and a line feed ends the line without ending the string. -/
def stringLength (quote : Char) : Text → Option Nat
  | [] => none
  | '\\' :: _ :: cs => (stringLength quote cs).map (· + 2)
  | c :: cs =>
    if c = quote then some 1
    else if c = '\n' then none
    else (stringLength quote cs).map (· + 1)

/-- The rest of a chunk of a template literal, and whether the literal ends
there; otherwise a substitution begins. -/
def chunkLength : Text → Option (Nat × Bool)
  | [] => none
  | '\\' :: _ :: cs => (chunkLength cs).map fun (n, closed) => (n + 2, closed)
  | '`' :: _ => some (1, true)
  | '$' :: '{' :: _ => some (2, false)
  | _ :: cs => (chunkLength cs).map fun (n, closed) => (n + 1, closed)

/-- The rest of a regular expression with its flags; inside a character class
a slash does not end it. -/
def regexLength (inClass : Bool) : Text → Option Nat
  | [] => none
  | '\\' :: _ :: cs => (regexLength inClass cs).map (· + 2)
  | '\n' :: _ => none
  | '[' :: cs => (regexLength true cs).map (· + 1)
  | ']' :: cs => (regexLength false cs).map (· + 1)
  | '/' :: cs =>
    if inClass then (regexLength inClass cs).map (· + 1) else some (1 + wordLength cs)
  | _ :: cs => (regexLength inClass cs).map (· + 1)

/-- What stands between two tokens. -/
inductive Gap where
  | blank
  /-- A comment, with its length after the slash. -/
  | comment (more : Nat)
  deriving DecidableEq, Repr

/-- The gap that begins with the character `c`, if one does. -/
def gap? (c : Char) (cs : Text) : Except Cause (Option Gap) :=
  if isBlank c then .ok (some .blank)
  else
    match c, cs with
    | '/', '/' :: line => .ok (some (.comment (1 + (Text.firstLine line).length)))
    | '/', '*' :: body =>
      match Text.find? "*/".toList body with
      | some n => .ok (some (.comment (n + 3)))
      | none => .error .unterminatedComment
    | _, _ => .ok none

/-! ## The state of a scan -/

/-- Where a scan stops. -/
structure ScanOptions where
  /-- Characters that end the expression outside brackets. -/
  terminators : Text := ['}']
  /-- Words that end the expression outside brackets, after a blank. -/
  stopWords : List Text := []
  /-- Whether there may be no expression at all. -/
  allowEmpty : Bool := false
  deriving Repr

/-- A delimited expression. -/
structure Scan where
  /-- The offset of the first character. -/
  start : Nat
  /-- The offset after the last character. -/
  stop : Nat
  /-- The offset at which the scan halted. -/
  next : Nat
  /-- The stop word it halted at, if it was one. -/
  stopWord : Option Text
  deriving DecidableEq, Repr

namespace Scan

/-- Whether there is no expression. -/
def empty (s : Scan) : Bool :=
  s.start == s.stop

/-- The same expression, `n` characters further. -/
def shift (n : Nat) (s : Scan) : Scan :=
  { s with start := s.start + n, stop := s.stop + n, next := s.next + n }

end Scan

/-- How far a scan has come. -/
structure ScanState where
  /-- The number of characters passed. -/
  offset : Nat := 0
  /-- The open brackets, innermost first. -/
  depth : List Bracket := []
  /-- Where the first token begins. -/
  start : Option Nat := none
  /-- Where the last token ends. -/
  stop : Nat := 0
  /-- Whether the last token ends a value, so that a slash divides. -/
  afterValue : Bool := false
  /-- Whether the last step passed a blank. -/
  afterBlank : Bool := false
  deriving Repr

/-- A token: its length after the first character and what it does to the state. -/
structure ScanToken where
  more : Nat
  depth : List Bracket
  afterValue : Bool
  deriving DecidableEq, Repr

namespace ScanState

/-- The state after a gap. -/
def pass (s : ScanState) : Gap → ScanState
  | .blank => { s with offset := s.offset + 1, afterBlank := true }
  | .comment more => { s with offset := s.offset + (more + 1), afterBlank := false }

/-- The state after a token. -/
def take (s : ScanState) (t : ScanToken) : ScanState where
  offset := s.offset + (t.more + 1)
  depth := t.depth
  start := some (s.start.getD s.offset)
  stop := s.offset + (t.more + 1)
  afterValue := t.afterValue
  afterBlank := false

end ScanState

/-! ## Tokens -/

/-- The words after which an operand follows, so that a slash begins a regular
expression. -/
def wordsBeforeOperand : List Text :=
  ["await", "case", "delete", "do", "else", "in", "instanceof", "new", "of", "return",
   "throw", "typeof", "void", "yield"].map String.toList

/-- A chunk of a template literal that follows one character, inside the
brackets `depth`. -/
def chunkToken (depth : List Bracket) (cs : Text) : Except Cause ScanToken :=
  match chunkLength cs with
  | none => .error .unterminatedTemplate
  | some (n, true) => .ok ⟨n, depth, true⟩
  | some (n, false) => .ok ⟨n, .substitution :: depth, false⟩

/-- The token that begins with the character `c`, which is neither blank nor
the beginning of a comment. A fault is placed so many characters after `c`. -/
def scanToken (s : ScanState) (c : Char) (cs : Text) : Except (Cause × Nat) ScanToken :=
  if isWordChar c then
    .ok ⟨wordLength cs, s.depth, !wordsBeforeOperand.contains (c :: cs.takeWhile isWordChar)⟩
  else if c == '\'' || c == '"' then
    match stringLength c cs with
    | none => .error (.unterminatedString, 0)
    | some n => .ok ⟨n, s.depth, true⟩
  else if c == '`' then
    (chunkToken s.depth cs).mapError fun cause => (cause, 1)
  else if c == '/' && !s.afterValue then
    match regexLength false cs with
    | none => .error (.unterminatedRegex, 0)
    | some n => .ok ⟨n, s.depth, true⟩
  else
    match Bracket.ofOpener? c with
    | some b => .ok ⟨0, b :: s.depth, false⟩
    | none =>
      if isCloser c then
        match s.depth with
        | [] => .error (.unexpectedToken, 0)
        | b :: depth =>
          if b.closer ≠ c then .error (.unexpectedToken, 0)
          else if b = .substitution then
            (chunkToken depth cs).mapError fun cause => (cause, 1)
          else .ok ⟨0, depth, true⟩
      else if (c == '+' || c == '-') && s.afterValue && cs.head? == some c then
        .ok ⟨1, s.depth, true⟩
      else .ok ⟨0, s.depth, false⟩

/-! ## The scan -/

/-- The result of a scan that halts in the state `s`. -/
def ScanState.halt (s : ScanState) (options : ScanOptions) (stopWord : Option Text) :
    Except Misread Scan :=
  match s.start with
  | some start => .ok ⟨start, s.stop, s.offset, stopWord⟩
  | none =>
    if options.allowEmpty then .ok ⟨s.offset, s.offset, s.offset, none⟩
    else .error ⟨.unexpectedToken, s.offset⟩

/-- The stop word that ends the expression before the character `c`. -/
def ScanState.stopWord? (s : ScanState) (options : ScanOptions) (c : Char) (cs : Text) :
    Option Text :=
  let word := c :: cs.takeWhile isWordChar
  if s.depth.isEmpty && s.start.isSome && s.afterBlank && isWordChar c
      && options.stopWords.contains word then
    some word
  else none

/-- Goes on from the state `s` with the rest of the text. -/
def scanFrom (options : ScanOptions) (s : ScanState) : Text → Except Misread Scan
  | [] => .error ⟨.unexpectedEnd, s.offset⟩
  | c :: cs =>
    match gap? c cs with
    | .error cause => .error ⟨cause, s.offset⟩
    | .ok (some .blank) => scanFrom options (s.pass .blank) cs
    | .ok (some (.comment more)) => scanFrom options (s.pass (.comment more)) (cs.drop more)
    | .ok none =>
      if s.depth.isEmpty && options.terminators.contains c then s.halt options none
      else
        match s.stopWord? options c cs with
        | some word => s.halt options (some word)
        | none =>
          match scanToken s c cs with
          | .error (cause, n) => .error ⟨cause, s.offset + n⟩
          | .ok t => scanFrom options (s.take t) (cs.drop t.more)
termination_by t => t.length
decreasing_by all_goals simp only [List.length_cons, List.length_drop]; omega

/-- The expression that a text begins with. -/
def scan (options : ScanOptions) (t : Text) : Except Misread Scan :=
  scanFrom options {} t

/-- The expression that begins at the offset `index` of `source`. Past the end
there is nothing to read, and that is reported at the end. -/
def readExpression (source : Text) (index : Nat) (options : ScanOptions) : Except Misread Scan :=
  let index := min index source.length
  match scan options (source.drop index) with
  | .error m => .error (m.shift index)
  | .ok s => .ok (s.shift index)

/-! ## Where a scan halts -/

theorem ScanState.halt_next {s : ScanState} {options : ScanOptions} {w : Option Text} {r : Scan}
    (h : s.halt options w = .ok r) : r.next = s.offset := by
  unfold halt at h
  split at h
  · cases h
    rfl
  · split at h
    · cases h
      rfl
    · cases h

/-- Where a scan halts there is still something left. -/
theorem scanFrom_next {options : ScanOptions} {s : ScanState} {t : Text} {r : Scan}
    (h : scanFrom options s t = .ok r) : s.offset ≤ r.next ∧ r.next < s.offset + t.length := by
  fun_induction scanFrom options s t with
  | case1 => cases h
  | case2 => cases h
  | case3 s c cs _ ih =>
    have := ih h
    simp only [ScanState.pass] at this
    simp only [List.length_cons]
    omega
  | case4 s c cs more _ ih =>
    have := ih h
    simp only [ScanState.pass, List.length_drop] at this
    simp only [List.length_cons]
    omega
  | case5 s c cs _ _ =>
    rw [ScanState.halt_next h]
    simp only [List.length_cons]
    omega
  | case6 s c cs _ _ w _ =>
    rw [ScanState.halt_next h]
    simp only [List.length_cons]
    omega
  | case7 => cases h
  | case8 s c cs _ _ _ t _ ih =>
    have := ih h
    simp only [ScanState.take, List.length_drop] at this
    simp only [List.length_cons]
    omega

end ComponentDivision
