/-
# Reading YAML: tokens

The tokens of a YAML text. Indentation opens and closes blocks, and a scalar turns
out to be a key only at the colon after it, so that the token for the key is put in
before it then.

* `Yaml.Token` : the tokens;
* `Yaml.tokens` : the tokens of a text.
-/
import ComponentDivision.Value.Yaml.Scalar

namespace ComponentDivision.Yaml

/-- A token. Of a scalar it matters whether it is plain. -/
inductive Token where
  | documentStart
  | documentEnd
  | blockSequence
  | blockMapping
  | blockEnd
  | flowSequence
  | flowSequenceEnd
  | flowMapping
  | flowMappingEnd
  | blockEntry
  | flowEntry
  | key
  | value
  | scalar (t : Text) (isPlain : Bool)
  deriving DecidableEq, Repr

/-- A token that may turn out to begin a key. -/
structure Candidate where
  /-- The number of tokens before it. -/
  before : Nat
  /-- Whether nothing but a key may stand there. -/
  required : Bool
  index : Nat
  line : Nat
  column : Nat

/-- The state of reading tokens. -/
structure Scanner where
  input : Input
  /-- The indentation of the innermost block, or -1. -/
  indent : Int := -1
  /-- The indentation of the blocks around it, innermost first. -/
  outer : List Int := []
  /-- The number of open brackets. -/
  depth : Nat := 0
  keyAllowed : Bool := true
  /-- The candidates for a key, by the number of brackets around them. -/
  candidates : List (Nat × Candidate) := []
  tokens : List Token := []

namespace Scanner

/-- Adds a token. -/
def emit (s : Scanner) (t : Token) : Scanner :=
  { s with tokens := s.tokens ++ [t] }

/-- Adds a token that is `n` characters long. -/
def take (s : Scanner) (t : Token) (n : Nat) : Scanner :=
  { s.emit t with input := s.input.advance n }

/-! ## Blank space -/

/-- Passes over spaces, comments and line ends. A key may begin after a line end
outside brackets. -/
def skipGap : Nat → Scanner → Scanner
  | 0, s => s
  | fuel + 1, s =>
    let i := s.input.skipWhile (· = ' ')
    let i := if i.peek == some '#' then i.skipWhile fun c => !isBreak c else i
    match i.lineBreak? with
    | some (_, j) =>
      skipGap fuel { s with input := j, keyAllowed := s.keyAllowed || s.depth == 0 }
    | none => { s with input := i }

/-! ## Candidates for keys -/

/-- Gives up the candidates that cannot be keys any more: a key stands on one line and
is not long. -/
def dropStale (s : Scanner) : Except Problem Scanner :=
  let stale := fun c : Candidate =>
    c.line != s.input.line || 1024 < s.input.index - c.index
  if s.candidates.any fun (_, c) => stale c && c.required then .error .missingColon
  else .ok { s with candidates := s.candidates.filter fun (_, c) => !stale c }

/-- Gives up the candidate between the innermost brackets. -/
def dropCandidate (s : Scanner) : Except Problem Scanner :=
  match s.candidates.lookup s.depth with
  | none => .ok s
  | some c =>
    if c.required then .error .missingColon
    else .ok { s with candidates := s.candidates.filter fun (d, _) => d != s.depth }

/-- Notes that the next token may begin a key. -/
def addCandidate (s : Scanner) : Except Problem Scanner :=
  if !s.keyAllowed then .ok s
  else do
    let s ← s.dropCandidate
    let c : Candidate :=
      { before := s.tokens.length, required := s.depth == 0 && s.indent == s.input.column
        index := s.input.index, line := s.input.line, column := s.input.column }
    return { s with candidates := (s.depth, c) :: s.candidates }

/-! ## Blocks -/

/-- Closes the blocks that are indented further than a column. -/
def closeBlocks (column : Int) : List Int → Scanner → Scanner
  | [], s => s
  | outer :: rest, s =>
    if column < s.indent then
      closeBlocks column rest ({ s with indent := outer, outer := rest }.emit .blockEnd)
    else s

/-- Closes the blocks that end before a column; brackets ignore indentation. -/
def unwind (s : Scanner) (column : Int) : Scanner :=
  if s.depth = 0 then closeBlocks column s.outer s else s

/-- Opens a block at a column unless one is open there: the token goes before the
token number `before`. -/
def openBlock (s : Scanner) (column : Nat) (t : Token) (before : Nat) : Scanner :=
  if s.depth = 0 && s.indent < column then
    { s with
      indent := column
      outer := s.indent :: s.outer
      tokens := s.tokens.take before ++ t :: s.tokens.drop before }
  else s

/-! ## Tokens -/

/-- The end of the text. -/
def finish (s : Scanner) : Except Problem (List Token) := do
  let s ← (s.unwind (-1)).dropCandidate
  return s.tokens

/-- A mark between documents. -/
def separator (s : Scanner) (t : Token) : Except Problem Scanner := do
  let s ← (s.unwind (-1)).dropCandidate
  return { s with keyAllowed := false }.take t 3

/-- An opening bracket, which may begin a key. -/
def openBracket (s : Scanner) (t : Token) : Except Problem Scanner := do
  let s ← s.addCandidate
  return { s with depth := s.depth + 1, keyAllowed := true }.take t 1

/-- A closing bracket. -/
def closeBracket (s : Scanner) (t : Token) : Except Problem Scanner := do
  let s ← s.dropCandidate
  return { s with depth := s.depth - 1, keyAllowed := false }.take t 1

/-- A comma. -/
def comma (s : Scanner) : Except Problem Scanner := do
  let s ← s.dropCandidate
  return { s with keyAllowed := true }.take .flowEntry 1

/-- The sign of an item or of a key, which may open a block. -/
def entrySign (s : Scanner) (block t : Token) (keyAllowed : Bool) : Except Problem Scanner := do
  if s.depth = 0 && !s.keyAllowed then .error .misplacedEntry
  let s := s.openBlock s.input.column block s.tokens.length
  let s ← s.dropCandidate
  return { s with keyAllowed }.take t 1

/-- A colon: the candidate before it is a key. -/
def colon (s : Scanner) : Except Problem Scanner :=
  match s.candidates.lookup s.depth with
  | none => s.entrySign .blockMapping .value (s.depth == 0)
  | some c =>
    let s := { s with
      candidates := s.candidates.filter fun (d, _) => d != s.depth
      tokens := s.tokens.take c.before ++ Token.key :: s.tokens.drop c.before
      keyAllowed := false }
    .ok ((s.openBlock c.column .blockMapping c.before).take .value 1)

/-- A quoted scalar. -/
def quoted (s : Scanner) (quote : Char) : Except Problem Scanner := do
  let s ← s.addCandidate
  let (t, input) ← s.input.quoted quote
  return { s with keyAllowed := false, input }.emit (.scalar t false)

/-- A plain scalar. A key may follow if a line ended after it. -/
def plain (s : Scanner) : Except Problem Scanner := do
  let s ← s.addCandidate
  let (t, input, ended) := s.input.plain (s.depth != 0) s.indent
  return { s with keyAllowed := ended, input }.emit (.scalar t true)

/-- A block of lines. -/
def block (s : Scanner) (folded : Bool) : Except Problem Scanner := do
  let s ← s.dropCandidate
  let (t, input) ← s.input.block folded s.indent
  return { s with keyAllowed := true, input }.emit (.scalar t false)

/-- The characters that do not begin a plain scalar. -/
def indicators : Text :=
  "-?:,[]\x7b\x7d#&*!|>'\"%@`".toList

/-- The next token, which begins with `c`. -/
def token (s : Scanner) (c : Char) : Except Problem Scanner :=
  let separated := endsWord (s.input.peekAt 1)
  let inFlow := s.depth != 0
  let atLineStart := s.input.column == 0
  if c = '%' && atLineStart then .error .unsupported
  else if atLineStart && s.input.atMark "---" then s.separator .documentStart
  else if atLineStart && s.input.atMark "..." then s.separator .documentEnd
  else if c = '[' then s.openBracket .flowSequence
  else if c = '\x7b' then s.openBracket .flowMapping
  else if c = ']' then s.closeBracket .flowSequenceEnd
  else if c = '\x7d' then s.closeBracket .flowMappingEnd
  else if c = ',' then s.comma
  else if c = '-' && separated then s.entrySign .blockSequence .blockEntry true
  else if c = '?' && (inFlow || separated) then s.entrySign .blockMapping .key (!inFlow)
  else if c = ':' && (inFlow || separated) then s.colon
  else if c = '*' || c = '&' || c = '!' then .error .unsupported
  else if c = '|' && !inFlow then s.block false
  else if c = '>' && !inFlow then s.block true
  else if c = '\'' || c = '"' then s.quoted c
  else if !(endsWord (some c) || indicators.contains c)
      || !separated && (c = '-' || !inFlow && (c = '?' || c = ':')) then s.plain
  else .error .misplacedCharacter

/-- The tokens from here on. -/
def run : Nat → Scanner → Except Problem (List Token)
  | 0, s => s.finish
  | fuel + 1, s => do
    let s ← (skipGap s.input.fuel s).dropStale
    let s := s.unwind s.input.column
    match s.input.peek with
    | none => s.finish
    | some c => run fuel (← s.token c)

end Scanner

/-- The tokens of a text. A byte order mark at its front is passed over. -/
def tokens (t : Text) : Except Problem (List Token) :=
  if !t.all isPrintable then .error .unprintable
  else
    let input : Input := { rest := t }
    let input := if t.head? == some (Char.ofNat 0xFEFF) then input.next else input
    Scanner.run input.fuel { input }

end ComponentDivision.Yaml
