/-
# Tokens of lenient markup

Markup is read as a row of start tags, end tags and raw text; comments,
declarations, character references and plain text are passed over. The content of
a script or a style block is raw text, up to its own end tag.

The text is read in two runs. The first one stops where something is not
complete, and the second one goes on from there and takes what is not complete for
plain text.

* `Token` : tags and raw text;
* `Rejection` : why a text cannot be read;
* `tokens` : the tokens of a text with their offsets.
-/
import ComponentDivision.Markup.Pattern
import ComponentDivision.Markup.StartTag

namespace ComponentDivision.Markup

/-- A piece of markup that matters for the elements. -/
inductive Token where
  | startTag (name : Text) (attributes : List Attribute) (selfClosed : Bool)
  | endTag (name : Text)
  | raw (content : Text)
  deriving DecidableEq, Repr

/-- Why markup cannot be read. -/
inductive Rejection where
  /-- It has a section of an unknown kind. -/
  | unknownSection
  /-- It refers to a character by a number with too many digits. -/
  | longNumber (e : LongNumber)
  deriving DecidableEq, Repr

/-- What reading at one place comes to. -/
inductive Step where
  /-- So many characters are taken, and may be a token. -/
  | take (token : Option Token) (length : Nat)
  /-- The run stops after so many characters. -/
  | halt (length : Nat)
  /-- The markup cannot be read. -/
  | reject (r : Rejection)
  deriving DecidableEq, Repr

/-! ## Brackets -/

/-- Something that is not complete: it stops the first run, and in the last run it
is plain text up to the end of a tag, or up to the next one. -/
def incomplete (last : Bool) (t : Text) : Step :=
  if last then
    .take none (((through? '>' t.tail).map (· + 1) <|> through? '<' t.tail).getD 1)
  else .halt 0

/-- Passes over `length` characters, if that is known. -/
def passOver (last : Bool) (t : Text) : Option Nat → Step
  | some length => .take none length
  | none => incomplete last t

/-- Passes over `length` characters, unless a number in them is too long. -/
def passRead {α : Type} (length : Nat) : Except LongNumber α → Step
  | .ok _ => .take none length
  | .error e => .reject (.longNumber e)

/-- A character of the name in a well-formed end tag. -/
def isEndTagChar (c : Char) : Bool :=
  c.isAlphanum || c = '-' || c = '.' || c = ':' || c = '_'

/-- The name in a well-formed end tag, given what follows its opening mark. -/
def endTagName? (t : Text) : Option Text :=
  let body := t.dropWhile isBlank
  let name := body.takeWhile isEndTagChar
  match name, (body.drop name.length).dropWhile isBlank with
  | c :: _, '>' :: _ => if c.isAlpha then some (lowercase name) else none
  | _, _ => none

/-- An end tag goes on to the first closing bracket; one without a name is passed
over. -/
def endTagStep (last : Bool) (t : Text) : Step :=
  match through? '>' t with
  | none => incomplete last t
  | some length =>
    let body := t.drop 2
    match endTagName? body, body with
    | some name, _ => .take (some (.endTag name)) length
    | none, c :: _ =>
      .take (if c.isAlpha then some (.endTag (lowercase (tagName body))) else none) length
    | none, [] => incomplete last t

/-- The sections that end at two closing brackets. -/
def doubleClosed : List Text :=
  ["temp", "cdata", "ignore", "include", "rcdata"].map String.toList

/-- The sections that end at one closing bracket. -/
def singleClosed : List Text :=
  ["if", "else", "endif"].map String.toList

/-- A section, which has to be of a known kind. -/
def sectionStep (last : Bool) (t : Text) : Step :=
  let body := t.drop 3
  let name := body.takeWhile fun c => c.isAlphanum || c = '-' || c = '_' || c = '.'
  let kind := lowercase name
  match body with
  | [] => incomplete last t
  | c :: _ =>
    if !c.isAlpha then .reject .unknownSection
    else if ((body.drop name.length).dropWhile isBlank).isEmpty then incomplete last t
    else if doubleClosed.contains kind then
      passOver last t ((throughMark? [[']'], [']'], ['>']] body).map (· + 3))
    else if singleClosed.contains kind then
      passOver last t ((throughMark? [[']'], ['>']] body).map (· + 3))
    else .reject .unknownSection

/-- A start tag, which may turn out to be plain text. Its values are read in any case. -/
def startTagStep (last : Bool) (t : Text) : Step :=
  match StartTag.read t with
  | .tag name attributes selfClosed length =>
    match unescapeAll attributes with
    | .ok attributes => .take (some (.startTag name attributes selfClosed)) length
    | .error e => .reject (.longNumber e)
  | .text attributes length => passRead length (unescapeAll attributes)
  | .incomplete => incomplete last t

/-- What stands at an opening bracket. -/
def bracketStep (last : Bool) (t : Text) : Step :=
  match t.tail with
  | [] => .halt 0
  | '/' :: _ => endTagStep last t
  | '?' :: body => passOver last t ((through? '>' body).map (· + 2))
  | '!' :: '-' :: '-' :: body =>
    passOver last t ((throughMark? [['-', '-'], ['>']] body).map (· + 4))
  | '!' :: '[' :: _ => sectionStep last t
  | '!' :: body => passOver last t ((through? '>' body).map (· + 2))
  | c :: _ => if c.isAlpha then startTagStep last t else .take none 1

/-! ## References -/

/-- What stands at an ampersand. A reference by number that is not well formed stops
the run, and so does a name that the text ends in. -/
def referenceStep (t : Text) : Step :=
  match t.tail with
  | [] => .halt 0
  | '#' :: body =>
    let hex := body.head? == some 'x' || body.head? == some 'X'
    let digits := if hex then body.tail.takeWhile isHexDigit else body.takeWhile Char.isDigit
    let length := (if hex then 3 else 2) + digits.length
    let malformed := Step.halt (if t.contains ';' then 2 else 0)
    match t.drop length with
    | [] => malformed
    | c :: _ =>
      if digits.isEmpty || isHexDigit c then malformed
      else passRead (if c = ';' then length + 1 else length) (readNumber hex digits)
  | c :: body =>
    if !c.isAlpha then .take none 1
    else
      let name := c :: body.takeWhile fun d => d.isAlphanum || d = '-' || d = '.'
      if (t.drop (name.length + 1)).isEmpty then .halt 0 else .take none (name.length + 1)

/-! ## Raw text -/

/-- The elements whose content is raw text. -/
def holdsRawText (name : Text) : Bool :=
  name == "script".toList || name == "style".toList

/-- Raw text goes on to the end tag of its element. An end tag that is the right one
only up to letter case beyond ASCII is raw text too. -/
def rawStep (name t : Text) : Step :=
  match firstMark? [['<', '/'], name, ['>']] t with
  | none => .halt 0
  | some (0, length) =>
    .take (some (if endTagName? (t.drop 2) == some name then .endTag name
      else .raw (t.take length))) length
  | some (length, _) => .take (some (.raw (t.take length))) length

/-! ## Runs -/

/-- The mode after a token: the element whose raw text is read, if any. -/
def modeAfter (mode : Option Text) : Option Token → Option Text
  | some (.startTag name _ selfClosed) =>
    if !selfClosed && holdsRawText name then some name else none
  | some (.endTag _) => none
  | _ => mode

/-- What stands at the front of a text that is not empty. -/
def step (last : Bool) (mode : Option Text) (t : Text) : Step :=
  match mode, t.head? with
  | some name, _ => rawStep name t
  | none, some '<' => bracketStep last t
  | none, some '&' => referenceStep t
  | none, _ => .take none 1

/-- What a run has read, and what it has left. -/
structure Run where
  tokens : List (Nat × Token) := []
  mode : Option Text
  offset : Nat
  rest : Text

/-- A run with one more token at its front. -/
def Run.cons (r : Run) (offset : Nat) : Option Token → Run
  | some token => { r with tokens := (offset, token) :: r.tokens }
  | none => r

/-- Reads from the offset on; the first `skip` characters belong to what was read
last. -/
def run (last : Bool) : Option Text → Nat → Nat → Text → Except Rejection Run
  | mode, _, offset, [] => .ok { mode, offset, rest := [] }
  | mode, skip + 1, offset, _ :: cs => run last mode skip (offset + 1) cs
  | mode, 0, offset, c :: cs =>
    match step last mode (c :: cs) with
    | .take token length =>
      (run last (modeAfter mode token) (length - 1) (offset + 1) cs).map
        (·.cons offset token)
    | .halt length => .ok { mode, offset := offset + length, rest := (c :: cs).drop length }
    | .reject r => .error r

/-- The tokens of a text with their offsets. -/
def tokens (t : Text) : Except Rejection (List (Nat × Token)) := do
  let first ← run false none 0 0 t
  let second ← run true first.mode 0 first.offset first.rest
  return first.tokens ++ second.tokens

end ComponentDivision.Markup
