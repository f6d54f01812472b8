/-
# Character references

A value of an attribute may refer to characters by number or by name. The
references are replaced as the standard says: numbers of the old eight-bit code
page mean its characters, numbers that are no characters mean nothing or the
replacement character, and a name without a semicolon may be followed by more
letters. Decimal numbers are read up to a number of digits.

* `LongNumber` : a decimal number with too many digits;
* `unescape` : the text with its references replaced.
-/
import ComponentDivision.Text.Alphanumeric
import ComponentDivision.Text.Digit
import ComponentDivision.Text.Position
import ComponentDivision.Markup.EntityTable

namespace ComponentDivision.Markup

/-! ## Names -/

/-- A named character. -/
structure Entity where
  name : Text
  /-- Whether the semicolon may be left out. -/
  loose : Bool
  value : Text

/-- Reads an entry of the table. -/
def Entity.ofEntry (entry : Text) : Entity :=
  let name := entry.takeWhile Char.isAlphanum
  let rest := entry.drop name.length
  let number := fun t : Text => t.foldl (fun n c => 10 * n + (c.toNat - '0'.toNat)) 0
  ⟨name, rest.head? == some '~', (Text.splitOnChar '+' rest.tail).map (Char.ofNat ∘ number)⟩

/-- The named characters. -/
def entities : List Entity :=
  entityLines.flatMap fun line => (Text.splitOnChar ' ' line.toList).map Entity.ofEntry

/-- The characters that a reference, with its semicolon if it has one, stands for. -/
def named? (reference : Text) : Option Text :=
  let closed := reference.getLast? == some ';'
  let name := if closed then reference.dropLast else reference
  (entities.find? fun e => e.name == name && (closed || e.loose)).map (·.value)

/-- The longest beginning of a reference that is a name, of at most `n` characters
and at least two, with what follows it. -/
def longestNamed? (reference : Text) : Nat → Option Text
  | 0 => none
  | n + 1 =>
    if n = 0 then none
    else
      match named? (reference.take (n + 1)) with
      | some value => some (value ++ reference.drop (n + 1))
      | none => longestNamed? reference n

/-! ## Numbers -/

/-- A decimal number with so many digits that it is not read. -/
structure LongNumber where
  digits : Nat
  deriving DecidableEq, Repr

/-- How many digits a decimal number may have. -/
def digitLimit : Nat :=
  4300

/-- The wording of the error. -/
def LongNumber.message (e : LongNumber) : Text :=
  "Exceeds the limit (".toList ++ Text.decimal digitLimit
    ++ " digits) for integer string conversion: value has ".toList ++ Text.decimal e.digits
    ++ " digits; use sys.set_int_max_str_digits() to increase the limit".toList

/-- The number that hexadecimal or decimal digits stand for. -/
def readNumber (hex : Bool) (digits : Text) : Except LongNumber Nat :=
  if hex then .ok (numberOf 16 digits)
  else if digitLimit < digits.length then .error ⟨digits.length⟩
  else .ok (numberOf 10 digits)

/-- The numbers that do not stand for the character with that code point. -/
def renumbered : List (Nat × Nat) :=
  [(0, 65533), (13, 13), (128, 8364), (129, 129), (130, 8218), (131, 402), (132, 8222),
   (133, 8230), (134, 8224), (135, 8225), (136, 710), (137, 8240), (138, 352), (139, 8249),
   (140, 338), (141, 141), (142, 381), (143, 143), (144, 144), (145, 8216), (146, 8217),
   (147, 8220), (148, 8221), (149, 8226), (150, 8211), (151, 8212), (152, 732), (153, 8482),
   (154, 353), (155, 8250), (156, 339), (157, 157), (158, 382), (159, 376)]

/-- The numbers that stand for nothing. -/
def unassigned : List (Nat × Nat) :=
  [(1, 8), (11, 11), (14, 31), (127, 159), (64976, 65007), (65534, 65535), (131070, 131071),
   (196606, 196607), (262142, 262143), (327678, 327679), (393214, 393215), (458750, 458751),
   (524286, 524287), (589822, 589823), (655358, 655359), (720894, 720895), (786430, 786431),
   (851966, 851967), (917502, 917503), (983038, 983039), (1048574, 1048575), (1114110, 1114111)]

/-- The characters that a number stands for. -/
def numbered (n : Nat) : Text :=
  match renumbered.lookup n with
  | some m => [Char.ofNat m]
  | none =>
    if 0xD800 ≤ n && n ≤ 0xDFFF || 0x10FFFF < n then [Char.ofNat 0xFFFD]
    else if inRanges unassigned n then []
    else [Char.ofNat n]

/-! ## References -/

/-- A character that may stand in the name of a reference. -/
def isReferenceChar (c : Char) : Bool :=
  !"\t\n\x0c <&#;".toList.contains c

/-- The reference after an ampersand: the length of its text and what it stands
for. -/
def reference? (t : Text) : Except LongNumber (Option (Nat × Text)) :=
  match t with
  | '#' :: cs =>
    let hex := cs.head? == some 'x' || cs.head? == some 'X'
    let digits := if hex then cs.tail.takeWhile isHexDigit else cs.takeWhile Char.isDigit
    let lead := if hex then 2 else 1
    let semicolon := if (t.drop (lead + digits.length)).head? == some ';' then 1 else 0
    if digits.isEmpty then .ok none
    else
      (readNumber hex digits).map fun n => some (lead + digits.length + semicolon, numbered n)
  | _ =>
    let name := (t.take 32).takeWhile isReferenceChar
    let semicolon := if (t.drop name.length).head? == some ';' then 1 else 0
    let reference := t.take (name.length + semicolon)
    if name.isEmpty then .ok none
    else
      let value :=
        (named? reference <|> longestNamed? reference (reference.length - 1)).getD
          ('&' :: reference)
      .ok (some (reference.length, value))

/-- The text with its references replaced; `skip` characters belong to the last
one. -/
def unescapeFrom : Nat → Text → Except LongNumber Text
  | _, [] => .ok []
  | skip + 1, _ :: cs => unescapeFrom skip cs
  | 0, c :: cs =>
    if c = '&' then
      match reference? cs with
      | .error e => .error e
      | .ok (some (n, value)) => (unescapeFrom n cs).map (value ++ ·)
      | .ok none => (unescapeFrom 0 cs).map ('&' :: ·)
    else (unescapeFrom 0 cs).map (c :: ·)

/-- The text with its references replaced. -/
def unescape (t : Text) : Except LongNumber Text :=
  unescapeFrom 0 t

end ComponentDivision.Markup
