/-
# UTF-8

Writing a text as bytes and reading it back. A text is read strictly or
leniently: bytes that are not the encoding of a character are refused, with the
place and the reason, or they are left out.

* `encode` : the bytes that encode a text;
* `decode` : the text that bytes encode;
* `decodeLeniently` : the characters whose encodings are among bytes.
-/
import ComponentDivision.Text.Position

namespace ComponentDivision

/-- The bytes that encode a text. -/
def encode (t : Text) : List UInt8 :=
  t.flatMap String.utf8EncodeChar

/-! ## Reading bytes -/

/-- Why bytes are not the encoding of a character. -/
inductive DecodeReason where
  | invalidStart
  | invalidContinuation
  | unexpectedEnd
  deriving DecidableEq, Repr

/-- Bytes that are not the encoding of a character: the first of them, where they
begin, and how many of them are at fault. -/
structure DecodeError where
  reason : DecodeReason
  byte : UInt8
  position : Nat
  length : Nat
  deriving DecidableEq, Repr

/-- The wording of a reason. -/
def DecodeReason.message : DecodeReason → String
  | .invalidStart => "invalid start byte"
  | .invalidContinuation => "invalid continuation byte"
  | .unexpectedEnd => "unexpected end of data"

/-- A byte as two hexadecimal digits. -/
def hexByte (b : UInt8) : Text :=
  [Nat.digitChar (b.toNat / 16), Nat.digitChar (b.toNat % 16)]

/-- The wording of a decoding error. -/
def DecodeError.message (e : DecodeError) : Text :=
  let place :=
    if e.length = 1 then
      "byte 0x".toList ++ hexByte e.byte ++ " in position ".toList ++ Text.decimal e.position
    else
      "bytes in position ".toList ++ Text.decimal e.position ++ '-'
        :: Text.decimal (e.position + e.length - 1)
  "'utf-8' codec can't decode ".toList ++ place ++ ": ".toList ++ e.reason.message.toList

/-- A byte that continues a character. -/
def isContinuation (b : UInt8) : Bool :=
  0x80 ≤ b && b < 0xC0

/-- Whether `second` may follow the first byte `lead`: encodings are as short as
possible and stay inside the code space, surrogates left out. -/
def mayFollow (lead second : UInt8) : Bool :=
  isContinuation second && !(lead == 0xE0 && second < 0xA0) && !(lead == 0xED && 0xA0 ≤ second)
    && !(lead == 0xF0 && second < 0x90) && !(lead == 0xF4 && 0x90 ≤ second)

/-- The number of bytes of a character by its first byte. -/
def encodedLength? (lead : UInt8) : Option Nat :=
  if lead < 0x80 then some 1
  else if lead < 0xC2 then none
  else if lead < 0xE0 then some 2
  else if lead < 0xF0 then some 3
  else if lead < 0xF5 then some 4
  else none

/-- The bits of a character that its first byte holds. -/
def leadBits (lead : UInt8) (length : Nat) : Nat :=
  match length with
  | 1 => lead.toNat
  | 2 => lead.toNat % 0x20
  | 3 => lead.toNat % 0x10
  | _ => lead.toNat % 0x08

/-- Reads the bytes after the first of a character: `read` are already read, `need`
are to come. Gives the code point, or the reason and the number of bytes at fault. -/
def continuation (lead : UInt8) (read : Nat) (acc : Nat) :
    Nat → List UInt8 → Except (DecodeReason × Nat) Nat
  | 0, _ => .ok acc
  | _ + 1, [] => .error (.unexpectedEnd, read)
  | need + 1, b :: bs =>
    if if read = 1 then mayFollow lead b else isContinuation b then
      continuation lead (read + 1) (acc * 0x40 + b.toNat % 0x40) need bs
    else .error (.invalidContinuation, read)

/-- The text that bytes encode, from the byte at `position` on. -/
def decodeFrom (position : Nat) : List UInt8 → Except DecodeError Text
  | [] => .ok []
  | b :: bs =>
    match encodedLength? b with
    | none => .error ⟨.invalidStart, b, position, 1⟩
    | some n =>
      match continuation b 1 (leadBits b n) (n - 1) bs with
      | .error (reason, length) => .error ⟨reason, b, position, length⟩
      | .ok code => do
        let rest ← decodeFrom (position + 1 + (n - 1)) (bs.drop (n - 1))
        return Char.ofNat code :: rest
termination_by bs => bs.length
decreasing_by simp only [List.length_cons, List.length_drop]; omega

/-- The text that bytes encode. -/
def decode (bytes : List UInt8) : Except DecodeError Text :=
  decodeFrom 0 bytes

/-- The text that bytes encode, without the bytes that are not the encoding of a
character. -/
def decodeLeniently : List UInt8 → Text
  | [] => []
  | b :: bs =>
    match encodedLength? b with
    | none => decodeLeniently bs
    | some n =>
      match continuation b 1 (leadBits b n) (n - 1) bs with
      | .error (_, length) => decodeLeniently (bs.drop (length - 1))
      | .ok code => Char.ofNat code :: decodeLeniently (bs.drop (n - 1))
termination_by bs => bs.length
decreasing_by all_goals simp only [List.length_cons, List.length_drop]; omega

/-- A text with every line end as a line feed. -/
def unifyNewlines : Text → Text
  | [] => []
  | '\r' :: '\n' :: cs => '\n' :: unifyNewlines cs
  | '\r' :: cs => '\n' :: unifyNewlines cs
  | c :: cs => c :: unifyNewlines cs

end ComponentDivision
