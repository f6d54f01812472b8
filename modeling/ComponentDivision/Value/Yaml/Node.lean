/-
# Reading YAML: nodes

A YAML text holds one document, which is a tree of scalars, sequences and mappings.

* `Yaml.Node` : a tree;
* `Yaml.document?` : the tree of a text, if it holds one.
-/
import ComponentDivision.Value.Yaml.Token

namespace ComponentDivision.Yaml

/-- A tree of scalars. -/
inductive Node where
  | scalar (t : Text) (isPlain : Bool)
  | sequence (items : List Node)
  | mapping (entries : List (Node × Node))
  deriving Inhabited

namespace Node

/-- The scalar that stands where nothing is written. -/
def empty : Node :=
  scalar [] true

mutual

/-- The node at the front, and the tokens after it. Blocks are only read where `block`
says so, and a sequence without an indentation of its own where `loose` says so. The fuel
bounds the nesting and the number of entries together. -/
def read (block loose : Bool) : Nat → List Token → Except Problem (Node × List Token)
  | 0, _ => .error .unexpectedToken
  | fuel + 1, ts =>
    match ts with
    | .scalar t isPlain :: rest => .ok (scalar t isPlain, rest)
    | .flowSequence :: rest => do
      let (items, rest) ← flowItems true fuel rest
      return (sequence items, rest)
    | .flowMapping :: rest => do
      let (entries, rest) ← flowEntries true fuel rest
      return (mapping entries, rest)
    | .blockEntry :: rest =>
      if loose then do
        let (items, rest) ← looseItems fuel (.blockEntry :: rest)
        return (sequence items, rest)
      else .error .unexpectedToken
    | .blockSequence :: rest =>
      if block then do
        let (items, rest) ← blockItems fuel rest
        return (sequence items, rest)
      else .error .unexpectedToken
    | .blockMapping :: rest =>
      if block then do
        let (entries, rest) ← blockEntries fuel rest
        return (mapping entries, rest)
      else .error .unexpectedToken
    | _ => .error .unexpectedToken

/-- The node at the front, or the empty one before a token of `ends`. -/
def readUnless (ends : List Token) (block loose : Bool) :
    Nat → List Token → Except Problem (Node × List Token)
  | 0, _ => .error .unexpectedToken
  | fuel + 1, ts =>
    if ts.head?.any ends.contains then .ok (empty, ts) else read block loose fuel ts

/-- The items of a block up to its end. -/
def blockItems : Nat → List Token → Except Problem (List Node × List Token)
  | 0, _ => .error .unexpectedToken
  | fuel + 1, ts =>
    match ts with
    | .blockEntry :: rest => do
      let (item, rest) ← readUnless [.blockEntry, .blockEnd] true false fuel rest
      let (items, rest) ← blockItems fuel rest
      return (item :: items, rest)
    | .blockEnd :: rest => .ok ([], rest)
    | _ => .error .unexpectedToken

/-- The items of a sequence without an indentation of its own. -/
def looseItems : Nat → List Token → Except Problem (List Node × List Token)
  | 0, _ => .error .unexpectedToken
  | fuel + 1, ts =>
    match ts with
    | .blockEntry :: rest => do
      let (item, rest) ← readUnless [.blockEntry, .key, .value, .blockEnd] true false fuel rest
      let (items, rest) ← looseItems fuel rest
      return (item :: items, rest)
    | ts => .ok ([], ts)

/-- The value after a key of a block. -/
def blockValue : Nat → List Token → Except Problem (Node × List Token)
  | 0, _ => .error .unexpectedToken
  | fuel + 1, ts =>
    match ts with
    | .value :: rest => readUnless [.key, .value, .blockEnd] true true fuel rest
    | ts => .ok (empty, ts)

/-- The entries of a block up to its end. -/
def blockEntries : Nat → List Token → Except Problem (List (Node × Node) × List Token)
  | 0, _ => .error .unexpectedToken
  | fuel + 1, ts =>
    match ts with
    | .key :: rest => do
      let (name, rest) ← readUnless [.key, .value, .blockEnd] true true fuel rest
      let (v, rest) ← blockValue fuel rest
      let (entries, rest) ← blockEntries fuel rest
      return ((name, v) :: entries, rest)
    | .blockEnd :: rest => .ok ([], rest)
    | _ => .error .unexpectedToken

/-- The value after a key between brackets. -/
def flowValue (ends : List Token) : Nat → List Token → Except Problem (Node × List Token)
  | 0, _ => .error .unexpectedToken
  | fuel + 1, ts =>
    match ts with
    | .value :: rest => readUnless ends false false fuel rest
    | ts => .ok (empty, ts)

/-- The items between brackets; after the first one each follows a comma. A key makes an
item a mapping of one entry. -/
def flowItems (first : Bool) : Nat → List Token → Except Problem (List Node × List Token)
  | 0, _ => .error .unexpectedToken
  | fuel + 1, ts =>
    match ts, first with
    | .flowSequenceEnd :: rest, _ => .ok ([], rest)
    | .flowEntry :: rest, false => flowItem fuel rest
    | ts, true => flowItem fuel ts
    | _, false => .error .unexpectedToken

/-- An item between brackets and the ones after it. -/
def flowItem : Nat → List Token → Except Problem (List Node × List Token)
  | 0, _ => .error .unexpectedToken
  | fuel + 1, ts =>
    match ts with
    | .flowSequenceEnd :: rest => .ok ([], rest)
    | .key :: rest => do
      let (name, rest) ←
        readUnless [.value, .flowEntry, .flowSequenceEnd] false false fuel rest
      let (v, rest) ← flowValue [.flowEntry, .flowSequenceEnd] fuel rest
      let (items, rest) ← flowItems false fuel rest
      return (mapping [(name, v)] :: items, rest)
    | ts => do
      let (item, rest) ← read false false fuel ts
      let (items, rest) ← flowItems false fuel rest
      return (item :: items, rest)

/-- The entries between braces; after the first one each follows a comma. -/
def flowEntries (first : Bool) : Nat → List Token → Except Problem (List (Node × Node) × List Token)
  | 0, _ => .error .unexpectedToken
  | fuel + 1, ts =>
    match ts, first with
    | .flowMappingEnd :: rest, _ => .ok ([], rest)
    | .flowEntry :: rest, false => flowMember fuel rest
    | ts, true => flowMember fuel ts
    | _, false => .error .unexpectedToken

/-- An entry between braces and the ones after it; without a colon its value is empty. -/
def flowMember : Nat → List Token → Except Problem (List (Node × Node) × List Token)
  | 0, _ => .error .unexpectedToken
  | fuel + 1, ts =>
    match ts with
    | .flowMappingEnd :: rest => .ok ([], rest)
    | .key :: rest => do
      let (name, rest) ←
        readUnless [.value, .flowEntry, .flowMappingEnd] false false fuel rest
      let (v, rest) ← flowValue [.flowEntry, .flowMappingEnd] fuel rest
      let (entries, rest) ← flowEntries false fuel rest
      return ((name, v) :: entries, rest)
    | ts => do
      let (name, rest) ← read false false fuel ts
      let (entries, rest) ← flowEntries false fuel rest
      return ((name, empty) :: entries, rest)

end

end Node

/-- The node of a document, up to the tokens after it. -/
def documentNode (ts : List Token) : Except Problem (Node × List Token) :=
  match ts with
  | [] => .ok (.empty, [])
  | .documentStart :: _ => .ok (.empty, ts)
  | .documentEnd :: _ => .ok (.empty, ts)
  | ts => Node.read true false (4 * ts.length + 4) ts

/-- The tree of a text, if it holds a document. -/
def document? (t : Text) : Except Problem (Option Node) := do
  match ← tokens t with
  | [] => return none
  | ts =>
    let (node, rest) ←
      match ts with
      | .documentStart :: rest => documentNode rest
      | ts => Node.read true false (4 * ts.length + 4) ts
    if rest.all (· == .documentEnd) then return some node else .error .severalDocuments

end ComponentDivision.Yaml
