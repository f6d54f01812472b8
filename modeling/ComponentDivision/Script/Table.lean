/-
# Tables of a grammar

A rule with a mark in it says how much of it has been read. The marked rules of a
grammar are numbered so that moving the mark over a symbol adds one; the symbols
are numbered too, first the categories and then the lexical classes. A set of
lexical classes is a natural number with one bit for each.

* `Table.ofRules` : the tables of a list of rules;
* `Table.first` : the classes that a symbol can begin with;
* `Table.openings` : the marked rules that a symbol moves on to, where some
  category is expected.
-/
import ComponentDivision.Script.Preference

namespace ComponentDivision.Script

/-- A rule that begins with some symbol, after that symbol, and what may follow it
where a category is expected. -/
structure Opening where
  /-- The marked rule. -/
  mark : Nat
  /-- The classes that follow the rule whatever follows the category. -/
  follow : Nat
  /-- Whether what follows the category follows the rule too. -/
  inherits : Bool
  deriving Inhabited, Repr

/-- The tables that reading needs. -/
structure Table where
  /-- The lexical classes in use. -/
  lexemes : Array Lexeme
  rules : Array Rule
  /-- The rule of each marked rule. -/
  owner : Array Nat
  /-- The symbol after each mark. -/
  next : Array (Option Nat)
  /-- For each symbol, the classes it can begin with. -/
  first : Array Nat
  /-- For each category and each symbol, the rules that begin with the symbol where
  the category is expected, in increasing order. -/
  openings : Array (Array (List Opening))

namespace Table

/-! ## Numbering -/

/-- The classes that are looked for in a way of their own come first. -/
def specialLexemes : List Lexeme :=
  [.statementEnd, .question, .templateText, .markupText, .patternRest, .identifier, .name,
   .mark "||".toList]

/-- The lexical classes of some rules. -/
def lexemesOf (rules : List Rule) : List Lexeme :=
  (specialLexemes ++ rules.flatMap fun r =>
    r.parts.filterMap fun s =>
      match s with
      | .lexeme l => some l
      | .category _ => none).eraseDups

/-- The number of a symbol. -/
def symbolNumber (lexemes : List Lexeme) : Symbol → Nat
  | .category c => c.ctorIdx
  | .lexeme l => Category.count + lexemes.idxOf l

/-- Rules as numbers: the head and the parts. -/
abbrev Numbered := List (Nat × List Nat)

/-! ## First classes -/

/-- The classes that each symbol can begin with, as far as the rules show them in
one step. -/
def firstStep (rules : Numbered) (first : Array Nat) : Array Nat :=
  rules.foldl
    (fun acc (head, parts) =>
      match parts with
      | [] => acc
      | s :: _ => acc.modify head (· ||| acc.getD s 0))
    first

/-- The classes that each symbol can begin with. -/
def firstSets (rules : Numbered) (lexemeCount : Nat) : Array Nat :=
  (List.range Category.count).foldl (fun first _ => firstStep rules first)
    (Array.replicate Category.count 0 ++ (Array.range lexemeCount).map (1 <<< ·))

/-! ## Openings -/

/-- What is known of a category that begins another one: the classes that follow
it, and whether what follows the other one follows it too. -/
structure Corner where
  reached : Bool := false
  follow : Nat := 0
  inherits : Bool := false
  deriving Inhabited, BEq

/-- What a category says of a category that one of its rules begins with. -/
structure Link where
  /-- The first part of the rule. -/
  target : Nat
  /-- The classes that follow it in the rule, nothing if it is the whole rule. -/
  follow : Option Nat

/-- The links of each category. -/
def linksOf (rules : Numbered) (first : Array Nat) : Array (List Link) :=
  rules.foldl
    (fun acc (head, parts) =>
      match parts with
      | [] => acc
      | s :: rest =>
        if s < Category.count then
          acc.modify head (⟨s, rest.head?.map (first.getD · 0)⟩ :: ·)
        else acc)
    (Array.replicate Category.count [])

/-- One round of finding the categories that a category begins with. -/
def cornerStep (links : Array (List Link)) (corners : Array Corner) : Array Corner :=
  (List.range Category.count).foldl
    (fun acc c =>
      let outer := acc.getD c {}
      if outer.reached then
        (links.getD c []).foldl
          (fun acc l =>
            acc.modify l.target fun inner =>
              match l.follow with
              | some follow => ⟨true, inner.follow ||| follow, inner.inherits⟩
              | none => ⟨true, inner.follow ||| outer.follow, inner.inherits || outer.inherits⟩)
          acc
      else acc)
    corners

/-- Rounds until nothing is new. -/
def cornerRounds (links : Array (List Link)) : Nat → Array Corner → Array Corner
  | 0, corners => corners
  | fuel + 1, corners =>
    let next := cornerStep links corners
    if next == corners then corners else cornerRounds links fuel next

/-- The categories that a category begins with, itself included. -/
def cornersOf (links : Array (List Link)) (c : Nat) : Array Corner :=
  cornerRounds links (3 * Category.count)
    ((Array.replicate Category.count {}).setIfInBounds c ⟨true, 0, true⟩)

/-- The openings of a category, by the symbol that is read; `begins` holds for each
category the rules about it, as their first symbol and their number after it. -/
def openingsOf (begins : Array (List (Nat × Nat))) (symbolCount : Nat) (corners : Array Corner) :
    Array (List Opening) :=
  let found := (List.range Category.count).flatMap fun c =>
    let corner := corners.getD c {}
    if corner.reached then
      (begins.getD c []).map fun (s, mark) =>
        (s, (⟨mark, corner.follow, corner.inherits⟩ : Opening))
    else []
  (found.mergeSort fun a b => b.2.mark ≤ a.2.mark).foldl
    (fun acc (s, o) => acc.modify s (o :: ·)) (Array.replicate symbolCount [])

/-! ## The tables -/

/-- The tables of a grammar. -/
def ofRules (rules : List Rule) : Table :=
  let lexemes := lexemesOf rules
  let symbolCount := Category.count + lexemes.length
  let numbered : Numbered := rules.map fun r => (r.head.ctorIdx, r.parts.map (symbolNumber lexemes))
  let first := firstSets numbered lexemes.length
  let links := linksOf numbered first
  let begins :=
    (numbered.foldl
      (fun (acc : Array (List (Nat × Nat)) × Nat) (head, parts) =>
        (acc.1.modify head ((parts.headD 0, acc.2 + 1) :: ·), acc.2 + parts.length + 1))
      (Array.replicate Category.count [], 0)).1
  { lexemes := lexemes.toArray
    rules := rules.toArray
    owner := (numbered.zipIdx.flatMap fun (r, i) => List.replicate (r.2.length + 1) i).toArray
    next := (numbered.flatMap fun r => r.2.map some ++ [none]).toArray
    first := first
    openings := (Array.range Category.count).map fun c =>
      openingsOf begins symbolCount (cornersOf links c) }

/-- The set of one lexical class. -/
def bit (t : Table) (l : Lexeme) : Nat :=
  match t.lexemes.idxOf? l with
  | some i => 1 <<< i
  | none => 0

end Table

end ComponentDivision.Script
