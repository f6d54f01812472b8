/-
# Preference between rules

Two rules may fit the same text. Lists of strengths and categories, each from
the strongest to the weakest, say which of them is preferred. The first list that
names both decides; if none does, neither is preferred.

* `Rule.beats` : whether a rule is preferred to another.
-/
import ComponentDivision.Script.Rule

namespace ComponentDivision.Script

/-- An entry of a list of preferences. -/
inductive Preference where
  | strength (s : Strength)
  | category (c : Category)
  deriving DecidableEq, Repr

instance : Coe Strength Preference := ⟨.strength⟩

instance : Coe Category Preference := ⟨.category⟩

/-- Whether an entry is about a rule. -/
def Preference.concerns (p : Preference) (r : Rule) : Bool :=
  match p with
  | strength s => r.strength == some s
  | category c => r.head == c

/-- The lists of preferences, each from the strongest entry to the weakest. -/
def preferences : List (List Preference) :=
  [[Strength.member, Strength.templateCall, Strength.call, Category.update, Strength.prefixed,
    Strength.power, Strength.times, Strength.plus, Strength.shift, Strength.relation,
    Strength.equality, Strength.bitAnd, Strength.bitXor, Strength.bitOr, Strength.conjunction,
    Strength.disjunction, Strength.ternary, Category.sequence, Category.arrow],
   [Strength.assign, Category.primary],
   [Strength.member, Strength.templateCall, Strength.construction, Strength.call,
    Category.expression],
   [Strength.declare, Strength.literal],
   [Category.primary, Category.block, Strength.object],
   [Category.metaProperty, Category.importWord],
   [Category.importStatement, Category.importWord],
   [Category.exportStatement, Category.primary],
   [Category.lexicalDeclaration, Category.primary]]

/-- What a list says about two rules: whether the first is preferred, if the list
names both. An entry about both rules counts for the first. -/
def comparison (a b : Rule) : List Preference → Option Bool
  | [] => none
  | p :: ps =>
    if p.concerns a then if ps.any fun q => q.concerns b && !q.concerns a then some true else none
    else if p.concerns b then if ps.any (·.concerns a) then some false else none
    else comparison a b ps

/-- Whether the first rule is preferred to the second. -/
def Rule.beats (a b : Rule) : Bool :=
  preferences.findSome? (comparison a b) == some true

end ComponentDivision.Script
