import SqlMapper.Query.Syntax

/-!
# SqlMapper.Query.Condition

The algebra of conditions. Chains of one connective stay flat: a leaf that is added to a group of
the same connective becomes one more member of it. A negated group and a group on the right are
kept as members of a new group.
-/

namespace SqlMapper
namespace Condition

def isLeaf : Condition → Bool
  | group _ _ _ => false
  | _ => true

def raw (sql : String) : Condition := operand (.raw sql)

/-- Negation. A bare operand has no negation of its own and goes into a group. -/
def not : Condition → Condition
  | compare l op r negated escaped => compare l op r (!negated) escaped
  | group connective members negated => group connective members (!negated)
  | operand e => group .all [operand e] true

def combine (connective : Connective) (a b : Condition) : Condition :=
  match a with
  | group c members false =>
    if c = connective && b.isLeaf then group c (members ++ [b]) false
    else group connective [a, b] false
  | _ => group connective [a, b] false

def and (a b : Condition) : Condition := combine .all a b

def or (a b : Condition) : Condition := combine .any a b

/-- Combines the members from the left; nothing comes of no members. -/
def combineAll (connective : Connective) : List Condition → Option Condition
  | [] => none
  | c :: cs => some (cs.foldl (combine connective) c)

def all (cs : List Condition) : Option Condition := combineAll .all cs

def any (cs : List Condition) : Option Condition := combineAll .any cs

/-- Adds a condition to a clause that may still be without one. -/
def extend (connective : Connective) (clause : Option Condition) (c : Condition) : Condition :=
  match clause with
  | some existing => combine connective existing c
  | none => c

end Condition
end SqlMapper
