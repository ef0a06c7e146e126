import SqlMapper.Query.Syntax

/-!
# SqlMapper.Query.JoinOrder

The order of joins in a statement: every join follows the source that it starts at, and the joins
that start at one source keep their order. Together they are a tree that is walked depth first.
-/

namespace SqlMapper

/-- A join as its place in the tree is decided: where it starts, which source it adds, and what
goes with it. -/
structure JoinEdge (α : Type) where
  context : String
  target : String
  content : α

namespace JoinEdge

variable {α : Type}

/-- The joins below a source, in at most the given number of steps from it. -/
def below (edges : List (JoinEdge α)) : Nat → String → List (JoinEdge α)
  | 0, _ => []
  | steps + 1, key =>
    (edges.filter (·.context == key)).flatMap fun e => e :: below edges steps e.target

/-- All joins that hang off the root, which no path of joins leaves by more steps than there are
joins. -/
def ordered (edges : List (JoinEdge α)) (root : String) : List (JoinEdge α) :=
  below edges edges.length root

end JoinEdge

end SqlMapper
