import SqlMapper.Schema.Relation

/-!
# SqlMapper.Query.Syntax

The syntax of queries.

* `ModelSource`: a model as it takes part in a query, under its own name or an alias.
* `Expr` and `Condition`: operands and truth values, which contain each other.
* `Query`: a `Select`, or two queries under a set operator.
* `Source`, `Join`, `Cte`, `Window`, `OrderTerm`: the parts of a select.

Literals are values, never text: what the caller writes as SQL is `Expr.raw` and the names of
functions and of types.
-/

namespace SqlMapper

/-- A model that joins itself takes part twice, at least once under an alias. -/
structure ModelSource where
  model : Model
  givenName : Option String

namespace ModelSource

/-- What the source is known by within one query. -/
def key (m : ModelSource) : String := m.givenName.getD m.model.name

def same (m n : ModelSource) : Bool := m.model.name == n.model.name && m.givenName == n.givenName

/-- The model under an alias, which must not hide one of its accessors. -/
def aliased (m : ModelSource) (name : String) : Except Error ModelSource := do
  Identifier.validate name "alias"
  if m.model.hasAccessor name then throw (.query (.aliasCollides name m.model.name))
  pure ⟨m.model, some name⟩

end ModelSource

/-- What stands before a column: a model, whose columns go by field names, or the name of a plain
table, a common table expression or a derived table. -/
inductive Qualifier
  | model (m : ModelSource)
  | table (name : String)

def Qualifier.same : Qualifier → Qualifier → Bool
  | model m, model n => m.same n
  | table m, table n => m == n
  | _, _ => false

inductive Operator
  | add
  | sub
  | mul
  | div
  | mod
  | bitAnd
  | bitOr
  | bitXor
  | concat
  deriving DecidableEq

inductive Comparison
  | eq
  | ne
  | lt
  | le
  | gt
  | ge
  | isIn
  | notIn
  | is
  | isNot
  | like
  | notLike
  | ilike
  | between
  deriving DecidableEq

inductive Connective
  | all
  | any
  deriving DecidableEq

inductive Direction
  | ascending
  | descending
  deriving DecidableEq

inductive Nulls
  | first
  | last
  deriving DecidableEq

inductive FrameUnit
  | rows
  | range
  | groups
  deriving DecidableEq

inductive FrameBound
  | unboundedPreceding
  | preceding (n : Nat)
  | currentRow
  | following (n : Nat)
  | unboundedFollowing
  deriving DecidableEq

structure Frame where
  unit : FrameUnit
  start : FrameBound
  stop : FrameBound
  deriving DecidableEq

inductive JoinKind
  | inner
  | leftOuter
  | rightOuter
  | fullOuter
  | cross
  deriving DecidableEq

inductive SetOperator
  | union
  | unionAll
  | intersect
  | except
  deriving DecidableEq

mutual

/-- An operand. -/
inductive Expr
  /-- A column; without a qualifier, its bare name. -/
  | column (qualifier : Option Qualifier) (name : String)
  /-- A value, bound as a parameter. -/
  | literal (v : Value)
  /-- SQL of the caller, written as it is. -/
  | raw (sql : String)
  | call (function : String) (arguments : List Expr) (distinct : Bool)
  | windowed (function : Expr) (window : WindowRef)
  | binary (left : Expr) (op : Operator) (right : Expr)
  | list (items : List Expr)
  | subquery (query : Query)
  | nonEmpty (query : Query)
  | condition (c : Condition)
  | cast (operand : Expr) (type : String)
  /-- An operand with an output name, which counts only in a projection or an ordering. -/
  | named (operand : Expr) (name : String)
  /-- The value that an insert proposed for a field, in its conflict clause. -/
  | excluded (field : String)
  | star (qualifier : Option Qualifier)

inductive WindowRef
  | inline (window : Window)
  | named (name : String)

structure Window where
  name : Option String
  partitionBy : List Expr
  orderBy : List OrderTerm
  frame : Option Frame

structure OrderTerm where
  operand : Expr
  direction : Direction
  nulls : Option Nulls

inductive Condition
  | compare (left : Expr) (op : Comparison) (right : Expr) (negated escaped : Bool)
  | group (connective : Connective) (members : List Condition) (negated : Bool)
  | operand (e : Expr)

inductive Query
  | simple (s : Select)
  | compound (c : Compound)

structure Select where
  ctes : List Cte
  source : Option Source
  /-- The key of the source that the next join starts at. -/
  context : Option String
  joins : List Join
  columns : List Expr
  distinct : Distinct
  filter : Option Condition
  groupBy : List Expr
  having : Option Condition
  windows : List Window
  orderBy : List OrderTerm
  limit : Option Nat
  offset : Option Nat
  forUpdate : Bool

structure Compound where
  ctes : List Cte
  left : Query
  op : SetOperator
  right : Query
  orderBy : List OrderTerm
  limit : Option Nat
  offset : Option Nat

/-- A common table expression. -/
structure Cte where
  name : String
  columns : List String
  recursive : Bool
  query : Query

inductive Source
  | model (m : ModelSource)
  /-- A plain table or a common table expression. -/
  | table (name : String)
  | derived (query : Query) (name : String)

structure Join where
  /-- The key of the source that the join starts at. -/
  context : String
  target : Source
  kind : JoinKind
  on : JoinOn
  /-- The name of the joined rows on the model that the join starts at. -/
  exposedAs : Option String

inductive JoinOn
  /-- The columns of a foreign key are equal. -/
  | relation (r : Relation)
  | condition (c : Condition)
  | always

inductive Distinct
  | off
  | rows
  | on (exprs : List Expr)

end

namespace Source

def key : Source → String
  | model m => m.key
  | table name => name
  | derived _ name => name

def model? : Source → Option ModelSource
  | model m => some m
  | _ => none

end Source

end SqlMapper
