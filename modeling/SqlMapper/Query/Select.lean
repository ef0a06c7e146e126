import SqlMapper.Query.Expr

/-!
# SqlMapper.Query.Select

Building queries. Every function gives a new query, so that one query can be refined in several
directions.

A select has a *context*, the source that the next join starts at: its root at first, then the
source that was joined last, or one chosen by `switch`. A join without a condition is made by the
only foreign key between the models at its two ends.
-/

namespace SqlMapper
namespace Select

def blank : Select where
  ctes := []
  source := none
  context := none
  joins := []
  columns := []
  distinct := .off
  filter := none
  groupBy := []
  having := none
  windows := []
  orderBy := []
  limit := none
  offset := none
  forUpdate := false

def ofSource (s : Source) : Select :=
  { blank with source := some s, context := some s.key }

def ofModel (m : ModelSource) : Select := ofSource (.model m)

def ofTable (name : String) : Select := ofSource (.table name)

def ofCte (c : Cte) : Select := ofTable c.name

/-- A select from a derived table. -/
def ofQuery (q : Query) (name : String) : Except Error Select := do
  Identifier.validate name "subquery alias"
  pure (ofSource (.derived q name))

/-- A select without sources. -/
def values (es : List Expr) : Select := { blank with columns := es }

/-- The model that the select starts from, if it is one. -/
def model? (s : Select) : Option ModelSource := s.source.bind Source.model?

/-! ## Sources and joins -/

/-- The root and what was joined to it, in the order in which they were added. -/
def sources (s : Select) : List Source := s.source.toList ++ s.joins.map Join.target

def source? (s : Select) (key : String) : Option Source := s.sources.find? (·.key == key)

/-- The model that a join without a condition starts at. -/
def contextModel (s : Select) : Except Error ModelSource :=
  match s.context with
  | none => .error (.query .joinWithoutFrom)
  | some key =>
    match (s.source? key).bind Source.model? with
    | some m => .ok m
    | none => .error (.relation (.notAModel key))

/-- The name of the joined rows must not hide an accessor of the model that they join. -/
def checkExposed (s : Select) (context name : String) : Except Error Unit := do
  Identifier.validate name "join attribute"
  match (s.source? context).bind Source.model? with
  | some m =>
    if m.model.hasAccessor name then throw (.query (.attributeCollides name m.model.name))
  | none => pure ()

def addJoin (s : Select) (target : Source) (kind : JoinKind) (on : JoinOn)
    (exposedAs : Option String) : Except Error Select :=
  match s.context with
  | none => .error (.query .joinWithoutFrom)
  | some context => do
    if (s.source? target.key).isSome then throw (.query (.sourceRepeated target.key))
    match exposedAs with
    | some name => s.checkExposed context name
    | none => pure ()
    pure { s with
      joins := s.joins ++ [⟨context, target, kind, on, exposedAs⟩]
      context := some target.key }

/-- A join under a condition, or else by the foreign key between its ends; a cross join needs
neither. -/
def joinWith (s : Select) (target : ModelSource) (kind : JoinKind) (on : Option Condition)
    (exposedAs : Option String) : Except Error Select := do
  let on ← match on, kind with
    | some c, _ => pure (JoinOn.condition c)
    | none, .cross => pure .always
    | none, _ => do
      let context ← s.contextModel
      pure (.relation (← Relation.between context.model target.model))
  s.addJoin (.model target) kind on exposedAs

def join (s : Select) (target : ModelSource) : Except Error Select :=
  s.joinWith target .inner none none

def leftOuterJoin (s : Select) (target : ModelSource) : Except Error Select :=
  s.joinWith target .leftOuter none none

def joinOn (s : Select) (target : Source) (kind : JoinKind) (c : Condition) :
    Except Error Select :=
  s.addJoin target kind (.condition c) none

/-- A join by the foreign key that a given field is, for models that are related twice. -/
def joinVia (s : Select) (target : ModelSource) (kind : JoinKind) (field : String) :
    Except Error Select := do
  let context ← s.contextModel
  let r ← Relation.through context.model target.model field
  s.addJoin (.model target) kind (.relation r) none

def crossJoin (s : Select) (target : Source) : Except Error Select :=
  s.addJoin target .cross .always none

/-- Makes a source of the query the context. -/
def switch (s : Select) (m : ModelSource) : Except Error Select :=
  if (s.source? m.key).isSome then .ok { s with context := some m.key }
  else .error (.query (.notASource m.key))

def joinFrom (s : Select) (start target : ModelSource) : Except Error Select := do
  (← s.switch start).join target

/-- Makes the root the context. -/
def resetContext (s : Select) : Select := { s with context := s.source.map Source.key }

/-! ## Clauses -/

def select (s : Select) (es : List Expr) : Select := { s with columns := es }

/-- Adds to the columns; a select of a model that has none starts with all its fields. -/
def selectMore (s : Select) (es : List Expr) : Select :=
  let chosen := match s.columns with
    | [] => (s.model?.map ModelSource.columns).getD []
    | es => es
  { s with columns := chosen ++ es }

def distinctRows (s : Select) : Select := { s with distinct := .rows }

def distinctOn (s : Select) (es : List Expr) : Select := { s with distinct := .on es }

def filtered (s : Select) (c : Condition) : Select :=
  { s with filter := some (Condition.extend .all s.filter c) }

def orFiltered (s : Select) (c : Condition) : Select :=
  { s with filter := some (Condition.extend .any s.filter c) }

def grouped (s : Select) (es : List Expr) : Select := { s with groupBy := es }

def filteredGroups (s : Select) (c : Condition) : Select :=
  { s with having := some (Condition.extend .all s.having c) }

/-- Declares a window. -/
def window (s : Select) (w : Window) : Select := { s with windows := s.windows ++ [w] }

def ordered (s : Select) (ts : List OrderTerm) : Select := { s with orderBy := ts }

def thenOrdered (s : Select) (ts : List OrderTerm) : Select :=
  { s with orderBy := s.orderBy ++ ts }

def limited (s : Select) (n : Nat) : Select := { s with limit := some n }

def skipping (s : Select) (n : Nat) : Select := { s with offset := some n }

/-- The greatest offset there is. -/
def greatestOffset : Nat := 18446744073709551615

/-- One page of rows. Pages are counted from one, and there is no page before the first. -/
def paginate (s : Select) (page perPage : Nat) : Select :=
  { s with limit := some perPage, offset := some (min ((page - 1) * perPage) greatestOffset) }

def withCte (s : Select) (c : Cte) : Select := { s with ctes := s.ctes ++ [c] }

def lockRows (s : Select) : Select := { s with forUpdate := true }

/-- The number of rows of the select. -/
def counted (s : Select) : Select :=
  { ofSource (.derived (.simple s) "_wrapped") with columns := [.count (.raw "1")] }

end Select

namespace Compound

def of (left : Query) (op : SetOperator) (right : Query) : Compound :=
  ⟨[], left, op, right, [], none, none⟩

/-- Orders the combined rows, by columns without qualifiers. -/
def ordered (c : Compound) (ts : List OrderTerm) : Compound := { c with orderBy := ts }

def limited (c : Compound) (n : Nat) : Compound := { c with limit := some n }

def skipping (c : Compound) (n : Nat) : Compound := { c with offset := some n }

def withCte (c : Compound) (cte : Cte) : Compound := { c with ctes := c.ctes ++ [cte] }

end Compound

mutual

/-- The model that the leftmost select of a query starts from. -/
def Query.model? : Query → Option ModelSource
  | .simple s => s.model?
  | .compound c => c.model?

def Compound.model? : Compound → Option ModelSource
  | ⟨_, left, _, _, _, _, _⟩ => left.model?

end

/-- The condition that a query has rows. -/
def Query.hasRows (q : Query) : Condition := .operand (.nonEmpty q)

end SqlMapper
