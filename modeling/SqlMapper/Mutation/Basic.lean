import SqlMapper.Query.Select
import SqlMapper.Record

/-!
# SqlMapper.Mutation.Basic

Statements that change rows: `Insert`, `Update` and `Delete`. Every function gives a new statement;
the names of fields are checked when the statement is compiled.

What an insert does about a row that is there already is described once, by `OnConflict`, and
spelled by each dialect in its own way.
-/

namespace SqlMapper

/-- A value for a field. -/
structure Assignment where
  field : String
  value : Expr

inductive ConflictTarget
  /-- The fields of a unique constraint or index. -/
  | fields (names : List String)
  | constraint (name : String)

inductive ConflictAction
  | ignore
  | replace
  | update
  deriving DecidableEq

structure OnConflict where
  action : ConflictAction
  target : Option ConflictTarget := none
  /-- The predicate of a partial index. -/
  targetFilter : Option Condition := none
  /-- Fields that take the value that was to be inserted. -/
  preserve : List String := []
  assignments : List Assignment := []
  /-- Which rows are updated. -/
  filter : Option Condition := none

namespace OnConflict

def ignore : OnConflict := { action := .ignore }

def replace : OnConflict := { action := .replace }

def update : OnConflict := { action := .update }

def onFields (c : OnConflict) (fields : List String) : OnConflict :=
  { c with target := some (.fields fields) }

def onConstraint (c : OnConflict) (name : String) : OnConflict :=
  { c with target := some (.constraint name) }

def targeting (c : OnConflict) (cond : Condition) : OnConflict :=
  { c with targetFilter := some cond }

def preserving (c : OnConflict) (fields : List String) : OnConflict :=
  { c with preserve := c.preserve ++ fields }

def set (c : OnConflict) (field : String) (value : Expr) : OnConflict :=
  { c with assignments := c.assignments ++ [⟨field, value⟩] }

def filtered (c : OnConflict) (cond : Condition) : OnConflict := { c with filter := some cond }

end OnConflict

inductive InsertSource
  /-- The assignments of each row. -/
  | rows (rows : List (List Assignment))
  | query (fields : List String) (query : Query)
  /-- One row of defaults. -/
  | defaults

structure Insert where
  ctes : List Cte
  into : ModelSource
  source : InsertSource
  onConflict : Option OnConflict
  returning : List Expr

namespace Insert

def of (m : ModelSource) : Insert := ⟨[], m, .defaults, none, []⟩

def row (i : Insert) (r : List Assignment) : Insert :=
  { i with source := match i.source with
    | .rows rs => .rows (rs ++ [r])
    | _ => .rows [r] }

def valueRow (i : Insert) (r : List (String × Value)) : Insert :=
  i.row (r.map fun (field, v) => ⟨field, .literal v⟩)

def valueRows (i : Insert) (rs : List (List (String × Value))) : Insert :=
  rs.foldl valueRow i

/-- Adds the values of a record as a row. -/
def record (i : Insert) (r : Record) : Insert := i.valueRow r.insertValues

def ofQuery (i : Insert) (fields : List String) (q : Query) : Insert :=
  { i with source := .query fields q }

def onConflictDo (i : Insert) (c : OnConflict) : Insert := { i with onConflict := some c }

def returningAll (i : Insert) (es : List Expr) : Insert := { i with returning := es }

def withCte (i : Insert) (c : Cte) : Insert := { i with ctes := i.ctes ++ [c] }

end Insert

structure Update where
  ctes : List Cte
  table : ModelSource
  assignments : List Assignment
  sources : List Source
  filter : Option Condition
  returning : List Expr

namespace Update

def of (m : ModelSource) : Update := ⟨[], m, [], [], none, []⟩

/-- Gives a field its value, in place of one that it may have been given before. -/
def assign (field : String) (value : Expr) : List Assignment → List Assignment
  | [] => [⟨field, value⟩]
  | a :: rest =>
    if a.field = field then ⟨field, value⟩ :: rest else a :: assign field value rest

def set (u : Update) (field : String) (value : Expr) : Update :=
  { u with assignments := assign field value u.assignments }

def reading (u : Update) (s : Source) : Update := { u with sources := u.sources ++ [s] }

def filtered (u : Update) (c : Condition) : Update :=
  { u with filter := some (Condition.extend .all u.filter c) }

def returningAll (u : Update) (es : List Expr) : Update := { u with returning := es }

def withCte (u : Update) (c : Cte) : Update := { u with ctes := u.ctes ++ [c] }

end Update

structure Delete where
  ctes : List Cte
  table : ModelSource
  sources : List Source
  filter : Option Condition
  returning : List Expr

namespace Delete

def of (m : ModelSource) : Delete := ⟨[], m, [], none, []⟩

def reading (x : Delete) (s : Source) : Delete := { x with sources := x.sources ++ [s] }

def filtered (x : Delete) (c : Condition) : Delete :=
  { x with filter := some (Condition.extend .all x.filter c) }

def returningAll (x : Delete) (es : List Expr) : Delete := { x with returning := es }

def withCte (x : Delete) (c : Cte) : Delete := { x with ctes := x.ctes ++ [c] }

end Delete

end SqlMapper
