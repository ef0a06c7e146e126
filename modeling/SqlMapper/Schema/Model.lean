import SqlMapper.Schema.Field
import SqlMapper.Row

/-!
# SqlMapper.Schema.Model

Models: what a type declares about its table, and what a registry makes of it.

* `ModelDecl`: a declaration.
* `Model`: a registered model, with its fields in order, its keys, its indexes and the accessors
  by which it lists the rows that refer to it.
* `Model.decodeRow`: the field values in a row.
-/

namespace SqlMapper

structure IndexDecl where
  fields : List String
  unique : Bool
  deriving DecidableEq

structure ModelDecl where
  name : String
  /-- `none` derives the table from the name. -/
  table : Option String := none
  fields : List FieldDecl := []
  compositeKey : Option (List String) := none
  withoutKey : Bool := false
  indexes : List IndexDecl := []

/-- The primary key, as positions of fields. -/
inductive PrimaryKey
  | single (ordinal : Nat)
  | composite (ordinals : List Nat)
  | absent
  deriving DecidableEq

structure ForeignKey where
  field : String
  column : String
  /-- Name of the model referred to. -/
  target : String
  targetTable : String
  targetField : String
  targetColumn : String
  /-- Name of the reverse accessor on the target. -/
  backref : Option String
  deriving DecidableEq

/-- An accessor of a model for the rows of another that refer to it. -/
structure ReverseRelation where
  name : String
  /-- Name of the model that holds the foreign key. -/
  model : String
  field : String
  deriving DecidableEq

structure Index where
  name : String
  columns : List String
  unique : Bool
  deriving DecidableEq

structure Model where
  name : String
  table : String
  fields : List Field
  primaryKey : PrimaryKey
  foreignKeys : List ForeignKey
  indexes : List Index
  reverse : List ReverseRelation

namespace Model

def field? (m : Model) (name : String) : Option Field :=
  m.fields.find? (·.name == name)

def field (m : Model) (name : String) : Except Error Field :=
  match m.field? name with
  | some f => .ok f
  | none => .error (.query (.unknownField m.name name))

def fieldByColumn? (m : Model) (column : String) : Option Field :=
  m.fields.find? (·.column == column)

def fieldNames (m : Model) : List String := m.fields.map Field.name

def columns (m : Model) : List String := m.fields.map Field.column

/-- The fields of the primary key, in the order of the key. -/
def keyFields (m : Model) : List Field :=
  match m.primaryKey with
  | .single i => m.fields[i]?.toList
  | .composite is => is.filterMap (m.fields[·]?)
  | .absent => []

/-- The field that is the primary key by itself. -/
def keyField? (m : Model) : Option Field :=
  match m.primaryKey with
  | .single i => m.fields[i]?
  | _ => none

/-- The foreign key that a field is. -/
def foreignKey? (m : Model) (field : String) : Option ForeignKey :=
  m.foreignKeys.find? (·.field == field)

def foreignKeysTo (m : Model) (target : String) : List ForeignKey :=
  m.foreignKeys.filter (·.target == target)

def reverse? (m : Model) (name : String) : Option ReverseRelation :=
  m.reverse.find? (·.name == name)

/-- Whether a field or a reverse accessor has the name. -/
def hasAccessor (m : Model) (name : String) : Bool :=
  (m.field? name).isSome || (m.reverse? name).isSome

/-- Whether the name leads to another model. -/
def hasRelation (m : Model) (accessor : String) : Bool :=
  (m.foreignKey? accessor).isSome || (m.reverse? accessor).isSome

/-- A model is known by its name and its table. -/
def same (m n : Model) : Bool := m.name == n.name && m.table == n.table

/-- The values of the fields whose columns are in the row, in the order of the fields. -/
def decodeRow (m : Model) (row : Row) : Except Error (List (String × Value)) :=
  m.fields.foldlM (fun done f =>
    match row.find? f.column with
    | none => .ok done
    | some v => (f.decode v).map fun v => done ++ [(f.name, v)]) []

end Model

end SqlMapper
