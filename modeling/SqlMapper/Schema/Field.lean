import SqlMapper.ColumnType

/-!
# SqlMapper.Schema.Field

Fields of models.

* `FieldDecl`: what a declaration says about a field. `referring`, `backref` and the other
  setters build one up.
* `Field`: a registered field, with its position and its column.
* `Supply`: the state that default values are drawn from.
-/

namespace SqlMapper

abbrev Codec := Value → Except Error Value

/-- What defaults that differ from row to row are made of. -/
structure Supply where
  drawn : Nat
  deriving DecidableEq

/-- Where the value of a field comes from when an insert leaves it out. -/
inductive FieldDefault
  /-- The database has an expression for it. -/
  | server (sql : String)
  /-- Drawn anew for every row. -/
  | computed (draw : Supply → Value × Supply)

/-- The name under which the target of a foreign key lists the rows that refer to it. -/
inductive Backref
  /-- The table of the model that holds the key, and `_set`. -/
  | byTable
  | named (name : String)
  | suppressed
  deriving DecidableEq

structure Reference where
  target : String
  /-- The field referred to; `none` is the primary key of the target. -/
  field : Option String
  backref : Backref
  deriving DecidableEq

structure FieldDecl where
  name : String
  type : ColumnType
  column : Option String := none
  nullable : Bool := false
  primaryKey : Bool := false
  autoIncrement : Bool := false
  unique : Bool := false
  indexed : Bool := false
  default : Option FieldDefault := none
  reference : Option Reference := none
  encode : Option Codec := none
  decode : Option Codec := none

namespace FieldDecl

/-- The key of a model that declares none. -/
def autoId : FieldDecl where
  name := "id"
  type := .bigInt
  primaryKey := true
  autoIncrement := true

/-- Makes the field a foreign key with a reverse accessor of the default name. -/
def referring (target : String) (field : Option String) (d : FieldDecl) : FieldDecl :=
  { d with reference := some ⟨target, field, .byTable⟩ }

/-- Changes the reverse accessor of a foreign key; nothing happens to another field. -/
def backref (b : Backref) (d : FieldDecl) : FieldDecl :=
  { d with reference := d.reference.map fun r => { r with backref := b } }

/-- The declared column, else the name of the field, with `_id` if it is a foreign key. -/
def resolvedColumn (d : FieldDecl) : String :=
  match d.column, d.reference with
  | some column, _ => column
  | none, some _ => d.name ++ "_id"
  | none, none => d.name

end FieldDecl

structure Field where
  /-- Position among the fields of the model. -/
  ordinal : Nat
  column : String
  /-- Name of the model. -/
  model : String
  decl : FieldDecl

namespace Field

def name (f : Field) : String := f.decl.name

def type (f : Field) : ColumnType := f.decl.type

def isForeignKey (f : Field) : Bool := f.decl.reference.isSome

/-- What is bound for a value of the field. -/
def encode (f : Field) (v : Value) : Except Error Value :=
  match f.decl.encode with
  | some codec => codec v
  | none => f.type.encode v

/-- What a stored value means for the field. -/
def decode (f : Field) (v : Value) : Except Error Value :=
  match f.decl.decode with
  | some codec => codec v
  | none => f.type.decode v

def hasComputedDefault (f : Field) : Bool :=
  match f.decl.default with
  | some (.computed _) => true
  | _ => false

/-- The value for a row that leaves the field out, if it is known before the database is asked. -/
def drawDefault (f : Field) (s : Supply) : Option Value × Supply :=
  match f.decl.default with
  | some (.computed draw) => ((draw s).map some id)
  | _ => (none, s)

end Field

end SqlMapper
