import SqlMapper.Schema.Relation

/-!
# SqlMapper.Inspect.Schema

Registered models and the relations between them as JSON documents, for tools that show them.
-/

namespace SqlMapper

def FieldDefault.inspect : FieldDefault → Json
  | server sql => .ofMembers [("sql", .string sql)]
  | computed _ => .string "thunk"

/-- The flags are: nullable, primary key, assigned by the database, unique, indexed, foreign key. -/
def Field.inspect (f : Field) : Json :=
  let d := f.decl
  let flags := [d.nullable, d.primaryKey, d.autoIncrement, d.unique, d.indexed, f.isForeignKey]
  .ofMembers [("name", .string f.name), ("column", .string f.column),
    ("ordinal", .ofNat f.ordinal), ("model", .string f.model), ("type", .string f.type.sql),
    ("flags", .array (flags.map .bool)), ("default", .ofOption FieldDefault.inspect d.default)]

def ForeignKey.inspect (k : ForeignKey) : Json :=
  .array ([k.field, k.column, k.target, k.targetTable, k.targetField, k.targetColumn].map .string ++
    [.ofOption .string k.backref])

def ReverseRelation.inspect (r : ReverseRelation) : Json := .strings [r.name, r.model, r.field]

def PrimaryKey.inspect : PrimaryKey → Json
  | single i => .ofMembers [("single", .ofNat i)]
  | composite is => .ofMembers [("composite", .array (is.map .ofNat))]
  | absent => .string "none"

def Index.inspect (i : Index) : Json :=
  .array [.string i.name, .strings i.columns, .bool i.unique]

def Model.inspect (m : Model) : Json :=
  .ofMembers [("name", .string m.name), ("table", .string m.table),
    ("fields", .array (m.fields.map Field.inspect)), ("field_names", .strings m.fieldNames),
    ("columns", .strings m.columns), ("primary_key", m.primaryKey.inspect),
    ("pk_fields", .strings (m.keyFields.map Field.name)),
    ("pk_field", .ofOption (fun f => .string f.name) m.keyField?),
    ("foreign_keys", .array (m.foreignKeys.map ForeignKey.inspect)),
    ("indexes", .array (m.indexes.map Index.inspect)),
    ("reverse", .array (m.reverse.map ReverseRelation.inspect))]

def RelationKind.name : RelationKind → String
  | manyToOne => "many_to_one"
  | oneToMany => "one_to_many"

def Relation.inspect (r : Relation) : Json :=
  .ofMembers [("kind", .string r.kind.name), ("fk", r.foreignKey.inspect),
    ("child", .string r.child), ("parent", .string r.parent),
    ("columns", .strings [r.joinColumns.1, r.joinColumns.2])]

end SqlMapper
