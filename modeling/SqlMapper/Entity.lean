import SqlMapper.Record

/-!
# SqlMapper.Entity

Types of an application whose values are rows of a model. An entity type gives its declaration and
says how its values are written to fields and read from a record.
-/

namespace SqlMapper

structure Entity (α : Type) where
  declaration : ModelDecl
  /-- Field values by field name. A key that is not assigned yet is NULL. -/
  toRow : α → List (String × Value)
  ofRecord : Record → Except Error α

namespace Entity

/-- The values of the primary key of `a`, in the order of the key. -/
def keyValues {α : Type} (e : Entity α) (m : Model) (a : α) : List Value :=
  m.keyFields.map fun f => ((e.toRow a).lookup f.name).getD .null

end Entity

end SqlMapper
