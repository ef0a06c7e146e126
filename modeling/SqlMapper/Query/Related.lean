import SqlMapper.Query.Select
import SqlMapper.Record

/-!
# SqlMapper.Query.Related

The rows that a model lists under a key, and the records that a record leads to.

* `Select.matching`: the rows with a given value in a field.
* `Record.relatedQuery`: the query behind an accessor of a record.
-/

namespace SqlMapper

/-- The rows of `m` whose `field` has the value `v`. -/
def Select.matching (m : Model) (field : String) (v : Value) : Select :=
  let source : ModelSource := ⟨m, none⟩
  (Select.ofModel source).filtered (Expr.compare .eq (source.column field) (.literal v))

/-- The only field of the primary key. -/
def Model.singleKey (m : Model) : Except Error Field :=
  match m.keyField? with
  | some f => .ok f
  | none => .error (.query (.noSingleKey m.name))

/-- The query for the records behind an accessor; `none` if a foreign key is NULL and leads to
nothing. Other models are looked up in `registry`. -/
def Record.relatedQuery (registry home : Registry) (r : Record) (accessor : String) :
    Except Error (Option Select) :=
  match r.model.foreignKey? accessor, (r.currentModel home).reverse? accessor with
  | some key, _ => do
    let v ← r.get key.field
    if v.isNull then return none
    let target ← registry.get key.target
    return some (Select.matching target key.targetField v)
  | none, some reverse => do
    let child ← registry.get reverse.model
    match child.foreignKey? reverse.field with
    | none => throw (.relation (.noForeignKey child.name reverse.field))
    | some key => return some (Select.matching child reverse.field (← r.get key.targetField))
  | none, none => throw (.query (.unknownRelation r.model.name accessor))

end SqlMapper
