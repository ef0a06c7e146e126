import SqlMapper.Schema.Registry

/-!
# SqlMapper.Schema.Relation

The foreign key that relates two models.

* `Relation.between`: the only one there is, in either direction.
* `Relation.through`: the one that a given field is.
-/

namespace SqlMapper

/-- Where the foreign key is, seen from the model that a join starts at: there, or at the other
end. -/
inductive RelationKind
  | manyToOne
  | oneToMany
  deriving DecidableEq

structure Relation where
  kind : RelationKind
  foreignKey : ForeignKey
  /-- Name of the model that holds the foreign key. -/
  child : String
  /-- Name of the model referred to. -/
  parent : String
  deriving DecidableEq

namespace Relation

/-- The columns of the child and of the parent that a join equates. -/
def joinColumns (r : Relation) : String × String :=
  (r.foreignKey.column, r.foreignKey.targetColumn)

def forward (source target : Model) (k : ForeignKey) : Relation :=
  ⟨.manyToOne, k, source.name, target.name⟩

def backward (source target : Model) (k : ForeignKey) : Relation :=
  ⟨.oneToMany, k, target.name, source.name⟩

/-- The foreign keys between two models, in both directions; one of a model to itself once. -/
def candidates (source target : Model) : List Relation :=
  (source.foreignKeysTo target.name).map (forward source target) ++
    if source.name = target.name then []
    else (target.foreignKeysTo source.name).map (backward source target)

def between (source target : Model) : Except Error Relation :=
  match candidates source target with
  | [] => .error (.relation (.unrelated source.name target.name))
  | [r] => .ok r
  | rs =>
    let names := rs.map fun r => r.child ++ "." ++ r.foreignKey.field
    .error (.relation (.ambiguous source.name target.name names))

/-- The foreign key that `field` is in `source`, if it refers to `target`. -/
def keyTo? (source target : Model) (field : String) : Option ForeignKey :=
  (source.foreignKey? field).filter (·.target == target.name)

def through (source target : Model) (field : String) : Except Error Relation :=
  match keyTo? source target field, keyTo? target source field with
  | some k, _ => .ok (forward source target k)
  | none, some k => .ok (backward source target k)
  | none, none => .error (.relation (.notRelatedBy field source.name target.name))

end Relation

/-- The only foreign key between two registered models. -/
def Registry.relationBetween (r : Registry) (source target : String) : Except Error Relation := do
  let source ← r.get source
  let target ← r.get target
  Relation.between source target

end SqlMapper
