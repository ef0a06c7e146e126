import SqlMapper.Schema.Relation
import SqlMapper.Value.Text

/-!
# SqlMapper.Record

Rows of a registered model as values in hand.

A `Record` has one slot for every field of its model. Reading a foreign key gives the key that is
stored; the rows it leads to are kept apart under the name of the accessor, and only if they were
put there. Assigning a field forgets the rows that were fetched under its name.
-/

namespace SqlMapper

/-- The value of a field, and whether it was assigned since the record was made. -/
structure Slot where
  value : Value
  assigned : Bool

structure Record where
  model : Model
  /-- By the positions of the fields. -/
  slots : List Slot
  /-- Related records by accessor; the newest entry of a name counts. -/
  related : List (String × List Record)

namespace Record

/-- Every field at its computed default, else NULL. -/
def create (m : Model) (s : Supply) : Record × Supply :=
  let (slots, s) := m.fields.foldl (fun (slots, s) f =>
    let (v, s) := f.drawDefault s
    (slots ++ [⟨v.getD .null, false⟩], s)) ([], s)
  (⟨m, slots, []⟩, s)

/-- The value at the position of a field. -/
def value (r : Record) (f : Field) : Value :=
  (r.slots[f.ordinal]?).elim .null Slot.value

def get (r : Record) (field : String) : Except Error Value :=
  (r.model.field field).map r.value

/-- Forgets the related records of an accessor. -/
def forget (r : Record) (accessor : String) : Record :=
  { r with related := r.related.filter (·.1 != accessor) }

def set (r : Record) (field : String) (v : Value) : Except Error Record :=
  (r.model.field field).map fun f =>
    { r with slots := r.slots.set f.ordinal ⟨v, true⟩ }.forget field

def clearAssigned (r : Record) : Record :=
  { r with slots := r.slots.map fun s => { s with assigned := false } }

def assignedFields (r : Record) : List String :=
  (r.model.fields.filter fun f => (r.slots[f.ordinal]?).any Slot.assigned).map Field.name

/-- The values of the primary key, in the order of the key. -/
def key (r : Record) : List Value :=
  r.model.keyFields.map r.value

def values (r : Record) : List (String × Value) :=
  r.model.fields.map fun f => (f.name, r.value f)

/-- The values to insert: a key that the database is to assign is left out. -/
def insertValues (r : Record) : List (String × Value) :=
  (r.model.fields.filter fun f => !(f.decl.autoIncrement && (r.value f).isNull)).map
    fun f => (f.name, r.value f)

/-! ## Related records -/

/-- The reverse accessors of a model can be installed after a record of it was made, so `home`,
the registry of the model, is asked for them. -/
def currentModel (home : Registry) (r : Record) : Model :=
  (home.find? r.model.name).getD r.model

def cacheRelated (home : Registry) (r : Record) (accessor : String) (records : List Record) :
    Except Error Record :=
  if (r.currentModel home).hasRelation accessor then
    .ok { r.forget accessor with related := (accessor, records) :: (r.forget accessor).related }
  else .error (.query (.unknownRelation r.model.name accessor))

/-- The records that were put under the accessor; `none` if none ever were. -/
def related? (r : Record) (accessor : String) : Option (List Record) :=
  r.related.lookup accessor

def relatedOne? (r : Record) (accessor : String) : Option Record :=
  (r.related? accessor).bind List.head?

def clearRelated (r : Record) : Record := { r with related := [] }

/-! ## Rows and documents -/

/-- A record of the fields whose columns are in the row; the others keep their defaults. -/
def ofRow (m : Model) (row : Row) (s : Supply) : Except Error Record × Supply :=
  let (fresh, s) := create m s
  let filled := do
    let pairs ← m.decodeRow row
    let r ← pairs.foldlM (fun (r : Record) (field, v) => r.set field v) fresh
    pure r.clearAssigned
  (filled, s)

def toJson (r : Record) : Json :=
  .ofMembers (r.values.map fun (field, v) => (field, v.toJson))

/-- Records are equal when their models have one name and their values are equal. -/
def same (r t : Record) : Bool :=
  r.model.name == t.model.name &&
    Value.sameItems (r.slots.map Slot.value) (t.slots.map Slot.value)

end Record

end SqlMapper
