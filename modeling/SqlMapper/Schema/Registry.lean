import SqlMapper.Schema.Model
import SqlMapper.Identifier

/-!
# SqlMapper.Schema.Registry

The registry of models.

`Registry.enroll` checks a declaration and makes a model of it: fields with their columns and
positions, the primary key, the foreign keys with what they refer to, and the indexes. Every
mistake in a declaration is found here, before any SQL is written. A foreign key may refer to a
model that is registered already or to its own; the model referred to gets a reverse accessor.
-/

namespace SqlMapper

structure Registry where
  /-- In the order of their registration. -/
  models : List Model
  /-- Names of the models that were registered by their entity type. -/
  entities : List String

namespace Registry

def empty : Registry := ⟨[], []⟩

instance : Inhabited Registry := ⟨empty⟩

def find? (r : Registry) (name : String) : Option Model :=
  r.models.find? (·.name == name)

def get (r : Registry) (name : String) : Except Error Model :=
  match r.find? name with
  | some m => .ok m
  | none => .error (.declaration (.notRegistered name))

/-! ## Fields -/

/-- Appends a field whose name and column are new. -/
def addField (model : String) (fields : List Field) (d : FieldDecl) : Except Error (List Field) :=
  let column := d.resolvedColumn
  if fields.any (·.name == d.name) then .error (.declaration (.duplicateField d.name model))
  else if fields.any (·.column == column) then
    .error (.declaration (.duplicateColumn column model))
  else .ok (fields ++ [⟨fields.length, column, model, d⟩])

def declaresKey (d : ModelDecl) : Bool :=
  d.fields.any (·.primaryKey) || d.compositeKey.isSome

/-- The declared fields, after an `id` if a key is wanted and none is declared. -/
def fieldDecls (d : ModelDecl) : Except Error (List FieldDecl) :=
  if declaresKey d || d.withoutKey then .ok d.fields
  else if d.fields.any (·.name == "id") then .error (.declaration (.unmarkedId d.name))
  else .ok (.autoId :: d.fields)

def buildFields (d : ModelDecl) : Except Error (List Field) := do
  (← fieldDecls d).foldlM (addField d.name) []

def namedField (d : ModelDecl) (fields : List Field) (name : String) : Except Error Field :=
  match fields.find? (·.name == name) with
  | some f => .ok f
  | none => .error (.declaration (.unknownField d.name name))

/-! ## Keys -/

def resolveKey (d : ModelDecl) (fields : List Field) : Except Error PrimaryKey :=
  match d.compositeKey, fields.filter (·.decl.primaryKey) with
  | some _, _ :: _ => .error (.declaration (.twoKindsOfKey d.name))
  | some [], [] => .error (.declaration (.emptyCompositeKey d.name))
  | some names, [] => do
    pure (.composite ((← names.mapM (namedField d fields)).map Field.ordinal))
  | none, [] => .ok .absent
  | none, [f] => .ok (.single f.ordinal)
  | none, _ => .error (.declaration (.severalKeyFields d.name))

/-- What a foreign key needs to know of its target. -/
structure Target where
  table : String
  fields : List Field
  primaryKey : PrimaryKey
  reverse : List ReverseRelation

/-- The model being registered can be its own target. -/
def resolveTarget (r : Registry) (self : Target) (model key : String) (target : String) :
    Except Error Target :=
  if target = model then .ok self
  else
    match r.find? target with
    | some m => .ok ⟨m.table, m.fields, m.primaryKey, m.reverse⟩
    | none => .error (.declaration (.unregisteredTarget key target))

def resolveTargetField (key : String) (ref : Reference) (t : Target) : Except Error Field :=
  match ref.field, t.primaryKey with
  | some name, _ =>
    match t.fields.find? (·.name == name) with
    | some f => .ok f
    | none => .error (.declaration (.missingTargetField key ref.target name))
  | none, .single i =>
    match t.fields[i]? with
    | some f => .ok f
    | none => .error (.declaration (.targetWithoutKey key ref.target))
  | none, _ => .error (.declaration (.targetWithoutKey key ref.target))

def backrefName (table : String) : Backref → Option String
  | .byTable => some (table ++ "_set")
  | .named name => some name
  | .suppressed => none

/-- Whether a reverse accessor would hide a name of its target: a field, an accessor installed
there before, or one of an earlier key of the same model. -/
def accessorTaken (name : String) (ref : Reference) (t : Target) (earlier : List ForeignKey) :
    Bool :=
  t.fields.any (·.name == name) || t.reverse.any (·.name == name) ||
    earlier.any fun k => k.target == ref.target && k.backref == some name

def addForeignKey (r : Registry) (self : Target) (model : String) (done : List ForeignKey)
    (f : Field) : Except Error (List ForeignKey) :=
  match f.decl.reference with
  | none => .ok done
  | some ref => do
    let key := model ++ "." ++ f.name
    let target ← r.resolveTarget self model key ref.target
    let targetField ← resolveTargetField key ref target
    let backref := backrefName self.table ref.backref
    match backref with
    | some name =>
      if accessorTaken name ref target done then
        throw (.declaration (.accessorTaken name key ref.target))
    | none => pure ()
    pure (done ++ [{
      field := f.name
      column := f.column
      target := ref.target
      targetTable := target.table
      targetField := targetField.name
      targetColumn := targetField.column
      backref := backref }])

/-! ## Indexes -/

def index (table : String) (columns : List String) (unique : Bool) : Index :=
  ⟨table ++ "_" ++ "_".intercalate columns, columns, unique⟩

/-- The declared indexes, then those of single fields. A primary key needs none. -/
def buildIndexes (d : ModelDecl) (table : String) (fields : List Field) :
    Except Error (List Index) := do
  let declared ← d.indexes.mapM fun i => do
    let fs ← i.fields.mapM (namedField d fields)
    pure (index table (fs.map Field.column) i.unique)
  let wanted := fields.filter fun f =>
    !f.decl.primaryKey && (f.decl.indexed || f.decl.unique)
  pure (declared ++ wanted.map fun f => index table [f.column] f.decl.unique)

/-! ## Registration -/

def reverseRelation? (model : String) (k : ForeignKey) : Option ReverseRelation :=
  k.backref.map fun name => ⟨name, model, k.field⟩

/-- The accessors that the foreign keys of `source` install on the model named `target`. -/
def accessorsOn (target source : String) (keys : List ForeignKey) : List ReverseRelation :=
  (keys.filter (·.target == target)).filterMap (reverseRelation? source)

def buildModel (r : Registry) (d : ModelDecl) : Except Error Model := do
  let table := d.table.getD (Identifier.tableName d.name)
  let fields ← buildFields d
  let primaryKey ← resolveKey d fields
  let self : Target := ⟨table, fields, primaryKey, []⟩
  let foreignKeys ← fields.foldlM (r.addForeignKey self d.name) []
  let indexes ← buildIndexes d table fields
  pure {
    name := d.name
    table := table
    fields := fields
    primaryKey := primaryKey
    foreignKeys := foreignKeys
    indexes := indexes
    reverse := accessorsOn d.name d.name foreignKeys }

/-- Adds an accessor to the model named `target`. -/
def install (r : Registry) (target : String) (a : ReverseRelation) : Registry :=
  { r with models := r.models.map fun t =>
      if t.name = target then { t with reverse := t.reverse ++ [a] } else t }

/-- Installs the accessor of a key on the model that the key refers to. A model that refers to
itself has its own accessors already. -/
def installKey (m : Model) (r : Registry) (k : ForeignKey) : Registry :=
  match reverseRelation? m.name k with
  | some a => if k.target = m.name then r else r.install k.target a
  | none => r

/-- Registers a declaration, and leaves the registry as the call leaves it: everything is checked
before anything is written. The accessors of other models are written first, then the model. -/
def enroll (r : Registry) (d : ModelDecl) : Except Error Model × Registry :=
  if (r.find? d.name).isSome then (.error (.declaration (.alreadyRegistered d.name)), r)
  else
    match r.buildModel d with
    | .error e => (.error e, r)
    | .ok m =>
      let installed := m.foreignKeys.foldl (installKey m) r
      (.ok m, { installed with models := installed.models ++ [m] })

/-- Registers the declaration of an entity type on its first use. -/
def enrollEntity (r : Registry) (d : ModelDecl) : Except Error Model × Registry :=
  match if r.entities.contains d.name then r.find? d.name else none with
  | some m => (.ok m, r)
  | none =>
    match r.enroll d with
    | (.ok m, r) => (.ok m, { r with entities := r.entities ++ [d.name] })
    | (.error e, r) => (.error e, r)

/-- A call for those who go on only after a success. -/
def completed (call : Except Error Model × Registry) : Except Error (Model × Registry) :=
  call.1.map fun m => (m, call.2)

def register (r : Registry) (d : ModelDecl) : Except Error (Model × Registry) :=
  completed (r.enroll d)

def registerEntity (r : Registry) (d : ModelDecl) : Except Error (Model × Registry) :=
  completed (r.enrollEntity d)

def registerAll (r : Registry) (ds : List ModelDecl) : Except Error Registry :=
  ds.foldlM (fun r d => (r.register d).map Prod.snd) r

end Registry

end SqlMapper
