import SqlMapper.Driver
import SqlMapper.Entity
import SqlMapper.Query.Related
import SqlMapper.Statement

/-!
# SqlMapper.Executor

Running statements on a connection.

Every call compiles its statement first, so that a statement that cannot be compiled never reaches
the driver. What the driver answers is passed on as it is. Rows become records of the model that
was selected from, and values of an entity type if the caller has one.
-/

namespace SqlMapper

structure Executor (σ : Type) where
  driver : Driver σ
  dialect : Dialect
  /-- Asked for the models that relations lead to. -/
  registry : Registry

/-- What a job works with: a connection, and the supply of computed defaults. -/
structure Workplace (σ : Type) where
  connection : σ
  supply : Supply

/-- A job that fails leaves its workplace as it is at that point. -/
abbrev Job (σ α : Type) := ExceptT Failure (StateM (Workplace σ)) α

namespace Job

variable {σ α : Type}

/-- A step that draws from the supply. -/
def drawing (f : Supply → Except Error α × Supply) : Job σ α :=
  ExceptT.mk fun w =>
    let (r, supply) := f w.supply
    (Outcome.ofExcept r, { w with supply })

def calling (f : σ → Outcome α × σ) : Job σ α :=
  ExceptT.mk fun w =>
    let (r, connection) := f w.connection
    (r, { w with connection })

def lift (r : Except Error α) : Job σ α := ExceptT.mk (pure (Outcome.ofExcept r))

end Job

namespace Executor

variable {σ α : Type} (x : Executor σ)

def compile (st : Statement) : Job σ Rendered :=
  Job.drawing (st.compile x.dialect)

def fetchAll (st : Statement) : Job σ (List Row) := do
  let r ← x.compile st
  Job.calling (x.driver.query r.sql r.params)

def fetchOne (st : Statement) : Job σ (Option Row) := do
  let r ← x.compile st
  Job.calling (x.driver.queryOne r.sql r.params)

def execute (st : Statement) : Job σ Int := do
  let r ← x.compile st
  Job.calling (x.driver.execute r.sql r.params)

/-- The number of the row that was made. -/
def insert (i : Insert) : Job σ Int := do
  let r ← x.compile (.insert i)
  Job.calling (x.driver.insert r.sql r.params)

/-! ## Records -/

def fetchRecords (q : Select) : Job σ (List Record) := do
  match q.model? with
  | none => Job.lift (.error (.query .noModelToDecode))
  | some source =>
    let rows ← x.fetchAll (.query (.simple q))
    rows.mapM fun row => Job.drawing (Record.ofRow source.model row)

/-- The records behind an accessor. `home` is the registry of the record's own model. -/
def relatedRecords (home : Registry) (r : Record) (accessor : String) : Job σ (List Record) := do
  match ← Job.lift (r.relatedQuery x.registry home accessor) with
  | some q => x.fetchRecords q
  | none => return []

/-- Fetches the records behind an accessor and keeps them in the record. Gives their number, and the
record as it is afterwards. -/
def refreshRelated (home : Registry) (r : Record) (accessor : String) :
    StateM (Workplace σ) (Outcome Nat × Record) := do
  match ← (x.relatedRecords home r accessor).run with
  | .error e => return (.error e, r)
  | .ok records =>
    match r.cacheRelated home accessor records with
    | .error e => return (.failed e, r)
    | .ok filled => return (.ok records.length, filled)

/-- As `refreshRelated`, for a caller that has no use for the record of a failed call. -/
def fetchRelated (home : Registry) (r : Record) (accessor : String) : Job σ (Nat × Record) :=
  ExceptT.mk do
    let (n, r) ← x.refreshRelated home r accessor
    return n.map (·, r)

/-! ## Entities -/

def selectEntities (e : Entity α) (q : Select) : Job σ (List α) := do
  let records ← x.fetchRecords q
  Job.lift (records.mapM e.ofRecord)

/-- The entity whose primary key is `key`. `m` is the model of the entity type. -/
def getByKey (e : Entity α) (m : Model) (key : Value) : Job σ (Option α) := do
  let f ← Job.lift m.singleKey
  let found ← x.selectEntities e ((Select.matching m f.name key).limited 1)
  return found.getLast?

/-- Inserts an entity. A key that is not assigned yet is left to the database. -/
def save (e : Entity α) (m : Model) (a : α) : Job σ Int :=
  x.insert ((Insert.of ⟨m, none⟩).valueRows [e.toRow a])

end Executor

end SqlMapper
