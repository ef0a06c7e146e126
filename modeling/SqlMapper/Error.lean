/-!
# SqlMapper.Error

What can go wrong between a model declaration and a row.

* `ErrorKind`: the stable classification that callers branch on.
* One inductive type of causes per stage (`DeclarationError`, `RelationError`, …), each with its
  wording in `text`.
* `Error`: a cause found by this library, or a report of a driver or of application code, which is
  passed on with the kind, message and source that it came with.
* `Error.message`: the wording with the lead that its kind gives it.
-/

namespace SqlMapper

inductive ErrorKind
  | configuration
  | relation
  | compilation
  | capacity
  | poolClosed
  | poolConfig
  | integrity
  | operational
  | driver
  | conflict
  | conversion
  | query
  | transaction
  | custom
  deriving DecidableEq

namespace ErrorKind

def label : ErrorKind → String
  | configuration => "configuration"
  | relation => "relation"
  | compilation => "compilation"
  | capacity => "capacity"
  | poolClosed => "pool_closed"
  | poolConfig => "pool_config"
  | integrity => "integrity"
  | operational => "operational"
  | driver => "driver"
  | conflict => "conflict"
  | conversion => "conversion"
  | query => "query"
  | transaction => "transaction"
  | custom => "custom"

def ofLabel? (l : String) : Option ErrorKind :=
  [configuration, relation, compilation, capacity, poolClosed, poolConfig, integrity, operational,
    driver, conflict, conversion, query, transaction, custom].find? (·.label == l)

/-- Trying again can help against a concurrent writer and against a pool that is full. -/
def retryable (k : ErrorKind) : Bool :=
  k == conflict || k == capacity

/-- The kinds that a driver or a pool reports. -/
def ofConnection : ErrorKind → Bool
  | capacity | poolClosed | poolConfig | integrity | operational | driver => true
  | _ => false

/-- What stands before the wording; `custom` errors stand alone. -/
def lead : ErrorKind → String
  | configuration => "configuration error: "
  | relation => "relation error: "
  | compilation => "compilation error: "
  | capacity | poolClosed | poolConfig => "pool error: "
  | integrity => "integrity error: "
  | operational => "operational error: "
  | driver => "driver error: "
  | conflict => "conflict: "
  | conversion => "conversion error: "
  | query => "query error: "
  | transaction => "transaction error: "
  | custom => ""

end ErrorKind

/-! ## Causes -/

/-- A declaration that the registry refuses, or a model that it does not hold. `key` is written
`Model.field`. -/
inductive DeclarationError
  | alreadyRegistered (model : String)
  | notRegistered (model : String)
  | unmarkedId (model : String)
  | duplicateField (field model : String)
  | duplicateColumn (column model : String)
  | unknownField (model field : String)
  | twoKindsOfKey (model : String)
  | emptyCompositeKey (model : String)
  | severalKeyFields (model : String)
  | unregisteredTarget (key target : String)
  | missingTargetField (key target field : String)
  | targetWithoutKey (key target : String)
  | accessorTaken (accessor key target : String)
  deriving DecidableEq

def DeclarationError.text : DeclarationError → String
  | alreadyRegistered model => s!"model {model} is already registered"
  | notRegistered model => s!"model {model} is not registered"
  | unmarkedId model => s!"model {model} declares a field named 'id' without marking a primary key"
  | duplicateField field model => s!"duplicate field name '{field}' on model {model}"
  | duplicateColumn column model => s!"duplicate column '{column}' on model {model}"
  | unknownField model field => s!"model {model} has no field '{field}'"
  | twoKindsOfKey model => s!"model {model} declares both a composite key and a primary key field"
  | emptyCompositeKey model => s!"model {model} declares an empty composite key"
  | severalKeyFields model =>
    s!"model {model} marks more than one field as primary key; use a composite key"
  | unregisteredTarget key target => s!"foreign key {key} references unregistered model {target}"
  | missingTargetField key target field =>
    s!"foreign key {key} references missing field {target}.{field}"
  | targetWithoutKey key target =>
    s!"foreign key {key} references {target} which has no single-column primary key"
  | accessorTaken accessor key target =>
    s!"reverse accessor '{accessor}' for {key} clashes with an existing name on {target}"

/-- No foreign key, or more than one, where a join needs exactly one. -/
inductive RelationError
  | unrelated (source target : String)
  | ambiguous (source target : String) (candidates : List String)
  | notRelatedBy (field source target : String)
  | notAModel (source : String)
  | noForeignKey (model field : String)
  deriving DecidableEq

def RelationError.text : RelationError → String
  | unrelated source target => s!"no foreign key relates {source} and {target}"
  | ambiguous source target candidates =>
    let listed := ", ".intercalate candidates
    s!"ambiguous join between {source} and {target}: candidates {listed}; give an explicit join condition"
  | notRelatedBy field source target => s!"field '{field}' does not relate {source} and {target}"
  | notAModel source => s!"cannot infer a join from {source}; give an explicit condition"
  | noForeignKey model field => s!"{model} has no foreign key '{field}'"

/-- A clause that some dialects lack altogether. -/
inductive Feature
  | distinctOn
  | forUpdate
  | nullsOrdering
  | returning
  | updateFrom
  | deleteUsing
  | conflictTargets
  deriving DecidableEq

def Feature.text : Feature → String
  | distinctOn => "DISTINCT ON"
  | forUpdate => "FOR UPDATE"
  | nullsOrdering => "NULLS FIRST/LAST"
  | returning => "RETURNING"
  | updateFrom => "UPDATE ... FROM"
  | deleteUsing => "DELETE ... USING"
  | conflictTargets => "conflict targets or conditions"

/-- A statement that has no spelling in the dialect. -/
inductive CompilationError
  | unsupported (dialect : String) (feature : Feature)
  | operandOrdered (dialect : String)
  | noBitwiseXor (dialect : String)
  | noReplace (dialect : String)
  | namedConstraint (dialect : String)
  | conflictTargetRequired (dialect : String)
  | unnamedWindow
  | unknownSource (source : String)
  deriving DecidableEq

def CompilationError.text : CompilationError → String
  | unsupported dialect feature =>
    let clause := feature.text
    s!"{dialect} does not support {clause}"
  | operandOrdered dialect =>
    s!"{dialect} cannot apply ORDER BY or LIMIT to one side of a compound query"
  | noBitwiseXor dialect => s!"{dialect} has no bitwise XOR operator"
  | noReplace dialect => s!"{dialect} has no REPLACE; use an update conflict clause"
  | namedConstraint dialect => s!"{dialect} cannot target a named constraint"
  | conflictTargetRequired dialect => s!"{dialect} requires a conflict target for DO UPDATE"
  | unnamedWindow => "windows declared on a query must be named"
  | unknownSource source => s!"{source} is not a source of this query"

/-- A value that its field, or a row that its model, cannot take. -/
inductive ConversionError
  | integerOutOfRange (type : String)
  | invalidJson
  | uuidLength (bytes : Nat)
  | invalidUuid (text : String)
  | missingColumn (column : String)
  | notText (field : String)
  deriving DecidableEq

def ConversionError.text : ConversionError → String
  | integerOutOfRange type => s!"integer out of range for {type}"
  | invalidJson => "invalid JSON in column"
  | uuidLength bytes => s!"expected 16 bytes for UUID, got {bytes}"
  | invalidUuid text => s!"invalid UUID: {text}"
  | missingColumn column => s!"column '{column}' not present in row"
  | notText field => s!"{field} is not text"

/-- Misuse of the query builders or of a record. -/
inductive QueryError
  | invalidIdentifier (role name : String)
  | unknownField (model field : String)
  | aliasCollides (name model : String)
  | unknownRelation (model accessor : String)
  | nothingSelected
  | notASource (source : String)
  | joinWithoutFrom
  | sourceRepeated (source : String)
  | attributeCollides (name model : String)
  | excludedOutsideConflict
  | betweenBounds
  | missingValue (model field : String) (row : Nat)
  | emptyConflictUpdate
  | nothingSet (model : String)
  | noModelToDecode
  | noSingleKey (model : String)
  deriving DecidableEq

def QueryError.text : QueryError → String
  | invalidIdentifier role name => s!"invalid {role} '{name}'"
  | unknownField model field => s!"model {model} has no field '{field}'"
  | aliasCollides name model => s!"alias '{name}' collides with an accessor on {model}"
  | unknownRelation model accessor => s!"{model} has no relation named '{accessor}'"
  | nothingSelected => "a SELECT without FROM needs explicit columns"
  | notASource source => s!"{source} is not part of this query"
  | joinWithoutFrom => "cannot join without a FROM source"
  | sourceRepeated source => s!"{source} is already part of this query; alias it to join it again"
  | attributeCollides name model =>
    s!"join attribute '{name}' collides with an accessor on {model}"
  | excludedOutsideConflict => "EXCLUDED is only available in a conflict update"
  | betweenBounds => "BETWEEN takes exactly two bounds"
  | missingValue model field row => s!"missing value for {model}.{field} in row {row}"
  | emptyConflictUpdate => "a conflict update needs at least one assignment"
  | nothingSet model => s!"UPDATE of {model} has nothing to set"
  | noModelToDecode => "select has no model to decode rows into"
  | noSingleKey model => s!"{model} has no single-column primary key"

/-- Misuse of a transaction scope. -/
inductive TransactionError
  | nothingToCommit
  | nothingToRollBack
  | broken (action : String)
  | closedAtDepth (depth outer : Nat)
  | scopeOutOfOrder (depth current : Nat)
  deriving DecidableEq

def TransactionError.text : TransactionError → String
  | nothingToCommit => "no transaction to commit"
  | nothingToRollBack => "no transaction to roll back"
  | broken action => s!"cannot {action}: an earlier rollback failed and the connection is broken"
  | closedAtDepth depth outer => s!"transaction scope closed at depth {depth} instead of {outer}"
  | scopeOutOfOrder depth current =>
    s!"scope at depth {depth} closed while depth {current} is open"

/-- Why a pool hands out no connection. -/
inductive PoolError
  | exhausted (maxConnections : Nat)
  | closed
  | noConnectionsAllowed
  deriving DecidableEq

namespace PoolError

def kind : PoolError → ErrorKind
  | exhausted _ => .capacity
  | closed => .poolClosed
  | noConnectionsAllowed => .poolConfig

def text : PoolError → String
  | exhausted maxConnections =>
    s!"connection pool exhausted (max_connections = {maxConnections})"
  | closed => "connection pool is closed"
  | noConnectionsAllowed => "max_connections must be at least 1"

end PoolError

/-- A call that did not run to its end, told to a caller who only knows errors. -/
inductive Interruption
  | cancelled
  | panicked
  deriving DecidableEq

def Interruption.text : Interruption → String
  | cancelled => "cancelled"
  | panicked => "panicked"

/-! ## Errors -/

/-- What a driver or application code says about a failure of its own. -/
structure Report where
  kind : ErrorKind
  text : String
  source : Option String
  deriving DecidableEq

inductive Error
  | declaration (cause : DeclarationError)
  | relation (cause : RelationError)
  | compilation (cause : CompilationError)
  | conversion (cause : ConversionError)
  | query (cause : QueryError)
  | transaction (cause : TransactionError)
  | pool (cause : PoolError)
  | interrupted (cause : Interruption)
  | reported (report : Report)
  deriving DecidableEq

namespace Error

def kind : Error → ErrorKind
  | declaration _ => .configuration
  | relation _ => .relation
  | compilation _ => .compilation
  | conversion _ => .conversion
  | query _ => .query
  | transaction _ => .transaction
  | pool cause => cause.kind
  | interrupted _ => .custom
  | reported report => report.kind

def text : Error → String
  | declaration cause => cause.text
  | relation cause => cause.text
  | compilation cause => cause.text
  | conversion cause => cause.text
  | query cause => cause.text
  | transaction cause => cause.text
  | pool cause => cause.text
  | interrupted cause => cause.text
  | reported report => report.text

/-- The failure beneath a failure. Drivers and pools tell of one. -/
def source : Error → Option String
  | reported report => if report.kind.ofConnection then report.source else none
  | _ => none

def message (e : Error) : String :=
  e.kind.lead ++ e.text

def retryable (e : Error) : Bool :=
  e.kind.retryable

end Error

end SqlMapper
