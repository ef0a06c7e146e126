import SqlMapper.Mutation.Basic
import SqlMapper.Query.Fragment.OfQuery

/-!
# SqlMapper.Mutation.Fragments

Inserts, updates and deletes as fragments.

Such a statement has a scope of its own, in which its table goes by the name that it has in the
database. The scope of an insert also knows the proposed row.
-/

namespace SqlMapper

open Fragment

/-! ## Parts of statements -/

/-- The scope of a statement that changes rows of a model. -/
def mutationScope (m : ModelSource) : Scope :=
  { sources := [(m.key, m.model.table)], byTable := true }

/-- The columns of fields, or the refusal of a name that no field has. -/
def columnsOf (m : Model) (fields : List String) (use : List String → List Fragment) :
    List Fragment :=
  match fields.mapM m.field with
  | .ok fs => use (fs.map Field.column)
  | .error e => [refuse e]

/-- One entry of a list of assignments. -/
def Assignment.fragments (d : Dialect) (m : Model) (a : Assignment) : List Fragment :=
  match m.field a.field with
  | .ok f => [identifier f.column, text " = "] ++ a.value.fragments d (some f)
  | .error e => [refuse e]

def returningFragments (d : Dialect) (es : List Expr) : List Fragment :=
  match es with
  | [] => []
  | _ => requiring d.returning (.unsupported d.name .returning)
      [text " RETURNING ", unqualified (commas (Expr.projectionFragments d es))]

def sourcesFragments (d : Dialect) (lead : String) (ss : List Source) : List Fragment :=
  listClause lead (ss.map (Source.fragments d))

/-! ## Inserts -/

/-- The verb of an insert says already what happens on a conflict, where the dialect has such a
verb. -/
def insertVerb (d : Dialect) : Option OnConflict → Fragment
  | none => text "INSERT INTO"
  | some c =>
    match d.conflict, c.action with
    | .sqlite, .ignore =>
      text (if c.target.isNone then "INSERT OR IGNORE INTO" else "INSERT INTO")
    | .sqlite, .replace => text "INSERT OR REPLACE INTO"
    | .mysql, .ignore => text "INSERT IGNORE INTO"
    | .mysql, .replace => text "REPLACE INTO"
    | .postgres, .replace => refuse (.compilation (.noReplace d.name))
    | _, _ => text "INSERT INTO"

def defaultRow (d : Dialect) : List Fragment :=
  match d.conflict with
  | .mysql => [text " () VALUES ()"]
  | .sqlite | .postgres => [text " DEFAULT VALUES"]

/-- Whether a row gives a field a value. NULL for a key that the database assigns is none. -/
def givesValue (f : Field) (row : List Assignment) : Bool :=
  row.any fun a => a.field == f.name && !(f.decl.autoIncrement && a.value.isNullLiteral)

/-- The fields of the column list: those that any row gives a value, and those whose default is
computed here. -/
def insertedFields (m : Model) (rows : List (List Assignment)) : List Field :=
  m.fields.filter fun f => rows.any (givesValue f) || f.hasComputedDefault

/-- The value of a field in one row of an insert. -/
def cell (d : Dialect) (m : Model) (row : Nat) (assignments : List Assignment) (f : Field) :
    List Fragment :=
  match assignments.find? (·.field == f.name) with
  | some a => a.value.fragments d (some f)
  | none =>
    if f.hasComputedDefault then [drawn f]
    else if f.decl.nullable || f.decl.autoIncrement then [param .null]
    else [refuse (.query (.missingValue m.name f.name (row + 1)))]

def insertedRows (d : Dialect) (m : Model) (rows : List (List Assignment)) : List Fragment :=
  match rows.flatten.mapM fun a => m.field a.field with
  | .error e => [refuse e]
  | .ok _ =>
    match insertedFields m rows with
    | [] => defaultRow d
    | fields =>
      let one (row : List Assignment) (i : Nat) : List Fragment :=
        parenthesized (commas (fields.map (cell d m i row)))
      enclosed " (" (names (fields.map Field.column)) ") VALUES " ++
        commas (rows.mapIdx fun i row => one row i)

def InsertSource.fragments (d : Dialect) (m : Model) : InsertSource → List Fragment
  | .rows rs => insertedRows d m rs
  | .query fields q =>
    columnsOf m fields (fun columns => enclosed " (" (names columns) ") ") ++ q.fragments d
  | .defaults => defaultRow d

/-- What a conflicting row is updated with: preserved fields, then assignments. -/
def conflictAssignments (d : Dialect) (m : Model) (c : OnConflict) : List Fragment :=
  let preserved (field : String) : List Fragment :=
    match m.field field with
    | .ok f => [identifier f.column, text " = "] ++ ofExcluded d field
    | .error e => [refuse e]
  match c.preserve.map preserved ++ c.assignments.map (Assignment.fragments d m) with
  | [] => [refuse (.query .emptyConflictUpdate)]
  | entries => commas entries

/-- The conflict clause where it has no target and no conditions. -/
def duplicateKeyClause (d : Dialect) (m : Model) (c : OnConflict) : List Fragment :=
  requiring (c.target.isNone && c.targetFilter.isNone && c.filter.isNone)
    (.unsupported d.name .conflictTargets)
    (if c.action = .update then
      text " ON DUPLICATE KEY UPDATE " :: conflictAssignments d m c
    else [])

def conflictTarget (d : Dialect) (m : Model) (c : OnConflict) : List Fragment :=
  match c.target with
  | some (.fields fields) =>
    columnsOf m fields (fun columns => enclosed " (" (names columns) ")") ++
      match c.targetFilter with
      | some filter => [text " WHERE ", unqualified (filter.fragments d)]
      | none => []
  | some (.constraint name) =>
    requiring (d.conflict ≠ .sqlite) (.namedConstraint d.name)
      [text " ON CONSTRAINT ", identifier name]
  | none => requiring (c.action ≠ .update) (.conflictTargetRequired d.name) []

def onConflictClause (d : Dialect) (m : Model) (c : OnConflict) : List Fragment :=
  text " ON CONFLICT" :: conflictTarget d m c ++
    if c.action = .update then
      text " DO UPDATE SET " :: conflictAssignments d m c ++
        Condition.clauseFragments d " WHERE " c.filter
    else [text " DO NOTHING"]

/-- The conflict clause of an insert; none where its verb says all. -/
def OnConflict.fragments (d : Dialect) (m : Model) (c : OnConflict) : List Fragment :=
  match d.conflict, c.action with
  | .mysql, _ => duplicateKeyClause d m c
  | _, .replace => []
  | .sqlite, .ignore => if c.target.isNone then [] else onConflictClause d m c
  | _, _ => onConflictClause d m c

def Insert.fragments (d : Dialect) (i : Insert) : List Fragment :=
  let m := i.into.model
  ofCtes i.ctes (Cte.listFragments d i.ctes) ++
    [nested { mutationScope i.into with proposal := some i.into }
      ([insertVerb d i.onConflict, text " ", identifier m.table] ++ i.source.fragments d m ++
        (i.onConflict.map (OnConflict.fragments d m)).getD [] ++
        returningFragments d i.returning)]

/-! ## Updates and deletes -/

def Update.fragments (d : Dialect) (u : Update) : List Fragment :=
  let m := u.table.model
  let body := match u.assignments with
    | [] => [refuse (.query (.nothingSet m.name))]
    | assignments =>
      requiring (u.sources.isEmpty || d.updateFrom) (.unsupported d.name .updateFrom)
        (u.sources.map (fun s => enlist s.origin) ++
          [text "UPDATE ", identifier m.table, text " SET "] ++
          commas (assignments.map (Assignment.fragments d m)) ++
          sourcesFragments d " FROM " u.sources ++
          Condition.clauseFragments d " WHERE " u.filter ++ returningFragments d u.returning)
  ofCtes u.ctes (Cte.listFragments d u.ctes) ++ [nested (mutationScope u.table) body]

def Delete.fragments (d : Dialect) (x : Delete) : List Fragment :=
  let body := requiring (x.sources.isEmpty || d.deleteUsing) (.unsupported d.name .deleteUsing)
    (x.sources.map (fun s => enlist s.origin) ++
      [text "DELETE FROM ", identifier x.table.model.table] ++
      sourcesFragments d " USING " x.sources ++
      Condition.clauseFragments d " WHERE " x.filter ++ returningFragments d x.returning)
  ofCtes x.ctes (Cte.listFragments d x.ctes) ++ [nested (mutationScope x.table) body]

end SqlMapper
