import SqlMapper.Query.Fragment.Basic

/-!
# SqlMapper.Query.Fragment.Run

Running fragments: from left to right, with a stack of scopes and a counter for generated names.

* `Rendering`: the state of a run, and the pieces that it has put out.
* `Rendering.freshName`: the next name `t1`, `t2`, … that no visible source has or claims.
* `Fragment.run`, `Fragment.runAll`: a refusal stops the run, and scopes are left as they were.
* `Piece`: what a run puts out, and its text in a dialect.
-/

namespace SqlMapper

/-! ## Pieces of text -/

inductive Piece
  | text (s : String)
  | name (s : String)
  | param (v : Value)

namespace Piece

def param? : Piece → Option Value
  | param v => some v
  | _ => none

/-- The texts of pieces that `n` parameters stand before. -/
def texts (d : Dialect) (n : Nat) : List Piece → List String
  | [] => []
  | text s :: rest => s :: texts d n rest
  | name s :: rest => d.quote s :: texts d n rest
  | param _ :: rest => d.placeholder (n + 1) :: texts d (n + 1) rest

end Piece

/-- A statement as a driver takes it: text with placeholders, and their values in order. -/
structure Rendered where
  sql : String
  params : List Value

def Rendered.ofPieces (d : Dialect) (ps : List Piece) : Rendered :=
  ⟨String.join (Piece.texts d 0 ps), ps.filterMap Piece.param?⟩

/-! ## The state of a run -/

structure Rendering where
  scope : Scope
  /-- The scopes around it, the innermost first. -/
  enclosing : List Scope
  /-- The number of the last generated name. -/
  counter : Nat
  supply : Supply
  output : Array Piece

namespace Rendering

def start (s : Supply) : Rendering := ⟨{}, [], 0, s, #[]⟩

def put (r : Rendering) (p : Piece) : Rendering := { r with output := r.output.push p }

def putAll (r : Rendering) (ps : List Piece) : Rendering := ps.foldl put r

def scopes (r : Rendering) : List Scope := r.scope :: r.enclosing

/-- The name of a source in the innermost scope that knows it. -/
def lookup? (r : Rendering) (key : String) : Option String :=
  r.scopes.findSome? fun s => s.sources.lookup key

def lookup (r : Rendering) (key : String) : Except Error String :=
  match r.lookup? key with
  | some name => .ok name
  | none => .error (.compilation (.unknownSource key))

/-- The names that sources of any scope have or claim. -/
def taken (r : Rendering) : List String :=
  r.scopes.flatMap fun s => s.reserved ++ s.sources.map Prod.snd

def generatedName (n : Nat) : String := "t" ++ toString n

/-- The least number after the counter whose name is free. Among more numbers than there are
names taken, one is. -/
def freshNumber (r : Rendering) : Nat :=
  let free (i : Nat) : Bool := !r.taken.contains (generatedName (r.counter + 1 + i))
  r.counter + 1 + ((List.range (r.taken.length + 1)).find? free).getD 0

def freshName (r : Rendering) : String × Rendering :=
  let n := r.freshNumber
  (generatedName n, { r with counter := n })

/-- The name for a model that no scope knows yet. -/
def nameModel (r : Rendering) (m : ModelSource) : String × Rendering :=
  match m.givenName with
  | some name => (name, r)
  | none => if r.scope.byTable then (m.model.table, r) else r.freshName

def record (r : Rendering) (key name : String) : Rendering :=
  { r with scope := { r.scope with sources := r.scope.sources ++ [(key, name)] } }

/-- The name of a model, which becomes visible here if it is not so already. -/
def modelName (r : Rendering) (m : ModelSource) : String × Rendering :=
  match r.lookup? m.key with
  | some name => (name, r)
  | none =>
    let (name, r) := r.nameModel m
    (name, r.record m.key name)

def qualifierName (r : Rendering) : Qualifier → String × Rendering
  | .model m => r.modelName m
  | .table name => ((r.lookup? name).getD name, r)

/-- Makes a source visible in the present scope. -/
def enlist (r : Rendering) (o : Origin) : Rendering :=
  let (name, r) : String × Rendering := match o with
    | .model m => r.nameModel m
    | .table name => (name, r)
    | .derived name => (name, r)
  r.record o.key name

/-- The target of the innermost insert. -/
def proposal? (r : Rendering) : Option ModelSource := r.scopes.findSome? Scope.proposal

def enter (r : Rendering) (s : Scope) : Rendering :=
  { r with scope := s, enclosing := r.scope :: r.enclosing }

def leave (r : Rendering) : Rendering :=
  match r.enclosing with
  | s :: rest => { r with scope := s, enclosing := rest }
  | [] => r

def setBare (r : Rendering) (bare : Bool) : Rendering :=
  { r with scope := { r.scope with bare := bare } }

end Rendering

/-! ## Running -/

namespace Fragment

open Rendering

abbrev Result := Except Error Unit × Rendering

def runQualifier (q : Qualifier) (r : Rendering) : Result :=
  if r.scope.bare then (.ok (), r)
  else
    let (name, r) := r.qualifierName q
    (.ok (), r.putAll [.name name, .text "."])

def runModelTable (m : ModelSource) (r : Rendering) : Result :=
  let r := r.put (.name m.model.table)
  let (name, r) := r.modelName m
  (.ok (), if name = m.model.table then r else r.putAll [.text " AS ", .name name])

def runEquated (child childColumn parent parentColumn : String) (r : Rendering) : Result :=
  match r.lookup child, r.lookup parent with
  | .ok child, .ok parent =>
    (.ok (), r.putAll [.text " ON (", .name child, .text ".", .name childColumn, .text " = ",
      .name parent, .text ".", .name parentColumn, .text ")"])
  | .error e, _ => (.error e, r)
  | _, .error e => (.error e, r)

def runProposed (field : String) (r : Rendering) : Result :=
  match r.proposal? with
  | none => (.error (.query .excludedOutsideConflict), r)
  | some m =>
    match m.model.field field with
    | .ok f => (.ok (), r.put (.name f.column))
    | .error e => (.error e, r)

/-- NULL is bound as it is; any other default is encoded by its field. -/
def runDrawn (f : Field) (r : Rendering) : Result :=
  let (v, supply) := f.drawDefault r.supply
  let r := { r with supply := supply }
  let v := v.getD .null
  match if v.isNull then .ok v else f.encode v with
  | .ok v => (.ok (), r.put (.param v))
  | .error e => (.error e, r)

mutual

def run : Fragment → Rendering → Result
  | text s, r => (.ok (), r.put (.text s))
  | identifier s, r => (.ok (), r.put (.name s))
  | param v, r => (.ok (), r.put (.param v))
  | qualifier q, r => runQualifier q r
  | modelTable m, r => runModelTable m r
  | enlist o, r => (.ok (), r.enlist o)
  | equated child childColumn parent parentColumn, r =>
    runEquated child childColumn parent parentColumn r
  | proposed field, r => runProposed field r
  | drawn f, r => runDrawn f r
  | refuse e, r => (.error e, r)
  | nested s body, r => (runAll body (r.enter s)).map id leave
  | unqualified body, r => (runAll body (r.setBare true)).map id (·.setBare r.scope.bare)

def runAll : List Fragment → Rendering → Result
  | [], r => (.ok (), r)
  | f :: fs, r =>
    match run f r with
    | (.ok (), r) => runAll fs r
    | (.error e, r) => (.error e, r)

end

/-- The statement that the fragments make in a dialect, with defaults drawn from the supply. -/
def render (d : Dialect) (fs : List Fragment) (s : Supply) : Except Error Rendered × Supply :=
  let (outcome, r) := runAll fs (.start s)
  (outcome.map fun _ => .ofPieces d r.output.toList, r.supply)

end Fragment

end SqlMapper
