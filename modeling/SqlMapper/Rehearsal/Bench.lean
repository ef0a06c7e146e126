import SqlMapper.Pool.Acquire
import SqlMapper.Rehearsal.Scripted

/-!
# SqlMapper.Rehearsal.Bench

A pool in rehearsal: scripted connections, a clock that stands still unless it is told to go on,
and leases and scopes that are held by name.

A step that names a lease or a scope that is not held answers nothing. `Bench.log` has what happened
on the connections, each event with the serial number of its connection.
-/

namespace SqlMapper

/-- What comes of opening a connection, and how it behaves from then on. -/
structure ConnectionScript where
  opening : Outcome Unit
  rules : List ScriptRule
  closing : Except Error Unit

structure Bench where
  now : Nat
  pool : Pool Scripted
  /-- Number of connections that were opened, successfully or not. -/
  opened : Nat
  leases : List (String × Lease Scripted)
  /-- Scopes with the names of the leases that they are open on. -/
  scopes : List (String × String × TransactionScope)
  log : List (Nat × ScriptEvent)

/-- A change of the bench that answers something. -/
abbrev BenchStep := StateM Bench

namespace Bench

variable {α : Type}

def start (pool : Pool Scripted) : Bench := ⟨0, pool, 0, [], [], []⟩

def note (serial : Nat) (e : ScriptEvent) : BenchStep Unit :=
  modify fun b => { b with log := b.log ++ [(serial, e)] }

/-- Moves the log of a connection to the bench. -/
def collect (c : Scripted) : BenchStep Scripted := do
  let (log, c) := c.takeLog
  modify fun b => { b with log := b.log ++ log.map fun e => (c.serial, e) }
  return c

def takeLog : BenchStep (List (Nat × ScriptEvent)) :=
  modifyGet fun b => (b.log, { b with log := [] })

def advance (ms : Nat) : BenchStep Unit :=
  modify fun b => { b with now := b.now + ms }

def onPool (f : Pool Scripted → α × Pool Scripted) : BenchStep α :=
  modifyGet fun b =>
    let (a, pool) := f b.pool
    (a, { b with pool })

def closeConnection (c : Scripted) : BenchStep (Except Error Unit) := do
  let (r, c) := Scripted.driver.close c
  let _ ← collect c
  return r

/-! ## Leases -/

/-- Gives a connection back to the pool. It comes out again if it has to be closed. -/
def checkIn (lease : Lease Scripted) : BenchStep (Option Scripted) :=
  modifyGet fun b =>
    let (discarded, pool) := b.pool.checkIn b.now lease
    (discarded, { b with pool })

/-- Takes a lease from its holder. Scopes that are open on it are dropped before. -/
def takeLease (slot : String) : BenchStep (Option (Lease Scripted)) :=
  modifyGet fun b =>
    let hasScope := b.scopes.any fun (_, on, _) => on == slot
    let lease := (b.leases.lookup slot).map fun l =>
      if hasScope then { l with session := TransactionScope.drop l.session } else l
    (lease, { b with
      leases := b.leases.filter (·.1 != slot)
      scopes := b.scopes.filter (·.2.1 != slot) })

/-- Lets a lease go without closing a connection that is discarded. -/
def drop (slot : String) : BenchStep (Option Unit) := do
  match ← takeLease slot with
  | none => return none
  | some lease =>
    let _ ← checkIn lease
    return some ()

/-- Returns a lease; the outcome of closing counts if its connection is discarded. -/
def release (slot : String) : BenchStep (Option (Except Error Unit)) := do
  match ← takeLease slot with
  | none => return none
  | some lease =>
    match ← checkIn lease with
    | none => return some (.ok ())
    | some c => return some (← closeConnection c)

/-- Puts a lease into a slot; a lease that was there is dropped. -/
def hold (slot : String) (lease : Lease Scripted) : BenchStep Unit := do
  let _ ← drop slot
  modify fun b => { b with leases := (slot, lease) :: b.leases }

/-! ## Requests -/

/-- Closes the stale connections that stand in the way of a request. -/
def clear (maxConnections : Nat) (decision : Pool.Decision Scripted) :
    List (IdleConnection Scripted) → BenchStep (Placement Scripted)
  | [] => return decision.placement maxConnections
  | current :: waiting => do
    let _ ← closeConnection current.connection
    clear maxConnections decision waiting

/-- A request up to the point where a connection has to be opened. -/
def request : BenchStep (Placement Scripted) := do
  let now := (← get).now
  match ← onPool (Acquire.start now) with
  | .placed p => return p
  | .evicting current waiting decision =>
    clear (← get).pool.config.maxConnections decision (current :: waiting)

def openConnection (script : ConnectionScript) : BenchStep (Outcome Scripted) := do
  let serial := (← get).opened + 1
  modify fun b => { b with opened := serial }
  note serial .opened
  return script.opening.map fun _ => ⟨serial, script.rules, script.closing, []⟩

/-- Asks the pool for a connection, and opens one by the script if it has to be opened. -/
def acquire (slot : String) (script : ConnectionScript) :
    BenchStep (Outcome (Lease Scripted)) := do
  let r ← match ← request with
    | .settled r => pure r
    | .opening id => do
      let r ← openConnection script
      onPool (Acquire.opened id r)
  match r with
  | .ok lease => hold slot lease
  | .error _ => pure ()
  return r

/-- Asks the pool for a connection and gives up while one is being opened: the answer is the state
of the pool before that. A connection that is there at once is dropped. -/
def abandonAcquire : BenchStep (PoolStats ⊕ Outcome (Lease Scripted)) := do
  match ← request with
  | .settled r =>
    match r with
    | .ok lease => let _ ← checkIn lease
    | .error _ => pure ()
    return .inr r
  | .opening id => onPool fun p => (.inl p.stats, Acquire.abandon p (.placed (.opening id)))

/-! ## Sessions and scopes -/

/-- Runs a call on the session of a lease. -/
def onSession (slot : String) (f : Session Scripted → α × Session Scripted) :
    BenchStep (Option α) := do
  match (← get).leases.lookup slot with
  | none => return none
  | some lease =>
    let (a, s) := f lease.session
    let c ← collect s.connection
    let changed : Lease Scripted := { lease with session := { s with connection := c } }
    modify fun b => { b with
      leases := b.leases.map fun (name, l) => if name == slot then (name, changed) else (name, l) }
    return some a

/-- Runs a call on the connection of a lease. -/
def onConnection (slot : String) (f : Scripted → α × Scripted) : BenchStep (Option α) :=
  onSession slot fun s =>
    let (a, connection) := f s.connection
    (a, { s with connection })

def run (slot : String) (program : Program) : BenchStep (Option (Outcome Int)) :=
  onSession slot fun s => s.atomic Scripted.driver (program.run Scripted.driver Scripted.observe)

def takeScope (name : String) : BenchStep (Option (String × TransactionScope)) :=
  modifyGet fun b =>
    (b.scopes.lookup name, { b with scopes := b.scopes.filter (·.1 != name) })

def dropScope (name : String) : BenchStep (Option Unit) := do
  match ← takeScope name with
  | none => return none
  | some (slot, _) => onSession slot fun s => ((), TransactionScope.drop s)

/-- Opens a scope on a lease; a scope that had the name is dropped. -/
def openScope (name slot : String) : BenchStep (Option (Outcome TransactionScope)) := do
  let r ← onSession slot (TransactionScope.start Scripted.driver)
  match r with
  | some (.ok scope) =>
    let _ ← dropScope name
    modify fun b => { b with scopes := (name, slot, scope) :: b.scopes }
  | _ => pure ()
  return r

def finishScope (name : String) (how : Finish) : BenchStep (Option (Outcome Unit)) := do
  match ← takeScope name with
  | none => return none
  | some (slot, scope) => onSession slot (scope.finish Scripted.driver how)

/-! ## Closing -/

/-- Closes the connections that the pool puts out, and counts them. -/
def closing (f : Pool Scripted → List (IdleConnection Scripted) × Pool Scripted) :
    BenchStep Nat := do
  let drained ← onPool f
  for c in drained do
    let _ ← closeConnection c.connection
  return drained.length

def closeIdle : BenchStep Nat := closing Pool.closeIdle

def closeStale : BenchStep Nat := do
  let now := (← get).now
  closing (Pool.closeStale now)

def close : BenchStep Nat := closing Pool.close

end Bench

end SqlMapper
