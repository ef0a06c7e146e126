import SqlMapper.Heap
import SqlMapper.Transaction.Session

/-!
# SqlMapper.Pool.Basic

A bounded pool of connections.

* `Pool`: the idle connections, the numbers of those that are lent out, and the places kept for
  those that are being opened.
* `Pool.checkIn`: takes a connection back, or gives it to the caller to be closed.
* `Pool.closeIdle`, `Pool.closeStale`, `Pool.close`: take idle connections out to be closed.

Time is counted in milliseconds. Every function here is one step that no other can interrupt;
`SqlMapper.Pool.Acquire` has what takes several steps.
-/

namespace SqlMapper

structure PoolConfig where
  /-- Bound on open connections, idle and lent out together. -/
  maxConnections : Nat
  /-- Idle connections that are older are closed and not lent out. -/
  staleTimeout : Option Nat
  deriving DecidableEq

namespace PoolConfig

def ofMax (maxConnections : Nat) : PoolConfig := ⟨maxConnections, none⟩

instance : Inhabited PoolConfig := ⟨ofMax 10⟩

def validate (c : PoolConfig) : Except Error Unit :=
  if c.maxConnections = 0 then .error (.pool .noConnectionsAllowed) else .ok ()

end PoolConfig

/-- What happened to a pool so far. -/
structure PoolCounts where
  created : Nat
  /-- Closed or discarded. -/
  closed : Nat
  /-- Closed because they were stale. -/
  evicted : Nat
  /-- Connections lent out. -/
  acquires : Nat
  /-- Requests refused because the pool was full. -/
  exhausted : Nat
  deriving DecidableEq

structure PoolStats where
  /-- Idle, lent out or being opened. -/
  total : Nat
  idle : Nat
  active : Nat
  counts : PoolCounts
  deriving DecidableEq

structure IdleConnection (σ : Type) where
  connection : σ
  id : Nat
  returnedAt : Nat

namespace IdleConnection

variable {σ : Type}

/-- The connection that was returned first comes first, of two at one time the older one. -/
def before (a b : IdleConnection σ) : Bool :=
  a.returnedAt < b.returnedAt || (a.returnedAt == b.returnedAt && a.id < b.id)

def isStale (now : Nat) (timeout : Option Nat) (c : IdleConnection σ) : Bool :=
  timeout.any fun t => t < now - c.returnedAt

end IdleConnection

structure Pool (σ : Type) where
  config : PoolConfig
  /-- A heap: the connection to be lent out next is at its root. -/
  idle : Array (IdleConnection σ)
  /-- The numbers of the connections that are lent out. -/
  inUse : List Nat
  /-- Number of places kept for connections that are being opened. -/
  creating : Nat
  nextId : Nat
  closed : Bool
  counts : PoolCounts

/-- A connection that is lent out. -/
structure Lease (σ : Type) where
  id : Nat
  session : Session σ

namespace Pool

variable {σ : Type}

def new (config : PoolConfig) : Except Error (Pool σ) :=
  config.validate.map fun _ => ⟨config, #[], [], 0, 1, false, ⟨0, 0, 0, 0, 0⟩⟩

def total (p : Pool σ) : Nat := p.idle.size + p.inUse.length + p.creating

def stats (p : Pool σ) : PoolStats := ⟨p.total, p.idle.size, p.inUse.length, p.counts⟩

/-! ## Returning -/

/-- Takes a connection back. A closed pool keeps none, and no pool keeps one that has to be
discarded: the caller gets it and closes it. -/
def checkIn (now : Nat) (p : Pool σ) (lease : Lease σ) : Option σ × Pool σ :=
  let p := { p with inUse := p.inUse.erase lease.id }
  if lease.session.mustDiscard || p.closed then
    (some lease.session.connection, { p with counts.closed := p.counts.closed + 1 })
  else
    let entry := ⟨lease.session.connection, lease.id, now⟩
    (none, { p with idle := Heap.push IdleConnection.before p.idle entry })

/-! ## Closing -/

/-- Takes out the idle connections that are not to be kept, in the order of the heap. -/
def drainIdle (keep : IdleConnection σ → Bool) (p : Pool σ) : List (IdleConnection σ) × Pool σ :=
  let (kept, drained) := p.idle.toList.partition keep
  (drained, { p with
    idle := Heap.ofArray IdleConnection.before kept.toArray
    counts.closed := p.counts.closed + drained.length })

def closeIdle (p : Pool σ) : List (IdleConnection σ) × Pool σ :=
  p.drainIdle fun _ => false

def closeStale (now : Nat) (p : Pool σ) : List (IdleConnection σ) × Pool σ :=
  let (drained, p) := p.drainIdle fun c => !c.isStale now p.config.staleTimeout
  (drained, { p with counts.evicted := p.counts.evicted + drained.length })

/-- Refuses all requests from now on. Connections that are lent out are closed as they come
back. -/
def close (p : Pool σ) : List (IdleConnection σ) × Pool σ :=
  { p with closed := true }.closeIdle

end Pool

end SqlMapper
