import SqlMapper.Pool.Basic

/-!
# SqlMapper.Pool.Acquire

Asking a pool for a connection.

`Pool.decide` is one step: it sorts out stale connections and says what the request gets. What is
left to do takes time, in which others use the pool: first the stale connections are closed one by
one, then a connection may have to be opened. An `Acquire` is a request on this way, and
`Acquire.abandon` is what remains when nobody waits for it any more.
-/

namespace SqlMapper

inductive Pool.Decision (σ : Type)
  /-- An idle connection, lent out already. -/
  | reuse (entry : IdleConnection σ)
  /-- A place for a connection that is to be opened, and its number. -/
  | create (id : Nat)
  | exhausted
  | closed

namespace Pool

variable {σ : Type}

/-- Takes connections out in order until one is live; the stale ones on the way are taken out as
well. At most `steps` connections are looked at. -/
def popLive (now : Nat) (timeout : Option Nat) :
    Nat → Array (IdleConnection σ) →
      List (IdleConnection σ) × Option (IdleConnection σ) × Array (IdleConnection σ)
  | 0, idle => ([], none, idle)
  | steps + 1, idle =>
    match Heap.pop? IdleConnection.before idle with
    | none => ([], none, idle)
    | some (entry, rest) =>
      if entry.isStale now timeout then
        let (stale, live, rest) := popLive now timeout steps rest
        (entry :: stale, live, rest)
      else ([], some entry, rest)

/-- Places the request: with an idle connection if a live one is left, else with a new one if the
pool has room. Also gives the stale connections that have to be closed. -/
def decide (now : Nat) (p : Pool σ) : Decision σ × List (IdleConnection σ) × Pool σ :=
  if p.closed then (.closed, [], p)
  else
    let (stale, live, idle) := popLive now p.config.staleTimeout p.idle.size p.idle
    let p := { p with
      idle := idle
      counts.evicted := p.counts.evicted + stale.length
      counts.closed := p.counts.closed + stale.length }
    match live with
    | some entry =>
      (.reuse entry, stale, { p with
        inUse := entry.id :: p.inUse
        counts.acquires := p.counts.acquires + 1 })
    | none =>
      if p.total < p.config.maxConnections then
        (.create p.nextId, stale, { p with creating := p.creating + 1, nextId := p.nextId + 1 })
      else
        (.exhausted, stale, { p with counts.exhausted := p.counts.exhausted + 1 })

/-- The connection for a kept place is open. -/
def fulfil (id : Nat) (p : Pool σ) : Pool σ :=
  { p with
    creating := p.creating - 1
    inUse := id :: p.inUse
    counts.created := p.counts.created + 1
    counts.acquires := p.counts.acquires + 1 }

/-- No connection comes for a kept place. -/
def giveBack (p : Pool σ) : Pool σ := { p with creating := p.creating - 1 }

end Pool

/-- A request that no stale connection stands in the way of. -/
inductive Placement (σ : Type)
  /-- A connection is being opened. -/
  | opening (id : Nat)
  | settled (result : Outcome (Lease σ))

def Pool.Decision.placement {σ : Type} (maxConnections : Nat) : Pool.Decision σ → Placement σ
  | reuse entry => .settled (.ok ⟨entry.id, Session.fresh entry.connection⟩)
  | create id => .opening id
  | exhausted => .settled (.error (.error (.pool (.exhausted maxConnections))))
  | closed => .settled (.error (.error (.pool .closed)))

/-- A request on its way. -/
inductive Acquire (σ : Type)
  /-- A stale connection is being closed; others wait for the same. -/
  | evicting (current : IdleConnection σ) (waiting : List (IdleConnection σ))
      (decision : Pool.Decision σ)
  | placed (p : Placement σ)

namespace Acquire

variable {σ : Type}

/-- A request with the stale connections that are still to be closed. -/
def evict (maxConnections : Nat) (decision : Pool.Decision σ) :
    List (IdleConnection σ) → Acquire σ
  | [] => placed (decision.placement maxConnections)
  | current :: waiting => evicting current waiting decision

def start (now : Nat) (p : Pool σ) : Acquire σ × Pool σ :=
  let (decision, stale, q) := p.decide now
  (evict p.config.maxConnections decision stale, q)

/-- The stale connection that was being closed is closed, or failed to close. -/
def evicted (maxConnections : Nat) : Acquire σ → Acquire σ
  | evicting _ waiting decision => evict maxConnections decision waiting
  | placed p => placed p

/-- Opening came to an end. If no connection came of it, its place is given back. -/
def opened (id : Nat) (r : Outcome σ) (p : Pool σ) : Outcome (Lease σ) × Pool σ :=
  match r with
  | .ok connection => (.ok ⟨id, Session.fresh connection⟩, p.fulfil id)
  | .error f => (.error f, p.giveBack)

/-- What the pool is like when nobody waits for the request any more. A place is given back only
while its connection is being opened. -/
def abandon (p : Pool σ) : Acquire σ → Pool σ
  | placed (.opening _) => p.giveBack
  | _ => p

end Acquire

end SqlMapper
