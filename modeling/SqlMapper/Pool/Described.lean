import SqlMapper.Pool.Basic
import SqlMapper.Text.Described

/-!
# SqlMapper.Pool.Described

How pools, connections that are lent out, and scopes show themselves to a developer.
-/

namespace SqlMapper

def PoolConfig.described (c : PoolConfig) : String :=
  Described.record "PoolConfig"
    [("max_connections", toString c.maxConnections),
      ("stale_timeout", Described.option (c.staleTimeout.map Described.milliseconds))]

def PoolStats.described (s : PoolStats) : String :=
  Described.record "PoolStats"
    [("total", toString s.total), ("idle", toString s.idle), ("active", toString s.active),
      ("created", toString s.counts.created), ("closed", toString s.counts.closed),
      ("evicted", toString s.counts.evicted), ("acquires", toString s.counts.acquires),
      ("exhausted", toString s.counts.exhausted)]

def Pool.described {σ : Type} (p : Pool σ) : String :=
  Described.record "Pool" [("config", p.config.described), ("stats", p.stats.described)]

def Lease.described {σ : Type} (l : Lease σ) : String :=
  Described.record "PooledConnection"
    [("id", toString l.id), ("broken", toString l.session.broken),
      ("depth", toString l.session.depth)]

/-- A scope that is finished is shown to nobody. -/
def TransactionScope.described (s : TransactionScope) : String :=
  Described.record "TransactionScope" [("depth", toString s.depth), ("finished", "false")]

end SqlMapper
