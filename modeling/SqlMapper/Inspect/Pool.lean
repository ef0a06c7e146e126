import SqlMapper.Pool.Basic
import SqlMapper.Json.Basic

/-!
# SqlMapper.Inspect.Pool

The state of a pool as a JSON document, for monitors.
-/

namespace SqlMapper

def PoolStats.inspect (s : PoolStats) : Json :=
  .ofMembers [("total", .ofNat s.total), ("idle", .ofNat s.idle), ("active", .ofNat s.active),
    ("created", .ofNat s.counts.created), ("closed", .ofNat s.counts.closed),
    ("evicted", .ofNat s.counts.evicted), ("acquires", .ofNat s.counts.acquires),
    ("exhausted", .ofNat s.counts.exhausted)]

end SqlMapper
