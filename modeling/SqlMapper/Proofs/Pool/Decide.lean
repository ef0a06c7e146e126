import SqlMapper.Pool.Acquire
import SqlMapper.Proofs.Pool.Heap

/-!
# SqlMapper.Proofs.Pool.Decide

What a request gets from a pool. `Pool.decided` says all that `Pool.decide` can do: no idle
connection is lost on the way, and a place is kept only below the bound.
-/

namespace SqlMapper.Pool

variable {σ : Type}

theorem popLive_perm (now : Nat) (timeout : Option Nat) (steps : Nat)
    (idle : Array (IdleConnection σ)) {stale : List (IdleConnection σ)}
    {live : Option (IdleConnection σ)} {rest : Array (IdleConnection σ)}
    (h : popLive now timeout steps idle = (stale, live, rest)) :
    (stale ++ (live.toList ++ rest.toList)).Perm idle.toList := by
  induction steps generalizing idle stale with
  | zero =>
    cases h
    exact List.Perm.refl _
  | succ steps ih =>
    unfold popLive at h
    split at h
    · cases h
      exact List.Perm.refl _
    · rename_i entry remaining hpop
      have hperm := Heap.pop?_perm hpop
      split at h
      · rcases hrec : popLive now timeout steps remaining with ⟨stale', live', rest'⟩
        simp only [hrec] at h
        cases h
        exact ((ih remaining hrec).cons entry).trans hperm
      · cases h
        exact hperm

/-- All that can come of a request: the decision, the stale connections, and the pool afterwards. -/
inductive Decided (p : Pool σ) : Decision σ × List (IdleConnection σ) × Pool σ → Prop
  | closed : p.closed = true → Decided p (.closed, [], p)
  | reuse {entry stale q} : p.closed = false →
    (stale ++ entry :: q.idle.toList).Perm p.idle.toList → q.inUse = entry.id :: p.inUse →
    q.creating = p.creating → q.nextId = p.nextId → q.config = p.config →
    Decided p (.reuse entry, stale, q)
  | create {stale q} : p.closed = false → (stale ++ q.idle.toList).Perm p.idle.toList →
    q.inUse = p.inUse → q.creating = p.creating + 1 → q.nextId = p.nextId + 1 →
    q.total ≤ p.config.maxConnections → q.config = p.config → Decided p (.create p.nextId, stale, q)
  | exhausted {stale q} : p.closed = false → (stale ++ q.idle.toList).Perm p.idle.toList →
    q.inUse = p.inUse → q.creating = p.creating → q.nextId = p.nextId → q.config = p.config →
    Decided p (.exhausted, stale, q)

theorem decide_of_closed {p : Pool σ} (h : p.closed = true) (now : Nat) :
    p.decide now = (.closed, [], p) := if_pos h

theorem decided (now : Nat) (p : Pool σ) : Decided p (p.decide now) := by
  unfold decide
  cases hclosed : p.closed with
  | true => exact .closed hclosed
  | false =>
    rcases hpop : popLive now p.config.staleTimeout p.idle.size p.idle with ⟨stale, live, rest⟩
    have hperm := popLive_perm _ _ _ _ hpop
    simp only [Bool.false_eq_true, if_false]
    cases live with
    | some entry => exact .reuse hclosed hperm rfl rfl rfl rfl
    | none =>
      dsimp only
      split
      · rename_i hroom
        refine .create hclosed hperm rfl rfl rfl ?_ rfl
        exact hroom
      · exact .exhausted hclosed hperm rfl rfl rfl rfl

end SqlMapper.Pool
