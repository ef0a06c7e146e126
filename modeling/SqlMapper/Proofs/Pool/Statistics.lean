import Mathlib.Data.Multiset.UnionInter
import SqlMapper.Proofs.Pool.System

/-!
# SqlMapper.Proofs.Pool.Statistics

The statistics of a pool, whatever goes on around it.

* `PoolCounts.answered`: what a request does to the counts.
* `System.Run`: a run with the number of idle connections that were handed out on the way.
* `System.Counted`: what every step keeps of the counts.
* `System.statistics_balanced`: so every connection that was ever created is idle, lent out or
  closed, and every acquire got a new connection or an idle one.
-/

namespace SqlMapper

variable {σ : Type}

/-! ## Counts -/

/-- The counts after a request has got `decision`, with `stale` connections out of its way. -/
def PoolCounts.answered (c : PoolCounts) (decision : Pool.Decision σ) (stale : Nat) :
    PoolCounts where
  created := c.created
  closed := c.closed + stale
  evicted := c.evicted + stale
  acquires := c.acquires + decision.loans.card
  exhausted := c.exhausted + match decision with
    | .exhausted => 1
    | _ => 0

namespace Pool

variable {p q : Pool σ} {decision : Decision σ} {stale : List (IdleConnection σ)} {now : Nat}

theorem counts_decide (h : p.decide now = (decision, stale, q)) :
    q.counts = p.counts.answered decision stale.length := by
  unfold decide at h
  split at h
  · cases h
    rfl
  · rcases hpop : popLive now p.config.staleTimeout p.idle.size p.idle with ⟨stale', live, idle⟩
    simp only [hpop] at h
    cases live with
    | some entry =>
      cases h
      rfl
    | none =>
      dsimp only at h
      split at h <;> cases h <;> rfl

theorem Decided.size_eq (h : Decided p (decision, stale, q)) :
    q.idle.size + q.inUse.length + stale.length = p.idle.size + p.inUse.length := by
  simpa [idleIds, IdleConnection.ids, Nat.add_assoc] using congrArg Multiset.card h.numbers_eq

theorem Decided.loans_le (h : Decided p (decision, stale, q)) : decision.loans ≤ p.idleIds := by
  cases h with
  | closed | create | exhausted => exact Multiset.zero_le _
  | reuse _ hidle =>
    rw [idleIds, ← IdleConnection.ids_of_perm hidle, IdleConnection.ids_append,
      IdleConnection.ids_cons, add_left_comm]
    exact Multiset.le_add_right _ _

theorem drainIdle_size (keep : IdleConnection σ → Bool) (p : Pool σ) :
    (p.drainIdle keep).2.idle.size + (p.drainIdle keep).1.length = p.idle.size := by
  have hkept := (p.idle_drainIdle keep).length_eq
  have hsplit := List.length_eq_length_filter_add (l := p.idle.toList) keep
  have hdrained : (p.drainIdle keep).1 = p.idle.toList.filter (!keep ·) :=
    congrArg Prod.snd (List.partition_eq_filter_filter ..)
  rw [Array.length_toList] at hkept hsplit
  rw [hkept, hsplit, hdrained]

end Pool

/-! ## Runs -/

namespace System

variable {s t : System σ} {n : Nat}

/-- The number of connections that are idle in `s` and lent out in `t`. -/
def handedOut (s t : System σ) : Nat := (s.pool.idleIds ∩ (t.pool.inUse : Multiset Nat)).card

/-- A run, and how many idle connections were handed out on the way. -/
inductive Run (s : System σ) : System σ → Nat → Prop
  | refl : Run s s 0
  | tail {t u n} : Run s t n → Step t u → Run s u (n + t.handedOut u)

theorem Run.reaches (h : Run s t n) : Reaches s t := by
  induction h with
  | refl => exact .refl
  | tail _ hstep ih => exact ih.tail hstep

theorem Run.of_reaches (h : Reaches s t) : ∃ n, Run s t n := by
  induction h with
  | refl => exact ⟨0, .refl⟩
  | tail _ hstep ih =>
    obtain ⟨n, hrun⟩ := ih
    exact ⟨_, hrun.tail hstep⟩

/-- What every step keeps of the counts, if `n` idle connections were handed out so far. -/
structure Counted (s : System σ) (n : Nat) : Prop where
  created_eq : s.pool.counts.created = s.pool.idle.size + s.pool.inUse.length + s.pool.counts.closed
  evicted_le : s.pool.counts.evicted ≤ s.pool.counts.closed
  acquires_eq : s.pool.counts.acquires = s.pool.counts.created + n

theorem Balanced.idleIds_apart (h : s.Balanced) :
    s.pool.idleIds.Nodup ∧ Disjoint s.pool.idleIds (s.pool.inUse + (s.slots + s.closing)) := by
  have hnodup := (Multiset.nodup_add.1 h.distinct).2.1
  rw [numbers, add_assoc, add_assoc, Multiset.nodup_add] at hnodup
  exact ⟨hnodup.1, hnodup.2.2⟩

theorem Balanced.idle_disjoint (h : s.Balanced) {id : Nat} (hidle : id ∈ s.pool.idleIds) :
    id ∉ (s.pool.inUse : Multiset Nat) ∧ id ∉ s.slots := by
  have hapart := Multiset.disjoint_left.1 h.idleIds_apart.2 hidle
  simp only [Multiset.mem_add, not_or] at hapart
  exact ⟨hapart.1, hapart.2.1⟩

/-- A connection that was lent out before, or was being opened, was not idle. -/
theorem Balanced.handedOut_eq_zero (h : s.Balanced)
    (huse : ∀ id ∈ t.pool.inUse, id ∈ s.pool.inUse ∨ id ∈ s.slots) : s.handedOut t = 0 := by
  unfold handedOut
  rw [Multiset.card_eq_zero, Multiset.inter_eq_zero_iff_disjoint, Multiset.disjoint_left]
  intro id hidle hid
  obtain ⟨hlent, hopening⟩ := h.idle_disjoint hidle
  rcases huse id hid with hid | hid
  · exact hlent hid
  · exact hopening hid

theorem Balanced.handedOut_decided (h : s.Balanced) {decision : Pool.Decision σ}
    {stale : List (IdleConnection σ)} (hdecided : Pool.Decided s.pool (decision, stale, t.pool)) :
    s.handedOut t = decision.loans.card := by
  obtain ⟨rest, hrest⟩ := Multiset.le_iff_exists_add.1 hdecided.loans_le
  have hapart : rest ∩ (s.pool.inUse : Multiset Nat) = 0 := by
    rw [Multiset.inter_eq_zero_iff_disjoint, Multiset.disjoint_left]
    intro id hid
    refine (h.idle_disjoint ?_).1
    rw [hrest]
    exact Multiset.mem_add.2 (.inr hid)
  rw [handedOut, hdecided.loans_eq, hrest, ← Multiset.add_inter_distrib, hapart, add_zero]

namespace Counted

theorem starting {config : PoolConfig} {p : Pool σ} (h : Pool.new config = .ok p) :
    (starting p).Counted 0 := by
  rw [Pool.eq_of_new h]
  exact ⟨rfl, Nat.le_refl 0, rfl⟩

/-- Places that are kept do not count. -/
theorem congr (h : s.Counted n) (hidle : t.pool.idle = s.pool.idle)
    (huse : t.pool.inUse = s.pool.inUse) (hcounts : t.pool.counts = s.pool.counts) :
    t.Counted n := by
  refine ⟨?_, ?_, ?_⟩
  · rw [hidle, huse, hcounts]
    exact h.created_eq
  · rw [hcounts]
    exact h.evicted_le
  · rw [hcounts]
    exact h.acquires_eq

theorem requested (h : s.Counted n) (hb : s.Balanced) (now : Nat) :
    (System.proceed { s with pool := (Acquire.start now s.pool).2 }
      (Acquire.start now s.pool).1).Counted (n + s.handedOut (System.proceed
        { s with pool := (Acquire.start now s.pool).2 } (Acquire.start now s.pool).1)) := by
  unfold Acquire.start
  rcases hdecide : s.pool.decide now with ⟨decision, stale, q⟩
  have hdecided : Pool.Decided s.pool (decision, stale, q) := hdecide ▸ s.pool.decided now
  have hcounts := Pool.counts_decide hdecide
  have hsize := hdecided.size_eq
  have hcreated := h.created_eq
  have hacquires := h.acquires_eq
  have hevicted := h.evicted_le
  rw [hb.handedOut_decided (by rw [proceed_pool]; exact hdecided)]
  constructor
  all_goals
    rw [proceed_pool]
    simp only [hcounts, PoolCounts.answered]
    omega

/-- Idle connections are taken out and closed. -/
theorem drained {q : Pool σ} (h : s.Counted n) (keep : IdleConnection σ → Bool)
    (hidle : q.idle = (s.pool.drainIdle keep).2.idle) (huse : q.inUse = s.pool.inUse)
    (hcreated : q.counts.created = s.pool.counts.created)
    (hclosed : q.counts.closed = s.pool.counts.closed + (s.pool.drainIdle keep).1.length)
    (hevicted : q.counts.evicted ≤ s.pool.counts.evicted + (s.pool.drainIdle keep).1.length)
    (hacquires : q.counts.acquires = s.pool.counts.acquires) :
    Counted { s with pool := q } n := by
  have hsize := s.pool.drainIdle_size keep
  have hcreated' := h.created_eq
  have hacquires' := h.acquires_eq
  have hevicted' := h.evicted_le
  constructor
  all_goals
    simp only [hidle, huse, hcreated, hclosed, hacquires]
    omega

theorem opened (h : s.Counted n) {id : Nat} {rest : Multiset (Acquire σ)} (r : Outcome σ) :
    (System.proceed { s with requests := rest, pool := (Acquire.opened id r s.pool).2 }
      (.placed (.settled (Acquire.opened id r s.pool).1))).Counted n := by
  have hcreated := h.created_eq
  have hacquires := h.acquires_eq
  cases r with
  | error f => exact ⟨h.created_eq, h.evicted_le, h.acquires_eq⟩
  | ok connection =>
    refine ⟨?_, h.evicted_le, ?_⟩
    · change s.pool.counts.created + 1 =
        s.pool.idle.size + (s.pool.inUse.length + 1) + s.pool.counts.closed
      omega
    · change s.pool.counts.acquires + 1 = s.pool.counts.created + 1 + n
      omega

theorem returned (h : s.Counted n) (hb : s.Balanced) {rest : Multiset (Lease σ)} {lease : Lease σ}
    (hleases : s.leases = lease ::ₘ rest) (now : Nat) :
    Counted { s with
      pool := (s.pool.checkIn now lease).2
      leases := rest
      unfit := if lease.session.broken = true ∨ 0 < lease.session.depth then lease.id ::ₘ s.unfit
        else s.unfit } n := by
  have hlength : (s.pool.inUse.erase lease.id).length + 1 = s.pool.inUse.length := by
    simpa using (congrArg Multiset.card (hb.inUse_cons hleases)).symm
  have hcreated := h.created_eq
  have hevicted := h.evicted_le
  unfold Pool.checkIn
  dsimp only
  split
  · refine ⟨?_, ?_, h.acquires_eq⟩
    · change s.pool.counts.created = s.pool.idle.size + (s.pool.inUse.erase lease.id).length +
        (s.pool.counts.closed + 1)
      omega
    · exact Nat.le_succ_of_le hevicted
  · have hpush := (Heap.push_perm IdleConnection.before s.pool.idle
      ⟨lease.session.connection, lease.id, now⟩).length_eq
    rw [Array.length_toList, List.length_cons, Array.length_toList] at hpush
    refine ⟨?_, hevicted, h.acquires_eq⟩
    dsimp only
    omega

theorem step (h : s.Counted n) (hb : s.Balanced) (hstep : Step s t) :
    t.Counted (n + s.handedOut t) := by
  -- Only a request gets idle connections.
  have hothers (huse : ∀ id ∈ t.pool.inUse, id ∈ s.pool.inUse ∨ id ∈ s.slots)
      (ht : t.Counted n) : t.Counted (n + s.handedOut t) := by
    rwa [hb.handedOut_eq_zero huse]
  cases hstep with
  | requested now => exact h.requested hb now
  | evicted =>
    refine hothers (fun id hid => .inl ?_) (h.congr ?_ ?_ ?_)
    · rwa [proceed_pool] at hid
    all_goals rw [proceed_pool]
  | opened r hrequests =>
    refine hothers (fun id hid => ?_) (h.opened r)
    rw [proceed_pool] at hid
    cases r with
    | error f => exact .inl hid
    | ok connection =>
      refine (List.mem_cons.1 hid).symm.imp_right ?_
      rintro rfl
      rw [slots_cons hrequests]
      exact Multiset.mem_add.2 (.inl (Multiset.mem_singleton_self _))
  | @abandoned rest a hrequests hwaits =>
    have huse : (a.abandon s.pool).inUse = s.pool.inUse := by rcases a with _ | (_ | _) <;> rfl
    refine hothers (fun id hid => .inl ?_) (h.congr ?_ huse ?_)
    · rwa [← huse]
    · rcases a with _ | (_ | _) <;> rfl
    · rcases a with _ | (_ | _) <;> rfl
  | used => exact hothers (fun id hid => .inl hid) (h.congr rfl rfl rfl)
  | @returned rest lease now hleases =>
    have huse : (s.pool.checkIn now lease).2.inUse = s.pool.inUse.erase lease.id := by
      unfold Pool.checkIn
      dsimp only
      split <;> rfl
    refine hothers (fun id hid => .inl ?_) (h.returned hb hleases now)
    rw [huse] at hid
    exact List.mem_of_mem_erase hid
  | closedIdle =>
    exact hothers (fun id hid => .inl hid)
      (h.drained (fun _ => false) rfl rfl rfl rfl (Nat.le_add_right _ _) rfl)
  | closedStale now =>
    exact hothers (fun id hid => .inl hid)
      (h.drained (fun c => !c.isStale now s.pool.config.staleTimeout) rfl rfl rfl rfl le_rfl rfl)
  | closed =>
    exact hothers (fun id hid => .inl hid)
      (h.drained (fun _ => false) rfl rfl rfl rfl (Nat.le_add_right _ _) rfl)

theorem run (h : s.Counted 0) (hb : s.Balanced) (hrun : Run s t n) : t.Counted n := by
  induction hrun with
  | refl => exact h
  | tail hrun hstep ih => exact ih.step (hb.reaches hrun.reaches) hstep

end Counted

/-- However requests, returns and closings interleave: a connection that was created is idle, lent
out or closed; the total has what is idle, lent out, or to be opened; only closed connections are
evicted; and every acquire got a new connection or one of the idle connections that were handed
out. A place that was lost with its request counts as that of a connection to be opened. -/
theorem statistics_balanced {config : PoolConfig} {p : Pool σ} (hnew : Pool.new config = .ok p)
    (hreach : Reaches (starting p) s) :
    s.pool.stats.counts.created =
        s.pool.stats.idle + s.pool.stats.active + s.pool.stats.counts.closed ∧
      s.pool.stats.total = s.pool.stats.idle + s.pool.stats.active + s.pool.creating ∧
      s.pool.creating = s.slots.card + s.lostSlots.card ∧
      s.pool.stats.counts.evicted ≤ s.pool.stats.counts.closed ∧
      ∀ n, Run (starting p) s n →
        s.pool.stats.counts.acquires = s.pool.stats.counts.created + n := by
  have hb := Balanced.starting hnew
  obtain ⟨n, hrun⟩ := Run.of_reaches hreach
  have h := (Counted.starting hnew).run hb hrun
  have hcreating := (hb.reaches hreach).slots_eq
  rw [Multiset.card_add] at hcreating
  exact ⟨h.created_eq, rfl, hcreating, h.evicted_le,
    fun n hrun => ((Counted.starting hnew).run hb hrun).acquires_eq⟩

end System

namespace Sample

/-- The connection came back and was handed out again. -/
def relent : System Unit :=
  ⟨{ unused with inUse := [1], nextId := 2, counts := ⟨1, 0, 0, 2, 0⟩ }, 0, {⟨1, .fresh ()⟩}, 0, 0,
    0⟩

theorem relent_run : (System.starting unused).Run relent 1 := by
  have hopening : (System.starting unused).Run opening 0 := .tail .refl (.requested 0)
  have hlent : (System.starting unused).Run lent 0 := hopening.tail (.opened (.ok ()) rfl)
  exact (hlent.tail (.returned 0 (Eq.refl (Multiset.cons _ 0)))).tail (.requested 3)

theorem relent_balanced :
    Pool.new single = .ok unused ∧ (System.starting unused).Reaches relent ∧
      (System.starting unused).Run relent 1 ∧ relent.pool.stats = ⟨1, 0, 1, ⟨1, 0, 0, 2, 0⟩⟩ ∧
      relent.pool.stats.counts.acquires = relent.pool.stats.counts.created + 1 := by
  have hnew : Pool.new single = .ok unused := rfl
  have hreach := relent_run.reaches
  obtain ⟨-, -, -, -, hacquires⟩ := System.statistics_balanced hnew hreach
  exact ⟨hnew, hreach, relent_run, rfl, hacquires 1 relent_run⟩

end Sample

end SqlMapper
