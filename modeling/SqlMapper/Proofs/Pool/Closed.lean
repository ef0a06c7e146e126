import SqlMapper.Proofs.Pool.System

/-!
# SqlMapper.Proofs.Pool.Closed

A pool that is closed stays closed.

* `System.outstanding`: the connections that a pool has given out, or has kept places for, and that
  have not come back.
* `Pool.start_of_closed`, `Pool.checkIn_of_closed`: what is left of requests and returns.
* `System.closing_final`: in every later state no connection is idle, and once all that is
  outstanding has come back, nothing is left of the pool.
-/

namespace SqlMapper

variable {σ : Type}

/-! ## Steps of a pool -/

namespace Pool

/-- What closing leaves. -/
structure Final (p : Pool σ) : Prop where
  closed : p.closed = true
  idle : p.idle = #[]

variable {p q : Pool σ}

theorem closed_decide (now : Nat) (p : Pool σ) : (p.decide now).2.2.closed = p.closed := by
  unfold decide
  split
  · rfl
  · rcases popLive now p.config.staleTimeout p.idle.size p.idle with ⟨stale, _ | entry, idle⟩
    · dsimp only
      split <;> rfl
    · rfl

theorem closed_checkIn (now : Nat) (p : Pool σ) (lease : Lease σ) :
    (p.checkIn now lease).2.closed = p.closed := by
  unfold checkIn
  dsimp only
  split <;> rfl

/-- A closed pool refuses the request at once, so no connection is opened for it. -/
theorem start_of_closed (h : p.closed = true) (now : Nat) :
    Acquire.start now p = (.placed (.settled (.error (.error (.pool .closed)))), p) := by
  unfold Acquire.start
  rw [decide_of_closed h]
  rfl

/-- A closed pool gives the connection to the caller to be closed, whatever state it is in. -/
theorem checkIn_of_closed (h : p.closed = true) (now : Nat) (lease : Lease σ) :
    p.checkIn now lease = (some lease.session.connection, { p with
      inUse := p.inUse.erase lease.id
      counts.closed := p.counts.closed + 1 }) := by
  unfold checkIn
  exact if_pos (by rw [h, Bool.or_true])

theorem idle_drainIdle_of_filter {keep : IdleConnection σ → Bool}
    (h : p.idle.toList.filter keep = []) : (p.drainIdle keep).2.idle = #[] := by
  rw [← Array.toList_eq_nil_iff]
  exact List.Perm.eq_nil (h ▸ p.idle_drainIdle keep)

theorem idle_closeIdle (p : Pool σ) : p.closeIdle.2.idle = #[] :=
  idle_drainIdle_of_filter (List.filter_false _)

/-- Nothing opens a pool again or makes a connection idle in it. -/
theorem Moves.final (h : p.Moves q) (hp : p.Final) : q.Final := by
  cases h with
  | decided now =>
    rw [decide_of_closed hp.closed]
    exact hp
  | checkedIn now lease =>
    rw [checkIn_of_closed hp.closed]
    exact ⟨hp.closed, hp.idle⟩
  | drained keep hidle _ hclosed =>
    refine ⟨hclosed.trans hp.closed, hidle.trans (idle_drainIdle_of_filter ?_)⟩
    rw [hp.idle]
    rfl
  | closed => exact ⟨rfl, p.idle_closeIdle⟩
  | kept hidle _ hclosed => exact ⟨hclosed.trans hp.closed, hidle.trans hp.idle⟩

/-- What makes a pool closed also takes all idle connections out of it. -/
theorem Moves.final_of_closing (h : p.Moves q) (hp : p.closed = false) (hq : q.closed = true) :
    q.Final := by
  have hstays (heq : q.closed = p.closed) : q.Final := by
    rw [heq, hp] at hq
    cases hq
  cases h with
  | decided now => exact hstays (p.closed_decide now)
  | checkedIn now lease => exact hstays (p.closed_checkIn now lease)
  | drained _ _ _ hclosed | kept _ _ hclosed => exact hstays hclosed
  | closed => exact ⟨rfl, p.idle_closeIdle⟩

end Pool

namespace System

variable {s t : System σ}

theorem final_of_reaches (hreach : Reaches s t) (h : s.pool.Final) : t.pool.Final := by
  induction hreach with
  | refl => exact h
  | tail _ hstep ih => exact hstep.moves.final ih

theorem final_of_closed {config : PoolConfig} {p : Pool σ} (hnew : Pool.new config = .ok p)
    (hreach : Reaches (starting p) s) (hclosed : s.pool.closed = true) : s.pool.Final := by
  induction hreach with
  | refl =>
    rw [Pool.eq_of_new hnew] at hclosed
    cases hclosed
  | @tail t u _ hstep ih =>
    cases ht : t.pool.closed with
    | true => exact hstep.moves.final (ih ht)
    | false => exact hstep.moves.final_of_closing ht hclosed

/-! ## What is outstanding -/

/-- The numbers of the connections that are lent out or to be opened. Those that were lost with
their requests never come back. -/
def outstanding (s : System σ) : Multiset Nat := s.loans + s.slots + (s.lostLoans + s.lostSlots)

theorem outstanding_proceed (s : System σ) (a : Acquire σ) :
    (s.proceed a).outstanding = a.loans + a.slots + s.outstanding := by
  rw [outstanding, proceed_loans, proceed_slots, proceed_lostLoans, proceed_lostSlots, outstanding]
  abel

theorem outstanding_cons {a : Acquire σ} {rest : Multiset (Acquire σ)}
    (h : s.requests = a ::ₘ rest) :
    s.outstanding = a.loans + a.slots + outstanding { s with requests := rest } := by
  rw [outstanding, loans_cons h, slots_cons h, outstanding]
  abel

/-- The pool counts what is idle and what is outstanding. -/
theorem Balanced.total_eq (h : s.Balanced) :
    s.pool.total = s.pool.idle.size + s.outstanding.card := by
  have huse : s.pool.inUse.length = (s.loans + s.lostLoans).card :=
    congrArg Multiset.card h.loans_eq
  have hcreating := h.slots_eq
  rw [Pool.total, outstanding, huse, hcreating]
  simp only [Multiset.card_add]
  omega

theorem outstanding_abandon {a : Acquire σ} {rest : Multiset (Acquire σ)}
    (h : s.requests = a ::ₘ rest) : (s.abandon a rest).outstanding ≤ s.outstanding := by
  have hlost : a.lostLoans ≤ a.loans ∧ a.lostSlots ≤ a.slots := by
    rcases a with _ | _
    · exact ⟨le_rfl, le_rfl⟩
    · exact ⟨Multiset.zero_le _, Multiset.zero_le _⟩
  calc (s.abandon a rest).outstanding
      = a.lostLoans + a.lostSlots + outstanding { s with requests := rest } := by
        simp only [outstanding, abandon, loans, slots]
        abel
    _ ≤ a.loans + a.slots + outstanding { s with requests := rest } :=
        add_le_add_left (add_le_add hlost.1 hlost.2) _
    _ = s.outstanding := (outstanding_cons h).symm

theorem outstanding_lease {lease : Lease σ} {rest : Multiset (Lease σ)}
    (h : s.leases = lease ::ₘ rest) :
    s.outstanding = {lease.id} + outstanding { s with leases := rest } := by
  simp only [outstanding, loans, slots, h, Multiset.map_cons]
  rw [← Multiset.singleton_add]
  abel

/-- A closed pool gives nothing out. -/
theorem Step.outstanding_le (hstep : Step s t) (h : s.pool.closed = true) :
    t.outstanding ≤ s.outstanding := by
  cases hstep with
  | requested now =>
    rw [Pool.start_of_closed h]
    exact le_rfl
  | @evicted rest current waiting decision hrequests =>
    rw [outstanding_proceed, outstanding_cons hrequests, Acquire.evicted, Acquire.loans_evict,
      Acquire.slots_evict]
    rfl
  | @opened rest id r hrequests =>
    rw [outstanding_proceed, outstanding_cons hrequests]
    cases r with
    | error f =>
      refine add_le_add_left ?_ _
      simp [Acquire.opened, Acquire.loans, Acquire.slots]
    | ok connection => exact le_of_eq rfl
  | abandoned hrequests => exact outstanding_abandon hrequests
  | @used rest lease session hleases =>
    have hleases' : leases { s with leases := { lease with session } ::ₘ rest } =
        { lease with session } ::ₘ rest := rfl
    rw [outstanding_lease hleases, outstanding_lease hleases']
  | @returned rest lease now hleases =>
    rw [outstanding_lease hleases]
    exact Multiset.le_add_left _ _
  | closedIdle | closedStale | closed => exact le_rfl

theorem outstanding_le_of_reaches (hreach : Reaches s t) (h : s.pool.Final) :
    t.outstanding ≤ s.outstanding := by
  induction hreach with
  | refl => exact le_rfl
  | tail hreach hstep ih =>
    exact (hstep.outstanding_le (final_of_reaches hreach h).closed).trans ih

/-- In any state the pool can be closed. From then on, however things interleave: no connection is
idle in it; every request is refused at once and opens no connection; every connection that comes
back is discarded; nothing is given out any more; and once all that was outstanding has come back,
nothing is left. -/
theorem closing_final {config : PoolConfig} {p : Pool σ} (hnew : Pool.new config = .ok p)
    (hreach : Reaches (starting p) s) :
    (∃ u, Step s u ∧ u.pool = s.pool.close.2 ∧ u.pool.closed = true ∧
      u.outstanding = s.outstanding) ∧
    (s.pool.closed = true → ∀ t, Reaches s t →
      t.pool.idle = #[] ∧
      (∀ now, Acquire.start now t.pool =
        (.placed (.settled (.error (.error (.pool .closed)))), t.pool)) ∧
      (∀ now lease, t.pool.checkIn now lease = (some lease.session.connection, { t.pool with
        inUse := t.pool.inUse.erase lease.id
        counts.closed := t.pool.counts.closed + 1 })) ∧
      t.outstanding ≤ s.outstanding ∧
      ((∀ id ∈ s.outstanding, id ∉ t.outstanding) → t.pool.total = 0)) := by
  refine ⟨⟨_, .closed, rfl, rfl, rfl⟩, fun hclosed t hlater => ?_⟩
  have hs := final_of_closed hnew hreach hclosed
  have ht := final_of_reaches hlater hs
  have hle := outstanding_le_of_reaches hlater hs
  refine ⟨ht.idle, Pool.start_of_closed ht.closed, Pool.checkIn_of_closed ht.closed, hle,
    fun hback => ?_⟩
  have hnone : t.outstanding = 0 := by
    refine Multiset.eq_zero_of_forall_notMem fun id hid => ?_
    exact hback id (Multiset.mem_of_le hle hid) hid
  rw [(((Balanced.starting hnew).reaches hreach).reaches hlater).total_eq, ht.idle, hnone]
  rfl

end System

namespace Sample

/-- The pool was closed while a connection was being opened. -/
def shut : System Unit :=
  ⟨{ unused with creating := 1, nextId := 2, closed := true }, {.placed (.opening 1)}, 0, 0, 0, 0⟩

/-- The connection was opened, used and returned. -/
def emptied : System Unit :=
  ⟨{ unused with nextId := 2, closed := true, counts := ⟨1, 1, 0, 1, 0⟩ }, 0, 0, 0, 0, 0⟩

theorem opening_reached : (System.starting unused).Reaches opening := .single (.requested 0)

theorem shut_reached : (System.starting unused).Reaches shut := opening_reached.tail .closed

theorem emptied_reached : shut.Reaches emptied := by
  have hopened : shut.Reaches { lent with pool.closed := true } := .single (.opened (.ok ()) rfl)
  have hlease : System.leases { lent with pool.closed := true } = ⟨1, .fresh ()⟩ ::ₘ 0 := rfl
  have hreturned := hopened.tail (.returned 7 hlease)
  exact hreturned

theorem shut_final :
    Pool.new single = .ok unused ∧ (System.starting unused).Reaches opening ∧
      (∃ u, System.Step opening u ∧ u.pool = shut.pool ∧ u.pool.closed = true) ∧
      shut.Reaches emptied ∧ shut.outstanding = {1} ∧ emptied.pool.total = 0 := by
  have hnew : Pool.new single = .ok unused := rfl
  have hclosed : shut.pool.closed = true := rfl
  obtain ⟨⟨u, hstep, hpool, hu, -⟩, -⟩ := System.closing_final hnew opening_reached
  obtain ⟨-, hlater⟩ := System.closing_final hnew shut_reached
  obtain ⟨-, -, -, -, htotal⟩ := hlater hclosed emptied emptied_reached
  exact ⟨hnew, opening_reached, ⟨u, hstep, hpool, hu⟩, emptied_reached, rfl,
    htotal fun id _ => Multiset.notMem_zero id⟩

end Sample

end SqlMapper
