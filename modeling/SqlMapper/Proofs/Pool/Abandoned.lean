import SqlMapper.Proofs.Pool.System

/-!
# SqlMapper.Proofs.Pool.Abandoned

What is left of requests that nobody waits for any more.

* `System.Accounted`: every place that is kept belongs to a request on its way, and every connection
  that is lent out is in somebody's hands.
* `System.abandoned_accounted_iff`: it stays so exactly if the request was not holding anything
  while it closed stale connections.
* `System.not_accounted_of_reaches`: what is lost is never found again.
-/

namespace SqlMapper

variable {σ : Type}

namespace System

variable {s t : System σ}

/-- The pool keeps places and connections for those only who are there to use them. -/
def Accounted (s : System σ) : Prop :=
  s.pool.creating = s.slots.card ∧ (s.pool.inUse : Multiset Nat) = s.loans

theorem Balanced.accounted_iff (h : s.Balanced) :
    s.Accounted ↔ s.lostSlots = 0 ∧ s.lostLoans = 0 := by
  unfold Accounted
  rw [h.slots_eq, h.loans_eq, Multiset.card_add, Nat.add_eq_left, Multiset.card_eq_zero,
    add_eq_left]

/-- A request can be let go at any point where it waits. All is given back exactly if it was not
holding a place or a connection while it closed stale connections. -/
theorem abandoned_accounted_iff {config : PoolConfig} {p : Pool σ} (hnew : Pool.new config = .ok p)
    (hreach : Reaches (starting p) s) {a : Acquire σ} {rest : Multiset (Acquire σ)}
    (hrequests : s.requests = a ::ₘ rest) (hwaits : a.Waits) :
    (s.abandon a rest).Accounted ↔ s.Accounted ∧ a.lostSlots = 0 ∧ a.lostLoans = 0 := by
  have h := (Balanced.starting hnew).reaches hreach
  rw [(h.abandoned hrequests hwaits).accounted_iff, h.accounted_iff, abandon,
    add_eq_zero_iff_of_nonneg (Multiset.zero_le _) (Multiset.zero_le _),
    add_eq_zero_iff_of_nonneg (Multiset.zero_le _) (Multiset.zero_le _)]
  tauto

theorem Step.lost_mono (hstep : Step s t) :
    s.lostSlots ≤ t.lostSlots ∧ s.lostLoans ≤ t.lostLoans := by
  cases hstep with
  | requested | evicted | opened =>
    rw [proceed_lostSlots, proceed_lostLoans]
    exact ⟨le_rfl, le_rfl⟩
  | abandoned => exact ⟨Multiset.le_add_left _ _, Multiset.le_add_left _ _⟩
  | used | returned | closedIdle | closedStale | closed => exact ⟨le_rfl, le_rfl⟩

theorem lost_mono (hreach : Reaches s t) :
    s.lostSlots ≤ t.lostSlots ∧ s.lostLoans ≤ t.lostLoans := by
  induction hreach with
  | refl => exact ⟨le_rfl, le_rfl⟩
  | tail _ hstep ih => exact ⟨ih.1.trans hstep.lost_mono.1, ih.2.trans hstep.lost_mono.2⟩

theorem not_accounted_of_reaches {config : PoolConfig} {p : Pool σ}
    (hnew : Pool.new config = .ok p) (hs : Reaches (starting p) s) (hlost : ¬s.Accounted)
    (hreach : Reaches s t) : ¬t.Accounted := by
  have h := (Balanced.starting hnew).reaches hs
  have hmono := lost_mono hreach
  rw [(h.reaches hreach).accounted_iff]
  rintro ⟨hslots, hloans⟩
  rw [hslots, hloans, Multiset.le_zero, Multiset.le_zero] at hmono
  exact hlost (h.accounted_iff.2 hmono)

end System

namespace Sample

/-- A connection that came back at time 0 was stale at time 9. It is being closed for a request that
is to get another one in its place. -/
def evicting : System Unit :=
  ⟨{ unused with creating := 1, nextId := 3, counts := ⟨1, 1, 1, 1, 0⟩ },
    {.evicting ⟨(), 1, 0⟩ [] (.create 2)}, 0, 0, 0, 0⟩

theorem evicting_reached : (System.starting unused).Reaches evicting := by
  have hlent : lent.leases = ⟨1, .fresh ()⟩ ::ₘ 0 := rfl
  exact (lent_reached.tail (.returned 0 hlent)).tail (.requested 9)

/-- While a connection is being opened, a request gives back what it holds. -/
theorem replacing_abandoned :
    Pool.new single = .ok unused ∧ (System.starting unused).Reaches replacing ∧
      replacing.requests = .placed (.opening 3) ::ₘ 0 ∧
      (replacing.abandon (.placed (.opening 3)) 0).Accounted := by
  have hnew : Pool.new single = .ok unused := rfl
  have hrequests : replacing.requests = .placed (.opening 3) ::ₘ 0 := rfl
  have hiff := System.abandoned_accounted_iff hnew replacing_reached hrequests trivial
  exact ⟨hnew, replacing_reached, hrequests, hiff.2 ⟨⟨rfl, rfl⟩, rfl, rfl⟩⟩

/-- Let go while the stale connection is being closed, the request keeps its place: nobody is left,
and the pool is full for good. -/
theorem evicting_place_lost :
    (System.starting unused).Reaches evicting ∧
      evicting.requests = .evicting ⟨(), 1, 0⟩ [] (.create 2) ::ₘ 0 ∧
      (evicting.abandon (.evicting ⟨(), 1, 0⟩ [] (.create 2)) 0).requests = 0 ∧
      (evicting.abandon (.evicting ⟨(), 1, 0⟩ [] (.create 2)) 0).leases = 0 ∧
      (evicting.abandon (.evicting ⟨(), 1, 0⟩ [] (.create 2)) 0).pool.creating = 1 ∧
      ¬(evicting.abandon (.evicting ⟨(), 1, 0⟩ [] (.create 2)) 0).Accounted :=
  ⟨evicting_reached, rfl, rfl, rfl, rfl, fun h => absurd h.1 Nat.one_ne_zero⟩

end Sample

end SqlMapper
