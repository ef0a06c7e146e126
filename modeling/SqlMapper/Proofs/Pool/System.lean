import Mathlib.Algebra.Order.Group.Multiset
import Mathlib.Data.Multiset.Bind
import Mathlib.Logic.Relation
import Mathlib.Tactic.Abel
import SqlMapper.Proofs.Pool.Decide

/-!
# SqlMapper.Proofs.Pool.System

A pool with all that goes on around it: requests on their way and connections that are lent out,
any number of them, each step of one between any steps of the others.

* `System`: the pool, the requests that wait for something, the connections that are lent out, and
  a record of what came back unfit and of what was lost. No program can read the record.
* `System.Step`: everything that can happen at once.
* `System.Balanced`: what every step keeps. Each connection has one number and one place, and each
  place of the pool is held by one party or recorded as lost.
* `Pool.Moves`: what a step does to the idle connections and to the pool being open.
* `System.safe`: so the pool never grows over its bound, and no connection is in two hands.
-/

namespace SqlMapper

variable {σ : Type}

/-- A connection has to be discarded if it is broken or a transaction is open on it. -/
theorem Session.mustDiscard_iff {s : Session σ} :
    s.mustDiscard = true ↔ s.broken = true ∨ 0 < s.depth := by
  rw [mustDiscard, inTransaction, Bool.or_eq_true, decide_eq_true_eq]

/-! ## What requests hold -/

/-- The numbers of some connections. -/
def IdleConnection.ids (l : List (IdleConnection σ)) : Multiset Nat := ↑(l.map IdleConnection.id)

/-- The numbers of the idle connections. -/
def Pool.idleIds (p : Pool σ) : Multiset Nat := IdleConnection.ids p.idle.toList

/-- The number of a connection that is to be opened. -/
def Pool.Decision.slots : Pool.Decision σ → Multiset Nat
  | create id => {id}
  | reuse _ | exhausted | closed => 0

/-- The number of a connection that is lent out to the request. -/
def Pool.Decision.loans : Pool.Decision σ → Multiset Nat
  | reuse entry => {entry.id}
  | create _ | exhausted | closed => 0

namespace Acquire

def slots : Acquire σ → Multiset Nat
  | evicting _ _ decision => decision.slots
  | placed (.opening id) => {id}
  | placed (.settled _) => 0

def loans : Acquire σ → Multiset Nat
  | evicting _ _ decision => decision.loans
  | placed (.settled (.ok lease)) => {lease.id}
  | placed (.settled (.error _)) | placed (.opening _) => 0

/-- The numbers of the stale connections that are still to be closed. -/
def closing : Acquire σ → Multiset Nat
  | evicting current waiting _ => IdleConnection.ids (current :: waiting)
  | placed _ => 0

/-- The request has not come to its end. -/
def Waits : Acquire σ → Prop
  | evicting _ _ _ | placed (.opening _) => True
  | placed (.settled _) => False

/-- What stays taken when nobody waits for the request any more: the place for a connection. -/
def lostSlots : Acquire σ → Multiset Nat
  | evicting _ _ decision => decision.slots
  | placed _ => 0

/-- What stays taken when nobody waits for the request any more: the connection itself. -/
def lostLoans : Acquire σ → Multiset Nat
  | evicting _ _ decision => decision.loans
  | placed _ => 0

end Acquire

/-! ## Systems -/

structure System (σ : Type) where
  pool : Pool σ
  /-- Requests that wait for a stale connection to be closed, or for one to be opened. -/
  requests : Multiset (Acquire σ)
  leases : Multiset (Lease σ)
  /-- The numbers of connections that came back broken or with a transaction open. -/
  unfit : Multiset Nat
  /-- Places that were kept for requests, and that nobody gives back any more. -/
  lostSlots : Multiset Nat
  /-- Connections that were lent out to requests, and that nobody gives back any more. -/
  lostLoans : Multiset Nat

namespace System

/-- A pool that nothing has happened to yet. -/
def starting (p : Pool σ) : System σ := ⟨p, 0, 0, 0, 0, 0⟩

/-- A request goes on: it waits for something, or has come to its end. -/
def proceed (s : System σ) : Acquire σ → System σ
  | .placed (.settled (.ok lease)) => { s with leases := lease ::ₘ s.leases }
  | .placed (.settled (.error _)) => s
  | a => { s with requests := a ::ₘ s.requests }

/-- Nobody waits for request `a` any more. -/
def abandon (s : System σ) (a : Acquire σ) (rest : Multiset (Acquire σ)) : System σ where
  pool := a.abandon s.pool
  requests := rest
  leases := s.leases
  unfit := s.unfit
  lostSlots := a.lostSlots + s.lostSlots
  lostLoans := a.lostLoans + s.lostLoans

/-- One step of one party, while all others stand still. -/
inductive Step : System σ → System σ → Prop
  /-- A new request, up to the first thing that it waits for. -/
  | requested {s} (now : Nat) :
    Step s (proceed { s with pool := (Acquire.start now s.pool).2 } (Acquire.start now s.pool).1)
  /-- A stale connection is closed, or failed to close. -/
  | evicted {s rest current waiting decision} :
    s.requests = .evicting current waiting decision ::ₘ rest →
    Step s (proceed { s with requests := rest }
      (Acquire.evicted s.pool.config.maxConnections (.evicting current waiting decision)))
  /-- Opening a connection came to an end, well or not. -/
  | opened {s rest id} (r : Outcome σ) : s.requests = .placed (.opening id) ::ₘ rest →
    Step s (proceed { s with requests := rest, pool := (Acquire.opened id r s.pool).2 }
      (.placed (.settled (Acquire.opened id r s.pool).1)))
  | abandoned {s rest a} : s.requests = a ::ₘ rest → a.Waits → Step s (s.abandon a rest)
  /-- Anything may be done with a connection that is lent out. -/
  | used {s rest lease} (session : Session σ) : s.leases = lease ::ₘ rest →
    Step s { s with leases := { lease with session } ::ₘ rest }
  /-- A connection is released or let go. -/
  | returned {s rest lease} (now : Nat) : s.leases = lease ::ₘ rest →
    Step s { s with
      pool := (s.pool.checkIn now lease).2
      leases := rest
      unfit := if lease.session.broken = true ∨ 0 < lease.session.depth then lease.id ::ₘ s.unfit
        else s.unfit }
  | closedIdle {s} : Step s { s with pool := s.pool.closeIdle.2 }
  | closedStale {s} (now : Nat) : Step s { s with pool := (s.pool.closeStale now).2 }
  | closed {s} : Step s { s with pool := s.pool.close.2 }

/-- Any number of steps. -/
def Reaches : System σ → System σ → Prop := Relation.ReflTransGen Step

/-! ## Who holds what -/

variable (s : System σ)

/-- The connections that requests are to open. -/
def slots : Multiset Nat := s.requests.bind Acquire.slots

/-- The connections that are lent out, or on their way to those who asked for them. -/
def loans : Multiset Nat := s.leases.map Lease.id + s.requests.bind Acquire.loans

/-- The stale connections that requests are closing. -/
def closing : Multiset Nat := s.requests.bind Acquire.closing

/-- The numbers of all connections, each time that one is held. -/
def numbers : Multiset Nat :=
  s.pool.idleIds + (s.pool.inUse : Multiset Nat) + s.slots + s.closing

/-- What every step keeps. -/
structure Balanced : Prop where
  bounded : s.pool.total ≤ s.pool.config.maxConnections
  /-- A connection is held once, and none that came back unfit is held at all. -/
  distinct : (s.unfit + s.numbers).Nodup
  numbered : ∀ id ∈ s.unfit + s.numbers, id < s.pool.nextId
  slots_eq : s.pool.creating = (s.slots + s.lostSlots).card
  loans_eq : (s.pool.inUse : Multiset Nat) = s.loans + s.lostLoans

end System

/-- A new pool holds nothing. -/
theorem Pool.eq_of_new {config : PoolConfig} {p : Pool σ} (h : Pool.new config = .ok p) :
    p = ⟨config, #[], [], 0, 1, false, ⟨0, 0, 0, 0, 0⟩⟩ := by
  unfold Pool.new PoolConfig.validate at h
  split at h
  · cases h
  · cases h
    rfl

/-! ## Requests on their way -/

namespace IdleConnection

theorem ids_cons (c : IdleConnection σ) (l : List (IdleConnection σ)) :
    ids (c :: l) = {c.id} + ids l := rfl

theorem ids_append (l l' : List (IdleConnection σ)) : ids (l ++ l') = ids l + ids l' := by
  rw [ids, List.map_append, ← Multiset.coe_add]
  rfl

theorem ids_of_perm {l l' : List (IdleConnection σ)} (h : l.Perm l') : ids l = ids l' :=
  Multiset.coe_eq_coe.2 (h.map id)

theorem ids_le_of_sublist {l l' : List (IdleConnection σ)} (h : l.Sublist l') : ids l ≤ ids l' :=
  Multiset.coe_le.2 (h.map id).subperm

end IdleConnection

namespace Acquire

variable (maxConnections : Nat) (decision : Pool.Decision σ) (stale : List (IdleConnection σ))

theorem slots_evict : (evict maxConnections decision stale).slots = decision.slots := by
  cases stale with
  | nil => cases decision <;> rfl
  | cons current waiting => rfl

theorem loans_evict : (evict maxConnections decision stale).loans = decision.loans := by
  cases stale with
  | nil => cases decision <;> rfl
  | cons current waiting => rfl

theorem closing_evict :
    (evict maxConnections decision stale).closing = IdleConnection.ids stale := by
  cases stale <;> rfl

end Acquire

namespace System

variable {s t : System σ}

section Proceed

variable (s : System σ) (a : Acquire σ)

@[simp] theorem proceed_pool : (s.proceed a).pool = s.pool := by
  rcases a with _ | (_ | (_ | _)) <;> rfl

@[simp] theorem proceed_unfit : (s.proceed a).unfit = s.unfit := by
  rcases a with _ | (_ | (_ | _)) <;> rfl

@[simp] theorem proceed_lostSlots : (s.proceed a).lostSlots = s.lostSlots := by
  rcases a with _ | (_ | (_ | _)) <;> rfl

@[simp] theorem proceed_lostLoans : (s.proceed a).lostLoans = s.lostLoans := by
  rcases a with _ | (_ | (_ | _)) <;> rfl

@[simp] theorem proceed_slots : (s.proceed a).slots = a.slots + s.slots := by
  rcases a with _ | (_ | (_ | _))
  · exact Multiset.cons_bind _ _ _
  · exact Multiset.cons_bind _ _ _
  · exact (zero_add _).symm
  · exact (zero_add _).symm

@[simp] theorem proceed_closing : (s.proceed a).closing = a.closing + s.closing := by
  rcases a with _ | (_ | (_ | _))
  · exact Multiset.cons_bind _ _ _
  · exact Multiset.cons_bind _ _ _
  · exact (zero_add _).symm
  · exact (zero_add _).symm

@[simp] theorem proceed_loans : (s.proceed a).loans = a.loans + s.loans := by
  rcases a with _ | (_ | (_ | lease))
  · simp only [proceed, loans, Multiset.cons_bind]
    abel
  · simp only [proceed, loans, Multiset.cons_bind]
    abel
  · exact (zero_add _).symm
  · simp only [proceed, loans, Multiset.map_cons, Acquire.loans, Multiset.cons_add,
      Multiset.singleton_add]

end Proceed

/-! Taking a request out of a system. -/

section Cons

variable {a : Acquire σ} {rest : Multiset (Acquire σ)} (h : s.requests = a ::ₘ rest)
include h

theorem slots_cons : s.slots = a.slots + slots { s with requests := rest } := by
  rw [slots, h, Multiset.cons_bind, slots]

theorem closing_cons : s.closing = a.closing + closing { s with requests := rest } := by
  rw [closing, h, Multiset.cons_bind, closing]

theorem loans_cons : s.loans = a.loans + loans { s with requests := rest } := by
  rw [loans, h, Multiset.cons_bind, loans]
  abel

theorem numbers_cons :
    s.numbers = a.slots + a.closing + numbers { s with requests := rest } := by
  rw [numbers, slots_cons h, closing_cons h, numbers]
  abel

end Cons

/-! ## Balance -/

namespace Balanced

/-- Connections may go, change places, or come under a new number. -/
theorem of_numbers {new : Multiset Nat} (h : s.Balanced)
    (hnew : new = 0 ∨ new = {s.pool.nextId}) (hnext : t.pool.nextId = s.pool.nextId + new.card)
    (hnumbers : t.unfit + t.numbers ≤ new + (s.unfit + s.numbers))
    (hbound : t.pool.total ≤ t.pool.config.maxConnections)
    (hslots : t.pool.creating = (t.slots + t.lostSlots).card)
    (hloans : (t.pool.inUse : Multiset Nat) = t.loans + t.lostLoans) : t.Balanced := by
  have hdistinct : (new + (s.unfit + s.numbers)).Nodup := by
    rcases hnew with rfl | rfl
    · rw [zero_add]
      exact h.distinct
    · rw [Multiset.singleton_add, Multiset.nodup_cons]
      exact ⟨fun hmem => absurd (h.numbered _ hmem) (Nat.lt_irrefl _), h.distinct⟩
  refine ⟨hbound, Multiset.nodup_of_le hnumbers hdistinct, fun id hid => ?_, hslots, hloans⟩
  rw [hnext]
  rcases Multiset.mem_add.1 (Multiset.mem_of_le hnumbers hid) with hid | hid
  · rcases hnew with rfl | rfl
    · exact absurd hid (Multiset.notMem_zero _)
    · rw [Multiset.mem_singleton.1 hid, Multiset.card_singleton]
      exact Nat.lt_succ_self _
  · exact Nat.lt_add_right _ (h.numbered id hid)

/-- Connections may go, and the others may change places. -/
theorem of_le (h : s.Balanced) (hnext : t.pool.nextId = s.pool.nextId)
    (hnumbers : t.unfit + t.numbers ≤ s.unfit + s.numbers)
    (hbound : t.pool.total ≤ t.pool.config.maxConnections)
    (hslots : t.pool.creating = (t.slots + t.lostSlots).card)
    (hloans : (t.pool.inUse : Multiset Nat) = t.loans + t.lostLoans) : t.Balanced :=
  h.of_numbers (.inl rfl) hnext ((zero_add (s.unfit + s.numbers)).symm ▸ hnumbers) hbound hslots
    hloans

/-- Like `of_numbers`, for a request that goes on in system `t`. -/
theorem proceed {a : Acquire σ} {new : Multiset Nat} (h : s.Balanced)
    (hnew : new = 0 ∨ new = {s.pool.nextId}) (hnext : t.pool.nextId = s.pool.nextId + new.card)
    (hnumbers : t.unfit + (a.slots + a.closing + t.numbers) ≤ new + (s.unfit + s.numbers))
    (hbound : t.pool.total ≤ t.pool.config.maxConnections)
    (hslots : t.pool.creating = (a.slots + (t.slots + t.lostSlots)).card)
    (hloans : (t.pool.inUse : Multiset Nat) = a.loans + (t.loans + t.lostLoans)) :
    (t.proceed a).Balanced := by
  have hsum : (t.proceed a).numbers = a.slots + a.closing + t.numbers := by
    rw [numbers, numbers, proceed_pool, proceed_slots, proceed_closing]
    abel
  refine h.of_numbers hnew ?_ ?_ ?_ ?_ ?_
  · rw [proceed_pool]
    exact hnext
  · rw [proceed_unfit, hsum]
    exact hnumbers
  · rw [proceed_pool]
    exact hbound
  · rw [proceed_pool, proceed_slots, proceed_lostSlots, add_assoc]
    exact hslots
  · rw [proceed_pool, proceed_loans, proceed_lostLoans, add_assoc]
    exact hloans

theorem starting {config : PoolConfig} {p : Pool σ} (h : Pool.new config = .ok p) :
    (starting p).Balanced := by
  rw [Pool.eq_of_new h]
  exact ⟨Nat.zero_le _, Multiset.nodup_zero, fun id hid => absurd hid (Multiset.notMem_zero id),
    rfl, rfl⟩

end Balanced

end System

/-! ## What the steps of a pool do to its places -/

namespace Pool

variable {p q : Pool σ} {decision : Decision σ} {stale : List (IdleConnection σ)}

theorem config_of_new {config : PoolConfig} (h : new config = .ok p) : p.config = config := by
  rw [eq_of_new h]

theorem Decided.config_eq (h : Decided p (decision, stale, q)) : q.config = p.config := by
  cases h <;> first | rfl | assumption

theorem Decided.numbers_eq (h : Decided p (decision, stale, q)) :
    q.idleIds + (q.inUse : Multiset Nat) + IdleConnection.ids stale =
      p.idleIds + (p.inUse : Multiset Nat) := by
  cases h with
  | closed => exact add_zero _
  | reuse _ hidle huse =>
    rw [idleIds, idleIds, huse, ← IdleConnection.ids_of_perm hidle, IdleConnection.ids_append,
      IdleConnection.ids_cons, ← Multiset.cons_coe, ← Multiset.singleton_add]
    abel
  | create _ hidle huse | exhausted _ hidle huse =>
    rw [idleIds, idleIds, huse, ← IdleConnection.ids_of_perm hidle, IdleConnection.ids_append]
    abel

theorem Decided.slots_eq (h : Decided p (decision, stale, q)) :
    (decision.slots = 0 ∨ decision.slots = {p.nextId}) ∧
      q.nextId = p.nextId + decision.slots.card ∧
        q.creating = p.creating + decision.slots.card := by
  cases h with
  | closed => exact ⟨.inl rfl, rfl, rfl⟩
  | reuse _ _ _ hcreating hnext | exhausted _ _ _ hcreating hnext =>
    exact ⟨.inl rfl, hnext, hcreating⟩
  | create _ _ _ hcreating hnext => exact ⟨.inr rfl, hnext, hcreating⟩

theorem Decided.loans_eq (h : Decided p (decision, stale, q)) :
    (q.inUse : Multiset Nat) = decision.loans + (p.inUse : Multiset Nat) := by
  cases h with
  | closed => exact (zero_add _).symm
  | reuse _ _ huse =>
    rw [huse]
    rfl
  | create _ _ huse | exhausted _ _ huse =>
    rw [huse]
    exact (zero_add _).symm

theorem Decided.total_le (h : Decided p (decision, stale, q))
    (hp : p.total ≤ p.config.maxConnections) : q.total ≤ q.config.maxConnections := by
  rw [h.config_eq]
  cases h with
  | closed => exact hp
  | create _ _ _ _ _ hroom => exact hroom
  | reuse _ hidle huse hcreating =>
    have hlength := hidle.length_eq
    simp only [List.length_append, List.length_cons, Array.length_toList] at hlength
    rw [total] at hp
    rw [total, huse, hcreating, List.length_cons]
    omega
  | exhausted _ hidle huse hcreating =>
    have hlength := hidle.length_eq
    simp only [List.length_append, Array.length_toList] at hlength
    rw [total] at hp
    rw [total, huse, hcreating]
    omega

theorem idle_drainIdle (keep : IdleConnection σ → Bool) (p : Pool σ) :
    (p.drainIdle keep).2.idle.toList.Perm (p.idle.toList.filter keep) := by
  unfold drainIdle
  rw [List.partition_eq_filter_filter]
  exact Heap.ofArray_perm IdleConnection.before (p.idle.toList.filter keep).toArray

theorem idleIds_drainIdle (keep : IdleConnection σ → Bool) (p : Pool σ) :
    (p.drainIdle keep).2.idleIds ≤ p.idleIds :=
  (IdleConnection.ids_of_perm (p.idle_drainIdle keep)).trans_le
    (IdleConnection.ids_le_of_sublist List.filter_sublist)

/-- What one step of a system does to the pool, apart from places and counts. -/
inductive Moves (p : Pool σ) : Pool σ → Prop
  | decided (now : Nat) : Moves p (p.decide now).2.2
  | checkedIn (now : Nat) (lease : Lease σ) : Moves p (p.checkIn now lease).2
  | drained {q : Pool σ} (keep : IdleConnection σ → Bool) :
    q.idle = (p.drainIdle keep).2.idle → q.config = p.config → q.closed = p.closed → Moves p q
  | closed : Moves p p.close.2
  | kept {q : Pool σ} : q.idle = p.idle → q.config = p.config → q.closed = p.closed → Moves p q

theorem Moves.config_eq (h : p.Moves q) : q.config = p.config := by
  cases h with
  | decided now => exact (p.decided now).config_eq
  | checkedIn =>
    unfold checkIn
    dsimp only
    split <;> rfl
  | drained _ _ hconfig | kept _ hconfig => exact hconfig
  | closed => rfl

end Pool

namespace System.Balanced

variable {s t : System σ}

theorem requested (h : s.Balanced) (now : Nat) :
    (System.proceed { s with pool := (Acquire.start now s.pool).2 }
      (Acquire.start now s.pool).1).Balanced := by
  have hdecided := s.pool.decided now
  unfold Acquire.start
  rcases hd : s.pool.decide now with ⟨decision, stale, q⟩
  rw [hd] at hdecided
  obtain ⟨hnew, hnext, hcreating⟩ := hdecided.slots_eq
  refine h.proceed hnew hnext (le_of_eq ?_) (hdecided.total_le h.bounded) ?_ ?_
  all_goals simp only [Acquire.slots_evict, Acquire.closing_evict, Acquire.loans_evict]
  · calc s.unfit + (decision.slots + IdleConnection.ids stale +
          (q.idleIds + (q.inUse : Multiset Nat) + s.slots + s.closing))
        = decision.slots + (s.unfit + (q.idleIds + (q.inUse : Multiset Nat) +
            IdleConnection.ids stale + s.slots + s.closing)) := by abel
      _ = decision.slots + (s.unfit + s.numbers) := by rw [hdecided.numbers_eq, numbers]
  · calc q.creating = s.pool.creating + decision.slots.card := hcreating
      _ = (decision.slots + (s.slots + s.lostSlots)).card := by
        rw [h.slots_eq, ← Multiset.card_add, add_comm]
  · calc (q.inUse : Multiset Nat) = decision.loans + (s.pool.inUse : Multiset Nat) :=
          hdecided.loans_eq
      _ = decision.loans + (s.loans + s.lostLoans) := by rw [h.loans_eq]

/-- The connection that was being closed is gone. -/
theorem evicted {rest : Multiset (Acquire σ)} {current : IdleConnection σ}
    {waiting : List (IdleConnection σ)} {decision : Pool.Decision σ} (h : s.Balanced)
    (hrequests : s.requests = .evicting current waiting decision ::ₘ rest) :
    (System.proceed { s with requests := rest }
      (Acquire.evicted s.pool.config.maxConnections
        (.evicting current waiting decision))).Balanced := by
  refine h.proceed (.inl rfl) rfl ?_ h.bounded ?_ ?_
  all_goals simp only [Acquire.evicted, Acquire.slots_evict, Acquire.closing_evict,
    Acquire.loans_evict]
  · rw [numbers_cons hrequests, zero_add, Acquire.slots, Acquire.closing, IdleConnection.ids_cons]
    refine (Multiset.le_add_left _ {current.id}).trans (le_of_eq ?_)
    abel
  · rw [← add_assoc]
    exact h.slots_eq.trans (congrArg (fun m => (m + s.lostSlots).card) (slots_cons hrequests))
  · rw [← add_assoc]
    exact h.loans_eq.trans (congrArg (· + s.lostLoans) (loans_cons hrequests))

section Opening

variable {rest : Multiset (Acquire σ)} {id : Nat} (h : s.Balanced)
  (hrequests : s.requests = .placed (.opening id) ::ₘ rest)
include h hrequests

/-- A place is kept for a connection that is being opened. -/
theorem creating_eq :
    s.pool.creating = (slots { s with requests := rest } + s.lostSlots).card + 1 := by
  rw [h.slots_eq, slots_cons hrequests, add_assoc, Multiset.card_add, Nat.add_comm]
  rfl

theorem inUse_eq :
    (s.pool.inUse : Multiset Nat) = loans { s with requests := rest } + s.lostLoans := by
  rw [h.loans_eq, loans_cons hrequests]
  exact congrArg (· + s.lostLoans) (zero_add _)

omit h in
theorem numbers_opening : s.numbers = {id} + numbers { s with requests := rest } := by
  rw [numbers_cons hrequests]
  exact congrArg (· + _) (add_zero _)

theorem givenBack : Balanced { s with requests := rest, pool := s.pool.giveBack } := by
  have hroom : s.pool.giveBack.total ≤ s.pool.config.maxConnections :=
    (Nat.add_le_add_left (Nat.sub_le _ 1) _).trans h.bounded
  refine h.of_le rfl ?_ hroom (Nat.sub_eq_of_eq_add (h.creating_eq hrequests))
    (h.inUse_eq hrequests)
  rw [numbers_opening hrequests]
  exact add_le_add_right (Multiset.le_add_left _ _) _

theorem fulfilled (connection : σ) :
    Balanced { s with
      requests := rest
      pool := s.pool.fulfil id
      leases := ⟨id, Session.fresh connection⟩ ::ₘ s.leases } := by
  have hcreating := h.creating_eq hrequests
  have hroom : (s.pool.fulfil id).total ≤ s.pool.config.maxConnections := by
    have hbound := h.bounded
    rw [Pool.total] at hbound
    change s.pool.idle.size + (s.pool.inUse.length + 1) + (s.pool.creating - 1) ≤ _
    omega
  refine h.of_le rfl (le_of_eq ?_) hroom (Nat.sub_eq_of_eq_add hcreating) ?_
  · calc s.unfit + (s.pool.idleIds + (id ::ₘ (s.pool.inUse : Multiset Nat)) +
          slots { s with requests := rest } + closing { s with requests := rest })
        = s.unfit + ({id} + numbers { s with requests := rest }) := by
          rw [numbers, ← Multiset.singleton_add]
          abel
      _ = s.unfit + s.numbers := by rw [numbers_opening hrequests]
  · change id ::ₘ (s.pool.inUse : Multiset Nat) = _
    rw [h.inUse_eq hrequests, loans, loans, Multiset.map_cons, Multiset.cons_add, Multiset.cons_add]

end Opening

theorem opened {rest : Multiset (Acquire σ)} {id : Nat} (h : s.Balanced) (r : Outcome σ)
    (hrequests : s.requests = .placed (.opening id) ::ₘ rest) :
    (System.proceed { s with requests := rest, pool := (Acquire.opened id r s.pool).2 }
      (.placed (.settled (Acquire.opened id r s.pool).1))).Balanced := by
  cases r with
  | error f => exact h.givenBack hrequests
  | ok connection => exact h.fulfilled hrequests connection

/-- The place of a connection that is being opened is given back. What a request has got stays taken
while stale connections are closed for it. -/
theorem abandoned {rest : Multiset (Acquire σ)} {a : Acquire σ} (h : s.Balanced)
    (hrequests : s.requests = a ::ₘ rest) (hwaits : a.Waits) : (s.abandon a rest).Balanced := by
  rcases a with ⟨current, waiting, decision⟩ | (id | r)
  · have hslots : s.slots + s.lostSlots =
        slots { s with requests := rest } + (decision.slots + s.lostSlots) := by
      rw [slots_cons hrequests, add_assoc, add_left_comm]
      rfl
    have hloans : s.loans + s.lostLoans =
        loans { s with requests := rest } + (decision.loans + s.lostLoans) := by
      rw [loans_cons hrequests, add_assoc, add_left_comm]
      rfl
    refine h.of_le rfl ?_ h.bounded (h.slots_eq.trans (congrArg Multiset.card hslots))
      (h.loans_eq.trans hloans)
    rw [numbers_cons hrequests]
    exact add_le_add_right (Multiset.le_add_left _ _) _
  · rw [abandon, Acquire.lostSlots, Acquire.lostLoans, zero_add, zero_add]
    exact h.givenBack hrequests
  · exact hwaits.elim

theorem used {rest : Multiset (Lease σ)} {lease : Lease σ} (h : s.Balanced) (session : Session σ)
    (hleases : s.leases = lease ::ₘ rest) :
    Balanced { s with leases := { lease with session } ::ₘ rest } := by
  refine ⟨h.bounded, h.distinct, h.numbered, h.slots_eq, h.loans_eq.trans ?_⟩
  rw [loans, loans, hleases, Multiset.map_cons, Multiset.map_cons]

/-- Connections are taken out of a pool to be closed. -/
theorem drained {q : Pool σ} (h : s.Balanced) (hidle : q.idleIds ≤ s.pool.idleIds)
    (huse : q.inUse = s.pool.inUse) (hcreating : q.creating = s.pool.creating)
    (hnext : q.nextId = s.pool.nextId) (hconfig : q.config = s.pool.config) :
    Balanced { s with pool := q } := by
  have hsize : q.idle.size ≤ s.pool.idle.size := by
    simpa [Pool.idleIds, IdleConnection.ids] using Multiset.card_le_card hidle
  have hroom : q.total ≤ q.config.maxConnections := by
    have hbound := h.bounded
    rw [Pool.total] at hbound
    rw [Pool.total, huse, hcreating, hconfig]
    omega
  refine h.of_le hnext ?_ hroom (hcreating.trans h.slots_eq) (huse ▸ h.loans_eq)
  change s.unfit + (q.idleIds + (q.inUse : Multiset Nat) + s.slots + s.closing) ≤ _
  rw [huse, numbers]
  exact add_le_add_right (add_le_add_left (add_le_add_left (add_le_add_left hidle _) _) _) _

section Returning

variable {rest : Multiset (Lease σ)} {lease : Lease σ} (h : s.Balanced)
  (hleases : s.leases = lease ::ₘ rest)
include h hleases

theorem inUse_cons :
    (s.pool.inUse : Multiset Nat) = lease.id ::ₘ (s.pool.inUse.erase lease.id : Multiset Nat) := by
  have hmem : lease.id ∈ (s.pool.inUse : Multiset Nat) := by
    rw [h.loans_eq, loans, hleases, Multiset.map_cons, Multiset.cons_add, Multiset.cons_add]
    exact Multiset.mem_cons_self _ _
  rw [← Multiset.coe_erase, Multiset.cons_erase hmem]

theorem erase_inUse :
    (s.pool.inUse.erase lease.id : Multiset Nat) =
      loans { s with leases := rest } + s.lostLoans := by
  refine (Multiset.cons_inj_right lease.id).1 ((h.inUse_cons hleases).symm.trans ?_)
  rw [h.loans_eq, loans, loans, hleases, Multiset.map_cons, Multiset.cons_add, Multiset.cons_add]

theorem numbers_returned :
    s.numbers = {lease.id} + (s.pool.idleIds + (s.pool.inUse.erase lease.id : Multiset Nat) +
      s.slots + s.closing) := by
  rw [numbers, h.inUse_cons hleases, ← Multiset.singleton_add]
  abel

theorem returned (now : Nat) :
    Balanced { s with
      pool := (s.pool.checkIn now lease).2
      leases := rest
      unfit := if lease.session.broken = true ∨ 0 < lease.session.depth then lease.id ::ₘ s.unfit
        else s.unfit } := by
  have hlength : (s.pool.inUse.erase lease.id).length + 1 = s.pool.inUse.length := by
    simpa using (congrArg Multiset.card (h.inUse_cons hleases)).symm
  have hnumbers := h.numbers_returned hleases
  have hbound := h.bounded
  rw [Pool.total] at hbound
  unfold Pool.checkIn
  dsimp only
  split
  -- Thrown away: the number is at most one more unfit one, and no longer in use.
  · refine h.of_le rfl ?_ ?_ h.slots_eq (h.erase_inUse hleases)
    · change (if lease.session.broken = true ∨ 0 < lease.session.depth then lease.id ::ₘ s.unfit
          else s.unfit) +
        (s.pool.idleIds + (s.pool.inUse.erase lease.id : Multiset Nat) + s.slots + s.closing) ≤ _
      rw [hnumbers]
      split
      · rw [← Multiset.singleton_add, add_assoc, add_left_comm]
      · exact add_le_add_right (Multiset.le_add_left _ _) _
    · change s.pool.idle.size + (s.pool.inUse.erase lease.id).length + s.pool.creating ≤
        s.pool.config.maxConnections
      omega
  · rename_i hkept
    have hfit : ¬ (lease.session.broken = true ∨ 0 < lease.session.depth) := by
      rw [← Session.mustDiscard_iff]
      simp only [Bool.or_eq_true, not_or] at hkept
      exact hkept.1
    have hpush := Heap.push_perm IdleConnection.before s.pool.idle
      ⟨lease.session.connection, lease.id, now⟩
    refine h.of_le rfl (le_of_eq ?_) ?_ h.slots_eq (h.erase_inUse hleases)
    · rw [if_neg hfit, hnumbers, numbers, Pool.idleIds,
        IdleConnection.ids_of_perm hpush, IdleConnection.ids_cons]
      change s.unfit + ({lease.id} + s.pool.idleIds + (s.pool.inUse.erase lease.id : Multiset Nat) +
        s.slots + s.closing) = _
      abel
    · have hsize := hpush.length_eq
      rw [Array.length_toList, List.length_cons, Array.length_toList] at hsize
      rw [Pool.total, hsize]
      change s.pool.idle.size + 1 + (s.pool.inUse.erase lease.id).length + s.pool.creating ≤
        s.pool.config.maxConnections
      omega

end Returning

theorem step (h : s.Balanced) (hstep : Step s t) : t.Balanced := by
  cases hstep with
  | requested now => exact h.requested now
  | evicted hrequests => exact h.evicted hrequests
  | opened r hrequests => exact h.opened r hrequests
  | abandoned hrequests hwaits => exact h.abandoned hrequests hwaits
  | used session hleases => exact h.used session hleases
  | returned now hleases => exact h.returned hleases now
  | closedIdle => exact h.drained (s.pool.idleIds_drainIdle _) rfl rfl rfl rfl
  | closedStale now => exact h.drained (s.pool.idleIds_drainIdle _) rfl rfl rfl rfl
  | closed => exact h.drained (s.pool.idleIds_drainIdle _) rfl rfl rfl rfl

theorem reaches (h : s.Balanced) (hreach : Reaches s t) : t.Balanced := by
  induction hreach with
  | refl => exact h
  | tail _ hstep ih => exact ih.step hstep

end System.Balanced

namespace System

variable {s t : System σ}

theorem Step.moves (hstep : Step s t) : s.pool.Moves t.pool := by
  cases hstep with
  | requested now =>
    rw [proceed_pool]
    exact .decided now
  | evicted =>
    rw [proceed_pool]
    exact .kept rfl rfl rfl
  | opened r =>
    rw [proceed_pool]
    cases r <;> exact .kept rfl rfl rfl
  | @abandoned _ a => rcases a with _ | (_ | _) <;> exact .kept rfl rfl rfl
  | used => exact .kept rfl rfl rfl
  | @returned _ lease now => exact .checkedIn now lease
  | closedIdle => exact .drained (fun _ => false) rfl rfl rfl
  | closedStale now =>
    exact .drained (fun c => !c.isStale now s.pool.config.staleTimeout) rfl rfl rfl
  | closed => exact .closed

theorem config_eq_of_reaches (hreach : Reaches s t) : t.pool.config = s.pool.config := by
  induction hreach with
  | refl => rfl
  | tail _ hstep ih => exact hstep.moves.config_eq.trans ih

/-- However requests, returns and closings interleave, the pool stays within its bound; each
connection has a number of its own and one place; a place that is given up was kept; and a
connection that came back broken or with a transaction open is never idle and never lent out
again. -/
theorem safe {config : PoolConfig} {p : Pool σ} (hnew : Pool.new config = .ok p)
    (hreach : Reaches (starting p) s) :
    s.pool.idle.size + s.pool.inUse.length + s.pool.creating ≤ config.maxConnections ∧
      s.numbers.Nodup ∧ (∀ id ∈ s.numbers, id < s.pool.nextId) ∧
      s.loans ≤ (s.pool.inUse : Multiset Nat) ∧
      (∀ id, .placed (.opening id) ∈ s.requests → 0 < s.pool.creating) ∧
      ∀ id ∈ s.unfit, id ∉ s.pool.idleIds ∧ id ∉ s.loans := by
  have h := (Balanced.starting hnew).reaches hreach
  have hconfig : s.pool.config = config := by
    rw [config_eq_of_reaches hreach]
    exact Pool.config_of_new hnew
  have hloans : s.loans ≤ (s.pool.inUse : Multiset Nat) := by
    rw [h.loans_eq]
    exact Multiset.le_add_right _ _
  obtain ⟨-, hnodup, hfit⟩ := Multiset.nodup_add.1 h.distinct
  have hunfit {id : Nat} (hid : id ∈ s.unfit) (hheld : id ∈ s.numbers) : False :=
    Multiset.disjoint_left.1 hfit hid hheld
  refine ⟨hconfig ▸ h.bounded, hnodup, fun id hid => h.numbered id (Multiset.mem_add.2 (.inr hid)),
    hloans, fun id hid => ?_, fun id hid => ⟨fun hidle => ?_, fun hloan => ?_⟩⟩
  · obtain ⟨rest, hrest⟩ := Multiset.exists_cons_of_mem hid
    rw [h.creating_eq hrest]
    exact Nat.succ_pos _
  · refine hunfit hid ?_
    simp only [numbers, Multiset.mem_add]
    exact .inl (.inl (.inl hidle))
  · refine hunfit hid ?_
    simp only [numbers, Multiset.mem_add]
    exact .inl (.inl (.inr (Multiset.mem_of_le hloans hloan)))

end System

namespace Sample

/-- At most one connection, stale after five milliseconds. -/
def single : PoolConfig := ⟨1, some 5⟩

def unused : Pool Unit := ⟨single, #[], [], 0, 1, false, ⟨0, 0, 0, 0, 0⟩⟩

/-- A connection is being opened for a request. -/
def opening : System Unit :=
  ⟨{ unused with creating := 1, nextId := 2 }, {.placed (.opening 1)}, 0, 0, 0, 0⟩

def lent : System Unit :=
  ⟨{ unused with inUse := [1], nextId := 2, counts := ⟨1, 0, 0, 1, 0⟩ }, 0, {⟨1, .fresh ()⟩}, 0, 0,
    0⟩

/-- The connection came back broken. -/
def broke : System Unit :=
  ⟨{ unused with nextId := 2, counts := ⟨1, 1, 0, 1, 0⟩ }, 0, 0, {1}, 0, 0⟩

def lentAgain : System Unit :=
  ⟨{ unused with inUse := [2], nextId := 3, counts := ⟨2, 1, 0, 2, 0⟩ }, 0, {⟨2, .fresh ()⟩}, {1}, 0,
    0⟩

/-- The second one came back with a transaction open, and a third one is being opened. -/
def replacing : System Unit :=
  ⟨{ unused with creating := 1, nextId := 4, counts := ⟨2, 2, 0, 2, 0⟩ }, {.placed (.opening 3)}, 0,
    {2, 1}, 0, 0⟩

theorem lent_reached : (System.starting unused).Reaches lent :=
  .tail (.single (.requested 0) : (System.starting unused).Reaches opening) (.opened (.ok ()) rfl)

theorem broke_reached : (System.starting unused).Reaches broke := by
  have hlent : lent.leases = ⟨1, .fresh ()⟩ ::ₘ 0 := rfl
  have hused := lent_reached.tail (.used (Session.fresh ()).markBroken hlent)
  have hreturned := hused.tail (.returned 3 (Eq.refl (Multiset.cons _ 0)))
  exact hreturned

theorem lentAgain_reached : (System.starting unused).Reaches lentAgain := by
  have hrequested : System.Step broke
      { broke with
        pool.creating := 1, pool.nextId := 3, requests := {.placed (.opening 2)} } := .requested 4
  exact (broke_reached.tail hrequested).tail (.opened (.ok ()) rfl)

theorem replacing_reached : (System.starting unused).Reaches replacing := by
  have hlent : lentAgain.leases = ⟨2, .fresh ()⟩ ::ₘ 0 := rfl
  have hused := lentAgain_reached.tail (.used ⟨(), 1, false⟩ hlent)
  have hreturned := hused.tail (.returned 5 (Eq.refl (Multiset.cons _ 0)))
  exact hreturned.tail (.requested 6)

theorem replacing_safe :
    Pool.new single = .ok unused ∧ (System.starting unused).Reaches replacing ∧
      replacing.unfit = {2, 1} ∧ replacing.numbers.Nodup ∧ 0 < replacing.pool.creating ∧
      ∀ id ∈ replacing.unfit, id ∉ replacing.pool.idleIds ∧ id ∉ replacing.loans := by
  have hnew : Pool.new single = .ok unused := rfl
  obtain ⟨-, hnodup, -, -, hcreating, hunfit⟩ := System.safe hnew replacing_reached
  exact ⟨hnew, replacing_reached, rfl, hnodup, hcreating 3 (Multiset.mem_singleton_self _), hunfit⟩

end Sample

end SqlMapper
