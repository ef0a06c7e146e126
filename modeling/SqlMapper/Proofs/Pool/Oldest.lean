import Mathlib.Data.Prod.Lex
import SqlMapper.Proofs.Pool.HeapOrder
import SqlMapper.Proofs.Pool.Statistics

/-!
# SqlMapper.Proofs.Pool.Oldest

What a request gets from a pool, said of the idle connections without the heap that they are in.

* `IdleConnection.rank`: connections by the time of their return. A connection that ranks below a
  stale one is stale.
* `IdleConnection.overdue`: how long a connection has been idle, against the timeout.
* `Pool.stale`, `Pool.live`: the idle connections that have been idle for too long, and the others.
* `Pool.Choice`: the live connection that ranks lowest, else a new one if there is room for it.
* `Pool.Answered`: all that a request does to a pool whose idle connections are in a heap.
* `System.decide_exact`: in every state that can be reached a request takes out exactly the stale
  connections and gets its choice, and closing the stale connections before changes nothing.
-/

namespace SqlMapper

variable {σ : Type}

/-! ## Order of idle connections -/

namespace IdleConnection

variable {a b : IdleConnection σ} {now : Nat} {timeout : Option Nat}

/-- Connections by the time of their return, those of one time by their numbers. -/
def rank (c : IdleConnection σ) : ℕ ×ₗ ℕ := toLex (c.returnedAt, c.id)

theorem ranks_before :
    Heap.Ranks (before : IdleConnection σ → IdleConnection σ → Bool) rank := by
  intro a b
  simp [before, rank, Prod.Lex.toLex_lt_toLex]

theorem returnedAt_le_of_rank_le (h : a.rank ≤ b.rank) : a.returnedAt ≤ b.returnedAt := by
  rcases Prod.Lex.toLex_le_toLex.1 h with hlt | ⟨heq, -⟩
  · exact hlt.le
  · exact heq.le

/-- Whether the connection has been idle for longer than the timeout. Without a timeout none has. -/
def overdue (now : Nat) (timeout : Option Nat) (c : IdleConnection σ) : Bool :=
  match timeout with
  | some t => t < now - c.returnedAt
  | none => false

theorem isStale_eq (now : Nat) (timeout : Option Nat) (c : IdleConnection σ) :
    c.isStale now timeout = c.overdue now timeout := by
  cases timeout <;> rfl

/-- What came back earlier is stale earlier. -/
theorem overdue_of_rank_le (h : a.rank ≤ b.rank) (hb : b.overdue now timeout = true) :
    a.overdue now timeout = true := by
  have hle := returnedAt_le_of_rank_le h
  cases timeout with
  | none => cases hb
  | some t =>
    simp only [overdue, decide_eq_true_eq] at hb ⊢
    omega

theorem id_eq_of_rank_eq (h : a.rank = b.rank) : a.id = b.id :=
  congrArg Prod.snd (toLex.injective h)

end IdleConnection

/-! ## Decisions -/

namespace Pool

/-- The idle connections that have been idle for too long. -/
def stale (now : Nat) (p : Pool σ) : List (IdleConnection σ) :=
  p.idle.toList.filter (·.overdue now p.config.staleTimeout)

/-- The idle connections that may be handed out. -/
def live (now : Nat) (p : Pool σ) : List (IdleConnection σ) :=
  p.idle.toList.filter (!·.overdue now p.config.staleTimeout)

/-- The idle connection that is handed out. -/
def Decision.handed : Decision σ → List (IdleConnection σ)
  | reuse entry => [entry]
  | create _ | exhausted | closed => []

/-- What a request is to get from a pool that is open. -/
inductive Choice (now : Nat) (p : Pool σ) : Decision σ → Prop
  | oldest {entry} : entry ∈ p.live now → (∀ c ∈ p.live now, entry.rank ≤ c.rank) →
    Choice now p (.reuse entry)
  | room : p.live now = [] → p.inUse.length + p.creating < p.config.maxConnections →
    Choice now p (.create p.nextId)
  | full : p.live now = [] → p.config.maxConnections ≤ p.inUse.length + p.creating →
    Choice now p .exhausted

/-- What is found in a heap of idle connections up to the first live one. -/
structure Popped (now : Nat) (timeout : Option Nat) (idle : Array (IdleConnection σ))
    (stale : List (IdleConnection σ)) (live : Option (IdleConnection σ))
    (rest : Array (IdleConnection σ)) : Prop where
  heap : Heap.IsHeap IdleConnection.rank rest
  stale_perm : stale.Perm (idle.toList.filter (·.overdue now timeout))
  live_perm : (live.toList ++ rest.toList).Perm (idle.toList.filter (!·.overdue now timeout))
  oldest : ∀ entry ∈ live, ∀ c ∈ rest.toList, entry.rank ≤ c.rank
  all_stale : live = none → rest = #[]

/-- All that a request does to a pool that is open. -/
structure Answered (now : Nat) (p : Pool σ) (decision : Decision σ)
    (stale : List (IdleConnection σ)) (q : Pool σ) : Prop where
  choice : Choice now p decision
  stale_perm : stale.Perm (p.stale now)
  live_perm : (decision.handed ++ q.idle.toList).Perm (p.live now)
  inUse_eq : q.inUse = decision.handed.map IdleConnection.id ++ p.inUse
  heap : Heap.IsHeap IdleConnection.rank q.idle

section Deciding

variable {p q : Pool σ} {now : Nat} {timeout : Option Nat} {decision : Decision σ}
  {stale : List (IdleConnection σ)} {live : Option (IdleConnection σ)} {entry : IdleConnection σ}
  {idle rest : Array (IdleConnection σ)}

namespace Popped

theorem empty (now : Nat) (timeout : Option Nat) :
    Popped now timeout (#[] : Array (IdleConnection σ)) [] none #[] where
  heap _ := le_rfl
  stale_perm := .refl _
  live_perm := .refl _
  oldest entry hentry := absurd hentry (Option.not_mem_none entry)
  all_stale _ := rfl

/-- One more stale connection comes out first. -/
theorem cons {remaining : Array (IdleConnection σ)}
    (h : Popped now timeout remaining stale live rest)
    (hperm : (entry :: remaining.toList).Perm idle.toList)
    (hstale : entry.overdue now timeout = true) :
    Popped now timeout idle (entry :: stale) live rest where
  heap := h.heap
  stale_perm := by
    refine .trans ?_ (hperm.filter _)
    rw [List.filter_cons_of_pos hstale]
    exact h.stale_perm.cons entry
  live_perm := by
    refine .trans ?_ (hperm.filter _)
    rw [List.filter_cons_of_neg (by simp [hstale])]
    exact h.live_perm
  oldest := h.oldest
  all_stale := h.all_stale

/-- Connections come out of a heap oldest first, so the first live one is followed by live ones
only. -/
theorem first (hpop : Heap.pop? IdleConnection.before idle = some (entry, rest))
    (hheap : Heap.IsHeap IdleConnection.rank idle) (hlive : entry.overdue now timeout ≠ true) :
    Popped now timeout idle [] (some entry) rest := by
  have hperm := Heap.pop?_perm hpop
  have hle := Heap.pop?_le hheap hpop
  have hall : ∀ c ∈ idle.toList, c.overdue now timeout = false := by
    intro c hc
    refine Bool.eq_false_iff.2 fun hstale => hlive ?_
    exact IdleConnection.overdue_of_rank_le (hle c hc) hstale
  refine ⟨Heap.pop?_isHeap IdleConnection.ranks_before hheap hpop, ?_, ?_, ?_, fun hnone => ?_⟩
  · rw [List.filter_eq_nil_iff.2 fun c hc => by simp [hall c hc]]
  · rw [List.filter_eq_self.2 fun c hc => by simp [hall c hc]]
    exact hperm
  · intro _ hentry c hc
    cases hentry
    exact hle c (hperm.subset (List.mem_cons_of_mem _ hc))
  · cases hnone

end Popped

theorem popLive_popped (steps : Nat) (hheap : Heap.IsHeap IdleConnection.rank idle)
    (hsteps : idle.size ≤ steps) (h : popLive now timeout steps idle = (stale, live, rest)) :
    Popped now timeout idle stale live rest := by
  induction steps generalizing idle stale with
  | zero =>
    have hidle : idle = #[] := Array.eq_empty_of_size_eq_zero (Nat.le_zero.1 hsteps)
    subst hidle
    cases h
    exact .empty now timeout
  | succ steps ih =>
    unfold popLive at h
    cases hpop : Heap.pop? IdleConnection.before idle with
    | none =>
      have hidle : idle = #[] := Array.toList_eq_nil_iff.1 (Heap.pop?_eq_none.1 hpop)
      subst hidle
      rw [hpop] at h
      cases h
      exact .empty now timeout
    | some popped =>
      obtain ⟨entry, remaining⟩ := popped
      rw [hpop] at h
      dsimp only at h
      rw [IdleConnection.isStale_eq] at h
      split at h
      · rename_i hstale
        have hperm := Heap.pop?_perm hpop
        have hsize := hperm.length_eq
        rw [List.length_cons, Array.length_toList, Array.length_toList] at hsize
        have hremaining := Heap.pop?_isHeap IdleConnection.ranks_before hheap hpop
        rcases hrec : popLive now timeout steps remaining with ⟨stale', live', rest'⟩
        simp only [hrec] at h
        cases h
        exact (ih hremaining (by omega) hrec).cons hperm hstale
      · rename_i hlive
        cases h
        exact .first hpop hheap hlive

theorem total_of_idle_eq (h : p.idle = #[]) : p.total = p.inUse.length + p.creating := by
  rw [total, h, List.size_toArray, List.length_nil, Nat.zero_add]

theorem answered_of_heap (hheap : Heap.IsHeap IdleConnection.rank p.idle) (hopen : p.closed = false)
    (h : p.decide now = (decision, stale, q)) : Answered now p decision stale q := by
  unfold decide at h
  rw [if_neg (by simp [hopen])] at h
  rcases hpop : popLive now p.config.staleTimeout p.idle.size p.idle with ⟨stale', live, rest⟩
  have hpopped := popLive_popped _ hheap le_rfl hpop
  have hlive := hpopped.live_perm
  simp only [hpop] at h
  cases live with
  | some entry =>
    cases h
    refine ⟨.oldest ?_ ?_, hpopped.stale_perm, hlive, rfl, hpopped.heap⟩
    · exact hlive.subset List.mem_cons_self
    · intro c hc
      rcases List.mem_cons.1 (hlive.symm.subset hc) with rfl | hc
      · exact le_rfl
      · exact hpopped.oldest entry rfl c hc
  | none =>
    have hempty := hpopped.all_stale rfl
    subst hempty
    have hnil : p.live now = [] := hlive.symm.eq_nil
    dsimp only at h
    split at h
    · rename_i hroom
      rw [total_of_idle_eq rfl] at hroom
      cases h
      exact ⟨.room hnil hroom, hpopped.stale_perm, hlive, rfl, hpopped.heap⟩
    · rename_i hfull
      rw [total_of_idle_eq rfl] at hfull
      cases h
      exact ⟨.full hnil (Nat.le_of_not_lt hfull), hpopped.stale_perm, hlive, rfl, hpopped.heap⟩

/-- Idle connections stay in a heap. -/
theorem Moves.idle_isHeap (h : p.Moves q) (hheap : Heap.IsHeap IdleConnection.rank p.idle) :
    Heap.IsHeap IdleConnection.rank q.idle := by
  cases h with
  | decided now =>
    cases hclosed : p.closed with
    | true =>
      rw [decide_of_closed hclosed]
      exact hheap
    | false => exact (answered_of_heap hheap hclosed rfl).heap
  | checkedIn now lease =>
    unfold checkIn
    dsimp only
    split
    · exact hheap
    · exact Heap.push_isHeap IdleConnection.ranks_before hheap _
  | drained keep hidle =>
    rw [hidle]
    exact Heap.ofArray_isHeap IdleConnection.ranks_before _
  | closed => exact Heap.ofArray_isHeap IdleConnection.ranks_before _
  | kept hidle =>
    rw [hidle]
    exact hheap

end Deciding

namespace Choice

variable {p : Pool σ} {now : Nat} {decision : Decision σ}

/-- Numbers tell connections apart, so only one of them ranks lowest. -/
theorem reuse_iff (h : Choice now p decision) (hids : p.idleIds.Nodup)
    (entry : IdleConnection σ) :
    decision = .reuse entry ↔
      entry ∈ p.live now ∧ ∀ c ∈ p.live now, entry.rank ≤ c.rank := by
  constructor
  · rintro rfl
    cases h with
    | oldest hmem hmin => exact ⟨hmem, hmin⟩
  · rintro ⟨hmem, hmin⟩
    cases h with
    | @oldest entry' hmem' hmin' =>
      have hid : entry'.id = entry.id :=
        IdleConnection.id_eq_of_rank_eq (le_antisymm (hmin' entry hmem) (hmin entry' hmem'))
      have hnodup : (p.idle.toList.map IdleConnection.id).Nodup := hids
      rw [List.inj_on_of_nodup_map hnodup (List.mem_of_mem_filter hmem')
        (List.mem_of_mem_filter hmem) hid]
    | room hnil | full hnil =>
      rw [hnil] at hmem
      cases hmem

theorem create_iff (h : Choice now p decision) (id : Nat) :
    decision = .create id ↔ id = p.nextId ∧ p.live now = [] ∧
      p.inUse.length + p.creating < p.config.maxConnections := by
  constructor
  · rintro rfl
    cases h with
    | room hnil hroom => exact ⟨rfl, hnil, hroom⟩
  · rintro ⟨rfl, hnil, hroom⟩
    cases h with
    | oldest hmem =>
      rw [hnil] at hmem
      cases hmem
    | room => rfl
    | full _ hfull => exact absurd hroom (Nat.not_lt.2 hfull)

/-- While a connection is idle, there is always room. -/
theorem exhausted_iff (h : Choice now p decision) (hbound : p.total ≤ p.config.maxConnections) :
    decision = .exhausted ↔ p.inUse.length + p.creating = p.config.maxConnections := by
  rw [total] at hbound
  constructor
  · rintro rfl
    cases h with
    | full _ hfull => omega
  · intro hfull
    cases h with
    | oldest hmem =>
      have hpos := List.length_pos_of_mem (List.mem_of_mem_filter hmem)
      rw [Array.length_toList] at hpos
      omega
    | room _ hroom => omega
    | full => rfl

end Choice

/-! ## Closing stale connections before -/

section Closing

variable (now : Nat) (p : Pool σ)

theorem live_eq : p.live now = p.idle.toList.filter (!·.isStale now p.config.staleTimeout) :=
  List.filter_congr fun c _ => congrArg (!·) (c.isStale_eq now _).symm

theorem idle_closeStale : (p.closeStale now).2.idle.toList.Perm (p.live now) := by
  rw [live_eq]
  exact p.idle_drainIdle fun c => !c.isStale now p.config.staleTimeout

theorem live_closeStale : ((p.closeStale now).2.live now).Perm (p.live now) := by
  have hlive := (p.idle_closeStale now).filter (!·.overdue now p.config.staleTimeout)
  unfold live at hlive
  rw [List.filter_filter] at hlive
  simp only [Bool.and_self] at hlive
  exact hlive

theorem stale_closeStale : (p.closeStale now).2.stale now = [] := by
  refine List.filter_eq_nil_iff.2 fun c hc => ?_
  have hlive := List.of_mem_filter ((p.idle_closeStale now).subset hc)
  rw [Bool.not_eq_true'] at hlive
  exact Bool.eq_false_iff.1 hlive

theorem counts_closeStale : (p.closeStale now).2.counts =
    { p.counts with
      closed := p.counts.closed + (p.stale now).length
      evicted := p.counts.evicted + (p.stale now).length } := by
  have hdrained : (p.drainIdle fun c => !c.isStale now p.config.staleTimeout).1 = p.stale now := by
    unfold drainIdle stale
    rw [List.partition_eq_filter_filter]
    exact List.filter_congr fun c _ => (Bool.not_not _).trans (c.isStale_eq now _)
  rw [← hdrained]
  rfl

end Closing

/-- The decision only depends on which connections are live and on what the pool has room for. -/
theorem Choice.unique {p p' : Pool σ} {now : Nat} {decision decision' : Decision σ}
    (h : Choice now p decision) (h' : Choice now p' decision') (hids : p.idleIds.Nodup)
    (hlive : (p'.live now).Perm (p.live now)) (huse : p'.inUse = p.inUse)
    (hcreating : p'.creating = p.creating) (hnext : p'.nextId = p.nextId)
    (hconfig : p'.config = p.config) : decision' = decision := by
  have hp : Choice now p decision' := by
    cases h' with
    | oldest hmem hmin =>
      exact .oldest (hlive.subset hmem) fun c hc => hmin c (hlive.symm.subset hc)
    | room hnil hroom =>
      rw [huse, hcreating, hconfig] at hroom
      rw [hnext]
      exact .room (hnil ▸ hlive).nil_eq.symm hroom
    | full hnil hfull =>
      rw [huse, hcreating, hconfig] at hfull
      exact .full (hnil ▸ hlive).nil_eq.symm hfull
  cases hp with
  | oldest hmem hmin => exact ((h.reuse_iff hids _).2 ⟨hmem, hmin⟩).symm
  | room hnil hroom => exact ((h.create_iff _).2 ⟨rfl, hnil, hroom⟩).symm
  | full hnil hfull =>
    cases h with
    | oldest hmem =>
      rw [hnil] at hmem
      cases hmem
    | room _ hroom => exact absurd hroom (Nat.not_lt.2 hfull)
    | full => rfl

/-- Closing the stale connections at the same time before leads to the same decision and to the same
pool. -/
theorem decide_closeStale {p q : Pool σ} {now : Nat} {decision : Decision σ}
    {stale : List (IdleConnection σ)} (hheap : Heap.IsHeap IdleConnection.rank p.idle)
    (hopen : p.closed = false) (hids : p.idleIds.Nodup)
    (h : p.decide now = (decision, stale, q)) :
    ∃ q', (p.closeStale now).2.decide now = (decision, [], q') ∧
      q'.idle.toList.Perm q.idle.toList ∧ q'.inUse = q.inUse ∧ q'.creating = q.creating ∧
      q'.nextId = q.nextId ∧ q'.stats = q.stats := by
  rcases h' : (p.closeStale now).2.decide now with ⟨decision', stale', q'⟩
  have hheap' : Heap.IsHeap IdleConnection.rank (p.closeStale now).2.idle :=
    Heap.ofArray_isHeap IdleConnection.ranks_before _
  have hopen' : (p.closeStale now).2.closed = false := hopen
  have ha := answered_of_heap hheap hopen h
  have ha' := answered_of_heap hheap' hopen' h'
  obtain ⟨-, hnext, hcreating⟩ := (h ▸ p.decided now : Decided p _).slots_eq
  obtain ⟨-, hnext', hcreating'⟩ := (h' ▸ decided now _ : Decided _ _).slots_eq
  have hdecision : decision' = decision :=
    ha.choice.unique ha'.choice hids (p.live_closeStale now) rfl rfl rfl rfl
  have hnone : stale' = [] := (p.stale_closeStale now ▸ ha'.stale_perm).eq_nil
  subst hdecision hnone
  have hidle : q'.idle.toList.Perm q.idle.toList := by
    have hperm := (ha'.live_perm.trans (p.live_closeStale now)).trans ha.live_perm.symm
    exact (List.perm_append_left_iff _).1 hperm
  have hcounts : q'.counts = q.counts := by
    rw [counts_decide h', counts_decide h, counts_closeStale, ha.stale_perm.length_eq]
    rfl
  have hsize : q'.idle.size = q.idle.size := hidle.length_eq
  have huse : q'.inUse = q.inUse := ha'.inUse_eq.trans ha.inUse_eq.symm
  refine ⟨q', rfl, hidle, huse, hcreating'.trans hcreating.symm, hnext'.trans hnext.symm, ?_⟩
  simp only [stats, total, hsize, huse, hcreating', hcreating, hcounts]
  rfl

end Pool

/-! ## Runs -/

namespace System

variable {s t : System σ}

theorem idle_isHeap {config : PoolConfig} {p : Pool σ} (hnew : Pool.new config = .ok p)
    (hreach : Reaches (starting p) s) : Heap.IsHeap IdleConnection.rank s.pool.idle := by
  induction hreach with
  | refl =>
    rw [Pool.eq_of_new hnew]
    exact fun j => le_rfl
  | tail _ hstep ih => exact hstep.moves.idle_isHeap ih

/-- The decision of a request in a pool that is open. Exactly the stale connections are taken out.
Of the others the one that came back first is handed out, of two that came back at once the older
one; if there is none, a place is kept while there is room, and the pool is exhausted if all its
connections are lent out or being opened. Closing the stale connections at the same time before
leads to the same decision and to the same pool. -/
theorem decide_exact {config : PoolConfig} {p : Pool σ} (hnew : Pool.new config = .ok p)
    (hreach : Reaches (starting p) s) (hopen : s.pool.closed = false) (now : Nat)
    {decision : Pool.Decision σ} {stale : List (IdleConnection σ)} {q : Pool σ}
    (h : s.pool.decide now = (decision, stale, q)) :
    stale.Perm (s.pool.stale now) ∧
      (decision.handed ++ q.idle.toList).Perm (s.pool.live now) ∧
      (∀ entry, decision = .reuse entry ↔
        entry ∈ s.pool.live now ∧ ∀ c ∈ s.pool.live now, entry.rank ≤ c.rank) ∧
      (∀ id, decision = .create id ↔ id = s.pool.nextId ∧ s.pool.live now = [] ∧
        s.pool.inUse.length + s.pool.creating < config.maxConnections) ∧
      (decision = .exhausted ↔
        s.pool.inUse.length + s.pool.creating = config.maxConnections) ∧
      q.inUse = decision.handed.map IdleConnection.id ++ s.pool.inUse ∧
      q.creating = s.pool.creating + decision.slots.card ∧
      q.nextId = s.pool.nextId + decision.slots.card ∧
      ∃ q', (s.pool.closeStale now).2.decide now = (decision, [], q') ∧
        q'.idle.toList.Perm q.idle.toList ∧ q'.inUse = q.inUse ∧ q'.creating = q.creating ∧
        q'.nextId = q.nextId ∧ q'.stats = q.stats := by
  have hconfig : s.pool.config = config := by
    rw [config_eq_of_reaches hreach]
    exact Pool.config_of_new hnew
  have hb := (Balanced.starting hnew).reaches hreach
  have hids := hb.idleIds_apart.1
  have hheap := idle_isHeap hnew hreach
  have ha := Pool.answered_of_heap hheap hopen h
  obtain ⟨-, hnext, hcreating⟩ := (h ▸ s.pool.decided now : Pool.Decided s.pool _).slots_eq
  refine ⟨ha.stale_perm, ha.live_perm, ha.choice.reuse_iff hids, ?_, ?_, ha.inUse_eq, hcreating,
    hnext, Pool.decide_closeStale hheap hopen hids h⟩
  · rw [← hconfig]
    exact ha.choice.create_iff
  · rw [← hconfig]
    exact ha.choice.exhausted_iff hb.bounded

end System

namespace Sample

def pair : PoolConfig := ⟨2, some 5⟩

def unusedPair : Pool Unit := { unused with config := pair }

def bothLent : System Unit :=
  ⟨{ unusedPair with inUse := [2, 1], nextId := 3, counts := ⟨2, 0, 0, 2, 0⟩ }, 0,
    {⟨2, .fresh ()⟩, ⟨1, .fresh ()⟩}, 0, 0, 0⟩

/-- The newer connection came back at once, and the older one after a while. -/
def bothIdle : System Unit :=
  ⟨{ unusedPair with
      idle := #[⟨(), 2, 0⟩, ⟨(), 1, 10⟩]
      nextId := 3
      counts := ⟨2, 0, 0, 2, 0⟩ }, 0, 0, 0, 0, 0⟩

theorem bothLent_reached : (System.starting unusedPair).Reaches bothLent := by
  have hopening : (System.starting unusedPair).Reaches
      ⟨{ unusedPair with creating := 1, nextId := 2 }, {.placed (.opening 1)}, 0, 0, 0, 0⟩ :=
    .single (.requested 0)
  have hfirst : (System.starting unusedPair).Reaches
      ⟨{ unusedPair with inUse := [1], nextId := 2, counts := ⟨1, 0, 0, 1, 0⟩ }, 0,
        {⟨1, .fresh ()⟩}, 0, 0, 0⟩ :=
    hopening.tail (.opened (.ok ()) rfl)
  exact (hfirst.tail (.requested 0)).tail
    (.opened (.ok ()) (Eq.refl (Multiset.cons (Acquire.placed (.opening 2)) 0)))

theorem bothIdle_reached : (System.starting unusedPair).Reaches bothIdle := by
  have hnewer : bothLent.leases = ⟨2, .fresh ()⟩ ::ₘ {⟨1, .fresh ()⟩} := rfl
  have hreturned := bothLent_reached.tail (.returned 0 hnewer)
  have holder := hreturned.tail (.returned 10 (Eq.refl (Multiset.cons _ 0)))
  exact holder

/-- The newer connection is stale, so the older one is handed out. -/
theorem bothIdle_exact :
    Pool.new pair = .ok unusedPair ∧ (System.starting unusedPair).Reaches bothIdle ∧
      bothIdle.pool.closed = false ∧
      bothIdle.pool.decide 12 = (.reuse ⟨(), 1, 10⟩, [⟨(), 2, 0⟩], { unusedPair with
        inUse := [1]
        nextId := 3
        counts := ⟨2, 1, 1, 3, 0⟩ }) ∧
      ∀ c ∈ bothIdle.pool.live 12, toLex (10, 1) ≤ c.rank := by
  have hnew : Pool.new pair = .ok unusedPair := rfl
  have hopen : bothIdle.pool.closed = false := rfl
  have hdecide : bothIdle.pool.decide 12 = (.reuse ⟨(), 1, 10⟩, [⟨(), 2, 0⟩], { unusedPair with
      inUse := [1]
      nextId := 3
      counts := ⟨2, 1, 1, 3, 0⟩ }) := rfl
  obtain ⟨-, -, hreuse, -⟩ := System.decide_exact hnew bothIdle_reached hopen 12 hdecide
  exact ⟨hnew, bothIdle_reached, hopen, hdecide, ((hreuse _).1 rfl).2⟩

end Sample

end SqlMapper
