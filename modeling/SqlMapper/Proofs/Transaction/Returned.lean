import SqlMapper.Pool.Basic
import SqlMapper.Proofs.Pool.Heap
import SqlMapper.Proofs.Transaction.Balance

/-!
# SqlMapper.Proofs.Transaction.Returned

What is open on a connection that goes back to its pool.

A pool keeps a connection whose session counts no level and is not broken. The count changes on
success only, so a `BEGIN` that is interrupted is not counted, also where the database has carried
it out.

* `Behaviour.LeftOpen`: such a `BEGIN` took effect, and nothing has ended its transaction.
* `Session.Accounts`: while no level is counted, a transaction is open exactly in that case.
* `Activity.idle_open_iff`: whatever was done with a connection, if the pool keeps it then this
  tells whether a transaction is open on it.
-/

namespace SqlMapper

variable {δ : Type}

namespace Behaviour

variable {b : Behaviour δ} {since n : Nat} {received : List Receipt} {x : Receipt} {c : Control}

/-- Statement `n` was `c` and took effect. -/
def Performed (b : Behaviour δ) (received : List Receipt) (n : Nat) (c : Control) : Prop :=
  (∃ x, received[n]? = some x ∧ x.sql = c.sql) ∧ b.takesEffect n = true

/-- Since statement `since`, a `BEGIN` has taken effect though it was interrupted, and no `COMMIT`
or `ROLLBACK` has taken effect after it. -/
def LeftOpen (b : Behaviour δ) (since : Nat) (received : List Receipt) : Prop :=
  ∃ n, since ≤ n ∧ b.Performed received n .begin ∧ (b.answer n).isOk = false ∧
    ∀ k, n < k → ¬ b.Performed received k .commit ∧ ¬ b.Performed received k .rollback

theorem Performed.lt (h : b.Performed received n c) : n < received.length := by
  obtain ⟨⟨x, hx, -⟩, -⟩ := h
  exact (List.getElem?_eq_some_iff.1 hx).1

/-- One more statement came in. -/
theorem performed_concat :
    b.Performed (received ++ [x]) n c ↔
      b.Performed received n c ∨
        n = received.length ∧ x.sql = c.sql ∧ b.takesEffect n = true := by
  unfold Performed
  by_cases hlt : n < received.length
  · have hne : n ≠ received.length := by omega
    rw [List.getElem?_append_left hlt]
    simp [hne]
  · by_cases heq : n = received.length
    · subst heq
      simp
    · have hnone : (received ++ [x])[n]? = none := by
        rw [List.getElem?_eq_none_iff, List.length_append, List.length_singleton]
        omega
      have hnone' : received[n]? = none := List.getElem?_eq_none (by omega)
      simp [hnone, hnone', heq]

/-- A transaction stays open through a statement that does not end it. -/
theorem LeftOpen.concat (h : b.LeftOpen since received)
    (hx : b.takesEffect received.length = true →
      x.sql ≠ Control.commit.sql ∧ x.sql ≠ Control.rollback.sql) :
    b.LeftOpen since (received ++ [x]) := by
  obtain ⟨n, hsince, hbegin, hnot, hafter⟩ := h
  refine ⟨n, hsince, performed_concat.2 (.inl hbegin), hnot, fun k hk => ⟨?_, ?_⟩⟩
  · intro hcommit
    rcases performed_concat.1 hcommit with hcommit | ⟨rfl, hsql, heffect⟩
    · exact (hafter k hk).1 hcommit
    · exact (hx heffect).1 hsql
  · intro hrollback
    rcases performed_concat.1 hrollback with hrollback | ⟨rfl, hsql, heffect⟩
    · exact (hafter k hk).2 hrollback
    · exact (hx heffect).2 hsql

/-- Nothing but an interrupted `BEGIN` leaves a transaction open that was not. -/
theorem LeftOpen.of_concat (h : b.LeftOpen since (received ++ [x]))
    (hx : b.takesEffect received.length = true → (b.answer received.length).isOk = false →
      x.sql ≠ Control.begin.sql) :
    b.LeftOpen since received := by
  obtain ⟨n, hsince, hbegin, hnot, hafter⟩ := h
  rcases performed_concat.1 hbegin with hbegin | ⟨rfl, hsql, heffect⟩
  · refine ⟨n, hsince, hbegin, hnot, fun k hk => ⟨fun hcommit => ?_, fun hrollback => ?_⟩⟩
    · exact (hafter k hk).1 (performed_concat.2 (.inl hcommit))
    · exact (hafter k hk).2 (performed_concat.2 (.inl hrollback))
  · exact absurd hsql (hx heffect hnot)

theorem leftOpen_interrupted (hsince : since ≤ received.length)
    (hx : x.sql = Control.begin.sql) (heffect : b.takesEffect received.length = true)
    (hnot : (b.answer received.length).isOk = false) : b.LeftOpen since (received ++ [x]) := by
  refine ⟨received.length, hsince, performed_concat.2 (.inr ⟨rfl, hx, heffect⟩), hnot, ?_⟩
  intro k hk
  refine ⟨fun h => ?_, fun h => ?_⟩ <;>
  · have hlt := h.lt
    rw [List.length_append, List.length_singleton] at hlt
    omega

theorem not_leftOpen_ended (hx : x.sql = Control.commit.sql ∨ x.sql = Control.rollback.sql)
    (heffect : b.takesEffect received.length = true) : ¬ b.LeftOpen since (received ++ [x]) := by
  rintro ⟨n, -, hbegin, -, hafter⟩
  have hn : n < received.length := by
    rcases performed_concat.1 hbegin with hbegin | ⟨-, hsql, -⟩
    · exact hbegin.lt
    · rw [hsql] at hx
      rcases hx with hx | hx <;> exact absurd (Control.sql_injective hx) (by decide)
  rcases hx with hx | hx
  · exact (hafter _ hn).1 (performed_concat.2 (.inr ⟨rfl, hx, heffect⟩))
  · exact (hafter _ hn).2 (performed_concat.2 (.inr ⟨rfl, hx, heffect⟩))

end Behaviour

/-! ## Sessions -/

namespace Session

variable {b : Behaviour δ} {since : Nat} {s : Session (Database δ)}

/-- While the session counts no level, it is told by the statements since `since` whether a
transaction is open. -/
structure Accounts (b : Behaviour δ) (since : Nat) (s : Session (Database δ)) : Prop where
  since_le : since ≤ s.connection.received.length
  open_iff : s.depth = 0 →
    (s.connection.levels ≠ [] ↔ b.LeftOpen since s.connection.received)

theorem Accounts.fresh {db : Database δ} (h : db.levels = []) :
    Accounts b db.received.length (.fresh db) := by
  refine ⟨Nat.le_refl _, fun _ => iff_of_false (not_not_intro h) ?_⟩
  rintro ⟨n, hle, hbegin, -⟩
  exact Nat.not_lt.2 hle hbegin.lt

theorem Accounts.markBroken (h : s.Accounts b since) : s.markBroken.Accounts b since :=
  ⟨h.since_le, h.open_iff⟩

theorem send_eq (b : Behaviour δ) (c : Control) (s : Session (Database δ)) :
    s.send b.driver c =
      ((b.answer s.connection.received.length).map fun _ => (),
        { s with connection :=
            if b.takesEffect s.connection.received.length then
              (s.connection.note c.sql).control c
            else s.connection.note c.sql }) := by
  unfold send Behaviour.driver Behaviour.reading Behaviour.perform Behaviour.carryOut
  dsimp only
  rw [Control.ofSql?_sql]
  cases b.answer s.connection.received.length <;> rfl

theorem received_control (db : Database δ) (c : Control) :
    (db.control c).received = db.received := by
  unfold Database.control
  cases c <;> dsimp only <;> split <;> rfl

theorem received_send (c : Control) :
    (s.send b.driver c).2.connection.received =
      s.connection.received ++ [⟨c.sql, s.connection.savepoints⟩] := by
  rw [send_eq]
  dsimp only
  split
  · rw [received_control]
    rfl
  · rfl

theorem since_le_sendAll (cs : List Control) (h : since ≤ s.connection.received.length) :
    since ≤ (s.sendAll b.driver cs).2.connection.received.length := by
  induction cs generalizing s with
  | nil => exact h
  | cons c cs ih =>
    have hsend : since ≤ (s.send b.driver c).2.connection.received.length := by
      rw [received_send, List.length_append]
      omega
    unfold sendAll
    split <;> rename_i heq <;> rw [heq] at hsend
    · exact ih hsend
    · exact hsend

theorem sendAll_singleton {σ : Type} (D : Driver σ) (c : Control) (s : Session σ) :
    s.sendAll D [c] = s.send D c := by
  unfold sendAll
  split <;> rename_i hsend
  · exact hsend.symm
  · exact hsend.symm

/-- A `COMMIT` or `ROLLBACK` that reports success leaves nothing open. -/
theorem ended (since : Nat) {t : Session (Database δ)} {c : Control}
    (hc : c = .commit ∨ c = .rollback) (h : s.send b.driver c = (.ok (), t)) :
    t.connection.levels = [] ∧ ¬ b.LeftOpen since t.connection.received := by
  have hreceived := received_send (b := b) (s := s) c
  rw [h] at hreceived
  rw [send_eq] at h
  obtain ⟨hok, rfl⟩ := Prod.mk.inj h
  have heffect : b.takesEffect s.connection.received.length = true := by
    unfold Behaviour.takesEffect
    cases hanswer : b.answer s.connection.received.length with
    | ok reply => rfl
    | error f =>
      rw [hanswer] at hok
      cases hok
  refine ⟨?_, ?_⟩
  · rcases hc with rfl | rfl <;> simp [heffect, Database.control]
  · rw [hreceived]
    have hsql := hc.imp (congrArg Control.sql) (congrArg Control.sql)
    exact Behaviour.not_leftOpen_ended hsql heffect

namespace Accounts

/-- A session with an open level is not told anything. -/
theorem of_depth_ne (hsince : since ≤ s.connection.received.length) (h : s.depth ≠ 0) :
    s.Accounts b since := ⟨hsince, fun h0 => absurd h0 h⟩

/-- A `BEGIN` that reports failure opens a transaction exactly if it took effect. -/
theorem begin_failed (h : s.Accounts b since) {f : Failure} {t : Session (Database δ)}
    (hsend : s.send b.driver .begin = (.error f, t)) (hdepth : s.depth = 0) :
    t.connection.levels ≠ [] ↔ b.LeftOpen since t.connection.received := by
  have hreceived := received_send (b := b) (s := s) .begin
  rw [hsend] at hreceived
  rw [hreceived]
  rw [send_eq] at hsend
  obtain ⟨hfail, rfl⟩ := Prod.mk.inj hsend
  have hnot : (b.answer s.connection.received.length).isOk = false := by
    cases hanswer : b.answer s.connection.received.length with
    | ok reply =>
      rw [hanswer] at hfail
      cases hfail
    | error f => rfl
  cases heffect : b.takesEffect s.connection.received.length with
  | true =>
    -- It took effect and was reported as failed, so the transaction stays open unseen.
    refine iff_of_true ?_ (Behaviour.leftOpen_interrupted h.since_le rfl heffect hnot)
    show ((s.connection.note Control.begin.sql).control .begin).levels ≠ []
    unfold Database.control
    dsimp only
    split
    · exact List.cons_ne_nil _ _
    · rename_i hopen
      exact fun hnil => hopen (by rw [hnil]; rfl)
  | false =>
    have hidle : ¬ b.takesEffect s.connection.received.length = true := by
      rw [heffect]
      exact Bool.false_ne_true
    refine (h.open_iff hdepth).trans ⟨fun hopen => ?_, fun hopen => ?_⟩
    · exact hopen.concat fun h => absurd h hidle
    · exact hopen.of_concat fun h => absurd h hidle

theorem begin (h : s.Accounts b since) : (s.begin b.driver).2.Accounts b since := by
  have hlater := since_le_sendAll (b := b) [.opening s.depth] h.since_le
  rw [sendAll] at hlater
  unfold Session.begin
  split
  · exact h
  · split <;> rename_i t hsend <;> rw [hsend] at hlater
    · exact of_depth_ne hlater (Nat.succ_ne_zero _)
    · refine ⟨hlater, fun hdepth => ?_⟩
      have hs : s.depth = 0 := (congrArg (·.2.depth) hsend).trans hdepth
      rw [hs] at hsend
      exact h.begin_failed hsend hs

theorem commit (h : s.Accounts b since) : (s.commit b.driver).2.Accounts b since := by
  have hlater := since_le_sendAll (b := b) [.keeping s.depth] h.since_le
  rw [sendAll] at hlater
  unfold Session.commit
  split
  · exact h
  · rename_i hopen
    split
    · exact h
    · split <;> rename_i t hsend <;> rw [hsend] at hlater
      · refine ⟨hlater, fun hdepth => ?_⟩
        have hone : s.depth = 1 := by
          have : s.depth - 1 = 0 := hdepth
          omega
        rw [hone] at hsend
        obtain ⟨hlevels, hclosed⟩ := ended since (.inl rfl) hsend
        exact iff_of_false (not_not_intro hlevels) hclosed
      · have hs : s.depth = t.depth := congrArg (·.2.depth) hsend
        exact of_depth_ne hlater (hs ▸ hopen)

theorem rollback (h : s.Accounts b since) : (s.rollback b.driver).2.Accounts b since := by
  have hlater := since_le_sendAll (b := b) (Control.undoing s.depth) h.since_le
  have hframe := sendAll_frame (D := b.driver) (Control.undoing s.depth) s
  unfold Session.rollback
  split
  · exact h
  · rename_i hopen
    split <;> rename_i t hsend <;> rw [hsend] at hlater hframe
    · refine ⟨hlater, fun hdepth => ?_⟩
      have hone : s.depth = 1 := by
        have : s.depth - 1 = 0 := hdepth
        omega
      rw [hone, Control.undoing, if_pos rfl, sendAll_singleton] at hsend
      obtain ⟨hlevels, hclosed⟩ := ended since (.inr rfl) hsend
      exact iff_of_false (not_not_intro hlevels) hclosed
    · exact of_depth_ne hlater (hframe.1 ▸ hopen)

theorem rollbackOrBreak (h : s.Accounts b since) :
    (s.rollbackOrBreak b.driver).Accounts b since := by
  have hrollback := h.rollback
  unfold Session.rollbackOrBreak
  split
  · exact h
  · split <;> rename_i heq <;> rw [heq] at hrollback
    · exact hrollback
    · exact hrollback.markBroken

theorem conclude {α : Type} (h : s.Accounts b since) (outer : Nat) (r : Outcome α) :
    (s.conclude b.driver outer r).2.Accounts b since := by
  have hcommit := h.commit
  unfold Session.conclude
  split
  · exact h.rollbackOrBreak
  · split <;> rename_i heq <;> rw [heq] at hcommit
    · split
      · exact hcommit
      · exact hcommit.markBroken
    · exact hcommit.markBroken
    · exact hcommit.rollbackOrBreak

theorem finish (h : s.Accounts b since) (how : Finish) (scope : TransactionScope) :
    (scope.finish b.driver how s).2.Accounts b since := by
  have hrun : (how.run b.driver s).2.Accounts b since := by
    cases how with
    | commit => exact h.commit
    | rollback => exact h.rollback
  unfold TransactionScope.finish
  split
  · split <;> rename_i heq <;> rw [heq] at hrun
    · exact hrun
    · exact hrun.markBroken
  · exact h.markBroken

theorem start (h : s.Accounts b since) :
    (TransactionScope.start b.driver s).2.Accounts b since := by
  have hbegin := h.begin
  unfold TransactionScope.start
  split <;> rename_i heq <;> rw [heq] at hbegin <;> exact hbegin

theorem call {α : Type} {c : Call α} (hc : c.Plain) (h : s.Accounts b since) :
    ((Operation.call c).run b.driver s).2.Accounts b since := by
  obtain ⟨data, heq⟩ := c.run_plain hc b s.connection
  have hplain (k : Control) : c.sql ≠ k.sql := by
    intro hsql
    have hread : Control.ofSql? c.sql = none := hc
    rw [hsql, Control.ofSql?_sql] at hread
    cases hread
  have hreceived : ((Operation.call c).run b.driver s).2.connection.received =
      s.connection.received ++ [⟨c.sql, s.connection.savepoints⟩] := congrArg Database.received heq
  have hlevels : ((Operation.call c).run b.driver s).2.connection.levels =
      s.connection.levels := by
    show (c.run b.driver s.connection).2.levels = s.connection.levels
    rw [heq]
    rfl
  refine ⟨?_, fun hdepth => ?_⟩
  · rw [hreceived, List.length_append]
    exact Nat.le_add_right_of_le h.since_le
  · rw [hreceived, hlevels]
    refine (h.open_iff hdepth).trans ⟨fun hopen => ?_, fun hopen => ?_⟩
    · exact hopen.concat fun _ => ⟨hplain .commit, hplain .rollback⟩
    · exact hopen.of_concat fun _ _ => hplain .begin

theorem operation {α : Type} {op : Operation α} (hop : op.Plain) (h : s.Accounts b since) :
    (op.run b.driver s).2.Accounts b since := by
  cases op with
  | call c => exact h.call hop
  | begin => exact h.begin
  | commit => exact h.commit
  | rollback => exact h.rollback
  | start => exact h.start
  | finish how scope => exact h.finish how scope
  | drop => exact h.markBroken
  | look => exact h

theorem course (b : Behaviour δ) (since : Nat) :
    Course b.driver Operation.Plain (Accounts b since) fun _ _ => True where
  refl _ := trivial
  trans _ _ := trivial
  operation hop h := ⟨h.operation hop, trivial⟩
  begun h := ⟨h.begin, trivial⟩
  concluded _ _ _ h := ⟨h.conclude _ _, trivial⟩

end Accounts

end Session

/-! ## Returning -/

/-- A pool keeps a connection exactly if nothing is counted as open on it, it is not broken, and
the pool is open; then it is one of the idle ones. -/
theorem Pool.checkIn_kept {σ : Type} {now : Nat} {p : Pool σ} {lease : Lease σ}
    (h : (p.checkIn now lease).1 = none) :
    lease.session.depth = 0 ∧ lease.session.broken = false ∧
      (p.checkIn now lease).2.idle.toList.Perm
        (⟨lease.session.connection, lease.id, now⟩ :: p.idle.toList) := by
  unfold checkIn at h ⊢
  dsimp only at h ⊢
  split at h
  · cases h
  · rename_i hkept
    rw [if_neg hkept]
    simp only [Session.mustDiscard, Session.inTransaction, Bool.or_eq_true, decide_eq_true_eq,
      not_or, Bool.not_eq_true, Nat.not_lt, Nat.le_zero] at hkept
    exact ⟨hkept.1.2, hkept.1.1, Heap.push_perm ..⟩

/-- Whatever was done with a connection while it was lent out, and whatever failed: if its pool
keeps it, then a transaction is open on it exactly if a `BEGIN` took effect that reported something
else than success, and no `COMMIT` or `ROLLBACK` took effect after it. -/
theorem Activity.idle_open_iff {α : Type} (b : Behaviour δ) (a : Activity α) (ha : a.Plain)
    (db : Database δ) (hdb : db.levels = []) (now id : Nat) (p : Pool (Database δ))
    {s : Session (Database δ)} (hs : (a.run b.driver (.fresh db)).2 = s)
    (hkept : (p.checkIn now ⟨id, s⟩).1 = none) :
    (p.checkIn now ⟨id, s⟩).2.idle.toList.Perm (⟨s.connection, id, now⟩ :: p.idle.toList) ∧
      (s.connection.levels ≠ [] ↔ b.LeftOpen db.received.length s.connection.received) := by
  obtain ⟨hdepth, -, hidle⟩ := Pool.checkIn_kept hkept
  have hrun := (Session.Accounts.course b db.received.length).passes a ha _ (.fresh hdb)
  rw [hs] at hrun
  exact ⟨hidle, hrun.arrives.open_iff hdepth⟩

namespace Sample

/-- The first call is cancelled after the database has carried it out. -/
def cancelledLate : Behaviour Nat where
  effect _ _ data := data + 1
  answer k := if k = 0 then .error .cancelled else .ok (.count 0)
  slips _ := true

/-- Its only connection is lent out. -/
def fullPool : Pool (Database Nat) where
  config := .ofMax 1
  idle := #[]
  inUse := [1]
  creating := 0
  nextId := 2
  closed := false
  counts := ⟨1, 0, 0, 1, 0⟩

/-- Tries a second time. -/
def insistent : Activity Unit :=
  .step .begin fun _ => .step .begin fun _ => .step .commit fun r => .done r

def afterInsistent : Session (Database Nat) :=
  (insistent.run cancelledLate.driver (.fresh (.holding 0))).2

theorem insistent_closed :
    afterInsistent.connection.received.length = 3 ∧
      (fullPool.checkIn 5 ⟨1, afterInsistent⟩).1 = none ∧
      (afterInsistent.connection.levels ≠ [] ↔
        cancelledLate.LeftOpen 0 afterInsistent.connection.received) := by
  have hplain : insistent.Plain :=
    ⟨trivial, fun _ => ⟨trivial, fun _ => ⟨trivial, fun _ => trivial⟩⟩⟩
  have hkept : (fullPool.checkIn 5 ⟨1, afterInsistent⟩).1 = none := by with_unfolding_all rfl
  have hreturned :=
    Activity.idle_open_iff cancelledLate insistent hplain (.holding 0) rfl 5 1 fullPool rfl hkept
  exact ⟨by decide +kernel, hkept, hreturned.2⟩

/-- Takes the failure as it comes. -/
def compliant : Activity Unit := .step .begin fun r => .done r

/-- The connection is idle, and the transaction that was begun on it is still open. -/
theorem compliant_idle_open :
    ((fullPool.checkIn 5 ⟨1, (compliant.run cancelledLate.driver (.fresh (.holding 0))).2⟩).2.idle.map
      fun c => c.connection.savepoints) = #[[none]] := by
  decide +kernel

end Sample

end SqlMapper
