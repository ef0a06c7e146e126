import Mathlib.Logic.Relation
import SqlMapper.Proofs.Transaction.Returned

/-!
# SqlMapper.Proofs.Transaction.Scopes

Scopes in the hands of a caller, who opens and closes them in any order.

A scope knows the level that it was opened at, and a session knows how many levels are open; that
the two agree is all that keeps a scope from closing a level of another.

* `Session.sent`: the statements that came in from one session to a later one.
* `Scoped`: a session with the scopes that are open on it.
* `Scoped.Step`: opening a scope, closing one, or letting one go, whatever the driver answers.
* `Scoped.Sound`: what every step keeps. Newer scopes are deeper, and the session breaks with the
  first scope that is not closed as it should be.
* `Scoped.scopes_close_themselves`: so a scope closes its own level or none.
-/

namespace SqlMapper

variable {σ δ : Type} {D : Driver σ} {b : Behaviour δ}

/-! ## What is sent -/

namespace Session

variable {s t u : Session (Database δ)} {sql : String}

/-- The statements that came in on the way from `s` to `t`. -/
def sent (s t : Session (Database δ)) : List String :=
  (t.connection.received.drop s.connection.received.length).map Receipt.sql

theorem sent_of_append {later : List Receipt}
    (h : t.connection.received = s.connection.received ++ later) :
    s.sent t = later.map Receipt.sql := by
  rw [sent, h, List.drop_left]

theorem sent_of_connection_eq (h : t.connection = u.connection) : s.sent t = s.sent u := by
  rw [sent, sent, h]

theorem sent_self (s : Session (Database δ)) : s.sent s = [] :=
  sent_of_append (List.append_nil _).symm

theorem sent_sendAll (cs : List Control) (s : Session (Database δ)) :
    s.sent (s.sendAll b.driver cs).2 <+: cs.map Control.sql := by
  suffices h : ∃ later, (s.sendAll b.driver cs).2.connection.received =
      s.connection.received ++ later ∧ later.map Receipt.sql <+: cs.map Control.sql by
    obtain ⟨later, hlater, hprefix⟩ := h
    rw [sent_of_append hlater]
    exact hprefix
  induction cs generalizing s with
  | nil => exact ⟨[], (List.append_nil _).symm, List.prefix_rfl⟩
  | cons c cs ih =>
    have hfirst := received_send (b := b) (s := s) c
    unfold sendAll
    split <;> rename_i t hsend <;> rw [hsend] at hfirst
    · obtain ⟨later, hlater, hprefix⟩ := ih t
      refine ⟨⟨c.sql, s.connection.savepoints⟩ :: later, ?_, ?_⟩
      · rw [hlater, hfirst, List.append_assoc, List.singleton_append]
      · exact List.cons_prefix_cons.2 ⟨rfl, hprefix⟩
    · exact ⟨_, hfirst, List.cons_prefix_cons.2 ⟨rfl, List.nil_prefix⟩⟩

end Session

theorem Control.opening_injective {m n : Nat} (h : opening m = opening n) : m = n := by
  unfold opening at h
  split at h <;> split at h
  · omega
  · cases h
  · cases h
  · exact Control.savepoint.inj h

/-! ## Closing a level -/

namespace Finish

variable {how : Finish} {s t : Session σ}

/-- What closing the innermost of `depth` levels sends if nothing fails. -/
def controls (depth : Nat) : Finish → List Control
  | commit => [Control.keeping depth]
  | rollback => Control.undoing depth

theorem run_cases (how : Finish) (s : Session σ) :
    (∃ cause, how.run D s = (Session.refuse cause, s)) ∨
      s.depth ≠ 0 ∧ how.run D s = match s.sendAll D (how.controls s.depth) with
        | (.ok (), t) => (.ok (), { t with depth := s.depth - 1 })
        | (.error f, t) => (.error f, t) := by
  by_cases hopen : s.depth = 0
  · cases how with
    | commit => exact .inl ⟨.nothingToCommit, if_pos hopen⟩
    | rollback => exact .inl ⟨.nothingToRollBack, if_pos hopen⟩
  · cases how with
    | commit =>
      have hrun : s.commit D = _ := if_neg hopen
      have hsend : s.sendAll D (commit.controls s.depth) = s.send D (.keeping s.depth) :=
        Session.sendAll_singleton D _ s
      by_cases hbroken : s.broken = true
      · exact .inl ⟨.broken "commit", hrun.trans (if_pos hbroken)⟩
      · rw [hsend]
        exact .inr ⟨hopen, hrun.trans (if_neg hbroken)⟩
    | rollback => exact .inr ⟨hopen, if_neg hopen⟩

theorem run_of_ok (h : how.run D s = (.ok (), t)) :
    s.depth = t.depth + 1 ∧ t.broken = s.broken := by
  rcases run_cases (D := D) how s with ⟨cause, heq⟩ | ⟨hopen, heq⟩
  · rw [heq] at h
    cases h
  · have hframe := Session.sendAll_frame (D := D) (how.controls s.depth) s
    rw [heq] at h
    split at h <;> rename_i hsend <;> cases h
    rw [hsend] at hframe
    exact ⟨(Nat.sub_add_cancel (Nat.pos_of_ne_zero hopen)).symm, hframe.2⟩

theorem run_of_error {f : Failure} (h : how.run D s = (.error f, t)) : t.depth = s.depth := by
  rcases run_cases (D := D) how s with ⟨cause, heq⟩ | ⟨-, heq⟩
  · rw [heq] at h
    cases h
    rfl
  · have hframe := Session.sendAll_frame (D := D) (how.controls s.depth) s
    rw [heq] at h
    split at h <;> rename_i hsend <;> cases h
    rw [hsend] at hframe
    exact hframe.1

theorem mem_sent_run {s : Session (Database δ)} {sql : String}
    (h : sql ∈ s.sent (how.run b.driver s).2) : ∃ c ∈ how.controls s.depth, c.sql = sql := by
  rcases run_cases (D := b.driver) how s with ⟨cause, heq⟩ | ⟨-, heq⟩
  · rw [heq, Session.sent_self] at h
    cases h
  · have hconnection : (how.run b.driver s).2.connection =
        (s.sendAll b.driver (how.controls s.depth)).2.connection := by
      rw [heq]
      split <;> rename_i hsend <;> rw [hsend]
    rw [Session.sent_of_connection_eq hconnection] at h
    exact List.mem_map.1 ((Session.sent_sendAll _ s).subset h)

end Finish

namespace TransactionScope

variable {scope : TransactionScope} {how : Finish} {s t : Session σ}

theorem start_of_ok (h : start D s = (.ok scope, t)) :
    s.broken = false ∧ t.broken = false ∧ t.depth = s.depth + 1 ∧ scope.depth = s.depth + 1 := by
  unfold start at h
  split at h <;> rename_i hbegin <;> cases h
  obtain ⟨hs, hdepth, ht⟩ := Session.begin_of_ok hbegin
  exact ⟨hs, ht, hdepth, hdepth⟩

theorem start_of_error {f : Failure} (h : start D s = (.error f, t)) :
    t.depth = s.depth ∧ t.broken = s.broken := by
  unfold start at h
  split at h <;> rename_i hbegin <;> cases h
  exact Session.begin_of_error hbegin

theorem sent_start {s t : Session (Database δ)} (h : start b.driver s = (.ok scope, t)) :
    s.sent t = [(Control.opening s.depth).sql] := by
  have hreceived := Session.received_send (b := b) (s := s) (.opening s.depth)
  unfold start Session.begin at h
  rw [if_neg (by simp [(start_of_ok h).1])] at h
  split at h <;> rename_i hbegin <;> cases h
  split at hbegin <;> rename_i hsend <;> cases hbegin
  rw [hsend] at hreceived
  exact Session.sent_of_append hreceived

theorem finish_of_ok (h : scope.finish D how s = (.ok (), t)) :
    s.depth = scope.depth ∧ s.depth = t.depth + 1 ∧ t.broken = s.broken := by
  unfold finish at h
  split at h
  · rename_i hinnermost
    split at h <;> rename_i hrun <;> cases h
    exact ⟨hinnermost, Finish.run_of_ok hrun⟩
  · cases h

theorem finish_of_error {f : Failure} (h : scope.finish D how s = (.error f, t)) :
    t.depth = s.depth ∧ t.broken = true := by
  unfold finish at h
  split at h
  · split at h
    · cases h
    · rename_i hrun
      have hdepth := Finish.run_of_error hrun
      cases h
      exact ⟨hdepth, rfl⟩
  · cases h
    exact ⟨rfl, rfl⟩

theorem finish_of_outer (h : s.depth ≠ scope.depth) :
    scope.finish D how s =
      (Session.refuse (.scopeOutOfOrder scope.depth s.depth), s.markBroken) := if_neg h

theorem mem_sent_finish {s : Session (Database δ)} {sql : String}
    (h : sql ∈ s.sent (scope.finish b.driver how s).2) :
    ∃ c ∈ how.controls scope.depth, c.sql = sql := by
  unfold finish at h
  split at h
  · rename_i hinnermost
    rw [← hinnermost]
    refine Finish.mem_sent_run (b := b) ?_
    split at h <;> rename_i hrun <;> rw [hrun] <;> exact h
  · have hnone : s.sent s.markBroken = [] := s.sent_self
    rw [hnone] at h
    cases h

/-- A broken session commits nothing. -/
theorem commit_of_broken {s : Session (Database δ)} (h : s.broken = true)
    (scope : TransactionScope) : (scope.finish b.driver .commit s).1.isOk = false := by
  obtain ⟨cause, hcommit⟩ := Session.commit_of_refused (D := b.driver) (.inr h)
  have hrun : Finish.commit.run b.driver s = (Session.refuse cause, s) := hcommit
  unfold finish
  split
  · rw [hrun]
    rfl
  · rfl

end TransactionScope

/-! ## Sessions with scopes -/

/-- A scope that is open, and what was sent to open it. -/
structure OpenScope where
  scope : TransactionScope
  opening : List String

/-- The statement ends the transaction that the scope began, or names the savepoint that it set. -/
def OpenScope.Owns (h : OpenScope) (sql : String) : Prop :=
  (h.opening = [Control.begin.sql] ∧ (sql = Control.commit.sql ∨ sql = Control.rollback.sql)) ∨
    ∃ n, h.opening = [(Control.savepoint n).sql] ∧
      (sql = (Control.release n).sql ∨ sql = (Control.rollbackTo n).sql)

structure Scoped (δ : Type) where
  session : Session (Database δ)
  /-- The scopes that are open, the newest first. -/
  held : List OpenScope
  /-- A scope was let go open, was closed before a newer one, or failed to close. -/
  spoiled : Bool

namespace Scoped

/-- No scope was opened yet. -/
def fresh (db : Database δ) : Scoped δ := ⟨.fresh db, [], false⟩

inductive Step (b : Behaviour δ) (w : Scoped δ) : Scoped δ → Prop
  | started {scope t} : TransactionScope.start b.driver w.session = (.ok scope, t) →
    Step b w { w with session := t, held := ⟨scope, w.session.sent t⟩ :: w.held }
  | refused {f t} : TransactionScope.start b.driver w.session = (.error f, t) →
    Step b w { w with session := t }
  /-- However closing it ends, the scope is used up. -/
  | finished {newer h older r t} (how : Finish) : w.held = newer ++ h :: older →
    h.scope.finish b.driver how w.session = (r, t) →
    Step b w ⟨t, newer ++ older, w.spoiled || !r.isOk || !newer.isEmpty⟩
  | dropped {newer h older} : w.held = newer ++ h :: older →
    Step b w ⟨TransactionScope.drop w.session, newer ++ older, true⟩

/-- Any number of steps. -/
def Reaches (b : Behaviour δ) : Scoped δ → Scoped δ → Prop := Relation.ReflTransGen (Step b)

/-- What every step keeps. -/
structure Sound (w : Scoped δ) : Prop where
  /-- Newer scopes are deeper. -/
  nested : w.held.Pairwise fun newer older => older.scope.depth < newer.scope.depth
  within : ∀ h ∈ w.held, 0 < h.scope.depth ∧ h.scope.depth ≤ w.session.depth
  opening_eq : ∀ h ∈ w.held, h.opening = [(Control.opening (h.scope.depth - 1)).sql]
  broken_eq : w.session.broken = w.spoiled

variable {w v : Scoped δ} {newer older : List OpenScope} {h : OpenScope}

namespace Sound

theorem fresh (db : Database δ) : (Scoped.fresh db).Sound :=
  ⟨.nil, List.forall_mem_nil _, List.forall_mem_nil _, rfl⟩

/-- Scopes may go while as many levels stay open. -/
theorem of_sublist (hw : w.Sound) (hheld : v.held.Sublist w.held)
    (hdepth : v.session.depth = w.session.depth) (hbroken : v.session.broken = v.spoiled) :
    v.Sound where
  nested := hw.nested.sublist hheld
  within h hmem := hdepth ▸ hw.within h (hheld.subset hmem)
  opening_eq h hmem := hw.opening_eq h (hheld.subset hmem)
  broken_eq := hbroken

theorem newer_deeper (hw : w.Sound) (hheld : w.held = newer ++ h :: older) {h' : OpenScope}
    (hmem : h' ∈ newer) : h.scope.depth < h'.scope.depth :=
  (List.pairwise_append.1 (hheld ▸ hw.nested)).2.2 h' hmem h List.mem_cons_self

theorem older_shallower (hw : w.Sound) (hheld : w.held = newer ++ h :: older) {h' : OpenScope}
    (hmem : h' ∈ older) : h'.scope.depth < h.scope.depth :=
  (List.pairwise_cons.1 (List.pairwise_append.1 (hheld ▸ hw.nested)).2.1).1 h' hmem

/-- A scope is not the innermost one while a newer one is open. -/
theorem outer (hw : w.Sound) (hheld : w.held = newer ++ h :: older) (hnewer : newer ≠ []) :
    w.session.depth ≠ h.scope.depth := by
  obtain ⟨h', hmem⟩ := List.exists_mem_of_ne_nil newer hnewer
  have hdeeper := hw.newer_deeper hheld hmem
  have hwithin := hw.within h' (hheld ▸ List.mem_append_left _ hmem)
  omega

theorem started (hw : w.Sound) {scope : TransactionScope} {t : Session (Database δ)}
    (h : TransactionScope.start b.driver w.session = (.ok scope, t)) :
    Sound { w with session := t, held := ⟨scope, w.session.sent t⟩ :: w.held } := by
  obtain ⟨hbroken, ht, hdepth, hscope⟩ := TransactionScope.start_of_ok h
  refine ⟨List.pairwise_cons.2 ⟨fun h' hmem => ?_, hw.nested⟩,
    List.forall_mem_cons.2 ⟨?_, fun h' hmem => ?_⟩, List.forall_mem_cons.2 ⟨?_, hw.opening_eq⟩, ?_⟩
  · have hwithin := hw.within h' hmem
    change h'.scope.depth < scope.depth
    omega
  · change 0 < scope.depth ∧ scope.depth ≤ t.depth
    omega
  · have hwithin := hw.within h' hmem
    change 0 < h'.scope.depth ∧ h'.scope.depth ≤ t.depth
    omega
  · rw [TransactionScope.sent_start h, hscope]
    rfl
  · exact ht.trans (hbroken.symm.trans hw.broken_eq)

theorem finished (hw : w.Sound) (hheld : w.held = newer ++ h :: older) {how : Finish}
    {r : Outcome Unit} {t : Session (Database δ)}
    (hfinish : h.scope.finish b.driver how w.session = (r, t)) :
    Sound ⟨t, newer ++ older, w.spoiled || !r.isOk || !newer.isEmpty⟩ := by
  cases r with
  | error f =>
    obtain ⟨hdepth, hbroken⟩ := TransactionScope.finish_of_error hfinish
    refine hw.of_sublist ?_ hdepth ?_
    · rw [hheld]
      exact (List.sublist_cons_self h older).append_left newer
    · rw [hbroken]
      simp [Except.isOk, Except.toBool]
  | ok =>
    obtain ⟨hinnermost, hdepth, hbroken⟩ := TransactionScope.finish_of_ok hfinish
    have hnewer : newer = [] :=
      Classical.byContradiction fun hnewer => hw.outer hheld hnewer hinnermost
    subst hnewer
    have hmem {h' : OpenScope} (hmem : h' ∈ older) : h' ∈ w.held := by
      rw [hheld]
      exact List.mem_cons_of_mem h hmem
    refine ⟨?_, fun h' hmem' => ?_, fun h' hmem' => hw.opening_eq h' (hmem hmem'), ?_⟩
    · exact (List.pairwise_cons.1 (hheld ▸ hw.nested)).2
    · have hshallower := hw.older_shallower hheld hmem'
      have hwithin := hw.within h' (hmem hmem')
      change 0 < h'.scope.depth ∧ h'.scope.depth ≤ t.depth
      omega
    · rw [hbroken, hw.broken_eq]
      simp [Except.isOk, Except.toBool]

theorem step (hw : w.Sound) (hstep : Step b w v) : v.Sound := by
  cases hstep with
  | started hstart => exact hw.started hstart
  | refused hstart =>
    obtain ⟨hdepth, hbroken⟩ := TransactionScope.start_of_error hstart
    exact hw.of_sublist (.refl _) hdepth (hbroken.trans hw.broken_eq)
  | finished how hheld hfinish => exact hw.finished hheld hfinish
  | @dropped newer h older hheld =>
    refine hw.of_sublist ?_ rfl rfl
    rw [hheld]
    exact (List.sublist_cons_self h older).append_left newer

theorem reaches (hw : w.Sound) (hreach : Reaches b w v) : v.Sound := by
  induction hreach with
  | refl => exact hw
  | tail _ hstep ih => exact ih.step hstep

/-- Scopes of two levels were not opened by the same statements. -/
theorem openings_nodup (hw : w.Sound) : (w.held.map OpenScope.opening).Nodup := by
  refine List.pairwise_map.2 (hw.nested.imp_of_mem fun {h h'} hmem hmem' hlt heq => ?_)
  rw [hw.opening_eq h hmem, hw.opening_eq h' hmem'] at heq
  have hlevel := Control.opening_injective (Control.sql_injective (List.singleton_inj.1 heq))
  have hpos := (hw.within h' hmem').1
  omega

theorem owns (hw : w.Sound) (hmem : h ∈ w.held) {how : Finish} {c : Control}
    (hc : c ∈ how.controls h.scope.depth) : h.Owns c.sql := by
  have hopening := hw.opening_eq h hmem
  obtain ⟨n, hn⟩ := Nat.exists_eq_add_one_of_ne_zero (Nat.ne_of_gt (hw.within h hmem).1)
  rw [hn] at hc hopening
  cases n with
  | zero =>
    refine .inl ⟨hopening, ?_⟩
    cases how <;> cases List.mem_singleton.1 hc
    · exact .inl rfl
    · exact .inr rfl
  | succ n =>
    refine .inr ⟨n + 1, hopening, ?_⟩
    cases how with
    | commit =>
      cases List.mem_singleton.1 hc
      exact .inl rfl
    | rollback =>
      rcases List.mem_cons.1 hc with rfl | hc
      · exact .inr rfl
      · cases List.mem_singleton.1 hc
        exact .inl rfl

end Sound

theorem spoiled_of_reaches (hreach : Reaches b w v) (h : w.spoiled = true) : v.spoiled = true := by
  induction hreach with
  | refl => exact h
  | tail _ hstep ih =>
    cases hstep with
    | started | refused => exact ih
    | finished => rw [ih, Bool.true_or, Bool.true_or]
    | dropped => rfl

end Scoped

/-! ## Returning -/

/-- A pool keeps no connection that is broken. -/
theorem Pool.checkIn_of_broken {s : Session σ} (h : s.broken = true) (now id : Nat) (p : Pool σ) :
    (p.checkIn now ⟨id, s⟩).1 = some s.connection ∧ (p.checkIn now ⟨id, s⟩).2.idle = p.idle := by
  have hdiscard : (s.mustDiscard || p.closed) = true := by
    rw [Session.mustDiscard, h]
    rfl
  unfold checkIn
  rw [if_pos hdiscard]
  exact ⟨rfl, rfl⟩

/-- In whatever order scopes are opened, closed and let go, and whatever the driver answers: no two
open scopes are at one level or were opened by the same statement; what closing a scope sends
belongs to that scope; a scope is not closed while a newer one is open; and after a scope was let go
open, closed out of order, or failed to close, nothing is committed any more, and no pool takes the
connection back. -/
theorem Scoped.scopes_close_themselves (b : Behaviour δ) (db : Database δ) {w : Scoped δ}
    (hreach : Reaches b (fresh db) w) :
    (w.held.map fun h => h.scope.depth).Nodup ∧ (w.held.map OpenScope.opening).Nodup ∧
      (∀ h ∈ w.held, h.opening = [(Control.opening (h.scope.depth - 1)).sql] ∧
        ∀ how, ∀ sql ∈ w.session.sent (h.scope.finish b.driver how w.session).2, h.Owns sql) ∧
      (∀ newer h older, w.held = newer ++ h :: older → newer ≠ [] → ∀ how,
        h.scope.finish b.driver how w.session =
          (Session.refuse (.scopeOutOfOrder h.scope.depth w.session.depth),
            w.session.markBroken)) ∧
      (w.spoiled = true → ∀ v, Reaches b w v →
        (∃ cause, v.session.commit b.driver = (Session.refuse cause, v.session)) ∧
        (∀ scope : TransactionScope, (scope.finish b.driver .commit v.session).1.isOk = false) ∧
        ∀ now id p, (Pool.checkIn now p ⟨id, v.session⟩).1 = some v.session.connection ∧
          (Pool.checkIn now p ⟨id, v.session⟩).2.idle = p.idle) := by
  have hw := (Sound.fresh db).reaches hreach
  refine ⟨?_, hw.openings_nodup, fun h hmem => ⟨hw.opening_eq h hmem, fun how sql hsql => ?_⟩,
    fun newer h older hheld hnewer how => ?_, fun hspoiled v hlater => ?_⟩
  · exact List.pairwise_map.2 (hw.nested.imp fun hlt => Nat.ne_of_gt hlt)
  · obtain ⟨c, hc, rfl⟩ := TransactionScope.mem_sent_finish hsql
    exact hw.owns hmem hc
  · exact TransactionScope.finish_of_outer (hw.outer hheld hnewer)
  · have hbroken : v.session.broken = true :=
      (hw.reaches hlater).broken_eq.trans (spoiled_of_reaches hlater hspoiled)
    exact ⟨Session.commit_of_refused (.inr hbroken), TransactionScope.commit_of_broken hbroken,
      fun now id p => p.checkIn_of_broken hbroken now id⟩

namespace Sample

/-- A scope is open. -/
def oneScope : Scoped Nat where
  session := ⟨⟨0, [⟨none, 0⟩], [⟨Control.begin.sql, []⟩]⟩, 1, false⟩
  held := [⟨⟨1⟩, [Control.begin.sql]⟩]
  spoiled := false

/-- Another one is open in it. -/
def twoScopes : Scoped Nat where
  session := ⟨⟨0, [⟨some 1, 0⟩, ⟨none, 0⟩],
    [⟨Control.begin.sql, []⟩, ⟨(Control.savepoint 1).sql, [none]⟩]⟩, 2, false⟩
  held := [⟨⟨2⟩, [(Control.savepoint 1).sql]⟩, ⟨⟨1⟩, [Control.begin.sql]⟩]
  spoiled := false

/-- The outer scope was to be committed first. -/
def crossed : Scoped Nat where
  session := twoScopes.session.markBroken
  held := [⟨⟨2⟩, [(Control.savepoint 1).sql]⟩]
  spoiled := true

theorem crossed_reached : (Scoped.fresh (.holding 0)).Reaches (failing 3 .cancelled) crossed := by
  have houter : TransactionScope.start (failing 3 .cancelled).driver (.fresh (.holding 0)) =
      (.ok ⟨1⟩, oneScope.session) := by
    unfold TransactionScope.start Session.begin
    rw [Session.send_eq]
    rfl
  have hinner : TransactionScope.start (failing 3 .cancelled).driver oneScope.session =
      (.ok ⟨2⟩, twoScopes.session) := by
    unfold TransactionScope.start Session.begin
    rw [Session.send_eq]
    rfl
  have hone : (Scoped.fresh (.holding 0)).Reaches (failing 3 .cancelled) oneScope :=
    .single (.started houter)
  have htwo : (Scoped.fresh (.holding 0)).Reaches (failing 3 .cancelled) twoScopes :=
    hone.tail (.started hinner)
  have hheld : twoScopes.held = crossed.held ++ ⟨⟨1⟩, [Control.begin.sql]⟩ :: [] := rfl
  exact htwo.tail (.finished .commit hheld rfl)

theorem crossed_commits_nothing :
    (Scoped.fresh (.holding 0)).Reaches (failing 3 .cancelled) crossed ∧
      crossed.held.map (fun h => h.scope.depth) = [2] ∧ crossed.spoiled = true ∧
      (∃ cause, crossed.session.commit (failing 3 .cancelled).driver =
        (Session.refuse cause, crossed.session)) ∧
      (fullPool.checkIn 5 ⟨1, crossed.session⟩).1 = some crossed.session.connection := by
  have hspoiled : crossed.spoiled = true := rfl
  obtain ⟨-, -, -, -, hbroken⟩ :=
    Scoped.scopes_close_themselves (failing 3 .cancelled) (.holding 0) crossed_reached
  obtain ⟨hcommit, -, hreturn⟩ := hbroken hspoiled crossed .refl
  exact ⟨crossed_reached, rfl, hspoiled, hcommit, (hreturn 5 1 fullPool).1⟩

end Sample

end SqlMapper
