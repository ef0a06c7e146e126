import SqlMapper.Proofs.Transaction.Levels

/-!
# SqlMapper.Proofs.Transaction.Balance

Whether an atomic part leaves as many levels open as it found. Nothing is assumed of the driver, and
bodies may open and close levels of their own.

* `Session.rolledBack?`: the session that an atomic part rolls back, if it does.
* `Session.conclude_balanced_iff`: the innermost level is rolled back, whichever it is. The part is
  balanced exactly if that is its own level, or if the rollback fails and so breaks the session.
* `Activity.run_steady`: a body that leaves levels to atomic parts is balanced, and so is the part.
* `Activity.atomic_balanced_iff`: when an atomic part with any body is balanced.
-/

namespace SqlMapper

variable {σ α : Type} {D : Driver σ}

namespace Session

variable {s t u : Session σ}

/-- As many levels are open as `depth` says, unless the session is broken. -/
def Balanced (depth : Nat) (s : Session σ) : Prop := s.depth = depth ∨ s.broken = true

/-! ## What calls do to the count -/

theorem sendAll_frame (cs : List Control) (s : Session σ) :
    (s.sendAll D cs).2.depth = s.depth ∧ (s.sendAll D cs).2.broken = s.broken := by
  induction cs generalizing s with
  | nil => exact ⟨rfl, rfl⟩
  | cons c cs ih =>
    have hfirst : (s.send D c).2.depth = s.depth ∧ (s.send D c).2.broken = s.broken :=
      ⟨rfl, rfl⟩
    unfold sendAll
    split <;> rename_i hsend <;> rw [hsend] at hfirst
    · exact ⟨(ih _).1.trans hfirst.1, (ih _).2.trans hfirst.2⟩
    · exact hfirst

theorem begin_of_ok (h : s.begin D = (.ok (), t)) :
    s.broken = false ∧ t.depth = s.depth + 1 ∧ t.broken = false := by
  unfold begin at h
  split at h
  · cases h
  · rename_i hbroken
    rw [Bool.not_eq_true] at hbroken
    split at h
    · rename_i u hsend
      have hu : u.broken = s.broken := (congrArg (·.2.broken) hsend).symm
      cases h
      exact ⟨hbroken, rfl, hu.trans hbroken⟩
    · cases h

theorem begin_of_error {f : Failure} (h : s.begin D = (.error f, t)) :
    t.depth = s.depth ∧ t.broken = s.broken := by
  unfold begin at h
  split at h
  · cases h
    exact ⟨rfl, rfl⟩
  · split at h
    · cases h
    · rename_i hsend
      cases h
      exact ⟨(congrArg (·.2.depth) hsend).symm, (congrArg (·.2.broken) hsend).symm⟩

theorem commit_of_error {f : Failure} (h : s.commit D = (.error f, t)) :
    t.depth = s.depth ∧ t.broken = s.broken := by
  unfold commit at h
  split at h
  · cases h
    exact ⟨rfl, rfl⟩
  · split at h
    · cases h
      exact ⟨rfl, rfl⟩
    · split at h
      · cases h
      · rename_i hsend
        cases h
        exact ⟨(congrArg (·.2.depth) hsend).symm, (congrArg (·.2.broken) hsend).symm⟩

theorem rollback_of_ok (h : s.rollback D = (.ok (), t)) :
    s.depth = t.depth + 1 ∧ t.broken = s.broken := by
  have hframe := sendAll_frame (D := D) (Control.undoing s.depth) s
  unfold rollback at h
  split at h
  · cases h
  · rename_i hopen
    split at h
    · rename_i u hsend
      rw [hsend] at hframe
      cases h
      exact ⟨(Nat.sub_add_cancel (Nat.pos_of_ne_zero hopen)).symm, hframe.2⟩
    · cases h

/-! ## The end of an atomic part -/

/-- A healthy session gives up its innermost level, or breaks. -/
theorem rollbackOrBreak_balanced_iff (u : Session σ) (depth : Nat) :
    (u.rollbackOrBreak D).Balanced depth ↔
      (u.broken = false → (u.rollback D).1 = .ok () → u.depth = depth + 1) := by
  unfold rollbackOrBreak
  cases hbroken : u.broken with
  | true =>
    rw [if_pos rfl]
    exact ⟨fun _ h => absurd h.symm Bool.false_ne_true, fun _ => .inr hbroken⟩
  | false =>
    rw [if_neg Bool.false_ne_true]
    rcases hrollback : u.rollback D with ⟨f | _, t⟩
    · exact ⟨fun _ _ h => (nomatch h), fun _ => .inr rfl⟩
    · obtain ⟨hdepth, ht⟩ := rollback_of_ok hrollback
      rw [hdepth]
      constructor
      · rintro (h | h) - -
        · exact congrArg (· + 1) h
        · exact absurd ((ht.trans hbroken).symm.trans h) Bool.false_ne_true
      · exact fun h => .inl (Nat.add_right_cancel (h rfl rfl))

/-- The session that an atomic part rolls back when its body came to `r` and left `t`: that one if
the body failed, or the one that is left by a commit that failed. A commit that panicked is not made
up for. -/
def rolledBack? (D : Driver σ) (r : Outcome α) (t : Session σ) : Option (Session σ) :=
  match r with
  | .error _ => some t
  | .ok _ =>
    match t.commit D with
    | (.ok (), _) | (.error (.panicked _), _) => none
    | (.error _, u) => some u

theorem rolledBack_frame {r : Outcome α} (h : u ∈ rolledBack? D r t) :
    u.depth = t.depth ∧ u.broken = t.broken := by
  unfold rolledBack? at h
  split at h
  · cases h
    exact ⟨rfl, rfl⟩
  · split at h
    · cases h
    · cases h
    · rename_i hcommit
      cases h
      exact commit_of_error hcommit

/-- Every other way out of an atomic part checks the count or breaks the session. -/
theorem conclude_balanced_iff (D : Driver σ) (outer : Nat) (r : Outcome α) (t : Session σ) :
    (t.conclude D outer r).2.Balanced outer ↔
      ∀ u ∈ rolledBack? D r t, u.broken = false → (u.rollback D).1 = .ok () →
        u.depth = outer + 1 := by
  have hback (u : Session σ) : (u.rollbackOrBreak D).Balanced outer ↔
      ∀ v ∈ some u, v.broken = false → (v.rollback D).1 = .ok () → v.depth = outer + 1 := by
    rw [rollbackOrBreak_balanced_iff]
    exact ⟨fun h v hv => by cases hv; exact h, fun h => h u rfl⟩
  have hout {x : Session σ} (h : x.Balanced outer) : x.Balanced outer ↔
      ∀ v ∈ (none : Option (Session σ)), v.broken = false → (v.rollback D).1 = .ok () →
        v.depth = outer + 1 :=
    iff_of_true h fun _ hv => (nomatch hv)
  unfold conclude rolledBack?
  cases r with
  | error f => exact hback t
  | ok a =>
    rcases t.commit D with ⟨(cause | _ | text) | _, u⟩
    · exact hback u
    · exact hback u
    · exact hout (.inr rfl)
    · refine hout ?_
      dsimp only
      split
      · rename_i hdepth
        exact .inl hdepth
      · exact .inr rfl

/-! ## Bodies that leave levels to atomic parts -/

/-- How a session goes on under plain calls and atomic parts, whatever the driver answers. -/
structure Steady (s t : Session σ) : Prop where
  balanced : t.Balanced s.depth
  ruined : s.broken = true → t.broken = true

namespace Steady

theorem of_frame (h : t.depth = s.depth ∧ t.broken = s.broken) : s.Steady t :=
  ⟨.inl h.1, h.2.trans⟩

theorem trans (h : s.Steady t) (h' : t.Steady u) : s.Steady u := by
  refine ⟨?_, fun hs => h'.ruined (h.ruined hs)⟩
  rcases h'.balanced with hdepth | hbroken
  · rcases h.balanced with hdepth' | hbroken
    · exact .inl (hdepth.trans hdepth')
    · exact .inr (h'.ruined hbroken)
  · exact .inr hbroken

theorem operation {op : Operation α} (hop : op.Levelless) (s : Session σ) :
    s.Steady (op.run D s).2 := by
  cases op with
  | call c => exact of_frame ⟨rfl, rfl⟩
  | look => exact of_frame ⟨rfl, rfl⟩
  | begin | commit | rollback | start | finish how scope | drop => exact hop.elim

theorem atomic {body : Session σ → Outcome α × Session σ}
    (hbody : ∀ t : Session σ, t.Steady (body t).2) (s : Session σ) :
    s.Steady (s.atomic D body).2 := by
  rcases hbegin : s.begin D with ⟨_ | _, t⟩
  · rw [atomic_of_refused hbegin]
    exact of_frame (begin_of_error hbegin)
  · obtain ⟨hhealthy, hdepth, -⟩ := begin_of_ok hbegin
    rw [atomic_of_begun hbegin]
    refine ⟨(conclude_balanced_iff ..).2 fun u hu hbroken _ => ?_, fun h => ?_⟩
    · -- The body has closed what it opened, so the innermost level is that of the part.
      obtain ⟨hu, hsame⟩ := rolledBack_frame hu
      rcases (hbody t).balanced with h | h
      · rw [hu, h, hdepth]
      · exact absurd ((hbroken.symm.trans hsame).trans h) Bool.false_ne_true
    · exact absurd (hhealthy.symm.trans h) Bool.false_ne_true

end Steady

end Session

namespace Activity

theorem run_steady (D : Driver σ) (a : Activity α) (ha : a.Structured) (s : Session σ) :
    s.Steady (a.run D s).2 := by
  induction a generalizing s with
  | done r => exact .of_frame ⟨rfl, rfl⟩
  | step op next ih => exact (Session.Steady.operation ha.1 s).trans (ih _ (ha.2 _) _)
  | atomic body next ihbody ih =>
    exact (Session.Steady.atomic (ihbody ha.1) s).trans (ih _ (ha.2 _) _)

/-- Once its own level is open, an atomic part is balanced exactly if it does not succeed in rolling
back another level than its own. Nothing but the rollback can unbalance a session that is not
broken. -/
theorem atomic_balanced_iff (D : Driver σ) (body : Activity α) (s t : Session σ)
    (hbegin : s.begin D = (.ok (), t)) :
    (s.atomic D (body.run D)).2.Balanced s.depth ↔
      ∀ u ∈ Session.rolledBack? D (body.run D t).1 (body.run D t).2, u.broken = false →
        (u.rollback D).1 = .ok () → u.depth = s.depth + 1 := by
  rw [Session.atomic_of_begun hbegin]
  exact Session.conclude_balanced_iff D s.depth (body.run D t).1 (body.run D t).2

end Activity

namespace Sample

/-- A transaction is open. -/
def working : Session (Database Nat) :=
  ((Session.fresh (.holding 0)).begin (failing 9 .cancelled).driver).2

theorem begin_working :
    working.begin (failing 9 .cancelled).driver = (.ok (), working.opened) := by
  with_unfolding_all rfl

/-- Opens a level, keeps what it writes there, and gives up. -/
def levelled : Activity Unit :=
  .step .begin fun _ => .step (.call insertNote) fun _ => .step .commit fun _ =>
    .done (.error .cancelled)

/-- The part rolls back the level that its body ran in. -/
theorem levelled_balanced :
    working.begin (failing 9 .cancelled).driver = (.ok (), working.opened) ∧
      (levelled.run (failing 9 .cancelled).driver working.opened).2.connection.levels.length = 2 ∧
      (working.atomic (failing 9 .cancelled).driver
        (levelled.run (failing 9 .cancelled).driver)).2.Balanced working.depth := by
  refine ⟨begin_working, by decide +kernel, ?_⟩
  refine (Activity.atomic_balanced_iff _ levelled working _ begin_working).2 fun u hu _ _ => ?_
  cases hu
  decide +kernel

/-- Closes the level that it runs in, and gives up. -/
def overreaching : Activity Unit := .step .commit fun _ => .done (.error .cancelled)

/-- The part rolls back the transaction around it, and the session is taken for healthy. -/
theorem overreaching_unbalanced :
    working.begin (failing 9 .cancelled).driver = (.ok (), working.opened) ∧ working.depth = 1 ∧
      (working.atomic (failing 9 .cancelled).driver
        (overreaching.run (failing 9 .cancelled).driver)).2.depth = 0 ∧
      (working.atomic (failing 9 .cancelled).driver
        (overreaching.run (failing 9 .cancelled).driver)).2.broken = false :=
  ⟨begin_working, by decide +kernel, by decide +kernel, by decide +kernel⟩

end Sample

end SqlMapper
