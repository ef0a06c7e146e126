import SqlMapper.Proofs.Transaction.Levels

/-!
# SqlMapper.Proofs.Transaction.Atomic

Atomic parts, nested in each other, on a database where statements take effect exactly if they
report success.

* `Session.Continues`: how a session goes on under plain calls and atomic parts. While it is not
  broken it has the levels that it had at first.
* `Session.conclude_cases`: what becomes of the level of an atomic part when its body is over. It is
  kept, it is undone, or it stays open on a session that is broken from then on.
* `Session.AtomicLaw`: what holds of one atomic part.
* `Activity.atomic_lawful`: it holds of every atomic part of an activity, at any depth, and a
  session that is broken commits nothing any more.
-/

namespace SqlMapper

variable {δ : Type} {b : Behaviour δ}

/-! ## What is committed -/

namespace Database

theorem committed_of_outer {db db' : Database δ} (hopen : db.levels ≠ [])
    (h : db.levels <:+ db'.levels) : db'.committed = db.committed := by
  obtain ⟨inner, hinner⟩ := h
  unfold committed
  rw [← hinner, List.getLast?_append, List.getLast?_eq_some_getLast hopen]
  rfl

theorem committed_opened (n : Nat) (db : Database δ) : (db.opened n).committed = db.committed := by
  unfold committed opened
  rw [List.getLast?_cons]
  cases db.levels.getLast? <;> rfl

end Database

namespace Session

variable {s t u v w : Session (Database δ)} {α : Type}

theorem absurd_broken {p : Prop} (h : s.broken = false) (h' : s.broken = true) : p :=
  absurd (h.symm.trans h') Bool.false_ne_true

/-- The session mirrors its database, and if it broke, it did so in a transaction. -/
structure Tidy (s : Session (Database δ)) : Prop where
  mirrors : s.Mirrors
  open_of_broken : s.broken = true → s.depth ≠ 0

/-- How a session goes on under plain calls and atomic parts. -/
structure Continues (s t : Session (Database δ)) : Prop where
  tidy : t.Tidy
  outer : s.connection.levels <:+ t.connection.levels
  healthy : t.broken = false → t.connection.levels = s.connection.levels
  ruined : s.broken = true → t.broken = true

namespace Mirrors

theorem levels_ne_nil (h : s.Mirrors) (hopen : s.depth ≠ 0) : s.connection.levels ≠ [] := by
  rintro hnil
  rw [h.depth_eq, hnil] at hopen
  exact hopen rfl

theorem depth_congr (hs : s.Mirrors) (ht : t.Mirrors)
    (h : t.connection.levels = s.connection.levels) : t.depth = s.depth := by
  rw [ht.depth_eq, hs.depth_eq, h]

end Mirrors

theorem Tidy.of_levels (hs : s.Tidy) (ht : t.Mirrors)
    (hlevels : t.connection.levels = s.connection.levels) (hbroken : t.broken = s.broken) :
    t.Tidy :=
  ⟨ht, fun h => by rw [hs.mirrors.depth_congr ht hlevels]; exact hs.open_of_broken (hbroken ▸ h)⟩

namespace Continues

theorem of_levels (hs : s.Tidy) (ht : t.Mirrors)
    (hlevels : t.connection.levels = s.connection.levels) (hbroken : t.broken = s.broken) :
    s.Continues t where
  tidy := hs.of_levels ht hlevels hbroken
  outer := hlevels ▸ List.suffix_refl _
  healthy _ := hlevels
  ruined h := hbroken.trans h

theorem refl (hs : s.Tidy) : s.Continues s := of_levels hs hs.mirrors rfl rfl

theorem trans (h : s.Continues t) (h' : t.Continues u) : s.Continues u where
  tidy := h'.tidy
  outer := h.outer.trans h'.outer
  healthy hu := (h'.healthy hu).trans
    (h.healthy (eq_false_of_ne_true fun ht => absurd_broken hu (h'.ruined ht)))
  ruined hs := h'.ruined (h.ruined hs)

theorem operation {op : Operation α} (hop : op.Levelless) (hs : s.Tidy) :
    s.Continues (op.run b.driver s).2 := by
  cases op with
  | call c =>
    obtain ⟨data, heq⟩ := c.run_plain hop b s.connection
    have hlevels : (c.run b.driver s.connection).2.levels = s.connection.levels := by rw [heq]; rfl
    exact of_levels hs (hs.mirrors.call hop) hlevels rfl
  | look => exact refl hs
  | begin | commit | rollback | start | finish how scope | drop => exact hop.elim

end Continues

/-! ## The end of an atomic part -/

theorem rollbackOrBreak_cases (he : b.Exact) (h : s.Mirrors) (hopen : s.depth ≠ 0)
    (hbroken : s.broken = false) :
    s.rollbackOrBreak b.driver = s.undone ∨
      ((s.rollbackOrBreak b.driver).broken = true ∧
        (s.rollbackOrBreak b.driver).connection.levels = s.connection.levels) := by
  unfold rollbackOrBreak
  rw [if_neg (by simp [hbroken])]
  rcases rollback_cases he h hopen with heq | ⟨f, c, -, heq⟩ | ⟨f, -, heq⟩ <;> rw [heq]
  · exact .inl rfl
  · exact .inr ⟨rfl, rfl⟩
  · exact .inr ⟨rfl, rfl⟩

theorem undone_spec (s : Session (Database δ)) :
    s.undone.broken = s.broken ∧ s.undone.connection.levels = s.connection.levels.tail ∧
      s.undone.connection.data =
        (s.connection.levels.head?.map OpenLevel.before).getD s.connection.data := by
  unfold undone
  split <;> exact ⟨rfl, rfl, rfl⟩

/-- A failure of the body is the failure of the part. -/
def PassesOn (r r' : Outcome α) : Prop := ∀ f, r = .error f → r' = .error f

theorem passesOn_refl (r : Outcome α) : PassesOn r r := fun _ h => h

theorem passesOn_of_ok (a : α) (r' : Outcome α) : PassesOn (.ok a) r' := by
  intro f h
  cases h

/-- What becomes of a level when the body that it was opened for is over with outcome `r` in
session `u`: the outcome of the part and the session after it. -/
inductive Ending (level : OpenLevel δ) (outer : List (OpenLevel δ)) (r : Outcome α)
    (u : Session (Database δ)) : Outcome α × Session (Database δ) → Prop
  | kept {a w} : r = .ok a → w.broken = false → w.connection.levels = outer →
    w.connection.data = u.connection.data → Ending level outer r u (.ok a, w)
  | undone {f w} : PassesOn r (.error f) → w.broken = false → w.connection.levels = outer →
    w.connection.data = level.before → Ending level outer r u (.error f, w)
  | stuck {f w} : PassesOn r (.error f) → w.broken = true →
    w.connection.levels = level :: outer → Ending level outer r u (.error f, w)

theorem Ending.of_rollback {level : OpenLevel δ} {outer : List (OpenLevel δ)} {r : Outcome α}
    {f : Failure} (he : b.Exact) (h : v.Mirrors) (hbroken : v.broken = false)
    (hlevels : v.connection.levels = level :: outer) (hr : PassesOn r (.error f)) :
    Ending level outer r u (.error f, v.rollbackOrBreak b.driver) := by
  have hopen : v.depth ≠ 0 := by rw [h.depth_eq, hlevels]; exact Nat.succ_ne_zero _
  rcases rollbackOrBreak_cases he h hopen hbroken with heq | ⟨hstuck, hsame⟩
  · obtain ⟨hb, hl, hd⟩ := undone_spec v
    rw [heq]
    rw [hlevels] at hl hd
    exact .undone hr (hb.trans hbroken) hl hd
  · exact .stuck hr hstuck (hsame.trans hlevels)

theorem conclude_cases {level : OpenLevel δ} {outer : List (OpenLevel δ)} (he : b.Exact)
    (h : u.Mirrors) (hbroken : u.broken = false) (hlevels : u.connection.levels = level :: outer)
    (r : Outcome α) : Ending level outer r u (u.conclude b.driver outer.length r) := by
  have hdepth : u.depth = outer.length + 1 := by rw [h.depth_eq, hlevels]; rfl
  have hopen : u.depth ≠ 0 := by omega
  have htold := h.told (Control.fits_keeping hopen)
  unfold conclude
  cases r with
  | error f => exact .of_rollback he h hbroken hlevels (passesOn_refl _)
  | ok a =>
    rcases commit_cases he h hopen hbroken with heq | ⟨f, heq⟩ <;> rw [heq]
    · have hkept : u.kept.depth = outer.length := by rw [kept, hdepth]; rfl
      simp only [hkept, if_true]
      exact .kept rfl hbroken (congrArg List.tail hlevels) rfl
    · -- After a panic the level is not rolled back.
      rcases f with cause | _ | text
      · exact .of_rollback he htold hbroken hlevels (passesOn_of_ok a _)
      · exact .of_rollback he htold hbroken hlevels (passesOn_of_ok a _)
      · exact .stuck (passesOn_of_ok a _) rfl hlevels

/-- A broken session is left alone. -/
theorem conclude_of_broken {D : Driver (Database δ)} (hbroken : u.broken = true) (outer : Nat)
    (r : Outcome α) : ∃ f, PassesOn r (.error f) ∧ u.conclude D outer r = (.error f, u) := by
  have hback : u.rollbackOrBreak D = u := if_pos hbroken
  unfold conclude
  cases r with
  | error f => exact ⟨f, passesOn_refl _, by rw [hback]⟩
  | ok a =>
    obtain ⟨cause, heq⟩ := commit_of_refused (D := D) (.inr hbroken)
    exact ⟨_, passesOn_of_ok a _, by rw [heq]; simp [refuse, Outcome.failed, hback]; rfl⟩

/-! ## Atomic parts -/

theorem Tidy.opened (hs : s.Tidy) (hbroken : s.broken = false) : s.opened.Tidy :=
  ⟨hs.mirrors.opened, fun h => absurd_broken hbroken h⟩

theorem Ending.continues {level : OpenLevel δ} {outer : List (OpenLevel δ)} {r : Outcome α}
    {x : Outcome α × Session (Database δ)} (h : Ending level outer r u x)
    (hbroken : s.broken = false) (houter : s.connection.levels = outer) (hx : x.2.Mirrors) :
    s.Continues x.2 := by
  have hruined : s.broken = true → x.2.broken = true :=
    fun h => absurd_broken hbroken h
  cases h with
  | kept _ hb hl _ | undone _ hb hl _ =>
    have hsame := hl.trans houter.symm
    exact ⟨⟨hx, fun h => absurd_broken hb h⟩, hsame ▸ List.suffix_refl _,
      fun _ => hsame, hruined⟩
  | stuck _ hb hl =>
    have hopen := hx.depth_eq
    rw [hl] at hopen
    exact ⟨⟨hx, fun _ h => by rw [hopen] at h; cases h⟩, hl ▸ houter ▸ List.suffix_cons _ _,
      fun h => absurd_broken h hb, hruined⟩

/-- All ways in which an atomic part goes: what it comes to, and the session after it. -/
inductive AtomicRun (D : Driver (Database δ))
    (body : Session (Database δ) → Outcome α × Session (Database δ)) (s : Session (Database δ)) :
    Outcome α × Session (Database δ) → Prop
  /-- Nothing is done on a broken session. -/
  | refused {f} : s.broken = true → s.begin D = (.error f, s) → AtomicRun D body s (.error f, s)
  | unopened {f t} : s.broken = false → s.begin D = (.error f, t) →
    t = s.told (.opening s.depth) → AtomicRun D body s (.error f, t)
  /-- The session broke while the body ran. -/
  | ruined {f} : s.broken = false → s.begin D = (.ok (), s.opened) →
    (body s.opened).2.broken = true → PassesOn (body s.opened).1 (.error f) →
    AtomicRun D body s (.error f, (body s.opened).2)
  | ended {x} : s.broken = false → s.begin D = (.ok (), s.opened) →
    (body s.opened).2.broken = false → x.2.Mirrors →
    Ending ⟨Control.levelName s.depth, s.connection.data⟩ s.connection.levels (body s.opened).1
      (body s.opened).2 x → AtomicRun D body s x

theorem atomic_run {body : Session (Database δ) → Outcome α × Session (Database δ)} (he : b.Exact)
    (hs : s.Tidy) (hbody : s.broken = false → s.opened.Continues (body s.opened).2) :
    AtomicRun b.driver body s (s.atomic b.driver body) := by
  cases hbroken : s.broken with
  | true =>
    have hbegin := begin_of_broken (D := b.driver) hbroken
    exact atomic_of_refused hbegin ▸ .refused hbroken hbegin
  | false =>
    rcases begin_cases he hs.mirrors hbroken with hbegin | ⟨f, hbegin⟩
    · have hend := hbody hbroken
      rw [atomic_of_begun hbegin]
      cases hruined : (body s.opened).2.broken with
      | true =>
        obtain ⟨f, hpass, heq⟩ :=
          conclude_of_broken (D := b.driver) hruined s.depth (body s.opened).1
        exact heq ▸ .ruined hbroken hbegin hruined hpass
      | false =>
        -- The body has closed what it opened, so the level of the part is the innermost.
        have hlevels : (body s.opened).2.connection.levels =
            ⟨Control.levelName s.depth, s.connection.data⟩ :: s.connection.levels :=
          hend.healthy hruined
        have hending := conclude_cases he hend.tidy.mirrors hruined hlevels (body s.opened).1
        rw [← hs.mirrors.depth_eq] at hending
        exact .ended hbroken hbegin hruined (hend.tidy.mirrors.conclude he _ _) hending
    · exact atomic_of_refused hbegin ▸ .unopened hbroken hbegin rfl

theorem Continues.atomic {body : Session (Database δ) → Outcome α × Session (Database δ)}
    (he : b.Exact) (hs : s.Tidy) (hbody : s.broken = false → s.opened.Continues (body s.opened).2) :
    s.Continues (s.atomic b.driver body).2 := by
  generalize hx : s.atomic b.driver body = x
  cases hx ▸ atomic_run he hs hbody with
  | refused => exact .refl hs
  | unopened _ _ heq =>
    subst heq
    exact .of_levels hs (hs.mirrors.told (Control.fits_opening s.depth)) rfl rfl
  | ruined hbroken _ hruined =>
    have hend := hbody hbroken
    exact ⟨hend.tidy, (List.suffix_cons _ _).trans hend.outer,
      fun h => absurd_broken h hruined, fun _ => hruined⟩
  | ended hbroken _ _ hmirrors hending => exact hending.continues hbroken rfl hmirrors

theorem mem_inside (he : b.Exact) (hs : s.Mirrors)
    {passes : Session (Database δ) → List (Session (Database δ))}
    (hu : u ∈ s.inside b.driver passes) :
    s.broken = false ∧ s.begin b.driver = (.ok (), s.opened) ∧ u ∈ passes s.opened := by
  cases hbroken : s.broken with
  | true =>
    rw [inside_of_refused (begin_of_broken hbroken)] at hu
    cases hu
  | false =>
    rcases begin_cases he hs hbroken with hbegin | ⟨f, hbegin⟩
    · rw [inside_of_begun hbegin] at hu
      exact ⟨rfl, hbegin, hu⟩
    · rw [inside_of_refused hbegin] at hu
      cases hu

end Session

namespace Activity

variable {α : Type}

/-- All along, a session goes on as `Session.Continues` says. -/
theorem run_continues (he : b.Exact) (a : Activity α) (ha : a.Structured)
    (s : Session (Database δ)) (hs : s.Tidy) : s.Continues (a.run b.driver s).2 := by
  induction a generalizing s with
  | done r => exact .refl hs
  | step op next ih =>
    have hop := Session.Continues.operation (b := b) ha.1 hs
    exact hop.trans (ih _ (ha.2 _) _ hop.tidy)
  | atomic body next ihbody ih =>
    have hbody (hbroken : s.broken = false) := ihbody ha.1 _ (hs.opened hbroken)
    have hpart := Session.Continues.atomic he hs hbody
    exact hpart.trans (ih _ (ha.2 _) _ hpart.tidy)

/-- What is open at first is open all along. -/
theorem outer_of_mem_passes (he : b.Exact) (a : Activity α) (ha : a.Structured)
    (s : Session (Database δ)) (hs : s.Tidy) :
    ∀ u ∈ a.passes b.driver s, s.connection.levels <:+ u.connection.levels := by
  induction a generalizing s with
  | done r => exact List.forall_mem_singleton.2 (List.suffix_refl _)
  | step op next ih =>
    have hop := Session.Continues.operation (b := b) ha.1 hs
    refine List.forall_mem_cons.2 ⟨List.suffix_refl _, fun u hu => ?_⟩
    exact hop.outer.trans (ih _ (ha.2 _) _ hop.tidy u hu)
  | atomic body next ihbody ih =>
    have hpart := (run_continues he (.atomic body .done) ⟨ha.1, fun _ => trivial⟩ s hs)
    refine List.forall_mem_cons.2 ⟨List.suffix_refl _, List.forall_mem_append.2 ⟨?_, ?_⟩⟩
    · intro u hu
      obtain ⟨hbroken, -, hmem⟩ := Session.mem_inside he hs.mirrors hu
      exact (List.suffix_cons _ _).trans (ihbody ha.1 _ (hs.opened hbroken) u hmem)
    · exact fun u hu => hpart.outer.trans (ih _ (ha.2 _) _ hpart.tidy u hu)

end Activity

/-! ## Broken sessions -/

namespace Session

variable {s t u : Session (Database δ)} {α : Type}

/-- If `s` is broken, so is `t`, and nothing is committed from `s` to `t`. -/
def CommitsNoMore (s t : Session (Database δ)) : Prop :=
  s.broken = true →
    t.broken = true ∧ t.connection.committed = s.connection.committed ∧
      ∃ later, t.connection.received = s.connection.received ++ later ∧
        ∀ x ∈ later, x.sql ≠ Control.commit.sql

namespace CommitsNoMore

theorem refl (s : Session (Database δ)) : s.CommitsNoMore s :=
  fun h => ⟨h, rfl, [], (List.append_nil _).symm, List.forall_mem_nil _⟩

theorem trans (h : s.CommitsNoMore t) (h' : t.CommitsNoMore u) : s.CommitsNoMore u := by
  intro hs
  obtain ⟨ht, hcommitted, later, hlater, hnone⟩ := h hs
  obtain ⟨hu, hcommitted', later', hlater', hnone'⟩ := h' ht
  exact ⟨hu, hcommitted'.trans hcommitted, later ++ later',
    by rw [hlater', hlater, List.append_assoc], List.forall_mem_append.2 ⟨hnone, hnone'⟩⟩

theorem of_healthy (h : s.broken = false) : s.CommitsNoMore t :=
  fun hs => absurd_broken h hs

theorem call {c : Call α} (hc : c.Plain) (hs : s.Tidy) :
    s.CommitsNoMore ((Operation.call c).run b.driver s).2 := by
  intro hbroken
  obtain ⟨data, heq⟩ := c.run_plain hc b s.connection
  have hopen := hs.mirrors.levels_ne_nil (hs.open_of_broken hbroken)
  have houter := (Continues.operation (b := b) (show (Operation.call c).Levelless from hc) hs).outer
  have hreceived : (c.run b.driver s.connection).2.received =
      s.connection.received ++ [⟨c.sql, s.connection.savepoints⟩] := by rw [heq]; rfl
  refine ⟨hbroken, Database.committed_of_outer hopen houter, _, hreceived,
    List.forall_mem_singleton.2 fun hsql => ?_⟩
  -- A plain call is not a `COMMIT`.
  have hnone : Control.ofSql? c.sql = none := hc
  rw [show c.sql = Control.commit.sql from hsql, Control.ofSql?_sql] at hnone
  cases hnone

theorem course (he : b.Exact) :
    Course b.driver Operation.Levelless Tidy (CommitsNoMore (δ := δ)) where
  refl := refl
  trans := trans
  operation {_ op s} hop hs := by
    refine ⟨(Continues.operation hop hs).tidy, ?_⟩
    cases op with
    | call c => exact call hop hs
    | look => exact refl s
    | begin | commit | rollback | start | finish how scope | drop => exact hop.elim
  begun {s} hs := by
    cases hbroken : s.broken with
    | true =>
      rw [begin_of_broken hbroken]
      exact ⟨hs, refl s⟩
    | false =>
      refine ⟨?_, of_healthy hbroken⟩
      rcases begin_cases he hs.mirrors hbroken with hbegin | ⟨f, hbegin⟩ <;> rw [hbegin]
      · exact hs.opened hbroken
      · exact hs.of_levels (hs.mirrors.told (Control.fits_opening s.depth)) rfl rfl
  concluded {_ body s t} hs hbegin ha hu := by
    have hpart := Activity.run_continues he (.atomic body .done) ⟨ha, fun _ => trivial⟩ s hs
    have heq : (s.atomic b.driver (body.run b.driver)) = _ := atomic_of_begun hbegin
    refine ⟨heq ▸ hpart.tidy, ?_⟩
    cases hbroken : (body.run b.driver t).2.broken with
    | true =>
      obtain ⟨f, -, hsame⟩ :=
        conclude_of_broken (D := b.driver) hbroken s.depth (body.run b.driver t).1
      rw [hsame]
      exact refl _
    | false => exact of_healthy hbroken

end CommitsNoMore

/-! ## The law of atomic parts -/

/-- While the level of an atomic part is open, what is committed stays. -/
theorem committed_of_opened (h : s.opened.connection.levels <:+ t.connection.levels) :
    t.connection.committed = s.connection.committed :=
  (Database.committed_of_outer (List.cons_ne_nil _ _) h).trans
    (Database.committed_opened s.depth (s.connection.note (Control.opening s.depth).sql))

namespace AtomicRun

variable {D : Driver (Database δ)} {body : Session (Database δ) → Outcome α × Session (Database δ)}

theorem kept {a : α} (h : AtomicRun D body s (.ok a, t)) (hs : s.Mirrors) :
    s.begin D = (.ok (), s.opened) ∧ (body s.opened).1 = .ok a ∧
      t.connection.data = (body s.opened).2.connection.data ∧
      t.connection.levels = s.connection.levels ∧ t.depth = s.depth ∧ t.broken = false := by
  cases h with
  | ended _ hbegin _ hmirrors hending =>
    cases hending with
    | kept hok hbroken hlevels hdata =>
      exact ⟨hbegin, hok, hdata, hlevels, hs.depth_congr hmirrors hlevels, hbroken⟩

theorem undone {f : Failure} (h : AtomicRun D body s (.error f, t)) (hs : s.Mirrors)
    (hbroken : t.broken = false) :
    t.connection.data = s.connection.data ∧ t.connection.levels = s.connection.levels ∧
      t.depth = s.depth := by
  cases h with
  | refused hruined => exact absurd_broken hbroken hruined
  | unopened _ _ heq =>
    subst heq
    exact ⟨rfl, rfl, rfl⟩
  | ruined _ _ hruined => exact absurd_broken hbroken hruined
  | ended _ _ _ hmirrors hending =>
    cases hending with
    | undone _ _ hlevels hdata => exact ⟨hdata, hlevels, hs.depth_congr hmirrors hlevels⟩
    | stuck _ hruined _ => exact absurd_broken hbroken hruined

theorem unchanged {f : Failure} {x : Outcome α × Session (Database δ)}
    (h : AtomicRun D body s x) (hbegin : s.begin D = (.ok (), s.opened))
    (hf : (body s.opened).1 = .error f) : x.1 = .error f := by
  cases h with
  | refused _ hrefused | unopened _ hrefused _ =>
    rw [hbegin] at hrefused
    cases hrefused
  | ruined _ _ _ hpass => exact hpass f hf
  | ended _ _ _ _ hending =>
    cases hending with
    | kept hok =>
      rw [hf] at hok
      cases hok
    | undone hpass => exact hpass f hf
    | stuck hpass => exact hpass f hf

theorem committed {x : Outcome α × Session (Database δ)} (h : AtomicRun D body s x)
    (hs : s.Mirrors) (hbody : s.broken = false → s.opened.Continues (body s.opened).2) :
    x.2.connection.committed =
      if s.depth = 0 ∧ x.1.isOk = true then x.2.connection.data else s.connection.committed := by
  have hfailed (f : Failure) : ¬(s.depth = 0 ∧ (Except.error f : Outcome α).isOk = true) :=
    fun h => Bool.false_ne_true h.2
  cases h with
  | refused => rw [if_neg (hfailed _)]
  | unopened _ _ heq =>
    subst heq
    rw [if_neg (hfailed _)]
    rfl
  | ruined hbroken =>
    rw [if_neg (hfailed _)]
    exact committed_of_opened (hbody hbroken).outer
  | ended _ _ _ _ hending =>
    cases hending with
    | @kept _ w _ _ hlevels _ =>
      by_cases houtermost : s.depth = 0
      · have hnil : w.connection.levels = [] := by
          rw [hlevels]
          exact List.eq_nil_of_length_eq_zero (hs.depth_eq.symm.trans houtermost)
        rw [if_pos ⟨houtermost, rfl⟩, Database.committed, hnil]
        rfl
      · rw [if_neg fun h => houtermost h.1]
        have hopen := hs.levels_ne_nil houtermost
        exact Database.committed_of_outer hopen (hlevels ▸ List.suffix_refl _)
    | undone _ _ hlevels hdata =>
      rw [if_neg (hfailed _), Database.committed, hlevels, hdata]
      rfl
    | stuck _ _ hlevels =>
      rw [if_neg (hfailed _)]
      exact committed_of_opened (hlevels ▸ List.suffix_refl _)

end AtomicRun

/-- What holds of an atomic part that is run on session `s`. -/
structure AtomicLaw (b : Behaviour δ) (s : Session (Database δ)) (body : Activity α) : Prop where
  /-- If the part succeeds, so did its body. The data are what the body left. -/
  kept : ∀ a t, s.atomic b.driver (body.run b.driver) = (.ok a, t) →
    s.begin b.driver = (.ok (), s.opened) ∧ (body.run b.driver s.opened).1 = .ok a ∧
      t.connection.data = (body.run b.driver s.opened).2.connection.data ∧
      t.connection.levels = s.connection.levels ∧ t.depth = s.depth ∧ t.broken = false
  /-- If the part does not succeed and the session is not broken, nothing has changed. -/
  undone : ∀ f t, s.atomic b.driver (body.run b.driver) = (.error f, t) → t.broken = false →
    t.connection.data = s.connection.data ∧ t.connection.levels = s.connection.levels ∧
      t.depth = s.depth
  /-- A failure of the body is the outcome of the part. -/
  unchanged : ∀ f, s.begin b.driver = (.ok (), s.opened) →
    (body.run b.driver s.opened).1 = .error f →
    (s.atomic b.driver (body.run b.driver)).1 = .error f
  /-- On a broken session the part fails and does nothing. -/
  refused : s.broken = true → ∃ f, s.atomic b.driver (body.run b.driver) = (.error f, s)
  /-- If the session breaks at any point of the body, the part fails, and sends nothing more when
  the body is over. -/
  ruined : ∀ u ∈ s.inside b.driver (body.passes b.driver), u.broken = true →
    ∃ f, s.atomic b.driver (body.run b.driver) = (.error f, (body.run b.driver s.opened).2) ∧
      (body.run b.driver s.opened).2.broken = true
  /-- Nothing is committed before the part is over. -/
  uncommitted : ∀ u ∈ s.inside b.driver (body.passes b.driver),
    u.connection.committed = s.connection.committed
  /-- Only an outermost part that succeeds commits anything. -/
  committed : (s.atomic b.driver (body.run b.driver)).2.connection.committed =
    if s.depth = 0 ∧ (s.atomic b.driver (body.run b.driver)).1.isOk = true then
      (s.atomic b.driver (body.run b.driver)).2.connection.data
    else s.connection.committed

theorem AtomicLaw.of_structured (he : b.Exact) (hs : s.Tidy) {body : Activity α}
    (hbody : body.Structured) : s.AtomicLaw b body := by
  have hcontinues (hbroken : s.broken = false) :=
    body.run_continues he hbody _ (hs.opened hbroken)
  have hrun := atomic_run he hs hcontinues
  refine ⟨fun a t heq => (heq ▸ hrun).kept hs.mirrors,
    fun f t heq hbroken => (heq ▸ hrun).undone hs.mirrors hbroken,
    fun f hbegin hf => hrun.unchanged hbegin hf, fun hbroken => ?_, fun u hu hbroken => ?_,
    fun u hu => ?_, hrun.committed hs.mirrors hcontinues⟩
  · exact ⟨_, atomic_of_refused (begin_of_broken hbroken)⟩
  · obtain ⟨hhealthy, hbegin, hmem⟩ := mem_inside he hs.mirrors hu
    have hway := (CommitsNoMore.course he).passes body hbody _ (hs.opened hhealthy)
    have hend := (hway.toEnd u hmem hbroken).1
    obtain ⟨f, -, hsame⟩ := conclude_of_broken (D := b.driver) hend s.depth
      (body.run b.driver s.opened).1
    exact ⟨f, (atomic_of_begun hbegin).trans hsame, hend⟩
  · obtain ⟨hhealthy, -, hmem⟩ := mem_inside he hs.mirrors hu
    exact committed_of_opened (body.outer_of_mem_passes he hbody _ (hs.opened hhealthy) u hmem)

theorem Tidy.fresh (data : δ) : Tidy (.fresh (.holding data)) :=
  ⟨.fresh data, fun h => absurd h Bool.false_ne_true⟩

end Session

/-- The law holds of every atomic part that an activity gets to, at any depth, and a session that is
broken commits nothing any more. A statement outside of all atomic parts commits by itself. -/
theorem Activity.atomic_lawful (he : b.Exact) {α : Type} (a : Activity α) (ha : a.Structured)
    (data : δ) :
    (∀ s ∈ a.passes b.driver (.fresh (.holding data)), ∀ {β : Type} (body : Activity β),
        body.Structured → s.AtomicLaw b body) ∧
      (a.passes b.driver (.fresh (.holding data))).Pairwise Session.CommitsNoMore := by
  have hway := (Session.CommitsNoMore.course he).passes a ha _ (.fresh data)
  exact ⟨fun s hs _ body hbody => .of_structured he (hway.invariant s hs) hbody, hway.related⟩

namespace Sample

/-- An atomic part that ignores the failure of one inside. -/
def nested : Activity Unit :=
  .atomic
    (.step (.call insertNote) fun _ =>
      .atomic (.step (.call insertNote) fun _ => .done (.error (α := Unit) .cancelled)) fun _ =>
        .done (.ok ()))
    .done

/-- The inner part is not undone to the end, so the outer one cannot commit. -/
theorem nested_lawful :
    (failing 5 .cancelled).Exact ∧ nested.Structured ∧
      (nested.run (failing 5 .cancelled).driver (.fresh (.holding 0))).1.isOk = false ∧
      (∀ s ∈ nested.passes (failing 5 .cancelled).driver (.fresh (.holding 0)),
        ∀ {β : Type} (body : Activity β), body.Structured →
          s.AtomicLaw (failing 5 .cancelled) body) ∧
      (nested.passes (failing 5 .cancelled).driver (.fresh (.holding 0))).Pairwise
        Session.CommitsNoMore := by
  have hnested : nested.Structured :=
    ⟨⟨insertNote_plain, fun _ => ⟨⟨insertNote_plain, fun _ => trivial⟩, fun _ => trivial⟩⟩,
      fun _ => trivial⟩
  have hexact := failing_exact 5 .cancelled
  exact ⟨hexact, hnested, by decide +kernel, Activity.atomic_lawful hexact nested hnested 0⟩

end Sample

end SqlMapper
