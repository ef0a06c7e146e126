import SqlMapper.Proofs.Transaction.Activity

/-!
# SqlMapper.Proofs.Transaction.Levels

A session counts the levels that are open in its database.

* `Control.Fits`: what has to be open for a control statement to make sense.
* `Session.Mirrors`: the count is right, and every control statement so far fitted what was open.
* `Session.begin_cases`, `Session.commit_cases`, `Session.rollback_cases`: all ways in which the
  calls end, on a database where statements take effect exactly if they report success.
* `Activity.levels_counted`: sessions mirror their databases all along, whatever is done with them
  and whatever fails.
-/

namespace SqlMapper

/-! ## What is open -/

namespace Control

/-- The savepoint of a level inside `n` others. The outermost level has none. -/
def levelName (n : Nat) : Option Nat := if n = 0 then none else some n

/-- `n` levels, the innermost first. -/
def levelNames : Nat → List (Option Nat)
  | 0 => []
  | n + 1 => levelName n :: levelNames n

theorem length_levelNames (n : Nat) : (levelNames n).length = n := by
  induction n with
  | zero => rfl
  | succ n ih => rw [levelNames, List.length_cons, ih]

/-- What has to be open for a statement to make sense. -/
def Fits : Control → List (Option Nat) → Prop
  | begin, levels => levels = []
  | commit, levels | rollback, levels => levels = [none]
  | savepoint n, levels => levels.length = n
  | release n, levels | rollbackTo n, levels => levels.head? = some (some n)

theorem fits_opening (n : Nat) : (opening n).Fits (levelNames n) := by
  cases n with
  | zero => rfl
  | succ n => exact length_levelNames (n + 1)

theorem fits_keeping {n : Nat} (h : n ≠ 0) : (keeping n).Fits (levelNames n) := by
  obtain ⟨n, rfl⟩ := Nat.exists_eq_add_one_of_ne_zero h
  cases n <;> rfl

theorem fits_rollbackTo (n : Nat) : (rollbackTo (n + 1)).Fits (levelNames (n + 2)) := rfl

end Control

/-- If the statement is a control statement, it fits what was open when it came in. -/
def Receipt.Proper (x : Receipt) : Prop := ∀ c : Control, x.sql = c.sql → c.Fits x.levels

theorem Receipt.proper_of_fits {c : Control} {levels : List (Option Nat)} (h : c.Fits levels) :
    Receipt.Proper ⟨c.sql, levels⟩ := fun _ hc => Control.sql_injective hc ▸ h

theorem Receipt.proper_of_plain {sql : String} {levels : List (Option Nat)}
    (h : Control.ofSql? sql = none) : Receipt.Proper ⟨sql, levels⟩ := by
  rintro c rfl
  rw [Control.ofSql?_sql] at h
  cases h

/-! ## What control statements do to levels -/

namespace Database

variable {δ : Type} {db : Database δ} {n : Nat}

open Control

/-- Opens a level inside `n` others. -/
def opened (n : Nat) (db : Database δ) : Database δ :=
  { db with levels := ⟨levelName n, db.data⟩ :: db.levels }

/-- Closes the innermost level and keeps the data. -/
def left (db : Database δ) : Database δ := { db with levels := db.levels.tail }

/-- Brings back the data from before the innermost level. -/
def rewound (db : Database δ) : Database δ :=
  { db with data := (db.levels.head?.map OpenLevel.before).getD db.data }

theorem savepoints_left : db.left.savepoints = db.savepoints.tail := List.map_tail

theorem exists_level (h : db.savepoints = levelNames (n + 1)) :
    ∃ before outer, db.levels = ⟨levelName n, before⟩ :: outer ∧
      outer.map OpenLevel.savepoint = levelNames n := by
  obtain ⟨⟨_, before⟩, outer, hlevels, rfl, houter⟩ := List.map_eq_cons_iff.1 h
  exact ⟨before, outer, hlevels, houter⟩

theorem levels_eq_nil (h : db.savepoints = levelNames 0) : db.levels = [] := List.map_eq_nil_iff.1 h

theorem control_opening (db : Database δ) (h : db.savepoints = levelNames n) :
    db.control (opening n) = db.opened n := by
  cases n with
  | zero =>
    have hnil := levels_eq_nil h
    simp [opening, control, opened, levelName, hnil]
  | succ n =>
    obtain ⟨before, outer, hlevels, -⟩ := exists_level h
    simp [opening, control, opened, levelName, hlevels]

theorem levelsFrom_eq (h : db.savepoints = levelNames (n + 2)) :
    db.levelsFrom (n + 1) = db.levels := by
  obtain ⟨before, outer, hlevels, -⟩ := exists_level h
  simp [levelsFrom, hlevels, levelName]

theorem control_keeping (db : Database δ) (h : db.savepoints = levelNames n) (hopen : n ≠ 0) :
    db.control (keeping n) = db.left := by
  obtain ⟨n, rfl⟩ := Nat.exists_eq_add_one_of_ne_zero hopen
  obtain ⟨before, outer, hlevels, houter⟩ := exists_level h
  cases n with
  | zero =>
    have hnil : outer = [] := List.map_eq_nil_iff.1 houter
    simp [keeping, control, left, hlevels, hnil]
  | succ n => simp [keeping, control, left, levelsFrom_eq h, hlevels]

theorem control_rollback (db : Database δ) (h : db.savepoints = levelNames 1) :
    db.control .rollback = db.rewound.left := by
  obtain ⟨before, outer, hlevels, houter⟩ := exists_level h
  have hnil : outer = [] := List.map_eq_nil_iff.1 houter
  simp [control, left, rewound, committed, hlevels, hnil]

theorem control_rollbackTo (db : Database δ) (h : db.savepoints = levelNames n) (hdeep : 1 < n) :
    db.control (.rollbackTo (n - 1)) = db.rewound := by
  obtain ⟨n, rfl⟩ := Nat.exists_eq_add_of_le' hdeep
  obtain ⟨before, outer, hlevels, -⟩ := exists_level h
  simp [control, rewound, levelsFrom_eq h, hlevels]

end Database

/-! ## What sessions do to levels -/

namespace Session

variable {δ : Type} {b : Behaviour δ} {s t : Session (Database δ)}

open Control

/-- A statement came in and failed. -/
def told (c : Control) (s : Session (Database δ)) : Session (Database δ) :=
  { s with connection := s.connection.note c.sql }

def opened (s : Session (Database δ)) : Session (Database δ) where
  connection := (s.connection.note (opening s.depth).sql).opened s.depth
  depth := s.depth + 1
  broken := s.broken

def kept (s : Session (Database δ)) : Session (Database δ) where
  connection := (s.connection.note (keeping s.depth).sql).left
  depth := s.depth - 1
  broken := s.broken

/-- After the first of the two statements that undo a savepoint. -/
def rewound (s : Session (Database δ)) : Session (Database δ) :=
  { s with connection := (s.connection.note (rollbackTo (s.depth - 1)).sql).rewound }

def undone (s : Session (Database δ)) : Session (Database δ) :=
  if s.depth = 1 then
    { s with connection := (s.connection.note Control.rollback.sql).rewound.left, depth := 0 }
  else s.rewound.kept

/-- The count is right, and every control statement so far fitted what was open. -/
structure Mirrors (s : Session (Database δ)) : Prop where
  savepoints : s.connection.savepoints = levelNames s.depth
  proper : ∀ x ∈ s.connection.received, x.Proper

namespace Mirrors

theorem fresh (data : δ) : Mirrors (.fresh (.holding data)) :=
  ⟨rfl, List.forall_mem_nil _⟩

theorem depth_eq (h : s.Mirrors) : s.depth = s.connection.levels.length := by
  have hlength := congrArg List.length h.savepoints
  rw [length_levelNames, Database.savepoints, List.length_map] at hlength
  exact hlength.symm

theorem note (h : s.Mirrors) {sql : String} (hx : Receipt.Proper ⟨sql, s.connection.savepoints⟩) :
    ∀ x ∈ (s.connection.note sql).received, x.Proper :=
  List.forall_mem_append.2 ⟨h.proper, List.forall_mem_singleton.2 hx⟩

theorem fitting (h : s.Mirrors) {c : Control} (hc : c.Fits (levelNames s.depth)) :
    ∀ x ∈ (s.connection.note c.sql).received, x.Proper :=
  h.note (Receipt.proper_of_fits (h.savepoints ▸ hc))

theorem told (h : s.Mirrors) {c : Control} (hc : c.Fits (levelNames s.depth)) :
    (s.told c).Mirrors := ⟨h.savepoints, h.fitting hc⟩

theorem opened (h : s.Mirrors) : s.opened.Mirrors where
  savepoints := congrArg (levelName s.depth :: ·) h.savepoints
  proper := h.fitting (fits_opening s.depth)

theorem kept (h : s.Mirrors) (hopen : s.depth ≠ 0) : s.kept.Mirrors := by
  obtain ⟨n, hn⟩ := Nat.exists_eq_add_one_of_ne_zero hopen
  refine ⟨?_, h.fitting (fits_keeping hopen)⟩
  rw [Session.kept, Database.savepoints_left]
  exact (congrArg List.tail h.savepoints).trans (by rw [hn]; rfl)

theorem rewound (h : s.Mirrors) (hdeep : 1 < s.depth) : s.rewound.Mirrors := by
  obtain ⟨n, hn⟩ := Nat.exists_eq_add_of_le' hdeep
  refine ⟨h.savepoints, h.fitting (c := rollbackTo (s.depth - 1)) ?_⟩
  rw [hn]
  exact fits_rollbackTo n

theorem undone (h : s.Mirrors) (hopen : s.depth ≠ 0) : s.undone.Mirrors := by
  unfold Session.undone
  split
  · rename_i hone
    refine ⟨?_, h.fitting (c := .rollback) (by rw [hone]; rfl)⟩
    rw [Database.savepoints_left]
    exact (congrArg List.tail h.savepoints).trans (by rw [hone]; rfl)
  · have hdeep : 1 < s.depth := by omega
    exact (h.rewound hdeep).kept (s := s.rewound) hopen

theorem markBroken (h : s.Mirrors) : s.markBroken.Mirrors := ⟨h.savepoints, h.proper⟩

end Mirrors

/-! ## How calls end -/

theorem send_cases (he : b.Exact) {c : Control} {db : Database δ}
    (hcontrol : (s.connection.note c.sql).control c = db) :
    s.send b.driver c = (.ok (), { s with connection := db }) ∨
      ∃ f, s.send b.driver c = (.error f, s.told c) := by
  have hexact := he s.connection.received.length
  cases hanswer : b.answer s.connection.received.length with
  | ok reply =>
    rw [hanswer] at hexact
    have heffect : b.takesEffect s.connection.received.length = true := hexact
    left
    simp [send, Behaviour.driver, Behaviour.reading, Behaviour.perform, hanswer, heffect,
      Behaviour.carryOut, ofSql?_sql, Except.map, hcontrol]
  | error f =>
    rw [hanswer] at hexact
    have heffect : b.takesEffect s.connection.received.length = false := hexact
    right
    exact ⟨f, by simp [send, Behaviour.driver, Behaviour.reading, Behaviour.perform, hanswer,
      heffect, Except.map, told]⟩

theorem send_rewinding (he : b.Exact) (h : s.Mirrors) (hdeep : 1 < s.depth) :
    s.send b.driver (rollbackTo (s.depth - 1)) = (.ok (), s.rewound) ∨
      ∃ f, s.send b.driver (rollbackTo (s.depth - 1)) =
        (.error f, s.told (rollbackTo (s.depth - 1))) :=
  send_cases he (Database.control_rollbackTo (s.connection.note _) h.savepoints hdeep)

theorem send_keeping (he : b.Exact) (h : s.Mirrors) (hopen : s.depth ≠ 0) :
    s.send b.driver (keeping s.depth) = (.ok (), { s with connection := s.kept.connection }) ∨
      ∃ f, s.send b.driver (keeping s.depth) = (.error f, s.told (keeping s.depth)) :=
  send_cases he (Database.control_keeping (s.connection.note _) h.savepoints hopen)

theorem begin_of_broken {D : Driver (Database δ)} (h : s.broken = true) :
    s.begin D = (refuse (.broken "begin"), s) := if_pos h

theorem begin_cases (he : b.Exact) (h : s.Mirrors) (hbroken : s.broken = false) :
    s.begin b.driver = (.ok (), s.opened) ∨
      ∃ f, s.begin b.driver = (.error f, s.told (opening s.depth)) := by
  have hcontrol := Database.control_opening (s.connection.note (opening s.depth).sql) h.savepoints
  unfold begin
  rw [if_neg (by simp [hbroken])]
  rcases send_cases he hcontrol with hsend | ⟨f, hsend⟩ <;> rw [hsend]
  · exact .inl rfl
  · exact .inr ⟨f, rfl⟩

/-- Without an open level, or on a broken session, nothing is sent. -/
theorem commit_of_refused {D : Driver (Database δ)} (h : s.depth = 0 ∨ s.broken = true) :
    ∃ cause, s.commit D = (refuse cause, s) := by
  unfold commit
  split
  · exact ⟨_, rfl⟩
  · rename_i hopen
    exact ⟨_, if_pos (h.resolve_left hopen)⟩

theorem commit_cases (he : b.Exact) (h : s.Mirrors) (hopen : s.depth ≠ 0)
    (hbroken : s.broken = false) :
    s.commit b.driver = (.ok (), s.kept) ∨
      ∃ f, s.commit b.driver = (.error f, s.told (keeping s.depth)) := by
  unfold commit
  rw [if_neg hopen, if_neg (by simp [hbroken])]
  rcases send_keeping he h hopen with hsend | ⟨f, hsend⟩ <;> rw [hsend]
  · exact .inl rfl
  · exact .inr ⟨f, rfl⟩

theorem rollback_of_refused {D : Driver (Database δ)} (h : s.depth = 0) :
    s.rollback D = (refuse .nothingToRollBack, s) := if_pos h

/-- Undoing a savepoint can fail halfway: then the level is still open. -/
theorem rollback_cases (he : b.Exact) (h : s.Mirrors) (hopen : s.depth ≠ 0) :
    s.rollback b.driver = (.ok (), s.undone) ∨
      (∃ (f : Failure) (c : Control), c.Fits (levelNames s.depth) ∧
        s.rollback b.driver = (.error f, s.told c)) ∨
      ∃ f, 1 < s.depth ∧
        s.rollback b.driver = (.error f, s.rewound.told (keeping s.depth)) := by
  unfold Session.rollback undoing undone
  rw [if_neg hopen]
  by_cases hone : s.depth = 1
  · have hcontrol := Database.control_rollback (s.connection.note Control.rollback.sql)
      (h.savepoints.trans (congrArg levelNames hone))
    rw [if_pos hone, if_pos hone, sendAll]
    rcases send_cases he hcontrol with hsend | ⟨f, hsend⟩ <;> rw [hsend]
    · refine .inl ?_
      simp [sendAll, hone]
    · exact .inr (.inl ⟨f, .rollback, by rw [hone]; rfl, rfl⟩)
  · have hdeep : 1 < s.depth := by omega
    have hkeeping : release (s.depth - 1) = keeping s.depth := (if_neg hone).symm
    rw [if_neg hone, if_neg hone, hkeeping, sendAll]
    rcases send_rewinding he h hdeep with hsend | ⟨f, hsend⟩ <;> rw [hsend]
    · -- The level is still open, so what is sent next is what keeps it.
      have hkeep := send_keeping he (h.rewound hdeep) hopen
      rw [show s.rewound.depth = s.depth from rfl] at hkeep
      rcases hkeep with hkeep | ⟨f, hkeep⟩
      · refine .inl ?_
        simp only [sendAll, hkeep]
        rfl
      · refine .inr (.inr ⟨f, hdeep, ?_⟩)
        simp only [sendAll, hkeep]
    · refine .inr (.inl ⟨f, rollbackTo (s.depth - 1), ?_, rfl⟩)
      obtain ⟨n, hn⟩ := Nat.exists_eq_add_of_le' hdeep
      rw [hn]
      exact fits_rollbackTo n

/-! ## Sessions go on mirroring their databases -/

namespace Mirrors

theorem begin (he : b.Exact) (h : s.Mirrors) : (s.begin b.driver).2.Mirrors := by
  cases hbroken : s.broken with
  | true =>
    rw [begin_of_broken hbroken]
    exact h
  | false =>
    rcases begin_cases he h hbroken with heq | ⟨f, heq⟩ <;> rw [heq]
    · exact h.opened
    · exact h.told (fits_opening s.depth)

theorem commit (he : b.Exact) (h : s.Mirrors) : (s.commit b.driver).2.Mirrors := by
  by_cases hrefused : s.depth = 0 ∨ s.broken = true
  · obtain ⟨cause, heq⟩ := commit_of_refused hrefused
    rw [heq]
    exact h
  · obtain ⟨hopen, hbroken⟩ := not_or.1 hrefused
    rcases commit_cases he h hopen (eq_false_of_ne_true hbroken) with heq | ⟨f, heq⟩ <;> rw [heq]
    · exact h.kept hopen
    · exact h.told (fits_keeping hopen)

theorem rollback (he : b.Exact) (h : s.Mirrors) : (s.rollback b.driver).2.Mirrors := by
  by_cases hopen : s.depth = 0
  · rw [rollback_of_refused hopen]
    exact h
  · rcases rollback_cases he h hopen with heq | ⟨f, c, hfits, heq⟩ | ⟨f, hdeep, heq⟩ <;> rw [heq]
    · exact h.undone hopen
    · exact h.told hfits
    · exact (h.rewound hdeep).told (fits_keeping hopen)

theorem rollbackOrBreak (he : b.Exact) (h : s.Mirrors) : (s.rollbackOrBreak b.driver).Mirrors := by
  have hrollback := h.rollback he
  unfold Session.rollbackOrBreak
  split
  · exact h
  · split <;> rename_i heq <;> rw [heq] at hrollback
    · exact hrollback
    · exact hrollback.markBroken

theorem conclude {α : Type} (he : b.Exact) (h : s.Mirrors) (outer : Nat) (r : Outcome α) :
    (s.conclude b.driver outer r).2.Mirrors := by
  have hcommit := h.commit he
  unfold Session.conclude
  split
  · exact h.rollbackOrBreak he
  · split <;> rename_i heq <;> rw [heq] at hcommit
    · split
      · exact hcommit
      · exact hcommit.markBroken
    · exact hcommit.markBroken
    · exact hcommit.rollbackOrBreak he

theorem finish (he : b.Exact) (h : s.Mirrors) (how : Finish) (scope : TransactionScope) :
    (scope.finish b.driver how s).2.Mirrors := by
  have hrun : (how.run b.driver s).2.Mirrors := by
    cases how with
    | commit => exact h.commit he
    | rollback => exact h.rollback he
  unfold TransactionScope.finish
  split
  · split <;> rename_i heq <;> rw [heq] at hrun
    · exact hrun
    · exact hrun.markBroken
  · exact h.markBroken

theorem start (he : b.Exact) (h : s.Mirrors) : (TransactionScope.start b.driver s).2.Mirrors := by
  have hbegin := h.begin he
  unfold TransactionScope.start
  split <;> rename_i heq <;> rw [heq] at hbegin <;> exact hbegin

end Mirrors

end Session

/-! ## Plain calls -/

variable {δ : Type} {b : Behaviour δ}

/-- A statement that is no transaction control changes the data at most. -/
theorem Behaviour.perform_plain {sql : String} (h : Control.ofSql? sql = none) (b : Behaviour δ)
    (params : List Value) (db : Database δ) :
    ∃ data, (b.perform sql params db).2 = { db.note sql with data } := by
  simp only [perform]
  split
  · exact ⟨b.effect sql params db.data, by simp [carryOut, h, Database.note]⟩
  · exact ⟨db.data, rfl⟩

theorem Call.run_plain {α : Type} {c : Call α} (hc : c.Plain) (b : Behaviour δ) (db : Database δ) :
    ∃ data, (c.run b.driver db).2 = { db.note c.sql with data } := by
  cases c with
  | query sql params | queryOne sql params | execute sql params | insert sql params =>
    exact b.perform_plain hc params db
  | ping => exact ⟨db.data, rfl⟩

namespace Session.Mirrors

variable {s : Session (Database δ)}

theorem call {α : Type} {c : Call α} (hc : c.Plain) (h : s.Mirrors) :
    ((Operation.call c).run b.driver s).2.Mirrors := by
  obtain ⟨data, heq⟩ := c.run_plain hc b s.connection
  have hnote := h.note (Receipt.proper_of_plain hc)
  exact ⟨(congrArg Database.savepoints heq).trans h.savepoints,
    (congrArg Database.received heq) ▸ hnote⟩

theorem operation (he : b.Exact) {α : Type} {op : Operation α} (hop : op.Plain) (h : s.Mirrors) :
    (op.run b.driver s).2.Mirrors := by
  cases op with
  | call c => exact h.call hop
  | begin => exact h.begin he
  | commit => exact h.commit he
  | rollback => exact h.rollback he
  | start => exact h.start he
  | finish how scope => exact h.finish he how scope
  | drop => exact h.markBroken
  | look => exact h

theorem course (he : b.Exact) : Course b.driver Operation.Plain Mirrors fun _ _ => True where
  refl _ := trivial
  trans _ _ := trivial
  operation hop h := ⟨h.operation he hop, trivial⟩
  begun h := ⟨h.begin he, trivial⟩
  concluded _ _ _ h := ⟨h.conclude he _ _, trivial⟩

end Session.Mirrors

/-- However calls end, a session counts the levels that are open in its database, and sends every
control statement only when it fits what is open. -/
theorem Activity.levels_counted (he : b.Exact) {α : Type} (a : Activity α) (ha : a.Plain)
    (data : δ) :
    (∀ s ∈ a.passes b.driver (.fresh (.holding data)), s.depth = s.connection.levels.length) ∧
      ∀ x ∈ (a.run b.driver (.fresh (.holding data))).2.connection.received, x.Proper := by
  have hall := (Session.Mirrors.course he).passes a ha _ (.fresh data)
  exact ⟨fun s hs => (hall.invariant s hs).depth_eq, hall.arrives.proper⟩

namespace Sample

/-- Counts statements, and lets the call of one number fail. -/
def failing (n : Nat) (f : Failure) : Behaviour Nat where
  effect _ _ data := data + 1
  answer k := if k = n then .error f else .ok (.count 0)
  slips _ := false

theorem failing_exact (n : Nat) (f : Failure) : (failing n f).Exact :=
  Behaviour.exact_of_no_slips fun _ => rfl

def insertNote : Call Int := .execute "INSERT INTO notes DEFAULT VALUES" []

theorem insertNote_plain : insertNote.Plain := by with_unfolding_all rfl

/-- An atomic part that is cancelled, in a scope. -/
def inScope : Activity Unit :=
  .step .start fun
    | .error f => .done (.error f)
    | .ok scope =>
      .atomic (.step (.call insertNote) fun _ => .done (.error (α := Unit) .cancelled)) fun _ =>
        .step (.finish .commit scope) .done

/-- The savepoint is rolled back to but not released, so it stays open. -/
theorem inScope_levels_counted :
    (failing 4 .cancelled).Exact ∧ inScope.Plain ∧
      (inScope.passes (failing 4 .cancelled).driver (.fresh (.holding 0))).map Session.depth =
        [0, 1, 2, 2, 2, 2] ∧
      (∀ s ∈ inScope.passes (failing 4 .cancelled).driver (.fresh (.holding 0)),
        s.depth = s.connection.levels.length) := by
  have hplain : inScope.Plain :=
    ⟨trivial, fun
      | .error _ => trivial
      | .ok _ => ⟨⟨insertNote_plain, fun _ => trivial⟩, fun _ => ⟨trivial, fun _ => trivial⟩⟩⟩
  have hexact := failing_exact 4 .cancelled
  exact ⟨hexact, hplain, by decide +kernel, (Activity.levels_counted hexact inScope hplain 0).1⟩

end Sample

end SqlMapper
