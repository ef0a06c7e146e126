import SqlMapper.Executor
import SqlMapper.Proofs.Record.Cached
import SqlMapper.Proofs.Statement.Matching

/-!
# SqlMapper.Proofs.Record.Fetched

Fetching the records behind an accessor.

* `Driver.logged`: a driver with a log of the calls on it.
* `Record.relatedQuery_of_leads`: the query behind an accessor, told from where the accessor leads.
* `Executor.Fetched`: how fetching is to end, with what it leaves of the record, the connection and
  the log.
* `Executor.fetched_iff`: it does, but for a reverse accessor of a record whose key is NULL, where a
  query is sent for the rows that refer to nothing.
-/

namespace SqlMapper

/-! ## Calls on a driver -/

namespace Driver

inductive Call
  | query (sql : String) (params : List Value)
  | queryOne (sql : String) (params : List Value)
  | execute (sql : String) (params : List Value)
  | insert (sql : String) (params : List Value)
  | ping
  | close

/-- A connection and the calls on it so far. -/
structure Logged (σ : Type) where
  connection : σ
  calls : List Call

variable {σ α : Type}

def Logged.run (f : σ → α × σ) (call : Call) (c : Logged σ) : α × Logged σ :=
  let (a, connection) := f c.connection
  (a, ⟨connection, c.calls ++ [call]⟩)

/-- The driver with a log of all calls on it. -/
def logged (d : Driver σ) : Driver (Logged σ) where
  query sql params := Logged.run (d.query sql params) (.query sql params)
  queryOne sql params := Logged.run (d.queryOne sql params) (.queryOne sql params)
  execute sql params := Logged.run (d.execute sql params) (.execute sql params)
  insert sql params := Logged.run (d.insert sql params) (.insert sql params)
  ping := Logged.run d.ping .ping
  close := Logged.run d.close .close

theorem logged_query {d : Driver σ} {sql : String} {params : List Value} {c : Logged σ}
    {answer : Outcome (List Row)} {connection : σ}
    (h : d.query sql params c.connection = (answer, connection)) :
    d.logged.query sql params c = (answer, ⟨connection, c.calls ++ [Call.query sql params]⟩) := by
  show Logged.run (d.query sql params) (.query sql params) c = _
  rw [Logged.run, h]

end Driver

def Executor.logged {σ : Type} (x : Executor σ) : Executor (Driver.Logged σ) :=
  ⟨x.driver.logged, x.dialect, x.registry⟩

/-! ## The query behind an accessor -/

namespace Record

variable {home : Registry} {r : Record} {accessor : String} {l : Lead}

theorem get_own (hm : r.model.RegisteredIn home) {f : Field} (hf : f ∈ r.model.fields) :
    r.get f.name = .ok (r.value f) := by
  rw [get, Model.field, hm.field?_name hf]
  rfl

/-- A foreign key that is NULL leads to nothing. In all other cases the rows are asked for that have
at the other end what the record has at its own. -/
theorem relatedQuery_of_leads (hm : r.model.RegisteredIn home)
    (hl : home.Leads r.model accessor l) :
    r.relatedQuery home home accessor =
      .ok (if l.kind = .manyToOne ∧ (r.value l.own).isNull = true then none
        else some (Select.matching l.target l.other.name (r.value l.own))) := by
  obtain ⟨u, hmem, hu, hname, hfields, hkeys⟩ := hm.exists_current
  have hs := hm.sound
  unfold relatedQuery
  cases hl with
  | @forward k own other target hk hfield hown hownName htarget hother hotherName =>
    have hkey : r.model.foreignKey? accessor = some k := by
      rw [← hfield, Model.foreignKey?, ← hkeys]
      exact hs.foreignKey?_field hmem (hkeys ▸ hk)
    have hget : home.get k.target = .ok target := by rw [Registry.get, htarget]
    simp only [hkey, ← hownName, get_own hm hown, hget, hotherName]
    show (if (r.value own).isNull = true then (pure none : Except Error _) else _) = _
    by_cases hnull : (r.value own).isNull = true
    · rw [if_pos hnull, if_pos ⟨trivial, hnull⟩]
      rfl
    · rw [if_neg hnull, if_neg fun h => hnull h.2]
      rfl
  | @reverse k own other child hchild hk htarget hbackref hown hownName hother hotherName =>
    have ha := hs.reverse_mem hmem hchild hk (htarget.trans hname.symm) hbackref
    -- no field has the name of a reverse accessor, and a foreign key is a field
    have hnone : r.model.foreignKey? accessor = none := by
      refine List.find?_eq_none.2 fun k' hk' hfield => ?_
      obtain ⟨f, hf, hfname⟩ := hs.exists_keyField hmem (hkeys ▸ hk')
      exact hs.name_ne_of_reverse_mem hmem ha hf (hfname.trans (beq_iff_eq.1 hfield))
    have hreverse : (r.currentModel home).reverse? accessor =
        some ⟨accessor, child.name, k.field⟩ := by
      rw [currentModel, hu]
      exact hs.reverse?_name hmem ha
    have hget : home.get child.name = pure child := by
      rw [Registry.get, hs.find?_name hchild]
      rfl
    have hkey : child.foreignKey? k.field = some k := hs.foreignKey?_field hchild hk
    simp only [hnone, hreverse, hget, pure_bind, hkey]
    show (r.get k.targetField >>= _) = _
    rw [← hownName, get_own hm hown, hotherName]
    rfl

end Record

/-! ## Runs of jobs -/

namespace Record

/-- Records of rows, one after another, as far as they can be decoded. -/
def ofRows (m : Model) : List Row → Supply → Except Error (List Record) × Supply
  | [], s => (.ok [], s)
  | row :: rows, s =>
    match ofRow m row s with
    | (.error e, s) => (.error e, s)
    | (.ok r, s) =>
      let (rs, s) := ofRows m rows s
      (rs.map (r :: ·), s)

end Record

namespace Job

variable {σ α β : Type}

theorem run_bind (j : Job σ α) (f : α → Job σ β) (w : Workplace σ) :
    (j >>= f).run w =
      match j.run w with
      | (.error e, w) => (.error e, w)
      | (.ok a, w) => (f a).run w := by
  show (match j.run w with | (r, w) => ExceptT.bindCont f r w) = _
  rcases j.run w with ⟨_ | _, _⟩ <;> rfl

theorem run_drawing (f : Supply → Except Error α × Supply) (w : Workplace σ) :
    (drawing f).run w = (Outcome.ofExcept (f w.supply).1, { w with supply := (f w.supply).2 }) :=
  rfl

theorem run_calling (f : σ → Outcome α × σ) (w : Workplace σ) :
    (calling f).run w = ((f w.connection).1, { w with connection := (f w.connection).2 }) :=
  rfl

theorem run_mapM_ofRow (m : Model) (rows : List Row) (w : Workplace σ) :
    (rows.mapM fun row => (drawing (Record.ofRow m row) : Job σ Record)).run w =
      (Outcome.ofExcept (Record.ofRows m rows w.supply).1,
        { w with supply := (Record.ofRows m rows w.supply).2 }) := by
  induction rows generalizing w with
  | nil => rfl
  | cons row rows ih =>
    rw [List.mapM_cons, run_bind, run_drawing, Record.ofRows]
    rcases Record.ofRow m row w.supply with ⟨e | r, s⟩
    · rfl
    · dsimp only [Outcome.ofExcept, Except.mapError]
      rw [run_bind, ih]
      rcases Record.ofRows m rows s with ⟨e | rs, s⟩ <;> rfl

end Job

namespace Executor

variable {σ : Type} (x : Executor σ)

variable {x} in
/-- A statement that cannot be compiled is not sent. -/
theorem run_fetchAll_of_error {st : Statement} {w : Workplace σ} {e : Error} {s : Supply}
    (h : st.compile x.dialect w.supply = (.error e, s)) :
    (x.fetchAll st).run w = (.error (.error e), { w with supply := s }) := by
  rw [fetchAll, Job.run_bind, compile, Job.run_drawing, h]
  rfl

variable {x} in
/-- A statement that is compiled is sent once. -/
theorem run_fetchAll_of_ok {st : Statement} {w : Workplace (Driver.Logged σ)} {q : Rendered}
    {s : Supply} {answer : Outcome (List Row)} {c : σ}
    (h : st.compile x.dialect w.supply = (.ok q, s))
    (hanswer : x.driver.query q.sql q.params w.connection.connection = (answer, c)) :
    (x.logged.fetchAll st).run w =
      (answer, ⟨⟨c, w.connection.calls ++ [Driver.Call.query q.sql q.params]⟩, s⟩) := by
  rw [fetchAll, Job.run_bind, compile, Job.run_drawing, logged, h]
  show (Job.calling (x.driver.logged.query q.sql q.params)).run ⟨w.connection, s⟩ = _
  rw [Job.run_calling, Driver.logged_query hanswer]

theorem run_fetchRecords {q : Select} {m : Model} {name : Option String}
    (hq : q.model? = some ⟨m, name⟩) (w : Workplace σ) :
    (x.fetchRecords q).run w =
      match (x.fetchAll (.query (.simple q))).run w with
      | (.error e, w) => (.error e, w)
      | (.ok rows, w) =>
        (Outcome.ofExcept (Record.ofRows m rows w.supply).1,
          { w with supply := (Record.ofRows m rows w.supply).2 }) := by
  simp only [fetchRecords, hq]
  rw [Job.run_bind]
  rcases (x.fetchAll (.query (.simple q))).run w with ⟨e | rows, w⟩
  · rfl
  · exact Job.run_mapM_ofRow m rows w

theorem refreshRelated_eq (home : Registry) (r : Record) (accessor : String) (w : Workplace σ) :
    x.refreshRelated home r accessor w =
      match (x.relatedRecords home r accessor).run w with
      | (.error e, w) => ((.error e, r), w)
      | (.ok records, w) =>
        match r.cacheRelated home accessor records with
        | .error e => ((.error (.error e), r), w)
        | .ok filled => ((.ok records.length, filled), w) := by
  unfold refreshRelated
  dsimp only [bind, StateT.bind]
  rcases (x.relatedRecords home r accessor).run w with ⟨e | records, w⟩
  · rfl
  · dsimp only
    cases r.cacheRelated home accessor records <;> rfl

/-- A call that fails leaves the record as it was. -/
theorem refreshRelated_of_error {home : Registry} {r r' : Record} {accessor : String}
    {w w' : Workplace σ} {e : Failure}
    (h : x.refreshRelated home r accessor w = ((.error e, r'), w')) : r' = r := by
  rw [refreshRelated_eq] at h
  split at h
  · cases h
    rfl
  · split at h
    · cases h
      rfl
    · cases h

theorem refreshRelated_workplace (home : Registry) (r : Record) (accessor : String)
    (w : Workplace σ) :
    (x.refreshRelated home r accessor w).2 = ((x.relatedRecords home r accessor).run w).2 := by
  rw [refreshRelated_eq]
  rcases (x.relatedRecords home r accessor).run w with ⟨e | records, w⟩
  · rfl
  · dsimp only
    cases r.cacheRelated home accessor records <;> rfl

theorem relatedRecords_eq {home : Registry} {r : Record} {accessor : String} {q : Option Select}
    (hq : r.relatedQuery x.registry home accessor = .ok q) :
    x.relatedRecords home r accessor = q.elim (pure []) x.fetchRecords := by
  unfold relatedRecords
  rw [hq]
  cases q <;> rfl

end Executor

/-! ## Fetching -/

/-- The text of the query for the rows that an accessor leads to. Its parameter is the key. -/
def Lead.sql (d : Dialect) (l : Lead) : String :=
  Select.matchingText d l.target l.other ++ " = " ++ d.placeholder 1 ++ ")"

/-- The record with other records under an accessor, and nothing else changed. -/
structure Record.Refilled (r : Record) (accessor : String) (records : List Record) (r' : Record) :
    Prop where
  model : r'.model = r.model
  slots : r'.slots = r.slots
  related : ∀ b, r'.related? b = if b = accessor then some records else r.related? b

namespace Executor

variable {σ : Type}

open Driver (Logged)

/-- How fetching the records behind an accessor is to end: with what answer, and with which record
and workplace left. A key that is NULL leads to no records, and nothing is asked. Otherwise there is
one query, unless the key cannot be stored; and a call that fails leaves the record as it was. -/
inductive Fetched (x : Executor σ) (l : Lead) (accessor : String) (r : Record)
    (w : Workplace (Logged σ)) : (Outcome Nat × Record) × Workplace (Logged σ) → Prop
  | nothing {r' : Record} :
      (r.value l.own).isNull = true → r.Refilled accessor [] r' →
        Fetched x l accessor r w ((.ok 0, r'), w)
  | refused {e : Error} :
      (r.value l.own).isNull = false → l.other.encode (r.value l.own) = .error e →
        Fetched x l accessor r w ((.error (.error e), r), w)
  | failed {key : Value} {e : Failure} {c : σ} :
      (r.value l.own).isNull = false → l.other.encode (r.value l.own) = .ok key →
      x.driver.query (l.sql x.dialect) [key] w.connection.connection = (.error e, c) →
        Fetched x l accessor r w ((.error e, r),
          ⟨⟨c, w.connection.calls ++ [.query (l.sql x.dialect) [key]]⟩, w.supply⟩)
  | undecoded {key : Value} {rows : List Row} {c : σ} {e : Error} {s : Supply} :
      (r.value l.own).isNull = false → l.other.encode (r.value l.own) = .ok key →
      x.driver.query (l.sql x.dialect) [key] w.connection.connection = (.ok rows, c) →
      Record.ofRows l.target rows w.supply = (.error e, s) →
        Fetched x l accessor r w ((.error (.error e), r),
          ⟨⟨c, w.connection.calls ++ [.query (l.sql x.dialect) [key]]⟩, s⟩)
  | filled {key : Value} {rows : List Row} {c : σ} {records : List Record} {s : Supply}
      {r' : Record} :
      (r.value l.own).isNull = false → l.other.encode (r.value l.own) = .ok key →
      x.driver.query (l.sql x.dialect) [key] w.connection.connection = (.ok rows, c) →
      Record.ofRows l.target rows w.supply = (.ok records, s) → r.Refilled accessor records r' →
        Fetched x l accessor r w ((.ok records.length, r'),
          ⟨⟨c, w.connection.calls ++ [.query (l.sql x.dialect) [key]]⟩, s⟩)

variable {x : Executor σ} {r : Record} {accessor : String} {l : Lead}

theorem refilled_cacheRelated {home : Registry} {records : List Record} {r' : Record}
    (h : r.cacheRelated home accessor records = .ok r') : r.Refilled accessor records r' where
  model := by rw [Record.cacheRelated_eq_ok h]; rfl
  slots := by rw [Record.cacheRelated_eq_ok h]; rfl
  related b := Record.related?_cacheRelated h

section

variable (hm : r.model.RegisteredIn x.registry) (hl : x.registry.Leads r.model accessor l)

include hm hl

theorem hasRelation_of_leads : (r.currentModel x.registry).hasRelation accessor = true := by
  obtain ⟨u, -, hu, -⟩ := hm.exists_current
  rw [Record.currentModel, hu]
  exact (hm.hasRelation_iff hu).2 ⟨l, hl⟩

theorem target_field? : ∀ g ∈ l.target.fields, l.target.field? g.name = some g :=
  fun _ hg => hm.sound.field?_name hl.target_mem hg

/-- What is fetched is kept. -/
theorem refreshRelated_of_ok {w w' : Workplace (Logged σ)} {records : List Record}
    (h : (x.logged.relatedRecords x.registry r accessor).run w = (.ok records, w')) :
    ∃ r', r.Refilled accessor records r' ∧
      x.logged.refreshRelated x.registry r accessor w = ((.ok records.length, r'), w') := by
  obtain ⟨r', hr'⟩ := Record.cacheRelated_known (hasRelation_of_leads hm hl) records
  exact ⟨r', refilled_cacheRelated hr', by rw [refreshRelated_eq, h]; simp only [hr']⟩

/-- What is not asked for a foreign key that is NULL is asked in all other cases. -/
theorem run_relatedRecords (hasked : ¬ (l.kind = .manyToOne ∧ (r.value l.own).isNull = true))
    (w : Workplace (Logged σ)) :
    (x.logged.relatedRecords x.registry r accessor).run w =
      (x.logged.fetchRecords (.matching l.target l.other.name (r.value l.own))).run w := by
  have hq : r.relatedQuery x.logged.registry x.registry accessor =
      .ok (some (.matching l.target l.other.name (r.value l.own))) :=
    (Record.relatedQuery_of_leads hm hl).trans (by rw [if_neg hasked])
  rw [relatedRecords_eq x.logged hq, Option.elim_some]

theorem fetched_of_nothing (hkind : l.kind = .manyToOne) (hnull : (r.value l.own).isNull = true)
    (w : Workplace (Logged σ)) :
    x.Fetched l accessor r w (x.logged.refreshRelated x.registry r accessor w) := by
  have hq : r.relatedQuery x.registry x.registry accessor = .ok none := by
    rw [Record.relatedQuery_of_leads hm hl, if_pos ⟨hkind, hnull⟩]
  have hrecords : (x.logged.relatedRecords x.registry r accessor).run w = (.ok [], w) := by
    rw [relatedRecords_eq x.logged hq]
    rfl
  obtain ⟨r', hr', hrun⟩ := refreshRelated_of_ok hm hl hrecords
  rw [hrun]
  exact .nothing hnull hr'

theorem fetched_of_key (hnull : (r.value l.own).isNull = false) (w : Workplace (Logged σ)) :
    x.Fetched l accessor r w (x.logged.refreshRelated x.registry r accessor w) := by
  have hcompile :=
    Select.compile_matching (target_field? hm hl) hl.other_mem hnull x.dialect w.supply
  have hrecords := run_relatedRecords hm hl (fun h => by simp [hnull] at h) w
  rw [run_fetchRecords x.logged (Select.model?_matching ..)] at hrecords
  cases hkey : l.other.encode (r.value l.own) with
  | error e =>
    rw [hkey] at hcompile
    have hsent := run_fetchAll_of_error (x := x.logged) hcompile
    rw [hsent] at hrecords
    rw [refreshRelated_eq, hrecords]
    exact .refused hnull hkey
  | ok key =>
    rw [hkey] at hcompile
    obtain ⟨answer, c, hrows⟩ : ∃ answer c,
        x.driver.query (l.sql x.dialect) [key] w.connection.connection = (answer, c) := ⟨_, _, rfl⟩
    have hsent := run_fetchAll_of_ok hcompile hrows
    rw [hsent] at hrecords
    cases answer with
    | error e =>
      rw [refreshRelated_eq, hrecords]
      exact .failed hnull hkey hrows
    | ok rows =>
      rcases hread : Record.ofRows l.target rows w.supply with ⟨e | records, s⟩
      · simp only [hread] at hrecords
        rw [refreshRelated_eq, hrecords]
        exact .undecoded hnull hkey hrows hread
      · simp only [hread] at hrecords
        obtain ⟨r', hr', hrun⟩ := refreshRelated_of_ok hm hl hrecords
        rw [hrun]
        exact .filled hnull hkey hrows hread hr'

/-- For a reverse accessor of a record whose key is NULL, the rows are asked for that refer to
nothing. -/
theorem calls_of_null_reverse (hkind : l.kind = .oneToMany) (hnull : (r.value l.own).isNull = true)
    (w : Workplace (Logged σ)) :
    (x.logged.refreshRelated x.registry r accessor w).2.connection.calls = w.connection.calls ++
      [Driver.Call.query (Select.matchingText x.dialect l.target l.other ++ " IS NULL)") []] := by
  have hcompile :=
    Select.compile_matching_null (target_field? hm hl) hl.other_mem hnull x.dialect w.supply
  have hrecords := run_relatedRecords hm hl (fun h => by simp [hkind] at h) w
  rw [run_fetchRecords x.logged (Select.model?_matching ..)] at hrecords
  obtain ⟨answer, c, hrows⟩ : ∃ answer c,
      x.driver.query (Select.matchingText x.dialect l.target l.other ++ " IS NULL)") []
        w.connection.connection = (answer, c) := ⟨_, _, rfl⟩
  rw [run_fetchAll_of_ok hcompile hrows] at hrecords
  rw [refreshRelated_workplace, hrecords]
  cases answer <;> rfl

theorem not_fetched_of_null_reverse (hkind : l.kind = .oneToMany)
    (hnull : (r.value l.own).isNull = true) (w : Workplace (Logged σ)) :
    ¬ x.Fetched l accessor r w (x.logged.refreshRelated x.registry r accessor w) := by
  intro hfetched
  have hcalls := calls_of_null_reverse hm hl hkind hnull w
  generalize x.logged.refreshRelated x.registry r accessor w = run at hfetched hcalls
  cases hfetched with
  | nothing => simp at hcalls
  | refused h => simp [h] at hnull
  | failed h => simp [h] at hnull
  | undecoded h => simp [h] at hnull
  | filled h => simp [h] at hnull

end

/-- Fetching ends as it is to end, but for a reverse accessor of a record whose key is NULL. A call
that fails leaves the record as it was also then. -/
theorem fetched_iff {u : Model} (hm : r.model.RegisteredIn x.registry)
    (hu : x.registry.find? r.model.name = some u) (haccessor : u.hasRelation accessor = true) :
    (∃ l, x.registry.Leads r.model accessor l) ∧
      (∀ l, x.registry.Leads r.model accessor l → ∀ w,
        (x.Fetched l accessor r w (x.logged.refreshRelated x.registry r accessor w) ↔
          ¬ (l.kind = .oneToMany ∧ (r.value l.own).isNull = true))) ∧
      ∀ w e r' w', x.logged.refreshRelated x.registry r accessor w = ((.error e, r'), w') →
        r' = r := by
  refine ⟨(hm.hasRelation_iff hu).1 haccessor, fun l hl w => ⟨?_, fun h => ?_⟩,
    fun _ _ _ _ hrun => refreshRelated_of_error x.logged hrun⟩
  · rintro hfetched ⟨hkind, hnull⟩
    exact not_fetched_of_null_reverse hm hl hkind hnull w hfetched
  · cases hnull : (r.value l.own).isNull with
    | false => exact fetched_of_key hm hl hnull w
    | true =>
      refine fetched_of_nothing hm hl ?_ hnull w
      cases hkind : l.kind with
      | manyToOne => rfl
      | oneToMany => exact absurd ⟨hkind, hnull⟩ h

end Executor

namespace Sample

/-- Has no rows. -/
def emptyStore : Driver Unit where
  query _ _ c := (.ok [], c)
  queryOne _ _ c := (.ok none, c)
  execute _ _ c := (.ok 0, c)
  insert _ _ c := (.ok 0, c)
  ping c := (.ok (), c)
  close c := (.ok (), c)

def clerk : Executor Unit := ⟨emptyStore, .sqlite, depot⟩

def desk : Workplace (Driver.Logged Unit) := ⟨⟨(), []⟩, ⟨0⟩⟩

def numbered : Record := newcomer.after [.set "id" (.bigInt 3)]

theorem numbered_fetched :
    recipient.RegisteredIn depot ∧ depot.find? "Person" = some recipient ∧
      recipient.hasRelation "parcels_set" = true ∧
      clerk.Fetched parcelsLead "parcels_set" numbered desk
        (clerk.logged.refreshRelated clerk.registry numbered "parcels_set" desk) := by
  have hknown : recipient.hasRelation "parcels_set" = true := by decide
  obtain ⟨-, hiff, -⟩ := Executor.fetched_iff (x := clerk) (r := numbered)
    recipient_registered recipient_found hknown
  exact ⟨recipient_registered, recipient_found, hknown,
    (hiff parcelsLead recipient_leads desk).2 fun h => by cases h.2⟩

def orphansText : String :=
  "SELECT \"t1\".\"id\", \"t1\".\"owner_id\", \"t1\".\"sealed\", \"t1\".\"serial\"" ++
    " FROM \"parcels\" AS \"t1\" WHERE (\"t1\".\"owner_id\" IS NULL)"

theorem orphansText_eq :
    Select.matchingText .sqlite parcel parcelsLead.other ++ " IS NULL)" = orphansText := by
  decide +kernel

/-- For a person without a key, the parcels are asked for that nobody owns. -/
theorem newcomer_misled :
    recipient.RegisteredIn depot ∧ depot.Leads recipient "parcels_set" parcelsLead ∧
      newcomer.value recipientId = .null ∧
      (clerk.logged.refreshRelated clerk.registry newcomer "parcels_set" desk).2.connection.calls =
        [.query orphansText []] ∧
      ¬ clerk.Fetched parcelsLead "parcels_set" newcomer desk
        (clerk.logged.refreshRelated clerk.registry newcomer "parcels_set" desk) := by
  have hcalls :
      (clerk.logged.refreshRelated clerk.registry newcomer "parcels_set" desk).2.connection.calls =
        [] ++ [.query (Select.matchingText .sqlite parcel parcelsLead.other ++ " IS NULL)") []] :=
    Executor.calls_of_null_reverse (x := clerk) (r := newcomer) recipient_registered
      recipient_leads rfl rfl desk
  rw [orphansText_eq, List.nil_append] at hcalls
  have hmisled := Executor.not_fetched_of_null_reverse (x := clerk) (r := newcomer)
    recipient_registered recipient_leads rfl rfl desk
  exact ⟨recipient_registered, recipient_leads, rfl, hcalls, hmisled⟩

end Sample

end SqlMapper
