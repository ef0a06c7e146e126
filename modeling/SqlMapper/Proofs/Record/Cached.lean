import Mathlib.Data.List.Induction
import SqlMapper.Proofs.Schema.Accessors
import SqlMapper.Proofs.Schema.RoundTrip

/-!
# SqlMapper.Proofs.Record.Cached

The related records that a record keeps, over the calls that change it.

* `Record.Call`, `Record.after`: calls, and what they make of a record.
* `Record.related?_after_iff`: an accessor has the records that were cached for it last, unless a
  later call has dropped them.
* `Record.Current`: nothing was assigned to a field since records were cached.
* `Record.always_current_iff`: what is cached for an accessor is current after every run exactly if
  the accessor is a foreign key.
-/

namespace SqlMapper
namespace Record

/-! ## Calls -/

/-- A call that changes a record. -/
inductive Call
  | set (field : String) (v : Value)
  /-- `home` is the registry of the record's model as it is at the time of the call. -/
  | cacheRelated (home : Registry) (accessor : String) (records : List Record)
  | clearRelated
  | clearAssigned

def Call.run (r : Record) : Call → Except Error Record
  | set field v => r.set field v
  | cacheRelated home accessor records => r.cacheRelated home accessor records
  | clearRelated => .ok r.clearRelated
  | clearAssigned => .ok r.clearAssigned

/-- The record as the call leaves it: one that fails changes nothing. -/
def Call.left (r : Record) (c : Call) : Record :=
  match c.run r with
  | .ok r' => r'
  | .error _ => r

def after (r : Record) (calls : List Call) : Record :=
  calls.foldl Call.left r

/-- A record of the model as it is made, before any call on it. -/
inductive Made (m : Model) : Record → Prop
  | created (s : Supply) : Made m (create m s).1
  | read {row : Row} {s : Supply} {r : Record} : (ofRow m row s).1 = .ok r → Made m r

variable {home : Registry} {r r' : Record} {m : Model} {accessor b field : String} {v : Value}
  {records : List Record}

theorem set_eq_ok (h : r.set field v = .ok r') :
    ∃ f, r.model.field? field = some f ∧
      r' = { r with slots := r.slots.set f.ordinal ⟨v, true⟩ }.forget field := by
  unfold set Model.field at h
  cases hf : r.model.field? field with
  | none =>
    rw [hf] at h
    cases h
  | some f =>
    rw [hf] at h
    cases h
    exact ⟨f, rfl, rfl⟩

theorem set_eq_error (h : r.model.field? field = none) (v : Value) :
    r.set field v = .error (.query (.unknownField r.model.name field)) := by
  unfold set Model.field
  rw [h]
  rfl

theorem set_known (h : r.model.field? field ≠ none) (v : Value) : ∃ r', r.set field v = .ok r' := by
  obtain ⟨f, hf⟩ := Option.ne_none_iff_exists'.1 h
  exact ⟨_, by rw [set, Model.field, hf]; rfl⟩

theorem cacheRelated_eq_ok (h : r.cacheRelated home b records = .ok r') :
    r' = { r.forget b with related := (b, records) :: (r.forget b).related } := by
  unfold cacheRelated at h
  split at h
  · cases h
    rfl
  · cases h

theorem cacheRelated_eq_error (h : ¬ (r.currentModel home).hasRelation accessor = true)
    (records : List Record) :
    r.cacheRelated home accessor records =
      .error (.query (.unknownRelation r.model.name accessor)) := by
  unfold cacheRelated
  rw [if_neg h]

theorem cacheRelated_known (h : (r.currentModel home).hasRelation accessor = true)
    (records : List Record) : ∃ r', r.cacheRelated home accessor records = .ok r' := by
  unfold cacheRelated
  rw [if_pos h]
  exact ⟨_, rfl⟩

theorem made_new (h : Made m r) : r.model = m ∧ r.related = [] := by
  have hfresh (s : Supply) : (create m s).1.model = m ∧ (create m s).1.related = [] := ⟨rfl, rfl⟩
  cases h with
  | created s => exact hfresh s
  | @read row s r hread =>
    obtain ⟨pairs, -, hread⟩ := bind_eq_ok hread
    obtain ⟨r', hrun, hr⟩ := bind_eq_ok hread
    cases hr
    refine foldlM_invariant (fun _ r => r.model = m ∧ r.related = []) [] hrun (hfresh s) ?_
    intro _ p r r' ⟨hmodel, hrelated⟩ hset
    obtain ⟨f, -, rfl⟩ := set_eq_ok hset
    refine ⟨hmodel, ?_⟩
    show r.related.filter _ = []
    rw [hrelated, List.filter_nil]

/-! ## What a call does to an accessor -/

theorem lookup_filter_ne {α : Type} (xs : List (String × α)) (a b : String) :
    (xs.filter (·.1 != b)).lookup a = if a = b then none else xs.lookup a := by
  induction xs with
  | nil => rw [List.filter_nil, List.lookup_nil, ite_self]
  | cons x xs ih =>
    obtain ⟨c, y⟩ := x
    by_cases hc : c = b
    · rw [List.filter_cons_of_neg (by simp [hc]), ih, List.lookup_cons, hc]
      by_cases ha : a = b
      · rw [if_pos ha, if_pos ha]
      · rw [if_neg ha, if_neg ha, beq_false_of_ne ha]
    · rw [List.filter_cons_of_pos (by simpa using hc), List.lookup_cons, List.lookup_cons, ih]
      by_cases ha : a = c
      · rw [if_neg (ha ▸ hc), if_neg (ha ▸ hc)]
      · rw [beq_false_of_ne ha]

theorem related?_forget (r : Record) (accessor b : String) :
    (r.forget b).related? accessor = if accessor = b then none else r.related? accessor :=
  lookup_filter_ne r.related accessor b

theorem related?_set (h : r.set field v = .ok r') :
    r'.related? accessor = if accessor = field then none else r.related? accessor := by
  obtain ⟨f, -, rfl⟩ := set_eq_ok h
  exact related?_forget _ accessor field

theorem related?_cacheRelated (h : r.cacheRelated home b records = .ok r') :
    r'.related? accessor = if accessor = b then some records else r.related? accessor := by
  rw [cacheRelated_eq_ok h]
  show ((b, records) :: (r.forget b).related).lookup accessor = _
  rw [List.lookup_cons]
  by_cases ha : accessor = b
  · rw [beq_iff_eq.2 ha, if_pos ha]
  · rw [beq_false_of_ne ha, if_neg ha]
    exact (related?_forget r accessor b).trans (if_neg ha)

/-- The call puts the records under the accessor of a record of the model. -/
def Call.Caches (m : Model) (accessor : String) (records : List Record) (c : Call) : Prop :=
  ∃ home, c = .cacheRelated home accessor records ∧
    ((home.find? m.name).getD m).hasRelation accessor = true

/-- The call leaves what a record of the model has under the accessor. -/
def Call.Keeps (m : Model) (accessor : String) : Call → Prop
  | set field _ => m.field? field = none ∨ accessor ≠ field
  | cacheRelated home b _ => accessor ≠ b ∨ ¬ ((home.find? m.name).getD m).hasRelation b = true
  | clearRelated => False
  | clearAssigned => True

variable {c : Call}

theorem Call.Caches.not_keeps (h : c.Caches m accessor records) : ¬ c.Keeps m accessor := by
  obtain ⟨home, rfl, hknown⟩ := h
  rintro (hne | hunknown)
  · exact hne rfl
  · exact hunknown hknown

theorem model_left (r : Record) (c : Call) : (c.left r).model = r.model := by
  unfold Call.left
  split
  · rename_i r' hrun
    cases c with
    | set field v =>
      obtain ⟨f, -, rfl⟩ := set_eq_ok hrun
      rfl
    | cacheRelated home b records =>
      rw [cacheRelated_eq_ok hrun]
      rfl
    | clearRelated =>
      cases hrun
      rfl
    | clearAssigned =>
      cases hrun
      rfl
  · rfl

theorem model_after (r : Record) (calls : List Call) : (r.after calls).model = r.model := by
  induction calls generalizing r with
  | nil => rfl
  | cons c calls ih => exact (ih (c.left r)).trans (model_left r c)

theorem related?_left_of_keeps (h : c.Keeps r.model accessor) :
    (c.left r).related? accessor = r.related? accessor := by
  unfold Call.left
  split
  · rename_i r' hrun
    cases c with
    | set field v =>
      rcases h with hnone | hne
      · exact nomatch (set_eq_error hnone v).symm.trans hrun
      · rw [related?_set hrun, if_neg hne]
    | cacheRelated home b records =>
      rcases h with hne | hunknown
      · rw [related?_cacheRelated hrun, if_neg hne]
      · exact nomatch (cacheRelated_eq_error hunknown records).symm.trans hrun
    | clearRelated => exact h.elim
    | clearAssigned =>
      cases hrun
      rfl
  · rfl

theorem related?_left_of_caches (h : c.Caches r.model accessor records) :
    (c.left r).related? accessor = some records := by
  obtain ⟨home, rfl, hknown⟩ := h
  obtain ⟨r', hrun⟩ := cacheRelated_known (r := r) hknown records
  simp only [Call.left, Call.run, hrun]
  rw [related?_cacheRelated hrun, if_pos rfl]

/-- What a call does not keep and does not replace is gone. -/
theorem related?_left_of_not_keeps (h : ¬ c.Keeps r.model accessor)
    (hc : ∀ records, ¬ c.Caches r.model accessor records) :
    (c.left r).related? accessor = none := by
  cases c with
  | set field v =>
    obtain ⟨hfield, hname⟩ := not_or.1 h
    obtain ⟨r', hrun⟩ := set_known hfield v
    simp only [Call.left, Call.run, hrun]
    exact (related?_set hrun).trans (if_pos (not_not.1 hname))
  | cacheRelated home b records =>
    obtain ⟨hname, hknown⟩ := not_or.1 h
    obtain rfl : accessor = b := not_not.1 hname
    exact absurd ⟨home, rfl, not_not.1 hknown⟩ (hc records)
  | clearRelated => rfl
  | clearAssigned => exact absurd trivial h

/-- After a call an accessor has the records that the call has cached for it, or those from before
if the call keeps them. -/
theorem related?_left_iff (r : Record) (c : Call) :
    (c.left r).related? accessor = some records ↔
      c.Caches r.model accessor records ∨
        c.Keeps r.model accessor ∧ r.related? accessor = some records := by
  by_cases hkeeps : c.Keeps r.model accessor
  · rw [related?_left_of_keeps hkeeps]
    constructor
    · exact fun h => .inr ⟨hkeeps, h⟩
    · rintro (h | ⟨-, h⟩)
      · exact absurd hkeeps h.not_keeps
      · exact h
  · constructor
    · intro h
      by_cases hcached : ∃ records', c.Caches r.model accessor records'
      · obtain ⟨records', hcaches⟩ := hcached
        rw [related?_left_of_caches hcaches] at h
        cases h
        exact .inl hcaches
      · rw [related?_left_of_not_keeps hkeeps (not_exists.1 hcached)] at h
        cases h
    · rintro (h | ⟨h, -⟩)
      · exact related?_left_of_caches h
      · exact absurd h hkeeps

/-! ## Runs -/

/-- The records that an accessor has are those that were cached for it last, and every call since
then has kept them. -/
theorem related?_after_iff (hnew : r.related = []) (calls : List Call) :
    (r.after calls).related? accessor = some records ↔
      ∃ before c later, calls = before ++ c :: later ∧ c.Caches r.model accessor records ∧
        ∀ c' ∈ later, c'.Keeps r.model accessor := by
  -- from the last call on, for it is the last calls that the right side speaks of
  induction calls using List.reverseRecOn with
  | nil =>
    have hnone : r.related? accessor = none := by rw [related?, hnew, List.lookup_nil]
    constructor
    · intro h
      exact nomatch hnone.symm.trans h
    · rintro ⟨before, c, later, h, -⟩
      exact absurd h (by simp)
  | append_singleton calls c ih =>
    have hrun : r.after (calls ++ [c]) = c.left (r.after calls) := by
      rw [after, List.foldl_append]
      rfl
    rw [hrun, related?_left_iff, model_after, ih]
    constructor
    · rintro (hcaches | ⟨hkeeps, before, c', later, rfl, hcaches, hlater⟩)
      · exact ⟨calls, c, [], rfl, hcaches, fun _ hc => nomatch hc⟩
      · refine ⟨before, c', later ++ [c], by simp, hcaches, fun c'' hc => ?_⟩
        rcases List.mem_append.1 hc with hc | hc
        · exact hlater c'' hc
        · exact List.mem_singleton.1 hc ▸ hkeeps
    · rintro ⟨before, c', later, hcalls, hcaches, hlater⟩
      rcases List.eq_nil_or_concat later with rfl | ⟨later, last, rfl⟩
      · obtain ⟨-, hc⟩ := List.append_inj' hcalls rfl
        exact .inl (List.singleton_inj.1 hc ▸ hcaches)
      · rw [List.concat_eq_append, ← List.cons_append, ← List.append_assoc] at hcalls
        obtain ⟨hbefore, hc⟩ := List.append_inj' hcalls rfl
        obtain rfl := List.singleton_inj.1 hc
        refine .inr ⟨hlater c (by simp), before, c', later, hbefore, hcaches, fun c'' hc => ?_⟩
        exact hlater c'' (by simp [hc])

/-! ## Current records -/

/-- The records were put under the accessor by the last call that put any there, and no call since
then has assigned the field. -/
def Current (m : Model) (calls : List Call) (accessor : String) (records : List Record)
    (field : String) : Prop :=
  ∃ before c later, calls = before ++ c :: later ∧ c.Caches m accessor records ∧
    (∀ c' ∈ later, ∀ records', ¬ c'.Caches m accessor records') ∧ ∀ v, .set field v ∉ later

/-- What is cached under a foreign key is dropped when the key is assigned. -/
theorem current_of_forward (hnew : r.related = []) (hfield : r.model.field? accessor ≠ none)
    {calls : List Call} (h : (r.after calls).related? accessor = some records) :
    Current r.model calls accessor records accessor := by
  obtain ⟨before, c, later, hcalls, hcaches, hlater⟩ := (related?_after_iff hnew calls).1 h
  refine ⟨before, c, later, hcalls, hcaches, fun c' hc' records' h => h.not_keeps (hlater c' hc'),
    fun v hmem => ?_⟩
  rcases hlater _ hmem with hnone | hne
  · exact hfield hnone
  · exact hne rfl

/-- An assignment to another field leaves what is cached, also if the accessor is looked up through
that field. -/
theorem not_current_of_reverse (hcaches : c.Caches r.model accessor records)
    (hne : accessor ≠ field) (v : Value) :
    (r.after [c, .set field v]).related? accessor = some records ∧
      ¬ Current r.model [c, .set field v] accessor records field := by
  refine ⟨?_, ?_⟩
  · have hkeeps : (Call.set field v).Keeps (c.left r).model accessor := .inr hne
    exact (related?_left_of_keeps hkeeps).trans (related?_left_of_caches hcaches)
  · rintro ⟨before, c', later, hcalls, hcaches', -, hset⟩
    cases before with
    | nil =>
      cases hcalls
      exact hset v (List.mem_singleton_self _)
    | cons c before =>
      -- the assignment caches nothing
      obtain ⟨-, hrest⟩ := List.cons.inj hcalls
      obtain ⟨home, rfl, -⟩ := hcaches'
      cases before with
      | nil => cases hrest
      | cons c before => exact absurd (List.cons.inj hrest).2 (by simp)

/-- Whatever is done to a record of a registered model, the records that an accessor has were cached
after the last assignment of the field that it is looked up through. This holds of foreign keys,
which are looked up through themselves, and of no reverse accessor. -/
theorem always_current_iff (hm : m.RegisteredIn home) {u : Model}
    (hu : home.find? m.name = some u) (haccessor : u.hasRelation accessor = true) :
    (∃ l, home.Leads m accessor l) ∧ ∀ l, home.Leads m accessor l →
      ((∀ r, Made m r → ∀ calls records, (r.after calls).related? accessor = some records →
        Current m calls accessor records l.own.name) ↔ l.kind = .manyToOne) := by
  refine ⟨(hm.hasRelation_iff hu).1 haccessor, fun l hl => ?_⟩
  rw [← hm.own_name_iff hl]
  constructor
  · intro hcurrent
    by_contra hne
    have hcaches : (Call.cacheRelated home accessor []).Caches m accessor [] :=
      ⟨home, rfl, by rw [hu]; exact haccessor⟩
    obtain ⟨hcached, hstale⟩ := not_current_of_reverse (r := (create m ⟨0⟩).1) hcaches
      (Ne.symm hne) .null
    exact hstale (hcurrent _ (.created ⟨0⟩) _ _ hcached)
  · intro hname r hr calls records h
    obtain ⟨rfl, hnew⟩ := made_new hr
    rw [hname]
    refine current_of_forward hnew ?_ h
    rw [← hname, hm.field?_name hl.own_mem]
    exact Option.some_ne_none _

end Record

namespace Sample

/-- Whatever is done to a person, the record of the boss is that of the present boss. -/
theorem recipient_boss_current :
    recipient.RegisteredIn depot ∧ depot.find? "Person" = some recipient ∧
      recipient.hasRelation "boss" = true ∧
      ∀ r, Record.Made recipient r → ∀ calls records,
        (r.after calls).related? "boss" = some records →
          Record.Current recipient calls "boss" records "boss" := by
  have hknown : recipient.hasRelation "boss" = true := by decide
  obtain ⟨-, hiff⟩ := Record.always_current_iff recipient_registered recipient_found hknown
  have hleads : depot.Leads recipient "boss" ⟨.manyToOne, _, recipient, recipientId⟩ :=
    .forward (List.mem_singleton_self _) rfl (List.mem_cons_of_mem _ (List.mem_singleton_self _))
      rfl recipient_found (List.mem_cons_self ..) rfl
  exact ⟨recipient_registered, recipient_found, hknown, (hiff _ hleads).2 rfl⟩

def newcomer : Record := (Record.create recipient ⟨0⟩).1

def newParcel : Record := (Record.create parcel ⟨0⟩).1

/-- The parcels of one person are fetched, and then the record is given the key of another. -/
def renumbering : List Record.Call :=
  [.cacheRelated depot "parcels_set" [newParcel], .set "id" (.bigInt 5)]

theorem renumbered_stale :
    Record.Made recipient newcomer ∧ depot.Leads recipient "parcels_set" parcelsLead ∧
      (newcomer.after renumbering).get "id" = .ok (.bigInt 5) ∧
      (newcomer.after renumbering).related? "parcels_set" = some [newParcel] ∧
      ¬ Record.Current recipient renumbering "parcels_set" [newParcel] "id" := by
  have hcaches : (Record.Call.cacheRelated depot "parcels_set" [newParcel]).Caches newcomer.model
      "parcels_set" [newParcel] := ⟨depot, rfl, by rfl⟩
  have hne : "parcels_set" ≠ "id" := by decide
  obtain ⟨hcached, hstale⟩ := Record.not_current_of_reverse hcaches hne (.bigInt 5)
  exact ⟨.created ⟨0⟩, recipient_leads, by rfl, hcached, hstale⟩

end Sample

end SqlMapper
