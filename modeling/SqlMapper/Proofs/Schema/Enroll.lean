import SqlMapper.Proofs.Schema.Declared

/-!
# SqlMapper.Proofs.Schema.Enroll

What a registration does to a registry.

* `Registry.gaining`: a registry once a model is registered in it.
* `Registry.enroll_cases`: a registration fails and changes nothing, or comes to that.
* `Registry.enroll_effect`: who sees what of a registration.
-/

namespace SqlMapper

/-! ## Accessors -/

namespace Model

def addAccessors (t : Model) (as : List ReverseRelation) : Model :=
  { t with reverse := t.reverse ++ as }

/-- A model with the accessors that the foreign keys of `m` install on it. -/
def referredBy (t m : Model) : Model :=
  t.addAccessors (m.accessorsFor t.name)

theorem addAccessors_nil (t : Model) : t.addAccessors [] = t := by
  rw [addAccessors, List.append_nil]

theorem addAccessors_append (t : Model) (as bs : List ReverseRelation) :
    (t.addAccessors as).addAccessors bs = t.addAccessors (as ++ bs) := by
  rw [addAccessors, addAccessors, addAccessors, List.append_assoc]

theorem bare_addAccessors (m : Model) : m.bare.addAccessors m.reverse = m := rfl

end Model

namespace Registry

variable {r : Registry} {m t : Model}

/-- The registry with more accessors on each of its models. -/
def addAccessors (r : Registry) (on : String → List ReverseRelation) : Registry :=
  { r with models := r.models.map fun t => t.addAccessors (on t.name) }

theorem addAccessors_eq_self {on : String → List ReverseRelation}
    (h : ∀ t ∈ r.models, on t.name = []) : r.addAccessors on = r := by
  have hmodels : (r.models.map fun t => t.addAccessors (on t.name)) = r.models := by
    refine (List.map_congr_left fun t ht => ?_).trans (List.map_id _)
    rw [h t ht, Model.addAccessors_nil]
    rfl
  rw [addAccessors, hmodels]

theorem addAccessors_addAccessors (on on' : String → List ReverseRelation) :
    (r.addAccessors on).addAccessors on' = r.addAccessors fun n => on n ++ on' n := by
  unfold addAccessors
  rw [List.map_map]
  congr 1
  exact List.map_congr_left fun t _ => t.addAccessors_append _ _

/-- One key adds to the model that it refers to, if that is not its own. -/
theorem installKey_eq (hm : ∀ t ∈ r.models, t.name ≠ m.name) (k : ForeignKey) :
    installKey m r k = r.addAccessors fun n => (k.accessorOn n m.name).toList := by
  unfold installKey reverseRelation? ForeignKey.accessorOn
  cases k.backref with
  | none => exact (addAccessors_eq_self fun t _ => rfl).symm
  | some name =>
    dsimp only [Option.map_some]
    by_cases hown : k.target = m.name
    · rw [if_pos hown]
      refine (addAccessors_eq_self fun t ht => ?_).symm
      rw [if_neg (hown ▸ (hm t ht).symm)]
      rfl
    · rw [if_neg hown, install, addAccessors]
      congr 1
      refine List.map_congr_left fun t _ => ?_
      by_cases htarget : k.target = t.name
      · rw [if_pos htarget.symm, if_pos htarget]
        rfl
      · rw [if_neg (Ne.symm htarget), if_neg htarget]
        exact t.addAccessors_nil.symm

theorem foldl_installKey_eq (hm : ∀ t ∈ r.models, t.name ≠ m.name) (ks : List ForeignKey) :
    ks.foldl (installKey m) r =
      r.addAccessors fun n => ks.filterMap (ForeignKey.accessorOn n m.name) := by
  induction ks generalizing r with
  | nil => exact (addAccessors_eq_self fun _ _ => rfl).symm
  | cons k ks ih =>
    rw [List.foldl_cons, installKey_eq hm, ih, addAccessors_addAccessors]
    · congr 1
      funext n
      rw [List.filterMap_cons]
      cases k.accessorOn n m.name <;> rfl
    · intro t ht
      obtain ⟨u, hu, rfl⟩ := List.mem_map.1 ht
      exact hm u hu

/-! ## Registration -/

/-- The registry once `m` is registered. -/
def gaining (r : Registry) (m : Model) : Registry :=
  { r with models := r.models.map (·.referredBy m) ++ [m] }

theorem name_of_find? {n : String} (h : r.find? n = some t) : t.name = n := by
  rw [find?] at h
  have hname := List.find?_some h
  exact beq_iff_eq.1 hname

theorem mem_of_find? {n : String} (h : r.find? n = some t) : t ∈ r.models :=
  List.mem_of_find?_eq_some h

theorem name_ne_of_find?_none {n : String} (h : r.find? n = none) :
    ∀ t ∈ r.models, t.name ≠ n :=
  fun t ht htn => List.find?_eq_none.1 h t ht (beq_iff_eq.2 htn)

theorem find?_map_referredBy (n : String) :
    (r.models.map (·.referredBy m)).find? (·.name == n) = (r.find? n).map (·.referredBy m) :=
  List.find?_map ..

theorem find?_gaining {n : String} (h : r.find? n = some t) :
    (r.gaining m).find? n = some (t.referredBy m) := by
  rw [find?, gaining, List.find?_append, find?_map_referredBy, h]
  rfl

theorem find?_gaining_self (h : r.find? m.name = none) :
    (r.gaining m).find? m.name = some m := by
  rw [find?, gaining, List.find?_append, find?_map_referredBy, h, List.find?_singleton,
    beq_self_eq_true]
  rfl

/-- A registration that fails changes nothing; one that succeeds adds its model and the accessors of
its foreign keys. -/
theorem enroll_cases (r : Registry) (d : ModelDecl) :
    (∃ e, r.enroll d = (.error e, r)) ∨
      ∃ m, r.find? m.name = none ∧ r.Built d m ∧ r.enroll d = (.ok m, r.gaining m) := by
  unfold enroll
  split
  · exact .inl ⟨_, rfl⟩
  · rename_i hnew
    split
    · exact .inl ⟨_, rfl⟩
    · rename_i m hm
      have hbuilt := buildModel_built hm
      have hfind : r.find? m.name = none := by
        rw [hbuilt.name]
        exact Option.not_isSome_iff_eq_none.1 hnew
      refine .inr ⟨m, hfind, hbuilt, ?_⟩
      rw [foldl_installKey_eq (name_ne_of_find?_none hfind)]
      rfl

/-- What was meant while `m` was being registered is in the registry afterwards. -/
theorem find?_gaining_of_seen? (hm : r.find? m.name = none) {n : String}
    (h : r.seen? m n = some t) :
    ∃ as, (r.gaining m).find? n = some (t.addAccessors as) := by
  unfold seen? at h
  split at h
  · rename_i hn
    cases h
    refine ⟨m.reverse, ?_⟩
    rw [hn, Model.bare_addAccessors]
    exact find?_gaining_self hm
  · exact ⟨_, find?_gaining h⟩

/-- No accessor is lost: the model that a key refers to has it. -/
theorem Built.installed {d : ModelDecl} (h : r.Built d m) (hm : r.find? m.name = none)
    {k : ForeignKey} (hk : k ∈ m.foreignKeys) {name : String} (hname : k.backref = some name) :
    ∃ t, (r.gaining m).find? k.target = some t ∧ ⟨name, m.name, k.field⟩ ∈ t.reverse := by
  have hmem : ⟨name, m.name, k.field⟩ ∈ m.accessorsFor k.target :=
    List.mem_filterMap.2 ⟨k, hk, ForeignKey.accessorOn_eq_some.2 ⟨rfl, name, hname, rfl⟩⟩
  obtain ⟨f, -, ref, t, g, backref, -, ht, -, -, hkey⟩ := exists_of_forall₂ h.keys.keyed k hk
  have htarget : k.target = ref.target := by rw [hkey]
  rw [← htarget] at ht
  unfold seen? at ht
  split at ht
  · rename_i hown
    rw [hown] at hmem ⊢
    exact ⟨m, find?_gaining_self hm, h.reverse ▸ hmem⟩
  · refine ⟨_, find?_gaining ht, List.mem_append_right _ ?_⟩
    rwa [name_of_find? ht]

/-- A failed registration leaves the registry as it was. After a successful one the new model is
last, each model that was there has gained the accessors of the foreign keys that refer to it, and
no accessor of a key has been left out. -/
theorem enroll_effect (r : Registry) (d : ModelDecl) :
    match r.enroll d with
    | (.error _, r') => r' = r
    | (.ok m, r') =>
      r'.models = r.models.map (·.referredBy m) ++ [m] ∧ r'.entities = r.entities ∧
        m.name = d.name ∧ r.find? m.name = none ∧ r'.find? m.name = some m ∧
        (∀ n t, r.find? n = some t → r'.find? n = some (t.referredBy m)) ∧
        ∀ k ∈ m.foreignKeys, ∀ name, k.backref = some name →
          ∃ t, r'.find? k.target = some t ∧ ⟨name, m.name, k.field⟩ ∈ t.reverse := by
  rcases enroll_cases r d with ⟨e, h⟩ | ⟨m, hm, hbuilt, h⟩
  · rw [h]
  · rw [h]
    exact ⟨rfl, rfl, hbuilt.name, hm, find?_gaining_self hm, fun n t => find?_gaining,
      fun k hk name => hbuilt.installed hm hk⟩

end Registry

end SqlMapper
