import SqlMapper.Proofs.Schema.Enroll

/-!
# SqlMapper.Proofs.Schema.Integrity

What holds of every registry, whatever was registered in it and whatever was refused.

* `Model.Sound`, `Registry.Sound`: the invariant, of a model by itself and of models together.
* `Registry.Sound.gaining`: a model that was made from a declaration keeps it.
* `Registry.sound_after`: any registrations keep it.
-/

namespace SqlMapper

/-- Positions, names and columns of a model say which field is meant, and no two of its fields and
reverse accessors have one name. -/
structure Model.Sound (m : Model) : Prop where
  fields : Fields.Sound m.fields
  key : ∀ i ∈ m.primaryKey.positions, i < m.fields.length
  members : m.memberNames.Nodup

/-- The foreign keys of a model are those that its fields declare, each with what is registered
under the name of its target, and a model has exactly the accessors that the foreign keys of all
models ask for, in the order in which these were registered. -/
structure Registry.Sound (r : Registry) : Prop where
  names : (r.models.map Model.name).Nodup
  models : ∀ m ∈ r.models, m.Sound
  keys : ∀ m ∈ r.models,
    List.Forall₂ (Field.Keyed r.find? m.table) (m.fields.filter Field.isForeignKey) m.foreignKeys
  reverse : ∀ t ∈ r.models,
    t.reverse = r.models.flatMap fun m => m.accessorsFor t.name

/-! ## Accessors -/

/-- A key records nothing of the accessors of its target. -/
theorem Field.Keyed.mono {find? find?' : String → Option Model} {table : String} {f : Field}
    {k : ForeignKey} (h : Field.Keyed find? table f k)
    (hfind : ∀ n t, find? n = some t → ∃ as, find?' n = some (t.addAccessors as)) :
    Field.Keyed find?' table f k := by
  obtain ⟨ref, t, g, backref, href, ht, hg, hasks, rfl⟩ := h
  obtain ⟨as, ht'⟩ := hfind _ t ht
  exact ⟨ref, t.addAccessors as, g, backref, href, ht', hg, hasks, rfl⟩

theorem Model.memberNames_addAccessors (t : Model) (as : List ReverseRelation) :
    (t.addAccessors as).memberNames = t.memberNames ++ as.map ReverseRelation.name := by
  unfold memberNames addAccessors
  dsimp only
  rw [List.map_append, List.append_assoc]

section Fresh

variable {find? : String → Option Model} {m : Model}

theorem ForeignKey.Fresh.nodup_accessorsFor (h : Fresh find? m.foreignKeys) (target : String) :
    ((m.accessorsFor target).map ReverseRelation.name).Nodup := by
  rw [Model.accessorsFor, List.Nodup, List.pairwise_map, List.pairwise_filterMap]
  refine h.apart.imp fun {k k'} hapart a ha a' ha' hname => ?_
  obtain ⟨htarget, name, hk, rfl⟩ := accessorOn_eq_some.1 ha
  obtain ⟨htarget', name', hk', rfl⟩ := accessorOn_eq_some.1 ha'
  refine hapart (htarget.trans htarget'.symm) name hk ?_
  rw [hk']
  exact congrArg some hname.symm

/-- The accessors of fresh keys go together with what their target has. -/
theorem ForeignKey.Fresh.nodup_memberNames (h : Fresh find? m.foreignKeys) {t : Model}
    (ht : t.memberNames.Nodup) (hfind : find? t.name = some t) :
    (t.referredBy m).memberNames.Nodup := by
  rw [Model.referredBy, Model.memberNames_addAccessors]
  refine ht.append (h.nodup_accessorsFor t.name) fun name hmem hname => ?_
  obtain ⟨a, ha, rfl⟩ := List.mem_map.1 hname
  obtain ⟨k, hk, ha⟩ := List.mem_filterMap.1 ha
  obtain ⟨htarget, name, hbackref, rfl⟩ := accessorOn_eq_some.1 ha
  refine h.new k hk name hbackref t ?_ hmem
  rw [htarget]
  exact hfind

end Fresh

namespace Registry

variable {r : Registry} {m : Model} {d : ModelDecl}

namespace Sound

theorem empty : Registry.empty.Sound :=
  ⟨List.nodup_nil, fun _ h => (nomatch h), fun _ h => (nomatch h), fun _ h => (nomatch h)⟩

theorem find?_name (h : r.Sound) {t : Model} (ht : t ∈ r.models) : r.find? t.name = some t := by
  obtain ⟨u, hu⟩ : ∃ u, r.find? t.name = some u := by
    refine Option.isSome_iff_exists.1 (List.find?_isSome.2 ⟨t, ht, beq_self_eq_true _⟩)
  rw [hu, List.inj_on_of_nodup_map h.names (mem_of_find? hu) ht (name_of_find? hu)]

/-- What a key refers to is registered. -/
theorem target_ne (h : r.Sound) {n : String} (hn : r.find? n = none) {u : Model}
    (hu : u ∈ r.models) {k : ForeignKey} (hk : k ∈ u.foreignKeys) : k.target ≠ n := by
  obtain ⟨f, -, ref, t, g, backref, -, ht, -, -, rfl⟩ := exists_of_forall₂ (h.keys u hu) k hk
  rintro rfl
  exact nomatch hn.symm.trans ht

theorem seen?_name (h : r.Sound) (hm : r.find? m.name = none) {t : Model} (ht : t ∈ r.models) :
    r.seen? m t.name = some t := by
  rw [seen?, if_neg (name_ne_of_find?_none hm t ht), h.find?_name ht]

end Sound

theorem mem_gaining {t : Model} (h : t ∈ (r.gaining m).models) :
    (∃ u ∈ r.models, t = u.referredBy m) ∨ t = m := by
  rcases List.mem_append.1 h with h | h
  · obtain ⟨u, hu, rfl⟩ := List.mem_map.1 h
    exact .inl ⟨u, hu, rfl⟩
  · exact .inr (List.mem_singleton.1 h)

/-- The accessors that are asked for on a name, once `m` is registered. -/
theorem flatMap_gaining (r : Registry) (m : Model) (n : String) :
    ((r.gaining m).models.flatMap fun u => u.accessorsFor n) =
      (r.models.flatMap fun u => u.accessorsFor n) ++ m.accessorsFor n := by
  rw [gaining, List.flatMap_append, List.flatMap_map, List.flatMap_singleton]
  rfl

theorem Sound.referredBy (h : r.Sound) (hm : r.find? m.name = none) (hbuilt : r.Built d m)
    {t : Model} (ht : t ∈ r.models) : (t.referredBy m).Sound :=
  ⟨(h.models t ht).fields, (h.models t ht).key,
    hbuilt.keys.fresh.nodup_memberNames (h.models t ht).members (h.seen?_name hm ht)⟩

theorem Built.sound (hbuilt : r.Built d m) : m.Sound := by
  have hbare : m.bare.memberNames.Nodup := by
    rw [Model.memberNames, Model.bare, List.map_nil, List.append_nil]
    exact hbuilt.fields.names
  have hmembers : (m.bare.addAccessors (m.accessorsFor m.name)).memberNames.Nodup :=
    hbuilt.keys.fresh.nodup_memberNames hbare (if_pos rfl)
  rw [← hbuilt.reverse, Model.bare_addAccessors] at hmembers
  exact ⟨hbuilt.fields, hbuilt.key, hmembers⟩

/-- No two models have one name, so a new one changes only those that its keys refer to; and none
that was there refers to the new one. -/
theorem Sound.gaining (h : r.Sound) (hm : r.find? m.name = none) (hbuilt : r.Built d m) :
    (r.gaining m).Sound where
  names := by
    refine nodup_map_concat ?_ fun t ht => ?_
    · rw [List.map_map]
      exact h.names
    · obtain ⟨u, hu, rfl⟩ := List.mem_map.1 ht
      exact name_ne_of_find?_none hm u hu
  models t ht := by
    rcases mem_gaining ht with ⟨u, hu, rfl⟩ | rfl
    · exact h.referredBy hm hbuilt hu
    · exact hbuilt.sound
  keys t ht := by
    rcases mem_gaining ht with ⟨u, hu, rfl⟩ | rfl
    · exact (h.keys u hu).imp fun f k hkeyed => hkeyed.mono fun n t ht => ⟨_, find?_gaining ht⟩
    · exact hbuilt.keys.keyed.imp fun f k hkeyed =>
        hkeyed.mono fun n t => find?_gaining_of_seen? hm
  reverse t ht := by
    rw [flatMap_gaining]
    rcases mem_gaining ht with ⟨u, hu, rfl⟩ | rfl
    · exact congrArg (· ++ _) (h.reverse u hu)
    · have hnone : (r.models.flatMap fun u => u.accessorsFor t.name) = [] :=
        List.flatMap_eq_nil_iff.2 fun u hu => List.filterMap_eq_nil_iff.2 fun k hk =>
          ForeignKey.accessorOn_eq_none (h.target_ne hm hu hk)
      rw [hnone, List.nil_append]
      exact hbuilt.reverse

/-! ## Runs -/

theorem Sound.enroll (h : r.Sound) (d : ModelDecl) : (r.enroll d).2.Sound := by
  rcases enroll_cases r d with ⟨e, hrun⟩ | ⟨m, hm, hbuilt, hrun⟩
  · rw [hrun]
    exact h
  · rw [hrun]
    exact h.gaining hm hbuilt

/-- Which models have an entity type does not matter. -/
theorem Sound.of_models {r' : Registry} (h : r.Sound) (hmodels : r'.models = r.models) :
    r'.Sound := by
  obtain ⟨models, entities⟩ := r
  obtain ⟨models', entities'⟩ := r'
  cases hmodels
  exact ⟨h.names, h.models, h.keys, h.reverse⟩

theorem Sound.enrollEntity (h : r.Sound) (d : ModelDecl) : (r.enrollEntity d).2.Sound := by
  have henroll := h.enroll d
  unfold Registry.enrollEntity
  split
  · exact h
  · split
    · rename_i hrun
      rw [hrun] at henroll
      exact henroll.of_models rfl
    · rename_i hrun
      rwa [hrun] at henroll

end Registry

/-- A call that registers a model. -/
inductive Registration
  | declaration (d : ModelDecl)
  /-- The declaration of an entity type, which is registered on its first use. -/
  | entity (d : ModelDecl)

def Registration.run (r : Registry) : Registration → Except Error Model × Registry
  | declaration d => r.enroll d
  | entity d => r.enrollEntity d

namespace Registry

/-- The registry after calls that may each succeed or fail. -/
def after (calls : List Registration) : Registry :=
  calls.foldl (fun r call => (call.run r).2) empty

theorem Sound.run {r : Registry} (h : r.Sound) (call : Registration) : (call.run r).2.Sound := by
  cases call with
  | declaration d => exact h.enroll d
  | entity d => exact h.enrollEntity d

theorem Sound.foldl_run {r : Registry} (h : r.Sound) (calls : List Registration) :
    (calls.foldl (fun r call => (call.run r).2) r).Sound := by
  induction calls generalizing r with
  | nil => exact h
  | cons call calls ih => exact ih (h.run call)

/-- Every registry that can be reached is sound. -/
theorem sound_after (calls : List Registration) : (after calls).Sound :=
  Sound.empty.foldl_run calls

end Registry

namespace Sample

def personDecl : ModelDecl where
  name := "Person"
  table := some "people"
  fields := [.referring "Person" none { name := "boss", type := .bigInt }]

/-- The second key asks for no accessor. -/
def petDecl : ModelDecl where
  name := "Pet"
  table := some "pets"
  fields := [.referring "Person" none { name := "owner", type := .bigInt },
    .backref .suppressed (.referring "Person" none { name := "vet", type := .bigInt })]

/-- Both keys ask for the accessor of the default name. -/
def clashingPet : ModelDecl :=
  { petDecl with fields := petDecl.fields.map (.backref .byTable) }

/-- The accessors outlast a declaration that is refused after its first key was resolved. -/
example :
    (Registry.after [.declaration personDecl, .declaration clashingPet, .entity petDecl]).models.map
        (fun m => (m.name, m.reverse)) =
      [("Person", [⟨"people_set", "Person", "boss"⟩, ⟨"pets_set", "Pet", "owner"⟩]),
        ("Pet", [])] := by
  decide +kernel

end Sample

end SqlMapper
