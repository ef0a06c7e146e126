import SqlMapper.Proofs.Schema.RoundTrip
import SqlMapper.Schema.Relation

/-!
# SqlMapper.Proofs.Schema.Accessors

Foreign keys of registered models, and the accessors that the models at both of their ends get
from them.

* `Registry.Sound.foreignKey?_field`, `Registry.Sound.exists_target`: a foreign key is found under
  its field, and what it refers to is registered.
* `Registry.Leads`: where an accessor leads, told from foreign keys alone.
* `Model.RegisteredIn`: a model as it was when a registry handed it out.
* `Model.RegisteredIn.hasRelation_iff`: a model has the accessors that lead somewhere.
-/

namespace SqlMapper

/-! ## Foreign keys -/

/-- Where keys are distinct an item is found under its own. -/
theorem find?_key {α : Type} {key : α → String} {xs : List α} (hxs : (xs.map key).Nodup) {x : α}
    (hx : x ∈ xs) : xs.find? (key · == key x) = some x := by
  cases hfind : xs.find? (key · == key x) with
  | none => exact absurd (List.find?_eq_none.1 hfind x hx) (by simp)
  | some y =>
    have hkey : key y = key x := by simpa using List.find?_some hfind
    rw [List.inj_on_of_nodup_map hxs (List.mem_of_find?_eq_some hfind) hx hkey]

theorem map_field_of_keyed {find? : String → Option Model} {table : String} {fs : List Field}
    {ks : List ForeignKey} (h : List.Forall₂ (Field.Keyed find? table) fs ks) :
    ks.map ForeignKey.field = fs.map Field.name := by
  induction h with
  | nil => rfl
  | cons hkeyed _ ih =>
    obtain ⟨ref, t, g, backref, -, -, -, -, rfl⟩ := hkeyed
    rw [List.map_cons, List.map_cons, ih]

theorem Model.mem_of_referred? {m : Model} {field : Option String} {f : Field}
    (h : m.referred? field = some f) : f ∈ m.fields := by
  unfold referred? keyField? at h
  split at h
  · exact List.mem_of_find?_eq_some h
  · split at h
    · exact List.mem_of_getElem? h
    · cases h

namespace Registry
namespace Sound

variable {r : Registry} {m t : Model} {k : ForeignKey}

theorem field?_name (h : r.Sound) (hm : m ∈ r.models) {f : Field} (hf : f ∈ m.fields) :
    m.field? f.name = some f :=
  find?_key (h.models m hm).fields.names hf

theorem map_field (h : r.Sound) (hm : m ∈ r.models) :
    m.foreignKeys.map ForeignKey.field = (m.fields.filter Field.isForeignKey).map Field.name :=
  map_field_of_keyed (h.keys m hm)

theorem nodup_map_field (h : r.Sound) (hm : m ∈ r.models) :
    (m.foreignKeys.map ForeignKey.field).Nodup := by
  rw [h.map_field hm]
  exact (h.models m hm).fields.names.sublist (List.filter_sublist.map _)

theorem foreignKey?_field (h : r.Sound) (hm : m ∈ r.models) (hk : k ∈ m.foreignKeys) :
    m.foreignKey? k.field = some k :=
  find?_key (h.nodup_map_field hm) hk

/-- The field that a foreign key is. -/
theorem exists_keyField (h : r.Sound) (hm : m ∈ r.models) (hk : k ∈ m.foreignKeys) :
    ∃ f ∈ m.fields, f.name = k.field := by
  have hmem : k.field ∈ m.foreignKeys.map ForeignKey.field := List.mem_map_of_mem hk
  rw [h.map_field hm] at hmem
  obtain ⟨f, hf, hname⟩ := List.mem_map.1 hmem
  exact ⟨f, List.mem_of_mem_filter hf, hname⟩

/-- What a foreign key refers to. -/
theorem exists_target (h : r.Sound) (hm : m ∈ r.models) (hk : k ∈ m.foreignKeys) :
    ∃ t, r.find? k.target = some t ∧ ∃ f ∈ t.fields, f.name = k.targetField := by
  obtain ⟨f, -, ref, t, g, backref, -, ht, hg, -, rfl⟩ := exists_of_forall₂ (h.keys m hm) k hk
  exact ⟨t, ht, g, Model.mem_of_referred? hg, rfl⟩

theorem eq_of_name (h : r.Sound) (hm : m ∈ r.models) (ht : t ∈ r.models) (hname : m.name = t.name) :
    m = t :=
  List.inj_on_of_nodup_map h.names hm ht hname

/-! ## Reverse accessors -/

/-- The accessor that a foreign key installs on the model that it refers to. -/
theorem reverse_mem (h : r.Sound) (ht : t ∈ r.models) (hm : m ∈ r.models)
    (hk : k ∈ m.foreignKeys) (htarget : k.target = t.name) {name : String}
    (hname : k.backref = some name) : ⟨name, m.name, k.field⟩ ∈ t.reverse := by
  rw [h.reverse t ht, List.mem_flatMap]
  exact ⟨m, hm, List.mem_filterMap.2
    ⟨k, hk, ForeignKey.accessorOn_eq_some.2 ⟨htarget, name, hname, rfl⟩⟩⟩

theorem exists_of_reverse_mem (h : r.Sound) (ht : t ∈ r.models) {a : ReverseRelation}
    (ha : a ∈ t.reverse) :
    ∃ m ∈ r.models, ∃ k ∈ m.foreignKeys, k.target = t.name ∧ k.backref = some a.name := by
  rw [h.reverse t ht, List.mem_flatMap] at ha
  obtain ⟨m, hm, ha⟩ := ha
  obtain ⟨k, hk, ha⟩ := List.mem_filterMap.1 ha
  obtain ⟨htarget, name, hname, rfl⟩ := ForeignKey.accessorOn_eq_some.1 ha
  exact ⟨m, hm, k, hk, htarget, hname⟩

theorem reverse?_name (h : r.Sound) (ht : t ∈ r.models) {a : ReverseRelation}
    (ha : a ∈ t.reverse) : t.reverse? a.name = some a :=
  find?_key ((h.models t ht).members.of_append_right) ha

/-- A reverse accessor has no field's name. -/
theorem name_ne_of_reverse_mem (h : r.Sound) (ht : t ∈ r.models) {a : ReverseRelation}
    (ha : a ∈ t.reverse) {f : Field} (hf : f ∈ t.fields) : f.name ≠ a.name :=
  fun hname => List.disjoint_of_nodup_append (h.models t ht).members (List.mem_map_of_mem hf)
    (hname ▸ List.mem_map_of_mem ha)

end Sound
end Registry

/-! ## Where accessors lead -/

/-- The two ends of an accessor: rows of `target` are picked by what a record has in `own`. -/
structure Lead where
  kind : RelationKind
  own : Field
  target : Model
  other : Field

/-- A foreign key leads from its model by its own name, and from the model that it refers to by the
name of its reverse accessor. -/
inductive Registry.Leads (r : Registry) (m : Model) (accessor : String) : Lead → Prop
  | forward {k : ForeignKey} {own other : Field} {target : Model} :
      k ∈ m.foreignKeys → k.field = accessor →
      own ∈ m.fields → own.name = k.field →
      r.find? k.target = some target → other ∈ target.fields → other.name = k.targetField →
        r.Leads m accessor ⟨.manyToOne, own, target, other⟩
  | reverse {k : ForeignKey} {own other : Field} {child : Model} :
      child ∈ r.models → k ∈ child.foreignKeys → k.target = m.name → k.backref = some accessor →
      own ∈ m.fields → own.name = k.targetField →
      other ∈ child.fields → other.name = k.field →
        r.Leads m accessor ⟨.oneToMany, own, child, other⟩

theorem Registry.Leads.own_mem {r : Registry} {m : Model} {accessor : String} {l : Lead}
    (h : r.Leads m accessor l) : l.own ∈ m.fields := by
  cases h <;> assumption

theorem Registry.Leads.other_mem {r : Registry} {m : Model} {accessor : String} {l : Lead}
    (h : r.Leads m accessor l) : l.other ∈ l.target.fields := by
  cases h <;> assumption

theorem Registry.Leads.target_mem {r : Registry} {m : Model} {accessor : String} {l : Lead}
    (h : r.Leads m accessor l) : l.target ∈ r.models := by
  cases h with
  | forward _ _ _ _ htarget => exact mem_of_find? htarget
  | reverse hchild => exact hchild

/-! ## Models that were handed out -/

/-- The registry has handed out the model, and may have registered others since. -/
def Model.RegisteredIn (m : Model) (r : Registry) : Prop :=
  ∃ earlier later, m ∈ (Registry.after earlier).models ∧ r = Registry.after (earlier ++ later)

namespace Registry

variable {r : Registry} {m : Model}

theorem find?_run {n : String} (h : r.find? n = some m) (call : Registration) :
    ∃ as, (call.run r).2.find? n = some (m.addAccessors as) := by
  have henroll (d : ModelDecl) : ∃ as, (r.enroll d).2.find? n = some (m.addAccessors as) := by
    rcases enroll_cases r d with ⟨e, hrun⟩ | ⟨t, ht, -, hrun⟩
    · rw [hrun]
      exact ⟨[], by rw [h, Model.addAccessors_nil]⟩
    · rw [hrun]
      exact ⟨_, find?_gaining h⟩
  cases call with
  | declaration d => exact henroll d
  | entity d =>
    have hd := henroll d
    unfold Registration.run enrollEntity
    dsimp only
    split
    · exact ⟨[], by rw [h, Model.addAccessors_nil]⟩
    · split
      · rename_i hrun
        rw [hrun] at hd
        exact hd
      · rename_i hrun
        rw [hrun] at hd
        exact hd

theorem find?_foldl_run {n : String} (h : r.find? n = some m) (calls : List Registration) :
    ∃ as, (calls.foldl (fun r call => (call.run r).2) r).find? n = some (m.addAccessors as) := by
  induction calls generalizing r m with
  | nil => exact ⟨[], by rw [Model.addAccessors_nil]; exact h⟩
  | cons call calls ih =>
    obtain ⟨as, has⟩ := find?_run h call
    obtain ⟨bs, hbs⟩ := ih has
    exact ⟨as ++ bs, by rw [← Model.addAccessors_append]; exact hbs⟩

end Registry

namespace Model.RegisteredIn

open Registry

variable {m : Model} {r : Registry} {k : ForeignKey} {accessor : String} {l : Lead}

theorem sound (h : m.RegisteredIn r) : r.Sound := by
  obtain ⟨earlier, later, -, rfl⟩ := h
  exact sound_after _

/-- Models that are registered later add accessors to those that were there, and change nothing
else of them. -/
theorem find? (h : m.RegisteredIn r) : ∃ as, r.find? m.name = some (m.addAccessors as) := by
  obtain ⟨earlier, later, hm, rfl⟩ := h
  have hfind := (sound_after earlier).find?_name hm
  unfold after
  rw [List.foldl_append]
  exact find?_foldl_run hfind later

theorem exists_current (h : m.RegisteredIn r) :
    ∃ u ∈ r.models, r.find? m.name = some u ∧ u.name = m.name ∧ u.fields = m.fields ∧
      u.foreignKeys = m.foreignKeys := by
  obtain ⟨as, has⟩ := h.find?
  exact ⟨_, mem_of_find? has, has, rfl, rfl, rfl⟩

theorem field?_name (h : m.RegisteredIn r) {f : Field} (hf : f ∈ m.fields) :
    m.field? f.name = some f := by
  obtain ⟨u, hmem, -, -, hfields, -⟩ := h.exists_current
  exact find?_key (hfields ▸ (h.sound.models u hmem).fields.names) hf

/-- The accessors of a model are the names that lead to other rows. -/
theorem hasRelation_iff (h : m.RegisteredIn r) {u : Model} (hu : r.find? m.name = some u) :
    u.hasRelation accessor = true ↔ ∃ l, r.Leads m accessor l := by
  obtain ⟨u', hmem, hu', hname, hfields, hkeys⟩ := h.exists_current
  cases hu.symm.trans hu'
  have hs := h.sound
  unfold Model.hasRelation
  rw [Bool.or_eq_true]
  constructor
  · rintro (hkey | hreverse)
    · obtain ⟨k, hk⟩ := Option.isSome_iff_exists.1 hkey
      have hfield : k.field = accessor := by simpa using List.find?_some hk
      have hk : k ∈ u.foreignKeys := List.mem_of_find?_eq_some hk
      obtain ⟨own, hown, hownName⟩ := hs.exists_keyField hmem hk
      obtain ⟨target, htarget, other, hother, hotherName⟩ := hs.exists_target hmem hk
      exact ⟨_, .forward (hkeys ▸ hk) hfield (hfields ▸ hown) hownName htarget hother hotherName⟩
    · obtain ⟨a, ha⟩ := Option.isSome_iff_exists.1 hreverse
      obtain rfl : a.name = accessor := by simpa using List.find?_some ha
      obtain ⟨child, hchild, k, hk, htarget, hbackref⟩ :=
        hs.exists_of_reverse_mem hmem (List.mem_of_find?_eq_some ha)
      obtain ⟨other, hother, hotherName⟩ := hs.exists_keyField hchild hk
      obtain ⟨t, ht, own, hown, hownName⟩ := hs.exists_target hchild hk
      rw [htarget, hname, hu] at ht
      cases ht
      exact ⟨_, .reverse hchild hk (htarget.trans hname) hbackref (hfields ▸ hown) hownName hother
        hotherName⟩
  · rintro ⟨l, hl⟩
    cases hl with
    | forward hk hfield =>
      have hfind := hs.foreignKey?_field hmem (hkeys ▸ hk)
      rw [← hfield, hfind]
      exact .inl rfl
    | reverse hchild hk htarget hbackref =>
      have ha := hs.reverse_mem hmem hchild hk (htarget.trans hname.symm) hbackref
      have hfind := hs.reverse?_name hmem ha
      rw [hfind]
      exact .inr rfl

/-- A foreign key is read from the field that has its name, a reverse accessor never is. -/
theorem own_name_iff (h : m.RegisteredIn r) (hl : r.Leads m accessor l) :
    l.own.name = accessor ↔ l.kind = .manyToOne := by
  cases hl with
  | forward hk hfield hown hownName => exact iff_of_true (hownName.trans hfield) rfl
  | reverse hchild hk htarget hbackref hown =>
    obtain ⟨u, hmem, -, hname, hfields, -⟩ := h.exists_current
    have ha := h.sound.reverse_mem hmem hchild hk (htarget.trans hname.symm) hbackref
    have hne := h.sound.name_ne_of_reverse_mem hmem ha (hfields ▸ hown)
    exact iff_of_false hne nofun

end Model.RegisteredIn

namespace Sample

/-- Two models of which one refers to the other, and that one to itself. -/
def depot : Registry := .after [.declaration personDecl, .declaration parcelDecl]

def recipientId : Field := ⟨0, "id", "Person", .autoId⟩

def recipient : Model where
  name := "Person"
  table := "people"
  fields := [recipientId,
    ⟨1, "boss_id", "Person", .referring "Person" none { name := "boss", type := .bigInt }⟩]
  primaryKey := .single 0
  foreignKeys := [⟨"boss", "boss_id", "Person", "people", "id", "id", some "people_set"⟩]
  indexes := []
  reverse := [⟨"people_set", "Person", "boss"⟩, ⟨"parcels_set", "Parcel", "owner"⟩]

theorem recipient_mem : recipient ∈ depot.models :=
  List.mem_of_getElem? (i := 0) (by with_unfolding_all rfl)

theorem parcel_mem : parcel ∈ depot.models :=
  List.mem_of_getElem? (i := 1) (by with_unfolding_all rfl)

theorem recipient_registered : recipient.RegisteredIn depot := ⟨_, [], recipient_mem, rfl⟩

theorem recipient_found : depot.find? "Person" = some recipient :=
  recipient_registered.sound.find?_name recipient_mem

/-- From a person to its parcels. -/
def parcelsLead : Lead := ⟨.oneToMany, recipientId, parcel, ⟨1, "owner_id", "Parcel", ownerDecl⟩⟩

theorem recipient_leads : depot.Leads recipient "parcels_set" parcelsLead :=
  .reverse parcel_mem (List.mem_singleton_self _) rfl rfl (List.mem_cons_self ..) rfl
    (List.mem_cons_of_mem _ (List.mem_cons_self ..)) rfl

end Sample

end SqlMapper
