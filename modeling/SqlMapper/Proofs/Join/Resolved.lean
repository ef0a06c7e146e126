import SqlMapper.Proofs.Join.Built
import SqlMapper.Proofs.Schema.Accessors

/-!
# SqlMapper.Proofs.Join.Resolved

Which foreign key a join without a condition is made by.

* `ForeignKey.Links`: the foreign keys between two models, in either direction.
* `Relation.between_eq_ok_iff`: two models are related where there is exactly one.
* `Relation.resolved_coherent`: the end that a join starts at decides nothing but its direction, and
  naming the key changes nothing.
-/

namespace SqlMapper

/-! ## Foreign keys between two models -/

/-- `child` is one of the two models and refers to the other by the key. -/
def ForeignKey.Links (k : ForeignKey) (child a b : Model) : Prop :=
  k ∈ child.foreignKeys ∧ (child = a ∧ k.target = b.name ∨ child = b ∧ k.target = a.name)

/-- There is no other foreign key between the models. -/
structure ForeignKey.Sole (k : ForeignKey) (child a b : Model) : Prop where
  links : k.Links child a b
  only : ∀ k' child', ForeignKey.Links k' child' a b → k' = k ∧ child' = child

namespace ForeignKey

variable {k : ForeignKey} {child a b : Model}

theorem links_comm : k.Links child a b ↔ k.Links child b a :=
  and_congr_right fun _ => or_comm

theorem Sole.symm (h : k.Sole child a b) : k.Sole child b a :=
  ⟨links_comm.1 h.links, fun k' child' hk => h.only k' child' (links_comm.1 hk)⟩

end ForeignKey

def RelationKind.opposite : RelationKind → RelationKind
  | manyToOne => oneToMany
  | oneToMany => manyToOne

/-! ## Relations -/

namespace Relation

/-- The relation that a foreign key of `child` is to a join that starts at `start`. -/
def ofKey (start child : Model) (k : ForeignKey) : Relation :=
  ⟨if child.name = start.name then .manyToOne else .oneToMany, k, child.name, k.target⟩

variable {r : Registry} {a b child : Model} {k : ForeignKey} {rel : Relation}

theorem ofKey_self (hk : k.target = b.name) : ofKey a a k = forward a b k := by
  rw [ofKey, if_pos rfl, hk, forward]

theorem ofKey_other (hne : b.name ≠ a.name) (hk : k.target = a.name) :
    ofKey a b k = backward a b k := by
  rw [ofKey, if_neg hne, hk, backward]

theorem mem_candidates_iff (hs : r.Sound) (ha : a ∈ r.models) (hb : b ∈ r.models) :
    rel ∈ candidates a b ↔ ∃ k child, k.Links child a b ∧ rel = ofKey a child k := by
  unfold candidates
  rw [List.mem_append, List.mem_map]
  constructor
  · rintro (⟨k, hk, rfl⟩ | hrel)
    · obtain ⟨hk, htarget⟩ := mem_foreignKeysTo.1 hk
      exact ⟨k, a, ⟨hk, .inl ⟨rfl, htarget⟩⟩, (ofKey_self htarget).symm⟩
    · split at hrel
      · cases hrel
      · rename_i hname
        obtain ⟨k, hk, rfl⟩ := List.mem_map.1 hrel
        obtain ⟨hk, htarget⟩ := mem_foreignKeysTo.1 hk
        exact ⟨k, b, ⟨hk, .inr ⟨rfl, htarget⟩⟩, (ofKey_other (Ne.symm hname) htarget).symm⟩
  · rintro ⟨k, child, ⟨hk, ⟨rfl, htarget⟩ | ⟨rfl, htarget⟩⟩, rfl⟩
    · exact .inl ⟨k, mem_foreignKeysTo.2 ⟨hk, htarget⟩, (ofKey_self htarget).symm⟩
    · by_cases hname : a.name = child.name
      · -- a key of a model to itself is found where the join starts
        cases hs.eq_of_name ha hb hname
        exact .inl ⟨k, mem_foreignKeysTo.2 ⟨hk, htarget⟩, (ofKey_self htarget).symm⟩
      · rw [if_neg hname]
        exact .inr (List.mem_map.2 ⟨k, mem_foreignKeysTo.2 ⟨hk, htarget⟩,
          (ofKey_other (Ne.symm hname) htarget).symm⟩)

theorem nodup_candidates (hs : r.Sound) (ha : a ∈ r.models) (hb : b ∈ r.models) :
    (candidates a b).Nodup := by
  have hkeys {m : Model} (hm : m ∈ r.models) (name : String) : (m.foreignKeysTo name).Nodup :=
    ((hs.nodup_map_field hm).of_map _).filter _
  have hforward : Function.Injective (forward a b) := fun _ _ h => congrArg Relation.foreignKey h
  have hbackward : Function.Injective (backward a b) := fun _ _ h => congrArg Relation.foreignKey h
  unfold candidates
  split
  · rw [List.append_nil]
    exact (hkeys ha _).map hforward
  · refine ((hkeys ha _).map hforward).append ((hkeys hb _).map hbackward) fun rel hrel hrel' => ?_
    obtain ⟨k, -, rfl⟩ := List.mem_map.1 hrel
    obtain ⟨k', -, hk'⟩ := List.mem_map.1 hrel'
    cases congrArg Relation.kind hk'

theorem between_eq_ok : between a b = .ok rel ↔ candidates a b = [rel] := by
  unfold between
  constructor
  · intro h
    split at h
    · cases h
    · rename_i hcandidates
      cases h
      exact hcandidates
    · cases h
  · intro h
    rw [h]

/-- Different keys of two models are different relations. -/
theorem eq_of_ofKey (hs : r.Sound) (ha : a ∈ r.models) (hb : b ∈ r.models) {k' : ForeignKey}
    {child' : Model} (hk : k.Links child a b) (hk' : k'.Links child' a b)
    (h : ofKey a child k = ofKey a child' k') : k = k' ∧ child = child' := by
  have hmem {k : ForeignKey} {child : Model} (hk : k.Links child a b) : child ∈ r.models := by
    rcases hk.2 with ⟨rfl, -⟩ | ⟨rfl, -⟩
    · exact ha
    · exact hb
  exact ⟨congrArg Relation.foreignKey h,
    hs.eq_of_name (hmem hk) (hmem hk') (congrArg Relation.child h)⟩

/-- Two models are related where there is exactly one foreign key between them. -/
theorem between_eq_ok_iff (hs : r.Sound) (ha : a ∈ r.models) (hb : b ∈ r.models) :
    between a b = .ok rel ↔ ∃ k child, k.Sole child a b ∧ rel = ofKey a child k := by
  rw [between_eq_ok]
  constructor
  · intro h
    obtain ⟨k, child, hk, rfl⟩ := (mem_candidates_iff hs ha hb).1 (h ▸ List.mem_singleton_self rel)
    refine ⟨k, child, ⟨hk, fun k' child' hk' => ?_⟩, rfl⟩
    have hmem := (mem_candidates_iff hs ha hb).2 ⟨k', child', hk', rfl⟩
    rw [h] at hmem
    exact eq_of_ofKey hs ha hb hk' hk (List.mem_singleton.1 hmem)
  · rintro ⟨k, child, hk, rfl⟩
    have hmem := (mem_candidates_iff hs ha hb).2 ⟨k, child, hk.links, rfl⟩
    refine List.perm_singleton.1 ((List.perm_ext_iff_of_nodup (nodup_candidates hs ha hb)
      (List.nodup_singleton _)).2 fun rel' => ?_)
    rw [List.mem_singleton]
    constructor
    · intro hrel'
      obtain ⟨k', child', hk', rfl⟩ := (mem_candidates_iff hs ha hb).1 hrel'
      obtain ⟨rfl, rfl⟩ := hk.only k' child' hk'
      rfl
    · rintro rfl
      exact hmem

/-- From the other end the same key is seen the other way round. -/
theorem ofKey_opposite (hne : a.name ≠ b.name) (hk : k.Links child a b) :
    ofKey b child k = { ofKey a child k with kind := (ofKey a child k).kind.opposite } := by
  unfold ofKey
  rcases hk.2 with ⟨rfl, -⟩ | ⟨rfl, -⟩
  · rw [if_neg hne, if_pos rfl]
    rfl
  · rw [if_pos rfl, if_neg (Ne.symm hne)]
    rfl

/-! ## By the name of a key -/

theorem keyTo?_field (hs : r.Sound) (ha : a ∈ r.models) (hk : k ∈ a.foreignKeys)
    (htarget : k.target = b.name) : keyTo? a b k.field = some k := by
  rw [keyTo?, hs.foreignKey?_field ha hk, Option.filter_some_eq_some]
  exact beq_iff_eq.2 htarget

/-- The only key between two models is found by its name: another key of that name at the other end
leads elsewhere. -/
theorem through_field (hs : r.Sound) (ha : a ∈ r.models) (hb : b ∈ r.models)
    (hk : k.Sole child a b) : through a b k.field = .ok (ofKey a child k) := by
  obtain ⟨hmem, ⟨rfl, htarget⟩ | ⟨rfl, htarget⟩⟩ := hk.links
  · rw [through, keyTo?_field hs ha hmem htarget, ofKey_self htarget]
  · cases hfirst : keyTo? a child k.field with
    | some k' =>
      obtain ⟨hk', htarget'⟩ := of_keyTo? hfirst
      obtain ⟨rfl, rfl⟩ := hk.only k' a ⟨hk', .inl ⟨rfl, htarget'⟩⟩
      rw [through, hfirst, ofKey_self htarget']
    | none =>
      have hname : child.name ≠ a.name := by
        intro hname
        cases hs.eq_of_name hb ha hname
        rw [keyTo?_field hs ha hmem htarget] at hfirst
        cases hfirst
      rw [through, hfirst, keyTo?_field hs hb hmem htarget, ofKey_other hname htarget]

/-- A join between two registered models is resolved exactly where there is one foreign key between
them, by that key; from the other end it is resolved to the same key in the opposite direction, and
by the name of the key to the same relation. -/
theorem resolved_coherent {calls : List Registration} (ha : a ∈ (Registry.after calls).models)
    (hb : b ∈ (Registry.after calls).models) :
    ((∃ rel, between a b = .ok rel) ↔ ∃! p : ForeignKey × Model, p.1.Links p.2 a b) ∧
    ∀ rel, between a b = .ok rel →
      (∃ child, rel.foreignKey.Sole child a b ∧ rel.child = child.name ∧
        rel.parent = rel.foreignKey.target) ∧
      (a ≠ b → between b a = .ok { rel with kind := rel.kind.opposite }) ∧
      through a b rel.foreignKey.field = .ok rel := by
  have hs := Registry.sound_after calls
  refine ⟨⟨?_, ?_⟩, fun rel hrel => ?_⟩
  · rintro ⟨rel, hrel⟩
    obtain ⟨k, child, hk, -⟩ := (between_eq_ok_iff hs ha hb).1 hrel
    refine ⟨(k, child), hk.links, fun p hp => ?_⟩
    obtain ⟨hkey, hchild⟩ := hk.only p.1 p.2 hp
    exact Prod.ext hkey hchild
  · rintro ⟨⟨k, child⟩, hk, honly⟩
    refine ⟨_, (between_eq_ok_iff hs ha hb).2 ⟨k, child, ⟨hk, fun k' child' hk' => ?_⟩, rfl⟩⟩
    exact Prod.mk.inj (honly (k', child') hk')
  · obtain ⟨k, child, hk, rfl⟩ := (between_eq_ok_iff hs ha hb).1 hrel
    refine ⟨⟨child, hk, rfl, rfl⟩, fun hne => ?_, through_field hs ha hb hk⟩
    have hname : a.name ≠ b.name := fun hname => hne (hs.eq_of_name ha hb hname)
    exact (between_eq_ok_iff hs hb ha).2 ⟨k, child, hk.symm, (ofKey_opposite hname hk.links).symm⟩

end Relation

namespace Sample

def parcelOwner : ForeignKey :=
  ⟨"owner", "owner_id", "Person", "people", "id", "id", some "parcels_set"⟩

/-- Persons and parcels are related by the owner of a parcel, although persons refer to persons. -/
theorem recipient_coherent :
    recipient ∈ depot.models ∧ parcel ∈ depot.models ∧
      (∃! p : ForeignKey × Model, p.1.Links p.2 recipient parcel) ∧
      Relation.between recipient parcel = .ok ⟨.oneToMany, parcelOwner, "Parcel", "Person"⟩ ∧
      Relation.between parcel recipient = .ok ⟨.manyToOne, parcelOwner, "Parcel", "Person"⟩ ∧
      Relation.through recipient parcel "owner" =
        .ok ⟨.oneToMany, parcelOwner, "Parcel", "Person"⟩ := by
  have hrelated : Relation.between recipient parcel =
      .ok ⟨.oneToMany, parcelOwner, "Parcel", "Person"⟩ := by rfl
  obtain ⟨hiff, hcoherent⟩ := Relation.resolved_coherent recipient_mem parcel_mem
  obtain ⟨-, hback, hthrough⟩ := hcoherent _ hrelated
  have hne : recipient ≠ parcel := fun h => absurd (congrArg Model.name h) (by decide)
  exact ⟨recipient_mem, parcel_mem, hiff.1 ⟨_, hrelated⟩, hrelated, hback hne, hthrough⟩

end Sample

end SqlMapper
