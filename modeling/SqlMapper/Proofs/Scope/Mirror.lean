import SqlMapper.Proofs.Fragment.Fresh
import SqlMapper.Proofs.Scope.Place

/-!
# SqlMapper.Proofs.Scope.Mirror

The levels of a place agree with the scopes of its state.

A scope holds the sources of its level in their order, and behind them models that columns refer to
without being sources. Such a model is recorded only when no source has its key, so it never hides
one (`Mirrors.findSome?`). Where the levels agree and names are told apart, a source that has the
key of its mention is understood (`Place.Sound.hygienic_iff_not_hidden`).
-/

namespace SqlMapper

open Fragment

def Seen.pair (e : Seen) : String × String := (e.key, e.name)

/-- Each scope has the sources of its level, and then models of other keys. -/
inductive Mirrors : List Level → List Scope → Prop
  | nil : Mirrors [] []
  | cons {l : Level} {ls : List Level} {s : Scope} {ss : List Scope}
      {others : List (String × String)} :
      s.sources = l.map Seen.pair ++ others →
      (∀ p ∈ others, ∀ e ∈ (l :: ls).flatten, e.key ≠ p.1) →
        Mirrors ls ss → Mirrors (l :: ls) (s :: ss)

theorem lookup_map_pair (l : Level) (key : String) :
    (l.map Seen.pair).lookup key = (l.find? (·.key == key)).map Seen.name := by
  induction l with
  | nil => rfl
  | cons e l ih =>
    rw [List.map_cons, Seen.pair, List.lookup_cons, List.find?_cons]
    by_cases h : e.key = key
    · simp [h]
    · have h' : (key == e.key) = false := by simpa using fun heq => h heq.symm
      have h'' : (e.key == key) = false := by simpa using h
      rw [h', h'']
      exact ih

theorem mem_of_known? {ls : List Level} {key : String} {e : Seen} (h : known? ls key = some e) :
    e ∈ ls.flatten ∧ e.key = key :=
  ⟨List.mem_of_find?_eq_some h, by simpa using List.find?_some h⟩

theorem Mention.key_of_means {ref : Mention} {e : Seen} (h : ref.means e = true) :
    e.key = ref.key := by
  cases ref with
  | side key => exact (beq_iff_eq.1 h).symm
  | column q =>
    unfold Seen.key Mention.key
    cases q with
    | table n =>
      cases hsource : e.source with
      | table n' =>
        rw [means, hsource] at h
        exact (beq_iff_eq.1 h).symm
      | model m =>
        rw [means, hsource] at h
        cases h
    | model m =>
      cases hsource : e.source with
      | table n =>
        rw [means, hsource] at h
        cases h
      | model m' =>
        rw [means, hsource, Qualifier.same, ModelSource.same, Bool.and_eq_true] at h
        have hname : m.model.name = m'.model.name := beq_iff_eq.1 h.1
        have hgiven : m.givenName = m'.givenName := beq_iff_eq.1 h.2
        exact (congrArg₂ Option.getD hgiven hname).symm

/-- What a reference means is known by its key, if not under the key of another source. -/
theorem exists_known?_of_meant? {ls : List Level} {ref : Mention} {e : Seen}
    (h : meant? ls ref = some e) : ∃ e', known? ls ref.key = some e' := by
  have hmem := List.mem_of_find?_eq_some h
  have hkey := Mention.key_of_means (List.find?_some h)
  refine Option.isSome_iff_exists.1 (List.find?_isSome.2 ⟨e, hmem, ?_⟩)
  simp [hkey]

namespace Mirrors

variable {l : Level} {ls : List Level} {s s' : Scope} {ss : List Scope} {key : String} {e : Seen}

/-- Only the sources of the scopes take part. -/
theorem congr (h : Mirrors ls (s :: ss)) (hs : s'.sources = s.sources) :
    Mirrors ls (s' :: ss) := by
  cases h with
  | cons hsources hothers h => exact .cons (hs.trans hsources) hothers h

/-- The look-up by key finds the innermost source. -/
theorem findSome? (h : Mirrors ls ss) (hknown : known? ls key = some e) :
    ss.findSome? (fun s => s.sources.lookup key) = some e.name := by
  induction h with
  | nil => cases hknown
  | @cons l ls s ss others hsources hothers h ih =>
    have hlookup : s.sources.lookup key =
        ((l.find? (·.key == key)).map Seen.name).or (others.lookup key) := by
      rw [hsources, List.lookup_append, lookup_map_pair]
    rw [List.findSome?_cons, hlookup]
    unfold known? at hknown
    rw [List.flatten_cons, List.find?_append] at hknown
    cases hfind : l.find? (·.key == key) with
    | some e' =>
      rw [hfind] at hknown
      cases hknown
      rfl
    | none =>
      rw [hfind, Option.none_or] at hknown
      have hknown' : known? ls key = some e := hknown
      have hother : others.lookup key = none := by
        rw [List.lookup_eq_none_iff]
        intro p hp
        obtain ⟨hmem, hkey⟩ := mem_of_known? hknown'
        have := hothers p hp e (List.mem_append_right _ hmem)
        simpa [hkey] using this
      rw [hother]
      exact ih hknown'

theorem mem_sources (h : Mirrors ls ss) (he : e ∈ ls.flatten) : ∃ s ∈ ss, e.pair ∈ s.sources := by
  induction h with
  | nil => cases he
  | @cons l ls s ss others hsources hothers h ih =>
    rcases List.mem_append.1 he with he | he
    · exact ⟨s, List.mem_cons_self .., hsources ▸ List.mem_append_left _ (List.mem_map_of_mem he)⟩
    · obtain ⟨s', hs', hmem⟩ := ih he
      exact ⟨s', List.mem_cons_of_mem _ hs', hmem⟩

end Mirrors

namespace Rendering

variable {r : Rendering} {ls : List Level}

theorem mem_taken_of_mirrors (h : Mirrors ls r.scopes) {e : Seen} (he : e ∈ ls.flatten) :
    e.name ∈ r.taken := by
  obtain ⟨s, hs, hmem⟩ := h.mem_sources he
  exact List.mem_flatMap.2 ⟨s, hs, List.mem_append_right _ (List.mem_map_of_mem hmem)⟩

theorem lookup?_of_known? (h : Mirrors ls r.scopes) {key : String} {e : Seen}
    (hknown : known? ls key = some e) : r.lookup? key = some e.name := h.findSome? hknown

theorem known?_of_lookup? (h : Mirrors ls r.scopes) {key : String} (hl : r.lookup? key = none) :
    known? ls key = none := by
  cases hknown : known? ls key with
  | none => rfl
  | some e =>
    rw [lookup?_of_known? h hknown] at hl
    cases hl

/-- A source that is known goes by its name. -/
theorem modelName_of_known? (h : Mirrors ls r.scopes) {m : ModelSource} {e : Seen}
    (hknown : known? ls m.key = some e) : (r.modelName m).1 = e.name := by
  rw [modelName, lookup?_of_known? h hknown]

theorem qualifierName_of_known? (h : Mirrors ls r.scopes) {q : Qualifier} {e : Seen}
    (hknown : known? ls q.key = some e) : (r.qualifierName q).1 = e.name := by
  cases q with
  | model m => exact modelName_of_known? h hknown
  | table name =>
    have hlookup : r.lookup? name = some e.name := lookup?_of_known? h hknown
    rw [qualifierName, hlookup]
    rfl

/-- A model that is no source is recorded behind the sources. -/
theorem mirrors_modelName (h : Mirrors ls r.scopes) (m : ModelSource) :
    Mirrors ls (r.modelName m).2.scopes := by
  unfold modelName
  cases hlookup : r.lookup? m.key with
  | some name => exact h
  | none =>
    have hnew := known?_of_lookup? h hlookup
    have hname : Mirrors ls (r.nameModel m).2.scopes := (nameModel_scopes r m).symm ▸ h
    cases hname with
    | @cons l ls s ss others hsources hothers h' =>
      have hrecorded : ((r.nameModel m).2.record m.key (r.nameModel m).1).scope.sources =
          l.map Seen.pair ++ (others ++ [(m.key, (r.nameModel m).1)]) := by
        rw [← List.append_assoc, ← hsources]
        rfl
      refine .cons hrecorded (fun p hp e he => ?_) h'
      rcases List.mem_append.1 hp with hp | hp
      · exact hothers p hp e he
      · rw [List.mem_singleton.1 hp]
        have := List.find?_eq_none.1 hnew e he
        simpa using this

theorem mirrors_qualifierName (h : Mirrors ls r.scopes) (q : Qualifier) :
    Mirrors ls (r.qualifierName q).2.scopes := by
  cases q with
  | model m => exact mirrors_modelName h m
  | table name => exact h

end Rendering

/-! ## Places -/

/-- A name that no two sources share is the name of its source. -/
theorem called?_of_mem {ls : List Level} (h : (ls.flatten.map Seen.name).Nodup) {e : Seen}
    (he : e ∈ ls.flatten) : called? ls e.name = some e := by
  unfold called?
  generalize ls.flatten = es at h he
  induction es with
  | nil => cases he
  | cons x xs ih =>
    rw [List.map_cons, List.nodup_cons] at h
    rcases List.mem_cons.1 he with rfl | he
    · exact List.find?_cons_of_pos (by simp)
    · have hne : x.name ≠ e.name := fun heq => h.1 (heq ▸ List.mem_map_of_mem he)
      rw [List.find?_cons_of_neg (by simpa using hne)]
      exact ih h.2 he

namespace Place

/-- The name that is written for a reference is that of the source that has the key. -/
theorem name_eq_of_known? {p : Place} (h : Mirrors p.levels p.state.scopes)
    {ref : Mention} {name : String} (href : (ref, name) ∈ p.mentions) {e : Seen}
    (hknown : known? p.levels ref.key = some e) : name = e.name := by
  obtain ⟨f, r, ls⟩ := p
  cases f with
  | qualifier q =>
    cases hbare : r.scope.bare with
    | true => simp [mentions, hbare] at href
    | false =>
      simp only [mentions, hbare, Bool.false_eq_true, if_false, List.mem_singleton,
        Prod.mk.injEq] at href
      obtain ⟨rfl, rfl⟩ := href
      exact Rendering.qualifierName_of_known? h hknown
  | modelTable m =>
    simp only [mentions, List.mem_singleton, Prod.mk.injEq] at href
    obtain ⟨rfl, rfl⟩ := href
    exact Rendering.modelName_of_known? h hknown
  | equated child _ parent _ =>
    have hlookup : r.lookup? ref.key = some e.name := Rendering.lookup?_of_known? h hknown
    simp only [mentions, List.mem_append, Option.mem_toList, Option.map_eq_some_iff,
      Prod.mk.injEq] at href
    rcases href with ⟨_, hchild, rfl, rfl⟩ | ⟨_, hparent, rfl, rfl⟩
    · exact Option.some.inj (hchild.symm.trans hlookup)
    · exact Option.some.inj (hparent.symm.trans hlookup)
  | _ => simp [mentions] at href

/-- The levels agree with the scopes, and names are told apart, also when the fragment is done. -/
structure Sound (p : Place) : Prop where
  mirrors : Mirrors p.levels p.state.scopes
  distinct : (p.after.flatten.map Seen.name).Nodup

namespace Sound

variable {p : Place}

theorem distinct_levels (h : p.Sound) : (p.levels.flatten.map Seen.name).Nodup := by
  have hsub : p.levels.flatten.Sublist p.after.flatten := by
    unfold after declare
    split
    · rename_i hlevels
      rw [hlevels, List.flatten_cons, List.flatten_cons]
      exact (List.sublist_append_left ..).append (List.Sublist.refl _)
    · exact List.Sublist.refl _
  exact (hsub.map Seen.name).nodup h.distinct

/-- In a sound place only a hidden source can be taken for another one. -/
theorem hygienic_iff_not_hidden (h : p.Sound) : p.Hygienic ↔ ¬ p.Hidden := by
  constructor
  · rintro hhyg ⟨ref, name, e, e', href, hmeant, hknown, hne⟩
    have hcalled := hhyg.faithful ref name href e hmeant
    rw [name_eq_of_known? h.mirrors href hknown,
      called?_of_mem h.distinct_levels (mem_of_known? hknown).1] at hcalled
    exact hne (Option.some.inj hcalled)
  · intro hno
    refine ⟨h.distinct, fun ref name href e hmeant => ?_⟩
    obtain ⟨e', hknown⟩ := exists_known?_of_meant? hmeant
    obtain rfl : e' = e :=
      Classical.byContradiction fun hne => hno ⟨ref, name, e, e', href, hmeant, hknown, hne⟩
    rw [name_eq_of_known? h.mirrors href hknown]
    exact called?_of_mem h.distinct_levels (mem_of_known? hknown).1

end Sound

end Place

end SqlMapper
