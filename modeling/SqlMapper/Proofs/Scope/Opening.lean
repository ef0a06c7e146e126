import SqlMapper.Proofs.Scope.Mirror
import SqlMapper.Proofs.Statement.Written

/-!
# SqlMapper.Proofs.Scope.Opening

The sources of one level become visible, one after another.

* `Opening`: what holds of a level of which some sources are still to come.
* `Opening.step`: one more source becomes visible. Unless there is a clash, its name is new: an
  alias is reserved at its level, and a name that is found is none that is taken.
* `Opening.all`: what holds of the level in the end.
-/

namespace SqlMapper

open Fragment Rendering

/-! ## Places of a run -/

namespace Fragment

theorem placesAll_append {target : Option ModelSource} {fs : List Fragment} (gs : List Fragment)
    {r m : Rendering} (h : Runs fs r m) (ls : List Level) :
    placesAll target (fs ++ gs) r ls =
      placesAll target fs r ls ++ placesAll target gs m (declareAll fs r ls) := by
  induction fs generalizing r ls with
  | nil => rw [runs_nil.1 h]; rfl
  | cons f fs ih =>
    obtain ⟨n, hf, hfs⟩ := runs_cons.1 h
    rw [List.cons_append, placesAll, placesAll, declareAll, hf, ih hfs, List.append_assoc]

theorem placesAll_singleton (target : Option ModelSource) (f : Fragment) (r : Rendering)
    (ls : List Level) :
    placesAll target [f] r ls = places target f r ls := by
  rw [placesAll, placesAll, List.append_nil]

theorem declareAll_of_forall {fs : List Fragment} (h : ∀ f ∈ fs, ∀ o, f ≠ enlist o) (r : Rendering)
    (ls : List Level) : declareAll fs r ls = ls := by
  induction fs generalizing r with
  | nil => rfl
  | cons f fs ih =>
    have hf : f.declare r ls = ls := by
      cases f with
      | enlist o => exact absurd rfl (h _ (List.mem_cons_self ..) o)
      | _ => rfl
    rw [declareAll, hf]
    exact ih (fun g hg => h g (List.mem_cons_of_mem _ hg)) _

end Fragment

/-! ## Given names -/

/-- The names that a statement gives to its sources. -/
def Atom.givenName? : Atom → Option String
  | source o => o.givenName?
  | _ => none

def givenNames (as : List Atom) : List String := as.filterMap Atom.givenName?

theorem givenNames_append (as bs : List Atom) :
    givenNames (as ++ bs) = givenNames as ++ givenNames bs := List.filterMap_append

theorem givenNames_sources (os : List Origin) :
    givenNames (os.map Atom.source) = os.filterMap Origin.givenName? := by
  rw [givenNames, List.filterMap_map]
  rfl

/-! ## A level that is being filled -/

/-- The sources `os` are still to become visible at the innermost level. -/
structure Opening (os : List Origin) (r : Rendering) (l : Level) (ls : List Level) : Prop where
  sources : r.scope.sources = l.map Seen.pair
  mirrors : Mirrors ls r.enclosing
  distinct : ((l :: ls).flatten.map Seen.name).Nodup
  nodup : (os.filterMap Origin.givenName?).Nodup
  given : ∀ e ∈ (l :: ls).flatten, e.chosen = false → e.name ∉ os.filterMap Origin.givenName?
  /-- In a select, no name has been found that an alias of its sources will claim. -/
  reserved : r.scope.byTable = true ∨
    (∀ o ∈ os, ∀ a ∈ o.explicitAlias?, a ∈ r.scope.reserved) ∧
      ∀ e ∈ l, e.chosen = true → e.name ∉ r.scope.reserved

namespace Opening

variable {target : Option ModelSource} {o : Origin} {os : List Origin} {r : Rendering} {l : Level}
  {ls : List Level}

theorem mirrors_all (h : Opening os r l ls) : Mirrors (l :: ls) r.scopes :=
  .cons (h.sources.trans (List.append_nil _).symm) (by simp) h.mirrors

/-- Where an alias becomes visible, its name is new. -/
theorem alias_new (h : Opening (o :: os) r l ls) {a : String} (ha : o.explicitAlias? = some a)
    (hgiven : o.givenName? = some a) (hname : r.nameOf o = a)
    (hclash : ¬ Place.Clash ⟨.enlist o, r, l :: ls⟩) {e : Seen} (he : e ∈ (l :: ls).flatten) :
    e.name ≠ r.nameOf o := by
  intro heq
  cases hchosen : e.chosen with
  | false =>
    refine h.given e he hchosen ?_
    rw [heq, hname, List.filterMap_cons_some hgiven]
    exact List.mem_cons_self ..
  | true =>
    rcases h.reserved with hbyTable | ⟨hclaimed, hfound⟩
    · exact hclash (.byTable hbyTable (.inl hchosen) he heq)
    · rcases List.mem_append.1 he with hl | hls
      · refine hfound e hl hchosen ?_
        rw [heq, hname]
        exact hclaimed o (List.mem_cons_self ..) a ha
      · exact hclash (.inner (by simp [ha]) hls hchosen heq)

theorem name_new (h : Opening (o :: os) r l ls)
    (hclash : ¬ Place.Clash ⟨.enlist o, r, l :: ls⟩) {e : Seen} (he : e ∈ (l :: ls).flatten) :
    e.name ≠ r.nameOf o := by
  intro heq
  cases o with
  | derived n => exact h.alias_new rfl rfl rfl hclash he heq
  | table n =>
    cases hchosen : e.chosen with
    | false =>
      refine h.given e he hchosen ?_
      rw [heq]
      exact List.mem_cons_self ..
    | true => exact hclash (.table he hchosen heq)
  | model m =>
    cases hlookup : r.scope.sources.lookup m.key with
    | some n => exact hclash (.repeated (by simp [hlookup]) he heq)
    | none =>
      have hname : r.nameOf (.model m) = (r.nameModel m).1 := by simp [nameOf, hlookup]
      cases hgiven : m.givenName with
      | some a =>
        rw [nameModel_given hgiven] at hname
        exact h.alias_new hgiven hgiven hname hclash he heq
      | none =>
        cases hbyTable : r.scope.byTable with
        | true => exact hclash (.byTable hbyTable (.inr hgiven) he heq)
        | false =>
          rw [nameModel_fresh hgiven hbyTable] at hname
          refine freshName_not_mem_taken r ?_
          rw [← hname, ← heq]
          exact mem_taken_of_mirrors h.mirrors_all he

theorem distinct_after (h : Opening (o :: os) r l ls)
    (hclash : ¬ Place.Clash ⟨.enlist o, r, l :: ls⟩) :
    (((l ++ [r.seen o]) :: ls).flatten.map Seen.name).Nodup := by
  have hperm : ((l ++ [r.seen o]) :: ls).flatten.Perm (r.seen o :: (l :: ls).flatten) := by
    rw [List.flatten_cons, List.flatten_cons, List.append_assoc]
    exact List.perm_middle
  rw [(hperm.map Seen.name).nodup_iff, List.map_cons, List.nodup_cons]
  refine ⟨fun hmem => ?_, h.distinct⟩
  obtain ⟨e, he, heq⟩ := List.mem_map.1 hmem
  exact h.name_new hclash he heq

/-- No model of the key is known at this level. -/
theorem lookup_eq_none {m : ModelSource} (h : Opening (.model m :: os) r l ls)
    (hclash : ¬ Place.Clash ⟨.enlist (.model m), r, l :: ls⟩) :
    r.scope.sources.lookup m.key = none := by
  cases hlookup : r.scope.sources.lookup m.key with
  | none => rfl
  | some n =>
    have hmem := mem_of_lookup hlookup
    rw [h.sources] at hmem
    obtain ⟨e, he, heq⟩ := List.mem_map.1 hmem
    have hname : r.nameOf (.model m) = n := by simp [nameOf, hlookup]
    exact absurd (hname ▸ congrArg Prod.snd heq)
      (h.name_new hclash (List.mem_append_left _ he))

/-- A source goes by the name that it was given. -/
theorem nameOf_given (h : Opening (o :: os) r l ls)
    (hclash : ¬ Place.Clash ⟨.enlist o, r, l :: ls⟩) {a : String} (ha : o.givenName? = some a) :
    r.nameOf o = a := by
  cases o with
  | model m => simp [nameOf, h.lookup_eq_none hclash, nameModel_given ha]
  | table n => exact Option.some.inj ha
  | derived n => exact Option.some.inj ha

/-- The source is recorded under the name that it has in the text. -/
theorem sources_enlist (h : Opening (o :: os) r l ls)
    (hclash : ¬ Place.Clash ⟨.enlist o, r, l :: ls⟩) :
    (r.enlist o).scope.sources = (l ++ [r.seen o]).map Seen.pair := by
  have hrecorded : (r.enlist o).scope.sources = r.scope.sources ++ [(o.key, r.nameOf o)] := by
    cases o with
    | table n => rfl
    | derived n => rfl
    | model m =>
      have hscope : (r.nameModel m).2.scope = r.scope := (List.cons.inj (nameModel_scopes r m)).1
      have hname : r.nameOf (.model m) = (r.nameModel m).1 := by
        simp [nameOf, h.lookup_eq_none hclash]
      rw [hname, ← hscope]
      rfl
  have hpair : (r.seen o).pair = (o.key, r.nameOf o) := by cases o <;> rfl
  rw [hrecorded, h.sources, List.map_append, List.map_singleton, hpair]

/-- A name that is found in a select is none that is reserved there. -/
theorem found_not_reserved (h : Opening (o :: os) r l ls)
    (hclash : ¬ Place.Clash ⟨.enlist o, r, l :: ls⟩) (hchosen : o.givenName? = none)
    (hbyTable : r.scope.byTable = false) : r.nameOf o ∉ r.scope.reserved := by
  cases o with
  | table n => cases hchosen
  | derived n => cases hchosen
  | model m =>
    have hname : r.nameOf (.model m) = r.freshName.1 := by
      simp [nameOf, h.lookup_eq_none hclash, nameModel_fresh hchosen hbyTable]
    intro hmem
    refine freshName_not_mem_taken r ?_
    rw [← hname]
    exact List.mem_flatMap.2 ⟨r.scope, List.mem_cons_self .., List.mem_append_left _ hmem⟩

theorem mem_after {x e : Seen} (he : e ∈ ((l ++ [x]) :: ls).flatten) :
    e ∈ (l :: ls).flatten ∨ e = x := by
  rw [List.flatten_cons, List.mem_append, List.mem_append, List.mem_singleton] at he
  rw [List.flatten_cons, List.mem_append]
  rcases he with (he | he) | he
  · exact .inl (.inl he)
  · exact .inr he
  · exact .inl (.inr he)

theorem step (h : Opening (o :: os) r l ls) (hclash : ¬ Place.Clash ⟨.enlist o, r, l :: ls⟩) :
    Opening os (r.enlist o) (l ++ [r.seen o]) ls where
  sources := h.sources_enlist hclash
  mirrors := (extends_enlist r o).enclosing ▸ h.mirrors
  distinct := h.distinct_after hclash
  nodup := by
    have hnodup := h.nodup
    rw [List.filterMap_cons] at hnodup
    split at hnodup
    · exact hnodup
    · exact (List.nodup_cons.1 hnodup).2
  given := by
    intro e he hchosen hmem
    rcases mem_after he with he | rfl
    · exact h.given e he hchosen ((List.sublist_cons_self o os).filterMap _ |>.subset hmem)
    -- The new source has the name that it was given, and no later one is given the same.
    · obtain ⟨a, ha⟩ := Option.isSome_iff_exists.1 (Option.isNone_eq_false_iff.1 hchosen)
      have hname : (r.seen o).name = a := h.nameOf_given hclash ha
      have hnodup := h.nodup
      rw [List.filterMap_cons_some ha, List.nodup_cons] at hnodup
      exact hnodup.1 (hname ▸ hmem)
  reserved := by
    have hext := extends_enlist r o
    rw [hext.byTable, hext.reserved]
    cases hbyTable : r.scope.byTable with
    | true => exact .inl rfl
    | false =>
      obtain ⟨hclaimed, hfound⟩ := h.reserved.resolve_left (by simp [hbyTable])
      refine .inr ⟨fun o' ho' => hclaimed o' (List.mem_cons_of_mem _ ho'), fun e he hchosen => ?_⟩
      rcases List.mem_append.1 he with he | he
      · exact hfound e he hchosen
      · rw [List.mem_singleton.1 he] at hchosen ⊢
        exact h.found_not_reserved hclash (Option.isNone_iff_eq_none.1 hchosen) hbyTable

/-- All sources of a level become visible, each under a new name. -/
theorem all (h : Opening os r l ls)
    (hclash : ∀ p ∈ placesAll target (os.map enlist) r (l :: ls), ¬ p.Clash) :
    (∀ p ∈ placesAll target (os.map enlist) r (l :: ls), p.Sound) ∧
      ∃ l', declareAll (os.map enlist) r (l :: ls) = l' :: ls ∧ Opening [] (r.enlistAll os) l' ls ∧
        ∀ e ∈ l', e.chosen = false → e ∈ l ∨ e.name ∈ os.filterMap Origin.givenName? := by
  induction os generalizing r l with
  | nil => exact ⟨by simp [placesAll], l, rfl, h, fun e he _ => .inl he⟩
  | cons o os ih =>
    have hplaces : placesAll target ((o :: os).map enlist) r (l :: ls) =
        ⟨.enlist o, r, l :: ls⟩ ::
          placesAll target (os.map enlist) (r.enlist o) ((l ++ [r.seen o]) :: ls) := rfl
    rw [hplaces] at hclash ⊢
    have hfirst := hclash _ (List.mem_cons_self ..)
    obtain ⟨hrest, l', hdeclared, hopen, hgiven⟩ :=
      ih (h.step hfirst) fun p hp => hclash p (List.mem_cons_of_mem _ hp)
    refine ⟨fun p hp => ?_, l', hdeclared, hopen, fun e he hchosen => ?_⟩
    · rcases List.mem_cons.1 hp with rfl | hp
      · exact ⟨h.mirrors_all, h.distinct_after hfirst⟩
      · exact hrest p hp
    · rcases hgiven e he hchosen with hmem | hmem
      · rcases List.mem_append.1 hmem with hmem | hmem
        · exact .inl hmem
        · rw [List.mem_singleton.1 hmem] at hchosen ⊢
          obtain ⟨a, ha⟩ := Option.isSome_iff_exists.1 (Option.isNone_eq_false_iff.1 hchosen)
          refine .inr (List.mem_filterMap.2 ⟨o, List.mem_cons_self .., ?_⟩)
          rw [ha]
          exact congrArg some (h.nameOf_given hfirst ha).symm
      · exact .inr ((List.sublist_cons_self o os).filterMap _ |>.subset hmem)

end Opening

end SqlMapper
