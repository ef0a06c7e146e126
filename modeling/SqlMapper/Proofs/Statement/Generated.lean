import Mathlib.Order.Bounds.Basic
import SqlMapper.Proofs.Fragment.Fresh
import SqlMapper.Statement

/-!
# SqlMapper.Proofs.Statement.Generated

The names that are generated for the sources of a statement.

* `Rendering.Free`: a number whose name no scope has or claims.
* `Rendering.Seeks`: counting up from a number until a free one is found. From every number the
  search comes to an end, at the least free number after it (`seeks_iff`), and `freshNumber` is
  where it ends from the counter.
* `Fragment.stepsAll`: the single steps of a run, each with the state in which it is taken.
* `Fragment.generatedAll`: the names that these steps record for models that were given none.
* `Fragment.generatedAll_climb`: the numbers of these names go up, from the counter at the beginning
  of the run to the counter at its end.
-/

namespace SqlMapper

open Fragment

/-- The numbers go up from `n`, and the last one is `m`. -/
inductive Rises : Nat → List Nat → Nat → Prop
  | nil (n : Nat) : Rises n [] n
  | cons {n k m : Nat} {ks : List Nat} : n < k → Rises k ks m → Rises n (k :: ks) m

namespace Rises

variable {n m k : Nat} {ks ls : List Nat}

theorem append (h : Rises n ks m) (h' : Rises m ls k) : Rises n (ks ++ ls) k := by
  induction h with
  | nil n => exact h'
  | cons hlt _ ih => exact .cons hlt (ih h')

theorem pairwise (h : Rises n ks m) : (n :: ks).Pairwise (· < ·) := by
  induction h with
  | nil n => exact List.pairwise_singleton _ n
  | @cons n k m ks hlt _ ih =>
    refine List.pairwise_cons.2 ⟨fun a ha => ?_, ih⟩
    rcases List.mem_cons.1 ha with rfl | ha
    · exact hlt
    · exact Nat.lt_trans hlt ((List.pairwise_cons.1 ih).1 a ha)

end Rises

/-- The names are those of numbers that go up from `n`, and the last number is `m`. -/
def Climbs (n : Nat) (names : List String) (m : Nat) : Prop :=
  ∃ ns, Rises n ns m ∧ names = ns.map Rendering.generatedName

namespace Climbs

variable {n m k : Nat} {names names' : List String}

theorem nil (n : Nat) : Climbs n [] n := ⟨[], .nil n, rfl⟩

theorem singleton (h : n < m) : Climbs n [Rendering.generatedName m] m :=
  ⟨[m], .cons h (.nil m), rfl⟩

theorem append (h : Climbs n names m) (h' : Climbs m names' k) : Climbs n (names ++ names') k := by
  obtain ⟨ns, hns, rfl⟩ := h
  obtain ⟨ns', hns', rfl⟩ := h'
  exact ⟨ns ++ ns', hns.append hns', List.map_append.symm⟩

theorem nodup (h : Climbs n names m) : names.Nodup := by
  obtain ⟨ns, hns, rfl⟩ := h
  refine List.Pairwise.map _ (fun i j hlt heq => ?_) (List.pairwise_cons.1 hns.pairwise).2
  exact Nat.ne_of_lt hlt (Rendering.generatedName_injective heq)

end Climbs

namespace Rendering

/-! ## The search for a name -/

/-- No scope of the stack has reserved the name of the number, or has a source of that name. -/
def Free (r : Rendering) (n : Nat) : Prop :=
  ∀ s ∈ r.scopes, generatedName n ∉ s.reserved ∧ generatedName n ∉ s.sources.map Prod.snd

/-- The search that has come to `n` ends at a number: the next one, if that is free, and else
where the search ends that has come to the next one. -/
inductive Seeks (r : Rendering) : Nat → Nat → Prop
  | found {n : Nat} : r.Free (n + 1) → Seeks r n (n + 1)
  | onward {n m : Nat} : ¬ r.Free (n + 1) → Seeks r (n + 1) m → Seeks r n m

theorem free_iff (r : Rendering) (n : Nat) : r.Free n ↔ generatedName n ∉ r.taken := by
  simp [Free, taken, List.mem_flatMap]

theorem Seeks.isLeast {r : Rendering} {n m : Nat} (h : r.Seeks n m) :
    IsLeast {k | n < k ∧ r.Free k} m := by
  induction h with
  | found hfree => exact ⟨⟨Nat.lt_succ_self _, hfree⟩, fun k hk => hk.1⟩
  | @onward n m htaken _ ih =>
    obtain ⟨⟨hlt, hfree⟩, hleast⟩ := ih
    refine ⟨⟨by omega, hfree⟩, fun k hk => hleast ⟨?_, hk.2⟩⟩
    have hne : k ≠ n + 1 := fun heq => htaken (heq ▸ hk.2)
    have hlt' : n < k := hk.1
    omega

/-- The search has as many steps as it is far to the least free number. -/
theorem seeks_of_isLeast {r : Rendering} {n m : Nat} (h : IsLeast {k | n < k ∧ r.Free k} m) :
    r.Seeks n m := by
  obtain ⟨steps, rfl⟩ : ∃ steps, m = n + 1 + steps := Nat.exists_eq_add_of_le h.1.1
  induction steps generalizing n with
  | zero => exact .found h.1.2
  | succ steps ih =>
    have hleast : ∀ k, n < k → r.Free k → n + 1 + (steps + 1) ≤ k := fun k hk hfree =>
      h.2 ⟨hk, hfree⟩
    -- The next number is not free, for the least free one is further on.
    refine .onward (fun hfree => ?_) ?_
    · have := hleast (n + 1) (Nat.lt_succ_self n) hfree
      omega
    · have hend : n + 1 + (steps + 1) = n + 1 + 1 + steps := by omega
      rw [hend] at h hleast ⊢
      exact ih ⟨⟨by omega, h.1.2⟩, fun k hk => hleast k (Nat.lt_of_succ_lt hk.1) hk.2⟩

theorem seeks_iff {r : Rendering} {n m : Nat} :
    r.Seeks n m ↔ IsLeast {k | n < k ∧ r.Free k} m := ⟨Seeks.isLeast, seeks_of_isLeast⟩

theorem isLeast_freshNumber (r : Rendering) :
    IsLeast {n | r.counter < n ∧ r.Free n} r.freshNumber := by
  have hfree : r.Free r.freshNumber := (r.free_iff _).2 (freshName_not_mem_taken r)
  refine ⟨⟨lt_freshNumber r, hfree⟩, fun n hn => ?_⟩
  have hlt : r.counter < n := hn.1
  have hn' : generatedName n ∉ r.taken := (r.free_iff n).1 hn.2
  unfold freshNumber
  dsimp only
  cases hfind : (List.range (r.taken.length + 1)).find? fun i =>
      !r.taken.contains (generatedName (r.counter + 1 + i)) with
  | none =>
    rw [Option.getD_none]
    omega
  | some i =>
    -- A free number below the one that was found would have been found before it.
    have hbefore := (List.find?_range_eq_some.1 hfind).2.2
    refine Classical.byContradiction fun hlater => ?_
    rw [Option.getD_some] at hlater
    have hpassed := hbefore (n - (r.counter + 1)) (by omega)
    rw [show r.counter + 1 + (n - (r.counter + 1)) = n by omega] at hpassed
    simp [hn'] at hpassed

/-! ## What a step records -/

/-- The names of the sources that a later state has in its scope after those of `r`. -/
def added (r r' : Rendering) : List String :=
  (r'.scope.sources.drop r.scope.sources.length).map Prod.snd

theorem added_of_sources {r r' : Rendering} {new : List (String × String)}
    (h : r'.scope.sources = r.scope.sources ++ new) : r.added r' = new.map Prod.snd := by
  rw [added, h, List.drop_left]

theorem added_of_same {r r' : Rendering} (h : r'.scope.sources = r.scope.sources) :
    r.added r' = [] := added_of_sources (h.trans (List.append_nil _).symm)

/-- What a state that records a model adds, if a name is generated for it, and nothing else. -/
theorem nameModel_climbs {r r' : Rendering} {m : ModelSource}
    (hsources : r'.scope.sources = r.scope.sources ++ [(m.key, (r.nameModel m).1)])
    (hcounter : r'.counter = (r.nameModel m).2.counter) :
    Climbs r.counter (if m.givenName.isNone && !r.scope.byTable then r.added r' else [])
      r'.counter := by
  rw [added_of_sources hsources, hcounter]
  cases hgiven : m.givenName with
  | some name =>
    rw [nameModel_given hgiven]
    exact .nil _
  | none =>
    cases htable : r.scope.byTable with
    | true =>
      rw [nameModel_byTable hgiven htable]
      exact .nil _
    | false =>
      rw [nameModel_fresh hgiven htable]
      exact .singleton (lt_freshNumber r)

/-- Nothing is generated where no source is recorded. -/
theorem still_climbs {r r' : Rendering} (hsources : r'.scope.sources = r.scope.sources)
    (hcounter : r'.counter = r.counter) (b : Bool) :
    Climbs r.counter (if b then r.added r' else []) r'.counter := by
  rw [added_of_same hsources, ite_self, hcounter]
  exact .nil _

theorem modelName_climbs {r r' : Rendering} {m : ModelSource}
    (hsources : r'.scope.sources = (r.modelName m).2.scope.sources)
    (hcounter : r'.counter = (r.modelName m).2.counter) :
    Climbs r.counter (if m.givenName.isNone && !r.scope.byTable then r.added r' else [])
      r'.counter := by
  unfold modelName at hsources hcounter
  cases hlookup : r.lookup? m.key with
  | some name =>
    rw [hlookup] at hsources hcounter
    exact still_climbs hsources hcounter _
  | none =>
    rw [hlookup] at hsources hcounter
    have hscope := (List.cons.inj (nameModel_scopes r m)).1
    dsimp only [record] at hsources hcounter
    rw [hscope] at hsources
    exact nameModel_climbs hsources hcounter

theorem leave_counter (r : Rendering) : r.leave.counter = r.counter := by
  unfold leave
  split <;> rfl

end Rendering

/-! ## The names of a run -/

namespace Fragment

open Rendering

mutual

/-- The single steps of a run, each with the state in which it is taken. -/
def steps : Fragment → Rendering → List (Fragment × Rendering)
  | nested s body, r => stepsAll body (r.enter s)
  | unqualified body, r => stepsAll body (r.setBare true)
  | f, r => [(f, r)]

/-- After a refusal there are no more. -/
def stepsAll : List Fragment → Rendering → List (Fragment × Rendering)
  | [], _ => []
  | f :: fs, r =>
    steps f r ++
      match run f r with
      | (.ok (), r) => stepsAll fs r
      | (.error _, _) => []

end

/-- Whether the fragment needs the name of a model that was given none. -/
def nameless : Fragment → Bool
  | qualifier (.model m) => m.givenName.isNone
  | modelTable m => m.givenName.isNone
  | enlist (.model m) => m.givenName.isNone
  | _ => false

/-- The names that a step generates: those that it records in its scope for a model that was given
none, where models do not go by their tables. -/
def generated (f : Fragment) (r : Rendering) : List String :=
  if f.nameless && !r.scope.byTable then r.added (run f r).2 else []

/-- The names that a run generates, in their order. -/
def generatedAll (fs : List Fragment) (r : Rendering) : List String :=
  (stepsAll fs r).flatMap fun (f, r) => generated f r

theorem climbs_singleton {f : Fragment} {r : Rendering} {n m : Nat}
    (h : Climbs n (generated f r) m) :
    Climbs n ([(f, r)].flatMap fun (f, r) => generated f r) m := by
  rwa [List.flatMap_singleton]

theorem runQualifier_climbs (q : Qualifier) (r : Rendering) :
    Climbs r.counter (generated (qualifier q) r) (run (qualifier q) r).2.counter := by
  cases hbare : r.scope.bare with
  | true =>
    have hrun : run (qualifier q) r = (.ok (), r) := by rw [run, runQualifier, if_pos hbare]
    rw [generated, hrun]
    exact still_climbs rfl rfl _
  | false =>
    rw [generated, run, runQualifier, hbare]
    cases q with
    | model m =>
      exact modelName_climbs (congrArg Scope.sources (putAll_scope ..)) (putAll_counter ..)
    | table name =>
      exact still_climbs (congrArg Scope.sources (putAll_scope ..)) (putAll_counter ..) false

theorem runModelTable_climbs (m : ModelSource) (r : Rendering) :
    Climbs r.counter (generated (modelTable m) r) (run (modelTable m) r).2.counter := by
  rw [generated, run, runModelTable, modelName_put]
  refine modelName_climbs ?_ ?_ <;> dsimp only <;> split <;> simp

theorem enlist_climbs (o : Origin) (r : Rendering) :
    Climbs r.counter (generated (enlist o) r) (run (enlist o) r).2.counter := by
  cases o with
  | model m =>
    have hscope := (List.cons.inj (nameModel_scopes r m)).1
    refine nameModel_climbs ?_ rfl
    show (r.nameModel m).2.scope.sources ++ _ = _
    rw [hscope]
    rfl
  | table name => exact .nil _
  | derived name => exact .nil _

theorem runEquated_counter (child childColumn parent parentColumn : String) (r : Rendering) :
    (runEquated child childColumn parent parentColumn r).2.counter = r.counter := by
  unfold runEquated
  split
  · exact putAll_counter ..
  · rfl
  · rfl

theorem runProposed_counter (field : String) (r : Rendering) :
    (runProposed field r).2.counter = r.counter := by
  unfold runProposed
  split
  · rfl
  · split <;> rfl

theorem runDrawn_counter (f : Field) (r : Rendering) : (runDrawn f r).2.counter = r.counter := by
  unfold runDrawn
  dsimp only
  split <;> rfl

mutual

/-- Every generated name moves the counter to its number, and nothing else moves it. -/
theorem steps_climb : (f : Fragment) → (r : Rendering) →
    Climbs r.counter ((steps f r).flatMap fun (f, r) => generated f r) (run f r).2.counter
  | .text _, _ => .nil _
  | .identifier _, _ => .nil _
  | .param _, _ => .nil _
  | .qualifier q, r => climbs_singleton (runQualifier_climbs q r)
  | .modelTable m, r => climbs_singleton (runModelTable_climbs m r)
  | .enlist o, r => climbs_singleton (enlist_climbs o r)
  | .equated child childColumn parent parentColumn, r => by
    rw [run, runEquated_counter]
    exact .nil _
  | .proposed field, r => by
    rw [run, runProposed_counter]
    exact .nil _
  | .drawn f, r => by
    rw [run, runDrawn_counter]
    exact .nil _
  | .refuse _, _ => .nil _
  | .nested s body, r => by
    rw [run, steps, Prod.map_snd, leave_counter]
    exact generatedAll_climb body (r.enter s)
  | .unqualified body, r => by
    rw [run, steps]
    exact generatedAll_climb body (r.setBare true)

theorem generatedAll_climb : (fs : List Fragment) → (r : Rendering) →
    Climbs r.counter (generatedAll fs r) (runAll fs r).2.counter
  | [], r => .nil _
  | f :: fs, r => by
    have hf := steps_climb f r
    rw [runAll, generatedAll, stepsAll, List.flatMap_append]
    match h : run f r with
    | (.ok (), r') =>
      rw [h] at hf
      exact hf.append (generatedAll_climb fs r')
    | (.error e, r') =>
      rw [h] at hf
      exact hf.append (.nil _)

end

end Fragment

/-! ## The names of a statement -/

namespace Rendering

/-- In every state the search for a name comes to an end, at the least number after the counter
whose name no scope has or claims. A model that needs a name is given the name of this number, is
recorded under it, and the counter stands at the number afterwards. The names that are recorded so
in a statement have numbers that go up from zero to where the counter stands in the end. They are
all different, also if the statement is refused later on. -/
theorem generated_least_distinct :
    (∀ r : Rendering, ∃ n, (∀ k, r.Seeks r.counter k ↔ k = n) ∧
      IsLeast {k | r.counter < k ∧ r.Free k} n ∧
        r.freshName = (generatedName n, { r with counter := n }) ∧
        ∀ m : ModelSource, m.givenName = none → r.scope.byTable = false →
          r.enlist (.model m) = { r with counter := n }.record m.key (generatedName n) ∧
          (r.lookup? m.key = none → r.modelName m =
            (generatedName n, { r with counter := n }.record m.key (generatedName n)))) ∧
      ∀ (st : Statement) (d : Dialect) (s : Supply),
        let names := generatedAll (st.fragments d) (.start s)
        (∃ ns, Rises 0 ns (runAll (st.fragments d) (.start s)).2.counter ∧
          names = ns.map generatedName) ∧ names.Nodup := by
  constructor
  · intro r
    refine ⟨r.freshNumber, fun k => ?_, isLeast_freshNumber r, rfl, fun m hgiven htable => ?_⟩
    · rw [seeks_iff]
      constructor
      · intro hleast
        exact hleast.unique (isLeast_freshNumber r)
      · rintro rfl
        exact isLeast_freshNumber r
    · have hname : r.nameModel m = r.freshName := nameModel_fresh hgiven htable
      refine ⟨?_, fun hlookup => ?_⟩
      · show (r.nameModel m).2.record m.key (r.nameModel m).1 = _
        rw [hname]
        rfl
      · unfold modelName
        rw [hlookup, hname]
        rfl
  · intro st d s
    have hclimbs := generatedAll_climb (st.fragments d) (.start s)
    exact ⟨hclimbs, hclimbs.nodup⟩

/-- A name that is reserved here, one that a source has here and one that a source has outside are
passed over. -/
example : (⟨{ sources := [("Note", "t1")], reserved := ["t2"] }, [{ sources := [("User", "t3")] }],
    0, ⟨0⟩, #[]⟩ : Rendering).freshName.1 = "t4" := by decide

end Rendering

end SqlMapper
