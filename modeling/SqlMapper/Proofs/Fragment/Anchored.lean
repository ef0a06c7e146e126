import SqlMapper.Proofs.Fragment.Run
import SqlMapper.Query.Fragment.OfQuery

/-!
# SqlMapper.Proofs.Fragment.Anchored

Fragments that can be run anywhere.

`Anchored keys fs` says that `fs` draws no default, and equates only columns of sources that are
known by `keys` or have been made visible at the start of a scope around them. If such fragments run
in one state, they do so in every other one that knows the keys and has the same proposal, whatever
names its sources have and whatever its supply is (`Anchored.runs`).
-/

namespace SqlMapper

namespace Rendering

variable {r r' : Rendering} {keys : List String}

theorem Extends.proposal?_eq (h : r.Extends r') : r'.proposal? = r.proposal? := by
  simp only [proposal?, scopes, List.findSome?_cons, h.proposal, h.enclosing]

theorem enter_proposal? (r : Rendering) (s : Scope) :
    (r.enter s).proposal? = s.proposal.or r.proposal? := by
  simp only [proposal?, scopes, Rendering.enter, List.findSome?_cons]
  cases s.proposal <;> rfl

/-- There are sources of all the keys. -/
def Knows (r : Rendering) (keys : List String) : Prop := ∀ key ∈ keys, (r.lookup? key).isSome = true

namespace Knows

theorem nil (r : Rendering) : r.Knows [] := List.forall_mem_nil _

theorem mono (h : r.Knows keys) (hr : r.Extends r') : r'.Knows keys := by
  intro key hkey
  have hknown := h key hkey
  obtain ⟨others, hothers⟩ := hr.sources
  rw [lookup?_eq] at hknown ⊢
  rw [← hothers, List.lookup_append, hr.enclosing]
  cases hlookup : r.scope.sources.lookup key with
  | some name => rfl
  | none =>
    rw [hlookup, Option.none_or] at hknown
    cases others.lookup key with
    | some name => rfl
    | none => exact hknown

theorem enter (h : r.Knows keys) (s : Scope) : (r.enter s).Knows keys := by
  intro key hkey
  have hknown := h key hkey
  rw [lookup?_eq]
  cases hlookup : (r.enter s).scope.sources.lookup key with
  | some name => rfl
  | none => exact hknown

theorem setBare (h : r.Knows keys) (bare : Bool) : (r.setBare bare).Knows keys := h

theorem record (h : r.Knows keys) (key name : String) :
    (r.record key name).Knows (key :: keys) := by
  intro k hk
  rcases List.mem_cons.1 hk with rfl | hk
  · rw [lookup?_eq, Rendering.record, List.lookup_append]
    cases r.scope.sources.lookup k with
    | some name => rfl
    | none => simp
  · exact h.mono (.record r key name) k hk

theorem enlist (h : r.Knows keys) (o : Origin) : (r.enlist o).Knows (o.key :: keys) := by
  cases o with
  | model m => exact (h.mono (extends_nameModel r m)).record _ _
  | table name => exact h.record _ _
  | derived name => exact h.record _ _

theorem enlistAll (h : r.Knows keys) (os : List Origin) :
    (r.enlistAll os).Knows (os.map Origin.key ++ keys) := by
  induction os generalizing r keys with
  | nil => exact h
  | cons o os ih =>
    intro key hkey
    exact ih (h.enlist o) key (List.perm_middle.mem_iff.2 hkey)

end Knows

end Rendering

namespace Fragment

open Rendering

/-- Whether a run of the fragment depends on nothing but the proposal. -/
def isFree : Fragment → Bool
  | text _ | identifier _ | param _ | qualifier _ | modelTable _ | proposed _ | refuse _ => true
  | _ => false

inductive Anchored : List String → List Fragment → Prop
  | nil {keys : List String} : Anchored keys []
  | append {keys : List String} {fs gs : List Fragment} :
      Anchored keys fs → Anchored keys gs → Anchored keys (fs ++ gs)
  | free {keys : List String} (f : Fragment) : f.isFree = true → Anchored keys [f]
  | equated {keys : List String} {child parent : String} (childColumn parentColumn : String) :
      child ∈ keys → parent ∈ keys →
        Anchored keys [equated child childColumn parent parentColumn]
  | unqualified {keys : List String} {fs : List Fragment} :
      Anchored keys fs → Anchored keys [unqualified fs]
  | nested {keys : List String} (s : Scope) (os : List Origin) {fs : List Fragment} :
      Anchored (os.map Origin.key ++ keys) fs → Anchored keys [nested s (os.map enlist ++ fs)]

/-! ## Runs -/

theorem runQualifier_supply (q : Qualifier) (r : Rendering) :
    (runQualifier q r).2.supply = r.supply := by
  unfold runQualifier
  split
  · rfl
  · exact (putAll_supply _ _).trans (qualifierName_supply r q)

theorem runModelTable_supply (m : ModelSource) (r : Rendering) :
    (runModelTable m r).2.supply = r.supply := by
  have hname := modelName_supply (r.put (.name m.model.table)) m
  unfold runModelTable
  dsimp only
  split
  · exact hname
  · exact (putAll_supply _ _).trans hname

/-- A free fragment runs where the proposal is the same, and draws nothing. -/
theorem run_free {f : Fragment} (h : f.isFree = true) {r r' ρ : Rendering}
    (hr : run f r = (.ok (), r')) (hproposal : ρ.proposal? = r.proposal?) :
    ∃ ρ', run f ρ = (.ok (), ρ') ∧ ρ'.supply = ρ.supply := by
  cases f with
  | text s => exact ⟨_, rfl, put_supply ..⟩
  | identifier s => exact ⟨_, rfl, put_supply ..⟩
  | param v => exact ⟨_, rfl, put_supply ..⟩
  | qualifier q =>
    refine ⟨(runQualifier q ρ).2, ?_, runQualifier_supply q ρ⟩
    rw [run, runQualifier]
    split <;> rfl
  | modelTable m => exact ⟨_, rfl, runModelTable_supply m ρ⟩
  | proposed field =>
    obtain ⟨ps, hps⟩ := (runs_singleton.2 hr).puts
    obtain ⟨m, g, hm, hg, -⟩ := puts_proposed.1 hps
    exact ⟨_, runs_singleton.1 (puts_proposed.2 ⟨m, g, hproposal.trans hm, hg, rfl, rfl⟩).1,
      put_supply ..⟩
  | refuse e => cases hr
  | _ => cases h

namespace Anchored

variable {keys : List String} {fs gs : List Fragment} {fss : List (List Fragment)}
  {r r' ρ : Rendering}

/-- What runs in one state runs in every other that knows the keys and has the same proposal. -/
theorem runs (h : Anchored keys fs) (hr : Runs fs r r') (hproposal : ρ.proposal? = r.proposal?)
    (hknows : ρ.Knows keys) : ∃ ρ', Runs fs ρ ρ' ∧ ρ'.supply = ρ.supply := by
  induction h generalizing r r' ρ with
  | nil => exact ⟨ρ, runs_nil.2 rfl, rfl⟩
  | append _ _ ihf ihg =>
    obtain ⟨m, hf, hg⟩ := runs_append.1 hr
    obtain ⟨μ, hμ, hs⟩ := ihf hf hproposal hknows
    -- A run keeps the proposal and only adds to what is known, so the second part meets the same.
    have hproposal' : μ.proposal? = m.proposal? := by
      rw [hμ.extends.proposal?_eq, hf.extends.proposal?_eq, hproposal]
    obtain ⟨ρ', hρ', hs'⟩ := ihg hg hproposal' (hknows.mono hμ.extends)
    exact ⟨ρ', runs_append.2 ⟨μ, hμ, hρ'⟩, hs'.trans hs⟩
  | free f hf =>
    obtain ⟨ρ', hρ', hs⟩ := run_free hf (runs_singleton.1 hr) hproposal
    exact ⟨ρ', runs_singleton.2 hρ', hs⟩
  | equated childColumn parentColumn hchild hparent =>
    obtain ⟨c, hc⟩ := Option.isSome_iff_exists.1 (hknows _ hchild)
    obtain ⟨p, hp⟩ := Option.isSome_iff_exists.1 (hknows _ hparent)
    exact ⟨_, (puts_equated.2 ⟨c, p, hc, hp, rfl, rfl⟩).1, putAll_supply ..⟩
  | unqualified _ ih =>
    obtain ⟨m, hm, -⟩ := runs_unqualified.1 hr
    obtain ⟨μ, hμ, hs⟩ := ih hm (ρ := ρ.setBare true) hproposal (hknows.setBare true)
    exact ⟨_, runs_unqualified.2 ⟨μ, hμ, rfl⟩, hs⟩
  | nested s os _ ih =>
    obtain ⟨m, hm, -⟩ := runs_nested.1 hr
    obtain ⟨n, hn, hm⟩ := runs_append.1 hm
    have hentered : (ρ.enter s).proposal? = (r.enter s).proposal? := by
      rw [enter_proposal?, enter_proposal?, hproposal]
    have hos := runs_enlist os (ρ.enter s)
    have hproposal' : ((ρ.enter s).enlistAll os).proposal? = n.proposal? := by
      rw [hos.extends.proposal?_eq, hn.extends.proposal?_eq, hentered]
    obtain ⟨μ, hμ, hs⟩ := ih hm hproposal' ((hknows.enter s).enlistAll os)
    refine ⟨_, runs_nested.2 ⟨μ, runs_append.2 ⟨_, hos, hμ⟩, rfl⟩, ?_⟩
    rw [leave_supply, hs, enlistAll_supply]
    rfl

/-! ## Compositions -/

theorem of_free (h : ∀ f ∈ fs, f.isFree = true) : Anchored keys fs := by
  induction fs with
  | nil => exact .nil
  | cons f fs ih =>
    exact (Anchored.free f (h f (List.mem_cons_self ..))).append
      (ih fun g hg => h g (List.mem_cons_of_mem _ hg))

theorem cons {f : Fragment} (hf : f.isFree = true) (h : Anchored keys fs) :
    Anchored keys (f :: fs) :=
  (Anchored.free f hf).append h

theorem lead (s : String) (h : Anchored keys fs) : Anchored keys (text s :: fs) := h.cons rfl

theorem ending (h : Anchored keys fs) (s : String) : Anchored keys (fs ++ [text s]) :=
  h.append (.free _ rfl)

theorem enclosed (o c : String) (h : Anchored keys fs) : Anchored keys (enclosed o fs c) :=
  (h.lead o).ending c

theorem parenthesized (h : Anchored keys fs) : Anchored keys (parenthesized fs) :=
  h.enclosed "(" ")"

theorem requiring (available : Bool) (e : CompilationError) (h : Anchored keys fs) :
    Anchored keys (requiring available e fs) := by
  unfold Fragment.requiring
  split
  · exact h
  · exact .free _ rfl

theorem separated (s : String) (h : ∀ fs ∈ fss, Anchored keys fs) :
    Anchored keys (separated s fss) := by
  induction fss with
  | nil => exact .nil
  | cons fs fss ih =>
    have hfs := h fs (List.mem_cons_self ..)
    have hfss := ih fun gs hgs => h gs (List.mem_cons_of_mem _ hgs)
    cases fss with
    | nil => simpa [Fragment.separated] using hfs
    | cons gs fss =>
      rw [Fragment.separated, List.intercalate_cons_cons, List.append_assoc]
      exact hfs.append (hfss.lead s)

theorem commas (h : ∀ fs ∈ fss, Anchored keys fs) : Anchored keys (commas fss) := separated ", " h

theorem listClause (s : String) (h : ∀ fs ∈ fss, Anchored keys fs) :
    Anchored keys (listClause s fss) := by
  cases fss with
  | nil => exact .nil
  | cons fs fss => exact (commas h).lead s

theorem flatMap {α : Type} {xs : List α} {f : α → List Fragment}
    (h : ∀ x ∈ xs, Anchored keys (f x)) : Anchored keys (xs.flatMap f) := by
  induction xs with
  | nil => exact .nil
  | cons x xs ih =>
    rw [List.flatMap_cons]
    exact (h x (List.mem_cons_self ..)).append (ih fun y hy => h y (List.mem_cons_of_mem _ hy))

theorem names (ns : List String) : Anchored keys (names ns) :=
  commas fun fs hfs => by
    obtain ⟨n, -, rfl⟩ := List.mem_map.1 hfs
    exact .free _ rfl

end Anchored

end Fragment

end SqlMapper
