import SqlMapper.Query.Fragment.Run

/-!
# SqlMapper.Proofs.Fragment.Run

What a run of fragments can do to the state of a rendering.

* `Fragment.Runs`: a run without a refusal, with one rule for each way to compose fragments.
* `Rendering.Extends`: the frame of a run. The enclosing scopes stay as they were, and so do the
  present scope's flags; sources are only added at the end of the present scope, pieces only at the
  end of the output, and the counter never goes back.
* `runAll_extends`: every run extends its state, also one that ends in a refusal.
-/

namespace SqlMapper

namespace Rendering

@[simp] theorem put_scope (r : Rendering) (p : Piece) : (r.put p).scope = r.scope := rfl
@[simp] theorem put_enclosing (r : Rendering) (p : Piece) :
    (r.put p).enclosing = r.enclosing := rfl
@[simp] theorem put_counter (r : Rendering) (p : Piece) : (r.put p).counter = r.counter := rfl
@[simp] theorem put_supply (r : Rendering) (p : Piece) : (r.put p).supply = r.supply := rfl
@[simp] theorem put_output (r : Rendering) (p : Piece) :
    (r.put p).output.toList = r.output.toList ++ [p] := by simp [put]

@[simp] theorem putAll_nil (r : Rendering) : r.putAll [] = r := rfl
@[simp] theorem putAll_cons (r : Rendering) (p : Piece) (ps : List Piece) :
    r.putAll (p :: ps) = (r.put p).putAll ps := rfl

@[simp] theorem putAll_scope (r : Rendering) (ps : List Piece) : (r.putAll ps).scope = r.scope := by
  induction ps generalizing r with
  | nil => rfl
  | cons p ps ih => rw [putAll_cons, ih, put_scope]

@[simp] theorem putAll_enclosing (r : Rendering) (ps : List Piece) :
    (r.putAll ps).enclosing = r.enclosing := by
  induction ps generalizing r with
  | nil => rfl
  | cons p ps ih => rw [putAll_cons, ih, put_enclosing]

@[simp] theorem putAll_counter (r : Rendering) (ps : List Piece) :
    (r.putAll ps).counter = r.counter := by
  induction ps generalizing r with
  | nil => rfl
  | cons p ps ih => rw [putAll_cons, ih, put_counter]

@[simp] theorem putAll_supply (r : Rendering) (ps : List Piece) :
    (r.putAll ps).supply = r.supply := by
  induction ps generalizing r with
  | nil => rfl
  | cons p ps ih => rw [putAll_cons, ih, put_supply]

@[simp] theorem putAll_output (r : Rendering) (ps : List Piece) :
    (r.putAll ps).output.toList = r.output.toList ++ ps := by
  induction ps generalizing r with
  | nil => simp
  | cons p ps ih => rw [putAll_cons, ih, put_output, List.append_assoc]; rfl

@[simp] theorem scopes_put (r : Rendering) (p : Piece) : (r.put p).scopes = r.scopes := rfl
@[simp] theorem scopes_putAll (r : Rendering) (ps : List Piece) :
    (r.putAll ps).scopes = r.scopes := by simp [scopes]

@[simp] theorem lookup?_put (r : Rendering) (p : Piece) (key : String) :
    (r.put p).lookup? key = r.lookup? key := rfl
@[simp] theorem lookup?_putAll (r : Rendering) (ps : List Piece) (key : String) :
    (r.putAll ps).lookup? key = r.lookup? key := by simp [lookup?]

@[simp] theorem leave_output (r : Rendering) : r.leave.output = r.output := by
  unfold leave; split <;> rfl

@[simp] theorem leave_supply (r : Rendering) : r.leave.supply = r.supply := by
  unfold leave; split <;> rfl

@[simp] theorem leave_enter (r : Rendering) (s : Scope) : (r.enter s).leave = r := rfl

theorem lookup?_eq (r : Rendering) (key : String) :
    r.lookup? key =
      (r.scope.sources.lookup key).or (r.enclosing.findSome? fun s => s.sources.lookup key) := by
  simp only [lookup?, scopes, List.findSome?_cons]
  cases r.scope.sources.lookup key <;> rfl

theorem mem_of_lookup {sources : List (String × String)} {key name : String}
    (h : sources.lookup key = some name) : (key, name) ∈ sources := by
  obtain ⟨front, back, hsources, -⟩ := List.lookup_eq_some_iff.1 h
  rw [hsources]
  exact List.mem_append_right _ (List.mem_cons_self ..)

/-! ## The frame of a run -/

/-- What a run may have changed when it has gone from `r` to `r'`. -/
structure Extends (r r' : Rendering) : Prop where
  enclosing : r'.enclosing = r.enclosing
  sources : r.scope.sources <+: r'.scope.sources
  reserved : r'.scope.reserved = r.scope.reserved
  byTable : r'.scope.byTable = r.scope.byTable
  bare : r'.scope.bare = r.scope.bare
  proposal : r'.scope.proposal = r.scope.proposal
  counter : r.counter ≤ r'.counter
  output : r.output.toList <+: r'.output.toList

namespace Extends

theorem refl (r : Rendering) : r.Extends r :=
  ⟨rfl, List.prefix_rfl, rfl, rfl, rfl, rfl, Nat.le_refl _, List.prefix_rfl⟩

theorem trans {r₁ r₂ r₃ : Rendering} (h : r₁.Extends r₂) (h' : r₂.Extends r₃) : r₁.Extends r₃ where
  enclosing := h'.enclosing.trans h.enclosing
  sources := h.sources.trans h'.sources
  reserved := h'.reserved.trans h.reserved
  byTable := h'.byTable.trans h.byTable
  bare := h'.bare.trans h.bare
  proposal := h'.proposal.trans h.proposal
  counter := Nat.le_trans h.counter h'.counter
  output := h.output.trans h'.output

theorem put (r : Rendering) (p : Piece) : r.Extends (r.put p) :=
  { refl r with output := by simp }

theorem putAll (r : Rendering) (ps : List Piece) : r.Extends (r.putAll ps) where
  enclosing := by simp
  sources := by simp
  reserved := by simp
  byTable := by simp
  bare := by simp
  proposal := by simp
  counter := by simp
  output := by simp

theorem record (r : Rendering) (key name : String) : r.Extends (r.record key name) :=
  { refl r with sources := List.prefix_append .. }

/-- A scope that has been entered, extended and left leaves no trace but output and counter. -/
theorem leave {r m : Rendering} {s : Scope} (h : (r.enter s).Extends m) : r.Extends m.leave := by
  have hm : m.leave = { m with scope := r.scope, enclosing := r.enclosing } := by
    rw [Rendering.leave, h.enclosing]; rfl
  rw [hm]
  exact { refl r with counter := h.counter, output := h.output }

theorem scopes_leave {r m : Rendering} {s : Scope} (h : (r.enter s).Extends m) :
    m.leave.scopes = r.scopes := by
  unfold Rendering.leave
  rw [h.enclosing]
  rfl

theorem setBare {r m : Rendering} (h : (r.setBare true).Extends m) :
    r.Extends (m.setBare r.scope.bare) where
  enclosing := h.enclosing
  sources := h.sources
  reserved := h.reserved
  byTable := h.byTable
  bare := rfl
  proposal := h.proposal
  counter := h.counter
  output := h.output

end Extends

theorem lt_freshNumber (r : Rendering) : r.counter < r.freshNumber := by
  unfold freshNumber
  dsimp only
  omega

theorem nameModel_given {r : Rendering} {m : ModelSource} {name : String}
    (h : m.givenName = some name) : r.nameModel m = (name, r) := by
  simp only [nameModel, h]

theorem nameModel_byTable {r : Rendering} {m : ModelSource} (h : m.givenName = none)
    (ht : r.scope.byTable = true) : r.nameModel m = (m.model.table, r) := by
  simp only [nameModel, h, ht, if_true]

theorem nameModel_fresh {r : Rendering} {m : ModelSource} (h : m.givenName = none)
    (ht : r.scope.byTable = false) : r.nameModel m = r.freshName := by
  simp [nameModel, h, ht]

theorem extends_nameModel (r : Rendering) (m : ModelSource) : r.Extends (r.nameModel m).2 := by
  unfold nameModel
  split
  · exact .refl r
  · split
    · exact .refl r
    · exact { Extends.refl r with counter := Nat.le_of_lt (lt_freshNumber r) }

theorem extends_modelName (r : Rendering) (m : ModelSource) : r.Extends (r.modelName m).2 := by
  unfold modelName
  split
  · exact .refl r
  · exact (extends_nameModel r m).trans (.record ..)

theorem extends_qualifierName (r : Rendering) (q : Qualifier) :
    r.Extends (r.qualifierName q).2 := by
  cases q with
  | model m => exact extends_modelName r m
  | table name => exact .refl r

theorem extends_enlist (r : Rendering) (o : Origin) : r.Extends (r.enlist o) := by
  cases o with
  | model m => exact (extends_nameModel r m).trans (.record ..)
  | table name => exact .record ..
  | derived name => exact .record ..

/-- Makes sources visible, one after another. -/
def enlistAll (r : Rendering) (os : List Origin) : Rendering := os.foldl enlist r

/-! ## What naming leaves alone -/

@[simp] theorem record_output (r : Rendering) (key name : String) :
    (r.record key name).output = r.output := rfl

theorem nameModel_output (r : Rendering) (m : ModelSource) :
    (r.nameModel m).2.output = r.output := by
  unfold nameModel
  split
  · rfl
  · split <;> rfl

theorem modelName_output (r : Rendering) (m : ModelSource) :
    (r.modelName m).2.output = r.output := by
  unfold modelName
  split
  · rfl
  · exact nameModel_output r m

theorem nameModel_scopes (r : Rendering) (m : ModelSource) :
    (r.nameModel m).2.scopes = r.scopes := by
  unfold nameModel
  split
  · rfl
  · split <;> rfl

theorem nameModel_supply (r : Rendering) (m : ModelSource) :
    (r.nameModel m).2.supply = r.supply := by
  unfold nameModel
  split
  · rfl
  · split <;> rfl

theorem modelName_supply (r : Rendering) (m : ModelSource) :
    (r.modelName m).2.supply = r.supply := by
  unfold modelName
  split
  · rfl
  · exact nameModel_supply r m

theorem qualifierName_supply (r : Rendering) (q : Qualifier) :
    (r.qualifierName q).2.supply = r.supply := by
  cases q with
  | model m => exact modelName_supply r m
  | table name => rfl

theorem enlist_supply (r : Rendering) (o : Origin) : (r.enlist o).supply = r.supply := by
  cases o with
  | model m => exact nameModel_supply r m
  | table name => rfl
  | derived name => rfl

theorem enlist_output (r : Rendering) (o : Origin) : (r.enlist o).output = r.output := by
  cases o with
  | model m => exact nameModel_output r m
  | table name => rfl
  | derived name => rfl

theorem nameModel_put (r : Rendering) (p : Piece) (m : ModelSource) :
    (r.put p).nameModel m = ((r.nameModel m).1, (r.nameModel m).2.put p) := by
  cases hgiven : m.givenName with
  | some name => rw [nameModel_given hgiven, nameModel_given hgiven]
  | none =>
    cases h : r.scope.byTable with
    | true => rw [nameModel_byTable hgiven h, nameModel_byTable hgiven (r := r.put p) h]
    | false => rw [nameModel_fresh hgiven h, nameModel_fresh hgiven (r := r.put p) h]; rfl

theorem modelName_put (r : Rendering) (p : Piece) (m : ModelSource) :
    (r.put p).modelName m = ((r.modelName m).1, (r.modelName m).2.put p) := by
  unfold modelName
  rw [lookup?_put, nameModel_put]
  cases r.lookup? m.key <;> rfl

theorem enlistAll_supply (r : Rendering) (os : List Origin) :
    (r.enlistAll os).supply = r.supply := by
  induction os generalizing r with
  | nil => rfl
  | cons o os ih => exact (ih (r.enlist o)).trans (enlist_supply r o)

end Rendering

/-! ## Runs -/

namespace Fragment

open Rendering

theorem extends_runQualifier (q : Qualifier) (r : Rendering) :
    r.Extends (runQualifier q r).2 := by
  unfold runQualifier
  split
  · exact .refl r
  · exact (extends_qualifierName r q).trans (.putAll ..)

theorem extends_runModelTable (m : ModelSource) (r : Rendering) :
    r.Extends (runModelTable m r).2 := by
  have h : r.Extends ((r.put (.name m.model.table)).modelName m).2 :=
    (Extends.put r _).trans (extends_modelName ..)
  unfold runModelTable
  dsimp only
  split
  · exact h
  · exact h.trans (.putAll ..)

theorem extends_runEquated (child childColumn parent parentColumn : String) (r : Rendering) :
    r.Extends (runEquated child childColumn parent parentColumn r).2 := by
  unfold runEquated
  split
  · exact .putAll ..
  · exact .refl r
  · exact .refl r

theorem extends_runProposed (field : String) (r : Rendering) :
    r.Extends (runProposed field r).2 := by
  unfold runProposed
  split
  · exact .refl r
  · split
    · exact .put ..
    · exact .refl r

theorem extends_runDrawn (f : Field) (r : Rendering) : r.Extends (runDrawn f r).2 := by
  unfold runDrawn
  dsimp only
  split
  · exact { Extends.refl r with output := by simp }
  · exact { Extends.refl r with }

mutual

theorem run_extends : (f : Fragment) → (r : Rendering) → r.Extends (run f r).2
  | .text _, r => .put r _
  | .identifier _, r => .put r _
  | .param _, r => .put r _
  | .qualifier q, r => extends_runQualifier q r
  | .modelTable m, r => extends_runModelTable m r
  | .enlist o, r => extends_enlist r o
  | .equated child childColumn parent parentColumn, r =>
    extends_runEquated child childColumn parent parentColumn r
  | .proposed field, r => extends_runProposed field r
  | .drawn f, r => extends_runDrawn f r
  | .refuse _, r => .refl r
  | .nested s body, r => by
    rw [run]
    exact (runAll_extends body (r.enter s)).leave
  | .unqualified body, r => by
    rw [run]
    exact (runAll_extends body (r.setBare true)).setBare

theorem runAll_extends : (fs : List Fragment) → (r : Rendering) → r.Extends (runAll fs r).2
  | [], r => .refl r
  | f :: fs, r => by
    have hf := run_extends f r
    rw [runAll]
    match h : run f r with
    | (.ok (), r') =>
      rw [h] at hf
      exact hf.trans (runAll_extends fs r')
    | (.error e, r') =>
      rw [h] at hf
      exact hf

end

/-- The fragments take `r` to `r'` without a refusal. -/
def Runs (fs : List Fragment) (r r' : Rendering) : Prop := runAll fs r = (.ok (), r')

theorem Runs.extends {fs : List Fragment} {r r' : Rendering} (h : Runs fs r r') : r.Extends r' := by
  have := runAll_extends fs r
  rwa [h] at this

@[simp] theorem runs_nil {r r' : Rendering} : Runs [] r r' ↔ r' = r := by
  simp [Runs, runAll, eq_comm]

theorem runs_cons {f : Fragment} {fs : List Fragment} {r r' : Rendering} :
    Runs (f :: fs) r r' ↔ ∃ m, run f r = (.ok (), m) ∧ Runs fs m r' := by
  unfold Runs
  rw [runAll]
  match h : run f r with
  | (.ok (), m) => simp
  | (.error e, m) => simp

@[simp] theorem runs_singleton {f : Fragment} {r r' : Rendering} :
    Runs [f] r r' ↔ run f r = (.ok (), r') := by
  simp [runs_cons, eq_comm]

theorem runs_append {fs gs : List Fragment} {r r' : Rendering} :
    Runs (fs ++ gs) r r' ↔ ∃ m, Runs fs r m ∧ Runs gs m r' := by
  induction fs generalizing r with
  | nil => simp
  | cons f fs ih =>
    simp only [List.cons_append, runs_cons, ih]
    constructor
    · rintro ⟨m, hf, n, hfs, hgs⟩
      exact ⟨n, ⟨m, hf, hfs⟩, hgs⟩
    · rintro ⟨n, ⟨m, hf, hfs⟩, hgs⟩
      exact ⟨m, hf, n, hfs, hgs⟩

@[simp] theorem runs_text {s : String} {r r' : Rendering} :
    Runs [text s] r r' ↔ r' = r.put (.text s) := by
  simp [run, eq_comm]

theorem runs_nested {s : Scope} {body : List Fragment} {r r' : Rendering} :
    Runs [nested s body] r r' ↔ ∃ m, Runs body (r.enter s) m ∧ r' = m.leave := by
  rw [runs_singleton, run]
  unfold Runs
  match runAll body (r.enter s) with
  | (.ok (), m) => simp [Prod.map, eq_comm]
  | (.error e, m) => simp [Prod.map]

theorem runs_unqualified {body : List Fragment} {r r' : Rendering} :
    Runs [unqualified body] r r' ↔
      ∃ m, Runs body (r.setBare true) m ∧ r' = m.setBare r.scope.bare := by
  rw [runs_singleton, run]
  unfold Runs
  match runAll body (r.setBare true) with
  | (.ok (), m) => simp [Prod.map, eq_comm]
  | (.error e, m) => simp [Prod.map]

theorem runs_enlist (os : List Origin) (r : Rendering) :
    Runs (os.map enlist) r (r.enlistAll os) := by
  induction os generalizing r with
  | nil => exact runs_nil.2 rfl
  | cons o os ih => exact runs_cons.2 ⟨r.enlist o, rfl, ih (r.enlist o)⟩

@[simp] theorem not_runs_refuse {e : Error} {r r' : Rendering} : ¬ Runs [refuse e] r r' := by
  simp [run]

/-! ## The pieces of a run -/

/-- The fragments take `r` to `r'` and put out `ps` on the way. -/
def Puts (fs : List Fragment) (r : Rendering) (ps : List Piece) (r' : Rendering) : Prop :=
  Runs fs r r' ∧ r'.output.toList = r.output.toList ++ ps

theorem Runs.puts {fs : List Fragment} {r r' : Rendering} (h : Runs fs r r') :
    ∃ ps, Puts fs r ps r' := by
  obtain ⟨ps, hps⟩ := h.extends.output
  exact ⟨ps, h, hps.symm⟩

theorem Puts.unique {fs : List Fragment} {r r' r'' : Rendering} {ps qs : List Piece}
    (h : Puts fs r ps r') (h' : Puts fs r qs r'') : ps = qs ∧ r' = r'' := by
  have hend : r' = r'' := congrArg Prod.snd (h.1.symm.trans h'.1)
  subst hend
  exact ⟨List.append_cancel_left (h.2.symm.trans h'.2), rfl⟩

theorem puts_nil {r r' : Rendering} {ps : List Piece} :
    Puts [] r ps r' ↔ r' = r ∧ ps = [] := by
  unfold Puts
  rw [runs_nil]
  constructor
  · rintro ⟨rfl, h⟩
    exact ⟨rfl, List.self_eq_append_right.1 h⟩
  · rintro ⟨rfl, rfl⟩
    exact ⟨rfl, (List.append_nil _).symm⟩

theorem puts_append {fs gs : List Fragment} {r r' : Rendering} {ps : List Piece} :
    Puts (fs ++ gs) r ps r' ↔
      ∃ m qs qs', Puts fs r qs m ∧ Puts gs m qs' r' ∧ ps = qs ++ qs' := by
  constructor
  · rintro ⟨h, hout⟩
    obtain ⟨m, hf, hg⟩ := runs_append.1 h
    obtain ⟨qs, hqs⟩ := hf.puts
    obtain ⟨qs', hqs'⟩ := hg.puts
    refine ⟨m, qs, qs', hqs, hqs', ?_⟩
    rw [hqs'.2, hqs.2, List.append_assoc] at hout
    exact (List.append_cancel_left hout).symm
  · rintro ⟨m, qs, qs', ⟨hf, hqs⟩, ⟨hg, hqs'⟩, rfl⟩
    exact ⟨runs_append.2 ⟨m, hf, hg⟩, by rw [hqs', hqs, List.append_assoc]⟩

theorem puts_cons {f : Fragment} {fs : List Fragment} {r r' : Rendering} {ps : List Piece} :
    Puts (f :: fs) r ps r' ↔
      ∃ m qs qs', Puts [f] r qs m ∧ Puts fs m qs' r' ∧ ps = qs ++ qs' := by
  rw [← puts_append, List.singleton_append]

/-- A fragment whose run is known puts out what its run appends. -/
theorem puts_of_run {f : Fragment} {r m r' : Rendering} {ps qs : List Piece}
    (hrun : run f r = (.ok (), m)) (hout : m.output.toList = r.output.toList ++ qs) :
    Puts [f] r ps r' ↔ r' = m ∧ ps = qs := by
  unfold Puts
  rw [runs_singleton, hrun]
  constructor
  · rintro ⟨h, h'⟩
    cases h
    rw [hout] at h'
    exact ⟨rfl, (List.append_cancel_left h').symm⟩
  · rintro ⟨rfl, rfl⟩
    exact ⟨rfl, hout⟩

theorem puts_text {s : String} {r r' : Rendering} {ps : List Piece} :
    Puts [text s] r ps r' ↔ r' = r.put (.text s) ∧ ps = [.text s] :=
  puts_of_run (by rw [run]) (put_output ..)

theorem puts_identifier {s : String} {r r' : Rendering} {ps : List Piece} :
    Puts [identifier s] r ps r' ↔ r' = r.put (.name s) ∧ ps = [.name s] :=
  puts_of_run (by rw [run]) (put_output ..)

theorem puts_param {v : Value} {r r' : Rendering} {ps : List Piece} :
    Puts [param v] r ps r' ↔ r' = r.put (.param v) ∧ ps = [.param v] :=
  puts_of_run (by rw [run]) (put_output ..)

theorem puts_enlist {o : Origin} {r r' : Rendering} {ps : List Piece} :
    Puts [enlist o] r ps r' ↔ r' = r.enlist o ∧ ps = [] :=
  puts_of_run (by rw [run]) (by rw [enlist_output, List.append_nil])

theorem puts_enlist_append {os : List Origin} {fs : List Fragment} {r r' : Rendering}
    {ps : List Piece} :
    Puts (os.map enlist ++ fs) r ps r' ↔ Puts fs (r.enlistAll os) ps r' := by
  induction os generalizing r with
  | nil => rfl
  | cons o os ih =>
    rw [List.map_cons, List.cons_append, puts_cons]
    constructor
    · rintro ⟨_, _, qs, ho, h, rfl⟩
      obtain ⟨rfl, rfl⟩ := puts_enlist.1 ho
      exact ih.1 h
    · intro h
      exact ⟨_, _, ps, puts_enlist.2 ⟨rfl, rfl⟩, ih.2 h, rfl⟩

theorem puts_qualifier_bare {q : Qualifier} {r r' : Rendering} {ps : List Piece}
    (h : r.scope.bare = true) : Puts [qualifier q] r ps r' ↔ r' = r ∧ ps = [] :=
  puts_of_run (by rw [run, runQualifier, if_pos h]) (List.append_nil _).symm

theorem puts_qualifier {q : Qualifier} {r r' : Rendering} {ps : List Piece}
    (h : r.scope.bare = false) :
    Puts [qualifier q] r ps r' ↔
      r' = (r.qualifierName q).2.putAll [.name (r.qualifierName q).1, .text "."] ∧
        ps = [.name (r.qualifierName q).1, .text "."] := by
  refine puts_of_run (by rw [run, runQualifier, if_neg (by simp [h])]) ?_
  rw [putAll_output]
  cases q with
  | model m => rw [qualifierName, modelName_output]
  | table name => rfl

theorem puts_modelTable {m : ModelSource} {r r' : Rendering} {ps : List Piece} :
    Puts [modelTable m] r ps r' ↔
      let name := (r.modelName m).1
      let as := if name = m.model.table then [] else [.text " AS ", .name name]
      r' = (r.modelName m).2.putAll (.name m.model.table :: as) ∧
        ps = .name m.model.table :: as := by
  have hrun : run (modelTable m) r = (.ok (),
      (r.modelName m).2.putAll (.name m.model.table ::
        if (r.modelName m).1 = m.model.table then [] else
          [.text " AS ", .name (r.modelName m).1])) := by
    rw [run, runModelTable, modelName_put]
    dsimp only
    split <;> rfl
  exact puts_of_run hrun (by rw [putAll_output, modelName_output])

/-- The `ON` clause that equates a column of each of two names. -/
def equation (child childColumn parent parentColumn : String) : List Piece :=
  [.text " ON (", .name child, .text ".", .name childColumn, .text " = ", .name parent, .text ".",
    .name parentColumn, .text ")"]

theorem puts_equated {child childColumn parent parentColumn : String} {r r' : Rendering}
    {ps : List Piece} :
    Puts [equated child childColumn parent parentColumn] r ps r' ↔
      ∃ c p, r.lookup? child = some c ∧ r.lookup? parent = some p ∧
        ps = equation c childColumn p parentColumn ∧ r' = r.putAll ps := by
  unfold Puts
  rw [runs_singleton, run, runEquated, lookup, lookup]
  cases r.lookup? child with
  | none => simp
  | some c =>
    cases r.lookup? parent with
    | none => simp
    | some p =>
      simp only [Prod.mk.injEq, true_and, Option.some.injEq]
      constructor
      · rintro ⟨rfl, hout⟩
        rw [putAll_output] at hout
        have hps := List.append_cancel_left hout
        exact ⟨c, p, rfl, rfl, hps.symm, by rw [← hps]⟩
      · rintro ⟨_, _, rfl, rfl, rfl, rfl⟩
        exact ⟨rfl, putAll_output ..⟩

theorem puts_proposed {field : String} {r r' : Rendering} {ps : List Piece} :
    Puts [proposed field] r ps r' ↔
      ∃ m f, r.proposal? = some m ∧ m.model.field? field = some f ∧ ps = [.name f.column] ∧
        r' = r.put (.name f.column) := by
  unfold Puts
  rw [runs_singleton, run, runProposed]
  cases r.proposal? with
  | none => simp
  | some m =>
    simp only [Model.field]
    cases hf : m.model.field? field with
    | none => simp [hf]
    | some f =>
      simp only [Prod.mk.injEq, true_and, Option.some.injEq]
      constructor
      · rintro ⟨rfl, hout⟩
        rw [put_output] at hout
        exact ⟨m, f, rfl, hf, (List.append_cancel_left hout).symm, rfl⟩
      · rintro ⟨_, g, rfl, hg, rfl, rfl⟩
        cases hf.symm.trans hg
        exact ⟨rfl, put_output ..⟩

theorem puts_nested {s : Scope} {body : List Fragment} {r r' : Rendering} {ps : List Piece} :
    Puts [nested s body] r ps r' ↔ ∃ m, Puts body (r.enter s) ps m ∧ r' = m.leave := by
  unfold Puts
  rw [runs_nested]
  constructor
  · rintro ⟨⟨m, h, rfl⟩, hout⟩
    exact ⟨m, ⟨h, by rwa [leave_output] at hout⟩, rfl⟩
  · rintro ⟨m, ⟨h, hout⟩, rfl⟩
    exact ⟨⟨m, h, rfl⟩, by rwa [leave_output]⟩

theorem puts_unqualified {body : List Fragment} {r r' : Rendering} {ps : List Piece} :
    Puts [unqualified body] r ps r' ↔
      ∃ m, Puts body (r.setBare true) ps m ∧ r' = m.setBare r.scope.bare := by
  unfold Puts
  rw [runs_unqualified]
  constructor
  · rintro ⟨⟨m, h, rfl⟩, hout⟩
    exact ⟨m, ⟨h, hout⟩, rfl⟩
  · rintro ⟨m, ⟨h, hout⟩, rfl⟩
    exact ⟨⟨m, h, rfl⟩, hout⟩

end Fragment

end SqlMapper
