import SqlMapper.Proofs.Statement.Given
import SqlMapper.Proofs.Statement.Mutation

/-!
# SqlMapper.Proofs.Statement.Excluded

Where a statement can refer to the row that an insert proposed.

* `Fragment.scopesAll`: the scopes that a run goes through. Only that of an insert makes a proposal
  (`Statement.scopes_proposal`).
* `Statement.excluded_in_place_iff`: a reference is refused outside of the scope of an insert. In that
  scope it is written as a column of the target wherever it stands, and not only in what the conflict
  clause updates.
-/

namespace SqlMapper

open Fragment

/-! ## The scopes of a statement -/

namespace Fragment

mutual

def scopes : Fragment → List Scope
  | nested s body => s :: scopesAll body
  | unqualified body => scopesAll body
  | _ => []

def scopesAll : List Fragment → List Scope
  | [] => []
  | f :: fs => f.scopes ++ scopesAll fs

end

@[simp] theorem scopesAll_append (fs gs : List Fragment) :
    scopesAll (fs ++ gs) = scopesAll fs ++ scopesAll gs := by
  induction fs with
  | nil => rfl
  | cons f fs ih => rw [List.cons_append, scopesAll, ih, scopesAll, List.append_assoc]

@[simp] theorem scopesAll_enlist (os : List Origin) : scopesAll (os.map enlist) = [] := by
  induction os with
  | nil => rfl
  | cons o os ih => rw [List.map_cons, scopesAll, ih]; rfl

/-- A proposal around a spot is one of a scope. -/
theorem Spot.scope_of_proposal {s : Spot} {target : ModelSource} (h : s.proposal = some target)
    (fs : List Fragment) : ∃ scope ∈ scopesAll (s.fill fs), scope.proposal = some target := by
  induction s with
  | gap => cases h
  | beside front inner back ih =>
    obtain ⟨scope, hscope, hproposal⟩ := ih h
    exact ⟨scope, by simp [fill, hscope], hproposal⟩
  | nested scope inner ih =>
    rcases Option.or_eq_some_iff.1 h with h | ⟨-, h⟩
    · obtain ⟨scope', hscope, hproposal⟩ := ih h
      exact ⟨scope', by simp [fill, scopesAll, scopes, hscope], hproposal⟩
    · exact ⟨scope, by simp [fill, scopesAll, scopes], h⟩
  | unqualified inner ih =>
    obtain ⟨scope, hscope, hproposal⟩ := ih h
    exact ⟨scope, by simp [fill, scopesAll, scopes, hscope], hproposal⟩

/-- No scope of a query makes a proposal. -/
theorem Laid.scopes_proposal {d : Dialect} {as : List Atom} {fs : List Fragment} (h : Laid d as fs) :
    ∀ scope ∈ scopesAll fs, scope.proposal = none := by
  induction h with
  | append _ _ _ ih ih' =>
    intro scope hscope
    rw [scopesAll_append] at hscope
    exact (List.mem_append.1 hscope).elim (ih scope) (ih' scope)
  | unqualified _ ih =>
    simpa [scopesAll, scopes] using ih
  | bare _ ih =>
    simpa [scopesAll, scopes] using ih
  | select os _ ih =>
    simpa [scopesAll, scopes, selectScope] using ih
  | _ => simp [scopesAll, scopes]

theorem LaidOut.scopes_proposal {d : Dialect} {target : Option ModelSource} {as : List Atom}
    {fs body : List Fragment} {s : Scope} (h : LaidOut d target as (fs ++ [nested s body])) :
    ∀ scope ∈ scopesAll (fs ++ [nested s body]), scope.proposal = none ∨ scope = s := by
  generalize hgs : fs ++ [nested s body] = gs at h
  cases h with
  | query h =>
    intro scope hscope
    exact .inl (h.scopes_proposal scope hscope)
  | @mutation m proposal os _ _ fs' body' hfs _ _ hbody =>
    obtain ⟨rfl, hlast⟩ := List.append_inj' hgs rfl
    obtain ⟨rfl, rfl⟩ := Fragment.nested.inj (List.cons.inj hlast).1
    intro scope hscope
    simp only [scopesAll_append, scopesAll, scopes, scopesAll_enlist, List.mem_append,
      List.mem_cons, List.not_mem_nil, false_or, or_false] at hscope
    rcases hscope with hscope | rfl | hscope
    · exact .inl (hfs.scopes_proposal scope hscope)
    · exact .inr rfl
    · exact .inl (hbody.scopes_proposal scope hscope)

end Fragment

/-- Only an insert makes a proposal, which is its target. -/
theorem Statement.scopes_proposal (st : Statement) (d : Dialect) :
    ∀ scope ∈ scopesAll (st.fragments d), ∀ target ∈ scope.proposal, st.proposal? = some target := by
  intro scope hscope target htarget
  have hlaid := st.laid d
  cases st with
  | query q =>
    have hnone := (Query.laid d q).scopes_proposal scope hscope
    rw [hnone] at htarget
    cases htarget
  | insert i =>
    rcases LaidOut.scopes_proposal hlaid scope hscope with hnone | rfl
    · rw [hnone] at htarget
      cases htarget
    · exact htarget
  | update u =>
    rcases LaidOut.scopes_proposal hlaid scope hscope with hnone | rfl
    · rw [hnone] at htarget
      cases htarget
    · cases htarget
  | delete x =>
    rcases LaidOut.scopes_proposal hlaid scope hscope with hnone | rfl
    · rw [hnone] at htarget
      cases htarget
    · cases htarget

/-! ## References -/

namespace Fragment

def proposedColumn (d : Dialect) (column : String) : List Piece :=
  match d.conflict with
  | .mysql => [.text "VALUES(", .name column, .text ")"]
  | .sqlite | .postgres => [.text "EXCLUDED.", .name column]

/-- What a reference to a field of the proposed row comes to under a proposal. -/
def proposedOutcome (d : Dialect) (proposal : Option ModelSource) (field : String) :
    Except Error (List Piece) :=
  match proposal with
  | none => .error (.query .excludedOutsideConflict)
  | some target => (target.model.field field).map fun f => proposedColumn d f.column

variable {d : Dialect} {field : String} {m : Rendering}

theorem error_ofExcluded {e : Error} (h : proposedOutcome d m.proposal? field = .error e) :
    (runAll (ofExcluded d field) m).1 = .error e := by
  have hproposed (p : Piece) : (runProposed field (m.put p)).1 = .error e := by
    have hput : (m.put p).proposal? = m.proposal? := rfl
    unfold proposedOutcome at h
    rw [runProposed, hput]
    cases hproposal : m.proposal? with
    | none =>
      rw [hproposal] at h
      cases h
      rfl
    | some target =>
      rw [hproposal] at h
      dsimp only at h ⊢
      cases hfield : target.model.field field with
      | ok f =>
        rw [hfield] at h
        cases h
      | error e' =>
        rw [hfield] at h
        cases h
        rfl
  have hlead (o : String) (back : List Fragment) :
      (runAll ([text o] ++ ([proposed field] ++ back)) m).1 = .error e := by
    have htext : runAll [text o] m = (.ok (), m.put (.text o)) := by rw [runAll_singleton, run]
    have hrun : runAll [proposed field] (m.put (.text o)) = runProposed field (m.put (.text o)) := by
      rw [runAll_singleton, run]
    rw [runAll_append_of_ok htext]
    rcases hout : runProposed field (m.put (.text o)) with ⟨o', m'⟩
    have := hproposed (.text o)
    rw [hout] at this
    cases this
    rw [runAll_append_of_error (hrun.trans hout)]
  unfold ofExcluded
  cases d.conflict with
  | mysql => exact hlead "VALUES(" [text ")"]
  | sqlite => exact hlead "EXCLUDED." []
  | postgres => exact hlead "EXCLUDED." []

theorem puts_ofExcluded {ps : List Piece} (h : proposedOutcome d m.proposal? field = .ok ps) :
    ∃ m', Puts (ofExcluded d field) m ps m' := by
  unfold proposedOutcome Model.field at h
  cases hproposal : m.proposal? with
  | none =>
    rw [hproposal] at h
    cases h
  | some target =>
    rw [hproposal] at h
    dsimp only at h
    cases hfield : target.model.field? field with
    | none =>
      rw [hfield] at h
      cases h
    | some f =>
      rw [hfield] at h
      cases h
      have hlead (o : String) : Puts [text o, proposed field] m [.text o, .name f.column]
          ((m.put (.text o)).put (.name f.column)) :=
        puts_cons.2 ⟨_, _, _, puts_text.2 ⟨rfl, rfl⟩,
          puts_proposed.2 ⟨target, f, hproposal, hfield, rfl, rfl⟩, rfl⟩
      unfold ofExcluded proposedColumn
      cases d.conflict with
      | mysql =>
        exact ⟨_, puts_append.2 ⟨_, _, _, hlead "VALUES(", puts_text.2 ⟨rfl, rfl⟩, rfl⟩⟩
      | sqlite => exact ⟨_, hlead "EXCLUDED."⟩
      | postgres => exact ⟨_, hlead "EXCLUDED."⟩

end Fragment

namespace Statement

variable {st : Statement} {d : Dialect} {s : Supply} {region : Region} {C : Setting}
  {codec : Option Field} {field : String} {m : Rendering}

theorem Reaches.renders_excluded (h : st.Reaches d s region C (.operand codec (.excluded field)) m) :
    st.Renders d s (.operand codec (.excluded field)) m
      (proposedOutcome d (region.proposal st) field) := by
  have hproposal := h.proposal?_eq
  have hfragments : (Part.operand codec (.excluded field)).fragments d = ofExcluded d field := by
    rw [Part.fragments, Expr.fragments]
  cases hout : proposedOutcome d (region.proposal st) field with
  | error e =>
    rw [← hproposal] at hout
    refine h.renders_error ?_
    rw [hfragments]
    exact error_ofExcluded hout
  | ok ps =>
    rw [← hproposal] at hout
    obtain ⟨m', hps⟩ := puts_ofExcluded hout
    rw [← hfragments] at hps
    exact h.renders_ok hps

/-- A reference in the region is a column of the target in what a conflict clause updates, or is
refused as a fault of the query. -/
def InPlace (st : Statement) (d : Dialect) (region : Region) (field : String) :
    Except Error (List Piece) → Prop
  | .ok ps => region = .inside true ∧
      ∃ i f, st = .insert i ∧ i.into.model.field? field = some f ∧ ps = proposedColumn d f.column
  | .error e => ∃ q, e = .query q

theorem inPlace_iff :
    st.InPlace d region field (proposedOutcome d (region.proposal st) field) ↔
      ¬ (region = .inside false ∧ ∃ i f, st = .insert i ∧ i.into.model.field? field = some f) := by
  have hnone (hproposal : region.proposal st = none)
      (hinsert : ∀ i, region = .inside false → st ≠ .insert i) :
      st.InPlace d region field (proposedOutcome d (region.proposal st) field) ↔
        ¬ (region = .inside false ∧ ∃ i f, st = .insert i ∧ i.into.model.field? field = some f) := by
    rw [hproposal]
    exact iff_of_true ⟨_, rfl⟩ fun ⟨hregion, i, _, hst, _⟩ => hinsert i hregion hst
  cases region with
  | outside => exact hnone rfl (by rintro i ⟨⟩)
  | inside updating =>
    cases st with
    | query q => exact hnone rfl (by rintro i - ⟨⟩)
    | update u => exact hnone rfl (by rintro i - ⟨⟩)
    | delete x => exact hnone rfl (by rintro i - ⟨⟩)
    | insert i =>
      rw [Region.proposal, proposal?, proposedOutcome, Model.field]
      cases hfield : i.into.model.field? field with
      | none =>
        refine iff_of_true ⟨_, rfl⟩ ?_
        rintro ⟨-, _, f, hst, hf⟩
        cases hst
        cases hfield.symm.trans hf
      | some f =>
        cases updating with
        | true =>
          refine iff_of_true ⟨rfl, i, f, rfl, hfield, rfl⟩ ?_
          rintro ⟨⟨⟩, -⟩
        | false =>
          refine iff_of_false ?_ (not_not_intro ⟨rfl, i, f, rfl, hfield⟩)
          rintro ⟨⟨⟩, -⟩

/-- A reference to the proposed row that compiling gets to is in place exactly if it does not stand in
the rest of an insert whose target has the field. In a compiled statement every part is got to, and
whatever refers to the proposed row, in any list of fragments, stands in the scope of an insert and
is a column of its target. -/
theorem excluded_in_place_iff (st : Statement) (d : Dialect) (s : Supply) :
    (∀ region C codec field m, st.Reaches d s region C (.operand codec (.excluded field)) m →
      ((∃ o, st.Renders d s (.operand codec (.excluded field)) m o ∧ st.InPlace d region field o) ↔
        ¬ (region = .inside false ∧
          ∃ i f, st = .insert i ∧ i.into.model.field? field = some f))) ∧
    ∀ r, (st.compile d s).1 = .ok r →
      (∀ region C t, st.Holds d region C t → ∃ m, st.Reaches d s region C t m) ∧
      ∀ (spot : Spot) field, st.fragments d = spot.fill [proposed field] →
        ∃ i f before back, st = .insert i ∧ spot.proposal = some i.into ∧
          i.into.model.field? field = some f ∧
          r = .ofPieces d (before ++ .name f.column :: back) := by
  refine ⟨fun region C codec field m h => ?_, fun r hr => ⟨fun region C t h => ?_, ?_⟩⟩
  · have hout := h.renders_excluded
    rw [← inPlace_iff (d := d)]
    exact ⟨fun ⟨o, ho, hplace⟩ => ho.unique hout ▸ hplace, fun hplace => ⟨_, hout, hplace⟩⟩
  · exact h.reaches_of_compile hr
  · intro spot field hspot
    obtain ⟨ps, _, hps, rfl, -⟩ := pieces_of_compile (Prod.ext hr rfl)
    rw [hspot] at hps
    obtain ⟨front, qs, back, rfl, m, m', harrive, -, hqs, -⟩ := Spot.puts_of_fill hps
    obtain ⟨target, f, htarget, hf, rfl, -⟩ := puts_proposed.1 hqs
    have hproposal : spot.proposal = some target := by
      have hstart : (Rendering.start s).proposal? = none := rfl
      rw [Spot.arrive_proposal? harrive, hstart, Option.or_none] at htarget
      exact htarget
    obtain ⟨scope, hscope, hmakes⟩ := Spot.scope_of_proposal hproposal [proposed field]
    rw [← hspot] at hscope
    have hst := st.scopes_proposal d scope hscope target hmakes
    cases st with
    | insert i =>
      cases hst
      exact ⟨i, f, front, back, rfl, hproposal, hf, by simp⟩
    | query q => cases hst
    | update u => cases hst
    | delete x => cases hst

end Statement

namespace Sample

def memoBody : Field := ⟨0, "body", "Memo", { name := "body", type := .text }⟩

def memo : ModelSource where
  model := {
    name := "Memo", table := "memos", fields := [memoBody], primaryKey := .absent, foreignKeys := [],
    indexes := [], reverse := [] }
  givenName := none

def proposedBody : Assignment := ⟨"body", .excluded "body"⟩

/-- A memo that takes the place of one with the same body. -/
def revised : Insert :=
  ((Insert.of memo).row [⟨"body", .literal (.text "a")⟩]).onConflictDo
    ((OnConflict.update.onFields ["body"]).set "body" (.excluded "body"))

/-- A memo of the body that it proposes itself. -/
def circular : Insert := (Insert.of memo).row [proposedBody]

theorem revised_in_place :
    ((Statement.insert revised).compile .sqlite ⟨0⟩).1 = .ok
      ⟨"INSERT INTO \"memos\" (\"body\") VALUES (?) ON CONFLICT (\"body\") DO UPDATE SET " ++
        "\"body\" = EXCLUDED.\"body\"", [.text "a"]⟩ ∧
    ∃ C f m o,
      (Statement.insert revised).Reaches .sqlite ⟨0⟩ (.inside true) C
        (.operand (some f) (.excluded "body")) m ∧
      (Statement.insert revised).Renders .sqlite ⟨0⟩ (.operand (some f) (.excluded "body")) m o ∧
      (Statement.insert revised).InPlace .sqlite (.inside true) "body" o := by
  have hcompile : ((Statement.insert revised).compile .sqlite ⟨0⟩).1 = .ok
      ⟨"INSERT INTO \"memos\" (\"body\") VALUES (?) ON CONFLICT (\"body\") DO UPDATE SET " ++
        "\"body\" = EXCLUDED.\"body\"", [.text "a"]⟩ := by
    with_unfolding_all rfl
  have hgives : (Statement.insert revised).Gives (.inside true) proposedBody :=
    .conflict rfl rfl (List.mem_singleton_self _)
  obtain ⟨C, f, -, hholds⟩ := hgives.holds rfl hcompile
  obtain ⟨hplace, hreached⟩ := Statement.excluded_in_place_iff (.insert revised) .sqlite ⟨0⟩
  obtain ⟨m, hm⟩ := (hreached _ hcompile).1 _ _ _ hholds
  obtain ⟨o, ho⟩ := (hplace _ _ _ _ _ hm).2 fun h => nomatch h.1
  exact ⟨hcompile, C, f, m, o, hm, ho⟩

/-- A row can refer to the proposed row, which is the row itself. -/
theorem circular_out_of_place :
    (Statement.insert circular).compile .sqlite ⟨0⟩ =
      (.ok ⟨"INSERT INTO \"memos\" (\"body\") VALUES (EXCLUDED.\"body\")", []⟩, ⟨0⟩) ∧
    ∃ C f m,
      (Statement.insert circular).Reaches .sqlite ⟨0⟩ (.inside false) C
        (.operand (some f) (.excluded "body")) m ∧
      ¬ ∃ o, (Statement.insert circular).Renders .sqlite ⟨0⟩
          (.operand (some f) (.excluded "body")) m o ∧
        (Statement.insert circular).InPlace .sqlite (.inside false) "body" o := by
  have hcompile : (Statement.insert circular).compile .sqlite ⟨0⟩ =
      (.ok ⟨"INSERT INTO \"memos\" (\"body\") VALUES (EXCLUDED.\"body\")", []⟩, ⟨0⟩) := by
    with_unfolding_all rfl
  have hgives : (Statement.insert circular).Gives (.inside false) proposedBody :=
    .row rfl (List.mem_singleton_self _) rfl
  obtain ⟨C, f, -, hholds⟩ := hgives.holds rfl (congrArg Prod.fst hcompile)
  obtain ⟨m, hm⟩ := hholds.reaches_of_compile (congrArg Prod.fst hcompile)
  refine ⟨hcompile, C, f, m, hm, ?_⟩
  rintro ⟨o, ho, hplace⟩
  rw [ho.unique hm.renders_excluded, Statement.inPlace_iff] at hplace
  exact hplace ⟨rfl, circular, memoBody, rfl, rfl⟩

end Sample

end SqlMapper
