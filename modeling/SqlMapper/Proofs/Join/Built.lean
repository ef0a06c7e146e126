import SqlMapper.Proofs.Join.Preorder
import SqlMapper.Query.Select

/-!
# SqlMapper.Proofs.Join.Built

Selects as they are built.

* `Select.Built`: any history of builder calls that succeed.
* `Select.Joined`: the joins of a select are a tree over its sources, its context is one of them,
  and a join by a foreign key is by a key of one of its two ends to the other.
* `Select.Built.joined`: every history leads to such a select.
-/

namespace SqlMapper

/-! ## Foreign keys -/

namespace Relation

/-- The foreign key is one of `start` that refers to `target`, or the other way round. A model that
is joined to itself refers from the side where the join starts. -/
def Relates (r : Relation) (start target : Model) : Prop :=
  match r.kind with
  | .manyToOne => r.foreignKey ∈ start.foreignKeys ∧ r.foreignKey.target = target.name
  | .oneToMany =>
    r.foreignKey ∈ target.foreignKeys ∧ r.foreignKey.target = start.name ∧ start ≠ target

variable {start target : Model} {r : Relation} {k : ForeignKey} {field : String}

theorem mem_foreignKeysTo {m : Model} {name : String} :
    k ∈ m.foreignKeysTo name ↔ k ∈ m.foreignKeys ∧ k.target = name := by
  simp [Model.foreignKeysTo]

theorem relates_of_mem_candidates (h : r ∈ candidates start target) : r.Relates start target := by
  unfold candidates at h
  rcases List.mem_append.1 h with hforward | hbackward
  · obtain ⟨k, hk, rfl⟩ := List.mem_map.1 hforward
    exact mem_foreignKeysTo.1 hk
  · split at hbackward
    · cases hbackward
    · next hname =>
      obtain ⟨k, hk, rfl⟩ := List.mem_map.1 hbackward
      obtain ⟨hmem, htarget⟩ := mem_foreignKeysTo.1 hk
      exact ⟨hmem, htarget, fun hself => hname (congrArg Model.name hself)⟩

theorem relates_of_between (h : between start target = .ok r) : r.Relates start target := by
  unfold between at h
  split at h
  · cases h
  · next s hcandidates =>
    cases h
    exact relates_of_mem_candidates (hcandidates ▸ List.mem_singleton_self r)
  · cases h

theorem of_keyTo? (h : keyTo? start target field = some k) :
    k ∈ start.foreignKeys ∧ k.target = target.name := by
  obtain ⟨hfind, htarget⟩ := Option.filter_eq_some_iff.1 h
  exact ⟨List.mem_of_find?_eq_some hfind, by simpa using htarget⟩

theorem relates_of_through (h : through start target field = .ok r) : r.Relates start target := by
  unfold through at h
  split at h
  · next hkey =>
    cases h
    exact of_keyTo? hkey
  · next hnone hkey =>
    cases h
    obtain ⟨hmem, htarget⟩ := of_keyTo? hkey
    refine ⟨hmem, htarget, fun hself => ?_⟩
    subst hself
    rw [hkey] at hnone
    cases hnone
  · cases h

end Relation

/-- A join by a foreign key is by one between the models at its ends. -/
def Join.Related (sources : List Source) (j : Join) : Prop :=
  ∀ r, j.on = .relation r → ∃ start target : ModelSource,
    .model start ∈ sources ∧ start.key = j.context ∧ j.target = .model target ∧
      r.Relates start.model target.model

namespace Select

/-! ## Histories -/

/-- What can be set on a select besides its sources. -/
inductive Clause
  | columns (es : List Expr)
  | moreColumns (es : List Expr)
  | distinctRows
  | distinctOn (es : List Expr)
  | filter (c : Condition)
  | orFilter (c : Condition)
  | groupBy (es : List Expr)
  | having (c : Condition)
  | window (w : Window)
  | orderBy (ts : List OrderTerm)
  | moreOrder (ts : List OrderTerm)
  | limit (n : Nat)
  | offset (n : Nat)
  | page (page perPage : Nat)
  | cte (c : Cte)
  | forUpdate

def set (s : Select) : Clause → Select
  | .columns es => s.select es
  | .moreColumns es => s.selectMore es
  | .distinctRows => s.distinctRows
  | .distinctOn es => s.distinctOn es
  | .filter c => s.filtered c
  | .orFilter c => s.orFiltered c
  | .groupBy es => s.grouped es
  | .having c => s.filteredGroups c
  | .window w => s.window w
  | .orderBy ts => s.ordered ts
  | .moreOrder ts => s.thenOrdered ts
  | .limit n => s.limited n
  | .offset n => s.skipping n
  | .page page perPage => s.paginate page perPage
  | .cte c => s.withCte c
  | .forUpdate => s.lockRows

@[simp] theorem set_source (s : Select) (c : Clause) : (s.set c).source = s.source := by
  cases c <;> rfl
@[simp] theorem set_context (s : Select) (c : Clause) : (s.set c).context = s.context := by
  cases c <;> rfl
@[simp] theorem set_joins (s : Select) (c : Clause) : (s.set c).joins = s.joins := by
  cases c <;> rfl

/-- What comes of a history of calls that succeed. -/
inductive Built : Select → Prop
  | ofModel (m : ModelSource) : Built (.ofModel m)
  | ofTable (name : String) : Built (.ofTable name)
  | ofCte (c : Cte) : Built (.ofCte c)
  | ofQuery {q : Query} {name : String} {s : Select} : Select.ofQuery q name = .ok s → Built s
  | values (es : List Expr) : Built (.values es)
  | counted {s : Select} : Built s → Built s.counted
  | set {s : Select} (c : Clause) : Built s → Built (s.set c)
  | join {s t : Select} {m : ModelSource} : Built s → s.join m = .ok t → Built t
  | leftOuterJoin {s t : Select} {m : ModelSource} :
      Built s → s.leftOuterJoin m = .ok t → Built t
  | joinWith {s t : Select} {m : ModelSource} {kind : JoinKind} {on : Option Condition}
      {exposedAs : Option String} : Built s → s.joinWith m kind on exposedAs = .ok t → Built t
  | joinOn {s t : Select} {target : Source} {kind : JoinKind} {c : Condition} :
      Built s → s.joinOn target kind c = .ok t → Built t
  | joinVia {s t : Select} {m : ModelSource} {kind : JoinKind} {field : String} :
      Built s → s.joinVia m kind field = .ok t → Built t
  | crossJoin {s t : Select} {target : Source} :
      Built s → s.crossJoin target = .ok t → Built t
  | joinFrom {s t : Select} {start m : ModelSource} :
      Built s → s.joinFrom start m = .ok t → Built t
  | switch {s t : Select} {m : ModelSource} : Built s → s.switch m = .ok t → Built t
  | resetContext {s : Select} : Built s → Built s.resetContext

/-! ## What a call needs -/

variable {s t : Select} {key : String}

theorem exists_source_of_isSome (h : (s.source? key).isSome) :
    ∃ source ∈ s.sources, source.key = key := by
  obtain ⟨source, hmem, hkey⟩ := List.find?_isSome.1 h
  exact ⟨source, hmem, beq_iff_eq.1 hkey⟩

theorem contextModel_ok {m : ModelSource} (h : s.contextModel = .ok m) :
    s.context = some m.key ∧ .model m ∈ s.sources := by
  unfold contextModel at h
  split at h
  · cases h
  · next key hcontext =>
    split at h
    · next m' hmodel =>
      cases h
      obtain ⟨source, hsource, hm⟩ := Option.bind_eq_some_iff.1 hmodel
      have hkey : source.key = key := by simpa using List.find?_some hsource
      cases source with
      | model n =>
        cases hm
        rw [← hkey] at hcontext
        exact ⟨hcontext, List.mem_of_find?_eq_some hsource⟩
      | table n => cases hm
      | derived q n => cases hm
    · cases h

theorem addJoin_ok {target : Source} {kind : JoinKind} {on : JoinOn} {exposedAs : Option String}
    (h : s.addJoin target kind on exposedAs = .ok t) :
    ∃ context, s.context = some context ∧ target.key ∉ s.sources.map Source.key ∧
      t = { s with
        joins := s.joins ++ [⟨context, target, kind, on, exposedAs⟩]
        context := some target.key } := by
  unfold addJoin at h
  cases hcontext : s.context with
  | none =>
    rw [hcontext] at h
    cases h
  | some context =>
    rw [hcontext] at h
    by_cases hknown : (s.source? target.key).isSome = true
    · simp only [hknown, if_true] at h
      cases h
    · have hnew : target.key ∉ s.sources.map Source.key := fun hmem => by
        obtain ⟨source, hsource, hkey⟩ := List.mem_map.1 hmem
        exact hknown (List.find?_isSome.2 ⟨source, hsource, beq_iff_eq.2 hkey⟩)
      refine ⟨context, rfl, hnew, ?_⟩
      simp only [hknown] at h
      cases exposedAs with
      | none =>
        cases h
        rfl
      | some name =>
        cases hcheck : s.checkExposed context name with
        | error e =>
          simp only [hcheck] at h
          cases h
        | ok _ =>
          simp only [hcheck] at h
          cases h
          rfl

theorem switch_ok {m : ModelSource} (h : s.switch m = .ok t) :
    (∃ source ∈ s.sources, source.key = m.key) ∧ t = { s with context := some m.key } := by
  unfold switch at h
  split at h
  · next hsome =>
    cases h
    exact ⟨exists_source_of_isSome hsome, rfl⟩
  · cases h

/-! ## Joined selects -/

/-- The joins of the select are a tree over its sources. -/
structure Joined (s : Select) : Prop where
  rootless : s.source = none → s.context = none ∧ s.joins = []
  tree : ∀ root, s.source = some root → Join.Tree root.key s.joins
  context : ∀ root, s.source = some root → ∃ source ∈ s.sources, s.context = some source.key
  related : ∀ j ∈ s.joins, j.Related s.sources

theorem keys_eq {root : Source} (h : s.source = some root) :
    s.sources.map Source.key = root.key :: Join.targets s.joins := by
  rw [sources, h, List.map_append, List.map_map]
  rfl

namespace Joined

theorem ofSource (source : Source) : (Select.ofSource source).Joined where
  rootless h := by cases h
  tree root h := by
    cases h
    exact .nil _
  context root _ := ⟨source, List.mem_singleton_self _, rfl⟩
  related j hj := by cases hj

/-- Only sources, joins and the context take part. -/
theorem congr (h : s.Joined) (hsource : t.source = s.source) (hcontext : t.context = s.context)
    (hjoins : t.joins = s.joins) : t.Joined := by
  have hsources : t.sources = s.sources := by rw [sources, sources, hsource, hjoins]
  refine ⟨?_, ?_, ?_, ?_⟩
  · rw [hsource, hcontext, hjoins]
    exact h.rootless
  · rw [hsource, hjoins]
    exact h.tree
  · rw [hsource, hcontext, hsources]
    exact h.context
  · rw [hjoins, hsources]
    exact h.related

/-- Another source of the select becomes its context. -/
theorem withContext (h : s.Joined) {source : Source} (hsource : source ∈ s.sources) :
    { s with context := some source.key }.Joined where
  rootless hnone := by
    have hempty : s.sources = [] := by
      rw [sources, show s.source = none from hnone, (h.rootless hnone).2]
      rfl
    rw [hempty] at hsource
    cases hsource
  tree := h.tree
  context _ _ := ⟨source, hsource, rfl⟩
  related := h.related

theorem switch (h : s.Joined) {m : ModelSource} (hswitch : s.switch m = .ok t) : t.Joined := by
  obtain ⟨⟨source, hmem, hkey⟩, rfl⟩ := switch_ok hswitch
  rw [← hkey]
  exact h.withContext hmem

theorem resetContext (h : s.Joined) : s.resetContext.Joined := by
  cases hsource : s.source with
  | none =>
    have hcontext : s.resetContext.context = none := by rw [Select.resetContext, hsource]; rfl
    exact h.congr rfl (hcontext.trans (h.rootless hsource).1.symm) rfl
  | some root =>
    have hmem : root ∈ s.sources := by
      rw [sources, hsource]
      exact List.mem_append_left _ (List.mem_singleton_self root)
    have hcontext : s.resetContext.context = some root.key := by
      rw [Select.resetContext, hsource]; rfl
    exact (h.withContext hmem).congr rfl hcontext rfl

/-- A join keeps the tree if it is related to the model that it starts at. -/
theorem addJoin (h : s.Joined) {target : Source} {kind : JoinKind} {on : JoinOn}
    {exposedAs : Option String} (hadd : s.addJoin target kind on exposedAs = .ok t)
    (hon : ∀ r, on = .relation r → ∃ start m : ModelSource,
      s.contextModel = .ok start ∧ target = .model m ∧ r.Relates start.model m.model) :
    t.Joined := by
  obtain ⟨context, hcontext, hnew, rfl⟩ := addJoin_ok hadd
  have hroot : ∃ root, s.source = some root := by
    cases hsource : s.source with
    | none =>
      rw [(h.rootless hsource).1] at hcontext
      cases hcontext
    | some root => exact ⟨root, rfl⟩
  obtain ⟨root, hsource⟩ := hroot
  rw [keys_eq hsource] at hnew
  -- The join starts at a source that is there already, so the tree goes on.
  have hstart : context ∈ root.key :: Join.targets s.joins := by
    obtain ⟨source, hmem, hkey⟩ := h.context root hsource
    rw [hcontext] at hkey
    cases hkey
    rw [← keys_eq hsource]
    exact List.mem_map_of_mem hmem
  have hsources (j : Join) :
      { s with joins := s.joins ++ [j], context := some target.key }.sources =
        s.sources ++ [j.target] := by
    rw [sources, sources, List.map_append, ← List.append_assoc]
    rfl
  refine ⟨fun hnone => ?_, fun root' hroot' => ?_, fun _ _ => ?_, fun j hj => ?_⟩
  · rw [show s.source = none from hnone] at hsource
    cases hsource
  · cases hsource.symm.trans hroot'
    exact (h.tree root hsource).concat hstart hnew
  · rw [hsources]
    exact ⟨target, List.mem_append_right _ (List.mem_singleton_self _), rfl⟩
  · intro r hr
    rw [hsources]
    rcases List.mem_append.1 hj with hj | hj
    · obtain ⟨start, m, hmem, hrest⟩ := h.related j hj r hr
      exact ⟨start, m, List.mem_append_left _ hmem, hrest⟩
    · cases List.mem_singleton.1 hj
      obtain ⟨start, m, hmodel, htarget, hrelates⟩ := hon r hr
      obtain ⟨hkey, hmem⟩ := contextModel_ok hmodel
      cases hcontext.symm.trans hkey
      exact ⟨start, m, List.mem_append_left _ hmem, rfl, htarget, hrelates⟩

theorem joinWith (h : s.Joined) {m : ModelSource} {kind : JoinKind} {on : Option Condition}
    {exposedAs : Option String} (hjoin : s.joinWith m kind on exposedAs = .ok t) : t.Joined := by
  have hfree {on : JoinOn} (hon : ∀ r, on ≠ .relation r)
      (hadd : s.addJoin (.model m) kind on exposedAs = .ok t) : t.Joined :=
    h.addJoin hadd fun r hr => absurd hr (hon r)
  have hinferred (hadd : (do
      let context ← s.contextModel
      let on := JoinOn.relation (← Relation.between context.model m.model)
      s.addJoin (.model m) kind on exposedAs) = .ok t) : t.Joined := by
    cases hcontext : s.contextModel with
    | error e =>
      rw [hcontext] at hadd
      cases hadd
    | ok context =>
      cases hbetween : Relation.between context.model m.model with
      | error e =>
        simp only [hcontext, Except.bind, bind, hbetween] at hadd
        cases hadd
      | ok r =>
        simp only [hcontext, Except.bind, bind, hbetween] at hadd
        refine h.addJoin hadd fun r' hr' => ?_
        cases hr'
        exact ⟨context, m, hcontext, rfl, Relation.relates_of_between hbetween⟩
  cases on with
  | some c => exact hfree (show ∀ r, JoinOn.condition c ≠ .relation r by simp) hjoin
  | none =>
    cases kind with
    | cross => exact hfree (show ∀ r, JoinOn.always ≠ .relation r by simp) hjoin
    | inner | leftOuter | rightOuter | fullOuter => exact hinferred hjoin

theorem joinVia (h : s.Joined) {m : ModelSource} {kind : JoinKind} {field : String}
    (hjoin : s.joinVia m kind field = .ok t) : t.Joined := by
  unfold Select.joinVia at hjoin
  cases hcontext : s.contextModel with
  | error e =>
    rw [hcontext] at hjoin
    cases hjoin
  | ok context =>
    cases hthrough : Relation.through context.model m.model field with
    | error e =>
      simp only [hcontext, Except.bind, bind, hthrough] at hjoin
      cases hjoin
    | ok r =>
      simp only [hcontext, Except.bind, bind, hthrough] at hjoin
      refine h.addJoin hjoin fun r' hr' => ?_
      cases hr'
      exact ⟨context, m, hcontext, rfl, Relation.relates_of_through hthrough⟩

end Joined

/-- Every history of builder calls leads to a select whose joins are a tree over its sources. -/
theorem Built.joined (h : s.Built) : s.Joined := by
  induction h with
  | ofModel m => exact .ofSource _
  | ofTable name => exact .ofSource _
  | ofCte c => exact .ofSource _
  | @ofQuery q name s h =>
    unfold Select.ofQuery at h
    cases hvalid : Identifier.validate name "subquery alias" with
    | error e =>
      rw [hvalid] at h
      cases h
    | ok _ =>
      rw [hvalid] at h
      cases h
      exact .ofSource _
  | values es =>
    exact ⟨fun _ => ⟨rfl, rfl⟩, fun _ h => (by cases h), fun _ h => (by cases h),
      fun _ h => (by cases h)⟩
  | @counted s _ _ => exact (Joined.ofSource (.derived (.simple s) "_wrapped")).congr rfl rfl rfl
  | set c _ ih => exact ih.congr (set_source ..) (set_context ..) (set_joins ..)
  | join _ hjoin ih => exact ih.joinWith hjoin
  | leftOuterJoin _ hjoin ih => exact ih.joinWith hjoin
  | joinWith _ hjoin ih => exact ih.joinWith hjoin
  | joinOn _ hjoin ih => exact ih.addJoin hjoin (by simp)
  | joinVia _ hjoin ih => exact ih.joinVia hjoin
  | crossJoin _ hjoin ih => exact ih.addJoin hjoin (by simp)
  | @joinFrom s t start m _ hjoin ih =>
    unfold Select.joinFrom at hjoin
    cases hswitch : s.switch start with
    | error e =>
      rw [hswitch] at hjoin
      cases hjoin
    | ok u =>
      rw [hswitch] at hjoin
      have hjoin' : u.join m = .ok t := hjoin
      exact (ih.switch hswitch).joinWith hjoin'
  | switch _ hswitch ih => exact ih.switch hswitch
  | resetContext _ ih => exact ih.resetContext

end Select

end SqlMapper
