import SqlMapper.Proofs.Join.Built
import SqlMapper.Proofs.Scope.Place
import SqlMapper.Proofs.Statement.Written

/-!
# SqlMapper.Proofs.Join.Text

The sources and the joins of a select in its text.

* `Named`: what the sources are called, in their order.
* `Introduces`, `Join.Written`: the text of a source in a `FROM` clause, and of a join.
* `Select.Sections`: the sections of a select, from its named queries to what comes after its joins.
* `Select.Written`: a text that consists of these sections, each once.
* `Select.Built.joins_written`: the joins of a select that was built are a tree, and every text of
  it goes through this tree in preorder.
-/

namespace SqlMapper

open Fragment Rendering

@[simp] theorem Source.origin_key (s : Source) : s.origin.key = s.key := by cases s <;> rfl

/-! ## Names of sources -/

/-- Sources with their names, in the order in which they are registered: aliases and the names of
tables stay as they are, and each of the other models gets a greater number than those before. -/
inductive Named : Nat → List (Source × String) → Prop
  | nil (n : Nat) : Named n []
  | given {n : Nat} {source : Source} {name : String} {rest : List (Source × String)} :
      source.origin.givenName? = some name → Named n rest → Named n ((source, name) :: rest)
  | generated {n k : Nat} {m : ModelSource} {rest : List (Source × String)} :
      m.givenName = none → n < k → Named k rest →
        Named n ((.model m, generatedName k) :: rest)

theorem Named.eq_of_given {n : Nat} {named : List (Source × String)} (h : Named n named)
    {source : Source} {name given : String} (hmem : (source, name) ∈ named)
    (hgiven : source.origin.givenName? = some given) : name = given := by
  induction h with
  | nil => cases hmem
  | given hfirst _ ih =>
    rcases List.mem_cons.1 hmem with heq | hmem
    · cases heq
      exact Option.some.inj (hfirst.symm.trans hgiven)
    · exact ih hmem
  | generated hnone _ _ ih =>
    rcases List.mem_cons.1 hmem with heq | hmem
    · cases heq
      cases hnone.symm.trans hgiven
    · exact ih hmem

def pairs (named : List (Source × String)) : List (String × String) :=
  named.map fun p => (p.1.key, p.2)

/-- The sources stand first in the scope. -/
def Heads (named : List (Source × String)) (r : Rendering) : Prop := pairs named <+: r.scope.sources

namespace Heads

variable {named : List (Source × String)} {r r' : Rendering}

theorem mono (h : Heads named r) (hr : r.Extends r') : Heads named r' := h.trans hr.sources

/-- What stands first is found first. -/
theorem lookup? (h : Heads named r) (hnodup : ((named.map Prod.fst).map Source.key).Nodup)
    {source : Source} {name : String} (hmem : (source, name) ∈ named) :
    r.lookup? source.key = some name := by
  obtain ⟨others, hothers⟩ := h
  have hfirst : (pairs named).lookup source.key = some name := by
    obtain ⟨front, back, rfl⟩ := List.append_of_mem hmem
    refine List.lookup_eq_some_iff.2 ⟨pairs front, pairs back, List.map_append, fun p hp => ?_⟩
    obtain ⟨q, hq, rfl⟩ := List.mem_map.1 hp
    rw [List.map_append, List.map_append, List.nodup_append] at hnodup
    have hq' : q.1.key ∈ (front.map Prod.fst).map Source.key := by
      rw [List.map_map]
      exact List.mem_map_of_mem hq
    have hne := hnodup.2.2 _ hq' source.key (List.mem_cons_self ..)
    simpa using fun heq => hne heq.symm
  rw [lookup?_eq, ← hothers, List.lookup_append, hfirst]
  rfl

end Heads

/-- The sources of a select get their names one after the other. -/
theorem exists_named (sources : List Source) {r : Rendering} (h : r.scope.byTable = false) :
    ∃ named, named.map Prod.fst = sources ∧ Named r.counter named ∧
      (r.enlistAll (sources.map Source.origin)).scope.sources =
        r.scope.sources ++ pairs named := by
  induction sources generalizing r with
  | nil => exact ⟨[], rfl, .nil _, (List.append_nil _).symm⟩
  | cons source sources ih =>
    have hbyTable : (r.enlist source.origin).scope.byTable = false :=
      (extends_enlist r source.origin).byTable.trans h
    obtain ⟨named, hsources, hnamed, hscope⟩ := ih hbyTable
    have hcons (name : String)
        (hname : (r.enlist source.origin).scope.sources = r.scope.sources ++ [(source.key, name)]) :
        (r.enlistAll ((source :: sources).map Source.origin)).scope.sources =
          r.scope.sources ++ pairs ((source, name) :: named) := by
      rw [List.map_cons, enlistAll, List.foldl_cons]
      exact hscope.trans (by rw [hname, List.append_assoc]; rfl)
    cases source with
    | table n => exact ⟨(.table n, n) :: named, by rw [List.map_cons, hsources], .given rfl hnamed,
        hcons n rfl⟩
    | derived q n => exact ⟨(.derived q n, n) :: named, by rw [List.map_cons, hsources],
        .given rfl hnamed, hcons n rfl⟩
    | model m =>
      cases hgiven : m.givenName with
      | some name =>
        have henlist : r.enlist (Source.model m).origin = r.record m.key name := by
          rw [Source.origin, Rendering.enlist, nameModel_given hgiven]
          rfl
        rw [henlist] at hnamed
        exact ⟨(.model m, name) :: named, by rw [List.map_cons, hsources], .given hgiven hnamed,
          hcons name (by rw [henlist]; rfl)⟩
      | none =>
        have henlist : r.enlist (Source.model m).origin =
            { r with counter := r.freshNumber }.record m.key (generatedName r.freshNumber) := by
          rw [Source.origin, Rendering.enlist, nameModel_fresh hgiven h]
          rfl
        rw [henlist] at hnamed
        exact ⟨(.model m, generatedName r.freshNumber) :: named, by rw [List.map_cons, hsources],
          .generated hgiven (lt_freshNumber r) hnamed, hcons _ (by rw [henlist]; rfl)⟩

/-! ## The text of a source -/

/-- What is written where a source is added. -/
inductive Introduces (d : Dialect) : Source → String → List Piece → Prop
  | model (m : ModelSource) (name : String) :
      Introduces d (.model m) name (.name m.model.table ::
        if name = m.model.table then [] else [.text " AS ", .name name])
  | table (name : String) : Introduces d (.table name) name [.name name]
  | derived {q : Query} (name : String) {r r' : Rendering} {body : List Piece} :
      Puts (q.fragments d) r body r' →
        Introduces d (.derived q name) name
          (.text "(" :: body ++ [.text ")", .text " AS ", .name name])

theorem introduces_of_puts {d : Dialect} {source : Source} {name : String} {r r' : Rendering}
    {ps : List Piece} (hname : r.lookup? source.key = some name)
    (hgiven : ∀ given, source.origin.givenName? = some given → name = given)
    (h : Puts (source.fragments d) r ps r') : Introduces d source name ps := by
  cases source with
  | model m =>
    obtain ⟨-, rfl⟩ := puts_modelTable.1 h
    have hmodel : r.modelName m = (name, r) := by
      rw [modelName, show r.lookup? m.key = some name from hname]
    rw [hmodel]
    exact .model m name
  | table n =>
    obtain ⟨-, rfl⟩ := puts_identifier.1 h
    rw [hgiven n rfl]
    exact .table n
  | derived q n =>
    rw [hgiven n rfl]
    have hfragments : Source.fragments d (.derived q n) =
        [text "("] ++ (q.fragments d ++ ([text ")"] ++ ([text " AS "] ++ [identifier n]))) := by
      simp [Source.fragments, ofSource, parenthesized, enclosed]
    rw [hfragments] at h
    obtain ⟨_, _, _, hopen, hinside, rfl⟩ := puts_append.1 h
    obtain ⟨_, body, _, hbody, hbehind, rfl⟩ := puts_append.1 hinside
    obtain ⟨_, _, _, hclose, hend, rfl⟩ := puts_append.1 hbehind
    obtain ⟨_, _, _, has, halias, rfl⟩ := puts_append.1 hend
    obtain ⟨-, rfl⟩ := puts_text.1 hopen
    obtain ⟨-, rfl⟩ := puts_text.1 hclose
    obtain ⟨-, rfl⟩ := puts_text.1 has
    obtain ⟨-, rfl⟩ := puts_identifier.1 halias
    exact .derived n hbody

/-! ## The text of a join -/

/-- What is written as the condition of a join. A foreign key is equated in the side that declares
it, under the name of this side, with what it refers to in the other. -/
inductive Join.WritesCondition (d : Dialect) (named : List (Source × String)) (j : Join) :
    List Piece → Prop
  | forward {r : Relation} {start target : ModelSource} {a b : String} :
      j.on = .relation r → r.kind = .manyToOne → start.key = j.context →
        j.target = .model target → (.model start, a) ∈ named → (.model target, b) ∈ named →
          r.foreignKey ∈ start.model.foreignKeys → r.foreignKey.target = target.model.name →
            WritesCondition d named j
              (equation a r.foreignKey.column b r.foreignKey.targetColumn)
  | backward {r : Relation} {start target : ModelSource} {a b : String} :
      j.on = .relation r → r.kind = .oneToMany → start.key = j.context →
        j.target = .model target → (.model start, a) ∈ named → (.model target, b) ∈ named →
          r.foreignKey ∈ target.model.foreignKeys → r.foreignKey.target = start.model.name →
            start.model ≠ target.model →
              WritesCondition d named j
                (equation b r.foreignKey.column a r.foreignKey.targetColumn)
  | condition {c : Condition} {r r' : Rendering} {ps : List Piece} :
      j.on = .condition c → Heads named r → Puts (c.fragments d) r ps r' →
        WritesCondition d named j (.text " ON " :: ps)
  | always : j.on = .always → WritesCondition d named j []

/-- What is written for a join: its keyword, the source that it adds, and its condition. -/
def Join.Written (d : Dialect) (named : List (Source × String)) (j : Join) (ps : List Piece) :
    Prop :=
  ∃ name source condition, (j.target, name) ∈ named ∧ Introduces d j.target name source ∧
    j.WritesCondition d named condition ∧
      ps = .text (" " ++ j.kind.keyword ++ " ") :: source ++ condition

section

variable {d : Dialect} {named : List (Source × String)} {n : Nat} {r r' : Rendering}
  {ps : List Piece}

theorem Join.writesCondition_of_puts {j : Join} (hheads : Heads named r)
    (hnodup : ((named.map Prod.fst).map Source.key).Nodup)
    (hrelated : j.Related (named.map Prod.fst)) {name : String} (hname : (j.target, name) ∈ named)
    (h : Puts (j.on.fragments d j.context j.target.key) r ps r') :
    j.WritesCondition d named ps := by
  cases hon : j.on with
  | relation rel =>
    obtain ⟨start, target, hstart, hkey, htarget, hrelates⟩ := hrelated rel hon
    obtain ⟨⟨_, a⟩, ha, rfl⟩ := List.mem_map.1 hstart
    rw [htarget] at hname
    have hlookupa : r.lookup? j.context = some a := hkey ▸ hheads.lookup? hnodup ha
    have hlookupb : r.lookup? j.target.key = some name := htarget ▸ hheads.lookup? hnodup hname
    rw [hon, JoinOn.fragments, ofRelation] at h
    unfold Relation.Relates at hrelates
    cases hkind : rel.kind with
    | manyToOne =>
      rw [hkind] at h hrelates
      obtain ⟨c, p, hc, hp, rfl, -⟩ := puts_equated.1 h
      cases hlookupa.symm.trans hc
      cases hlookupb.symm.trans hp
      exact .forward hon hkind hkey htarget ha hname hrelates.1 hrelates.2
    | oneToMany =>
      rw [hkind] at h hrelates
      obtain ⟨c, p, hc, hp, rfl, -⟩ := puts_equated.1 h
      cases hlookupb.symm.trans hc
      cases hlookupa.symm.trans hp
      exact .backward hon hkind hkey htarget ha hname hrelates.1 hrelates.2.1 hrelates.2.2
  | condition c =>
    rw [hon, JoinOn.fragments, clause] at h
    obtain ⟨_, _, _, hword, hc, rfl⟩ := puts_cons.1 h
    obtain ⟨rfl, rfl⟩ := puts_text.1 hword
    exact .condition hon (hheads.mono (.put ..)) hc
  | always =>
    rw [hon, JoinOn.fragments] at h
    obtain ⟨-, rfl⟩ := puts_nil.1 h
    exact .always hon

theorem Join.written_of_puts {j : Join} (hheads : Heads named r) (hnamed : Named n named)
    (hnodup : ((named.map Prod.fst).map Source.key).Nodup)
    (htarget : j.target ∈ named.map Prod.fst) (hrelated : j.Related (named.map Prod.fst))
    (h : Puts (j.fragments d).content.2 r ps r') : j.Written d named ps := by
  obtain ⟨⟨_, name⟩, hname, rfl⟩ := List.mem_map.1 htarget
  have hcontent : (j.fragments d).content.2 = [text (" " ++ j.kind.keyword ++ " ")] ++
      (j.target.fragments d ++ j.on.fragments d j.context j.target.key) := by
    cases j
    simp [Join.fragments]
  rw [hcontent] at h
  obtain ⟨r₁, _, _, hword, hrest, rfl⟩ := puts_append.1 h
  obtain ⟨r₂, source, condition, hsource, hcondition, rfl⟩ := puts_append.1 hrest
  obtain ⟨rfl, rfl⟩ := puts_text.1 hword
  have hheads₁ : Heads named (r.put (.text (" " ++ j.kind.keyword ++ " "))) :=
    hheads.mono (.put ..)
  exact ⟨name, source, condition, hname,
    introduces_of_puts (hheads₁.lookup? hnodup hname)
      (fun _ hgiven => hnamed.eq_of_given hname hgiven) hsource,
    writesCondition_of_puts (hheads₁.mono hsource.1.extends) hnodup hrelated hname hcondition,
    rfl⟩

/-- Joins are written one after the other. -/
theorem Join.texts_of_puts {js : List Join} (hheads : Heads named r) (hnamed : Named n named)
    (hnodup : ((named.map Prod.fst).map Source.key).Nodup)
    (htarget : ∀ j ∈ js, j.target ∈ named.map Prod.fst)
    (hrelated : ∀ j ∈ js, j.Related (named.map Prod.fst))
    (h : Puts (js.flatMap fun j => (j.fragments d).content.2) r ps r') :
    ∃ texts, List.Forall₂ (Join.Written d named) js texts ∧ ps = texts.flatten := by
  induction js generalizing r ps with
  | nil =>
    obtain ⟨-, rfl⟩ := puts_nil.1 h
    exact ⟨[], .nil, rfl⟩
  | cons j js ih =>
    rw [List.flatMap_cons] at h
    obtain ⟨m, qs, qs', hj, hjs, rfl⟩ := puts_append.1 h
    obtain ⟨texts, htexts, rfl⟩ := ih (hheads.mono hj.1.extends)
      (fun i hi => htarget i (List.mem_cons_of_mem _ hi))
      (fun i hi => hrelated i (List.mem_cons_of_mem _ hi)) hjs
    have hwritten := Join.written_of_puts hheads hnamed hnodup (htarget j (List.mem_cons_self ..))
      (hrelated j (List.mem_cons_self ..)) hj
    exact ⟨qs :: texts, .cons hwritten htexts, rfl⟩

end

/-! ## The text of a select -/

namespace Select

/-- The sections of the text of a select with that root: its named queries, the columns, the root,
the joins one by one, and the clauses after them. The sources are named in the order of the walk,
with numbers from where the named queries leave the counter. -/
structure Sections (d : Dialect) (s : Select) (root : Source) (n : Nat)
    (named : List (Source × String)) (ctes head source : List Piece) (joins : List (List Piece))
    (tail : List Piece) : Prop where
  sources : named.map Prod.fst = root :: s.walk.map Join.target
  ctes : ∃ r r', r.counter = n ∧ Puts (ofCtes s.ctes (Cte.listFragments d s.ctes)) r ctes r' ∧
    Named r'.counter named
  head : ∃ r r', Heads named r ∧
    Puts ([text "SELECT "] ++ s.distinct.fragments d ++ s.projectionFragments d) r head r'
  source : ∃ name, (root, name) ∈ named ∧ Introduces d root name source
  joins : List.Forall₂ (Join.Written d named) s.walk joins
  tail : ∃ r r', Heads named r ∧ Puts (s.tailFragments d) r tail r'

/-- The text consists of these sections, with nothing between them but the word before the root. -/
def Written (d : Dialect) (s : Select) (root : Source) (n : Nat) (ps : List Piece) : Prop :=
  ∃ (named : List (Source × String)) (ctes head source : List Piece) (joins : List (List Piece))
    (tail : List Piece),
    s.Sections d root n named ctes head source joins tail ∧
      ps = ctes ++ head ++ .text " FROM " :: source ++ joins.flatten ++ tail

variable {s : Select} {root : Source}

theorem origins_eq (h : s.source = some root) :
    s.origins = (root :: s.walk.map Join.target).map Source.origin := by
  rw [origins, h, List.map_cons, List.map_map]
  rfl

theorem walk_eq (h : s.source = some root) : s.walk = Join.walk s.joins root.key := by
  rw [walk, h]

namespace Joined

theorem sources_perm (h : s.Joined) (hroot : s.source = some root) :
    s.sources.Perm (root :: s.walk.map Join.target) := by
  rw [sources, hroot, walk_eq hroot]
  exact ((h.tree root hroot).perm.map Join.target).symm.cons root

/-- Every run through the fragments of the select writes its joins. -/
theorem written (h : s.Joined) (hroot : s.source = some root) {d : Dialect} {r r' : Rendering}
    {ps : List Piece} (hputs : Puts (s.fragments d) r ps r') : s.Written d root r.counter ps := by
  have hperm := h.sources_perm hroot
  have hnodup : ((root :: s.walk.map Join.target).map Source.key).Nodup := by
    refine (hperm.map Source.key).nodup_iff.1 ?_
    rw [keys_eq hroot]
    exact (h.tree root hroot).nodup
  rw [fragments_eq] at hputs
  obtain ⟨r₁, ctes, _, hctes, hnested, rfl⟩ := puts_append.1 hputs
  obtain ⟨_, hbody, -⟩ := puts_nested.1 hnested
  rw [puts_enlist_append] at hbody
  obtain ⟨named, hsources, hnamed, hscope⟩ := exists_named (root :: s.walk.map Join.target)
    (r := r₁.enter (selectScope s.origins)) rfl
  rw [← origins_eq hroot] at hscope
  have hheads : Heads named ((r₁.enter (selectScope s.origins)).enlistAll s.origins) := by
    rw [Heads, hscope]
    exact List.prefix_rfl
  rw [← hsources] at hnodup
  have hhead : s.headFragments d = ([text "SELECT "] ++ s.distinct.fragments d ++
      s.projectionFragments d) ++ ([text " FROM "] ++ root.fragments d) := by
    rw [headFragments, hroot]
    rfl
  rw [hhead, List.append_assoc _ ([text " FROM "] ++ _)] at hbody
  obtain ⟨r₂, head, _, hselect, hrest, rfl⟩ := puts_append.1 hbody
  obtain ⟨r₃, _, _, hfrom, hbehind, rfl⟩ := puts_append.1 hrest
  obtain ⟨r₄, _, tail, hjoins, htail, rfl⟩ := puts_append.1 hbehind
  obtain ⟨_, _, source, hword, hsource, rfl⟩ := puts_append.1 hfrom
  obtain ⟨rfl, rfl⟩ := puts_text.1 hword
  obtain ⟨⟨_, name⟩, hname, rfl⟩ : ∃ p ∈ named, p.1 = root :=
    List.mem_map.1 (hsources ▸ List.mem_cons_self ..)
  have hheads₂ := (hheads.mono hselect.1.extends).mono (.put _ (.text " FROM "))
  have hheads₃ := hheads₂.mono hsource.1.extends
  obtain ⟨joins, hwritten, rfl⟩ := Join.texts_of_puts hheads₃ hnamed hnodup
    (fun j hj => by
      rw [hsources]
      exact List.mem_cons_of_mem _ (List.mem_map_of_mem hj))
    (fun j hj rel hrel => by
      rw [hsources]
      obtain ⟨start, target, hstart, hrest⟩ := h.related j (mem_of_mem_walk hj) rel hrel
      exact ⟨start, target, hperm.subset hstart, hrest⟩) hjoins
  refine ⟨named, ctes, head, source, joins, tail, ?_, by simp⟩
  exact {
    sources := hsources
    ctes := ⟨r, r₁, rfl, hctes, hnamed⟩
    head := ⟨_, r₂, hheads, hselect⟩
    source := ⟨name, hname, introduces_of_puts (hheads₂.lookup? hnodup hname)
      (fun _ hgiven => hnamed.eq_of_given hname hgiven) hsource⟩
    joins := hwritten
    tail := ⟨r₄, _, hheads₃.mono hjoins.1.extends, htail⟩ }

end Joined

/-- The context is the key of a source. Only a select without sources has none, and it joins
nothing. -/
def HasContext (s : Select) : Prop :=
  match s.source with
  | none => s.context = none ∧ s.joins = []
  | some root =>
    ∃ source ∈ root :: s.joins.map Join.target, s.context = some source.key

theorem Joined.hasContext (h : s.Joined) : s.HasContext := by
  unfold HasContext
  split
  · next hnone => exact h.rootless hnone
  · next root hroot =>
    have hcontext := h.context root hroot
    rwa [sources, hroot] at hcontext

theorem Joined.nodup_keys (h : s.Joined) :
    ((s.source.toList ++ s.joins.map Join.target).map Source.key).Nodup := by
  cases hsource : s.source with
  | none =>
    rw [(h.rootless hsource).2]
    exact List.nodup_nil
  | some root =>
    rw [← hsource]
    exact (keys_eq hsource).symm ▸ (h.tree root hsource).nodup

/-- The joins of a select that was built are a tree, and the walk comes to each of them once, in
preorder, after the source that it starts at. Every text of the select has its joins in this
order, each once, wherever the select stands; `Select.Sections` says what is written for them. -/
theorem Built.joins_written (h : s.Built) :
    ((s.source.toList ++ s.joins.map Join.target).map Source.key).Nodup ∧ s.HasContext ∧
      ∀ root, s.source = some root →
        s.walk.Perm s.joins ∧
          Join.Preorder s.joins (Join.startingAt s.joins root.key) s.walk ∧
          Join.Rooted [root.key] s.walk ∧
          (∀ steps, s.joins.length ≤ steps → Join.walkBelow s.joins steps root.key = s.walk) ∧
          (∀ d r ps r', Puts (s.fragments d) r ps r' → s.Written d root r.counter ps) ∧
          ∀ d supply supply' rendered,
            (Statement.query (.simple s)).compile d supply = (.ok rendered, supply') →
              ∃ ps, rendered = .ofPieces d ps ∧ s.Written d root 0 ps := by
  have hjoined := h.joined
  refine ⟨hjoined.nodup_keys, hjoined.hasContext, fun root hroot => ?_⟩
  have htree := hjoined.tree root hroot
  rw [walk_eq hroot]
  refine ⟨htree.perm, htree.preorder, htree.rooted_walk, fun _ => htree.walkBelow_eq_walk,
    fun _ _ _ _ => hjoined.written hroot, fun d supply supply' rendered hcompile => ?_⟩
  obtain ⟨ps, _, hputs, hrendered, -⟩ := Statement.pieces_of_compile hcompile
  exact ⟨ps, hrendered, hjoined.written hroot hputs⟩

end Select

namespace Sample

def person : Model where
  name := "Person"
  table := "people"
  fields := [⟨0, "id", "Person", { name := "id", type := .bigInt, primaryKey := true }⟩,
    ⟨1, "boss_id", "Person", { name := "boss", type := .bigInt }⟩]
  primaryKey := .single 0
  foreignKeys := [⟨"boss", "boss_id", "Person", "people", "id", "id", none⟩]
  indexes := []
  reverse := []

def task : Model where
  name := "Task"
  table := "tasks"
  fields := [⟨0, "owner_id", "Task", { name := "owner", type := .bigInt }⟩]
  primaryKey := .absent
  foreignKeys := [⟨"owner", "owner_id", "Person", "people", "id", "id", none⟩]
  indexes := []
  reverse := []

def tasks : ModelSource := ⟨task, none⟩
def people : ModelSource := ⟨person, none⟩
def bosses : ModelSource := ⟨person, some "b"⟩

/-- People with their tasks and with their bosses, and then a log beside the tasks. -/
def team : Select :=
  { Select.ofModel people with
    context := some "log"
    joins := [
      ⟨"Person", .model tasks, .inner, .relation (.backward person task
        ⟨"owner", "owner_id", "Person", "people", "id", "id", none⟩), none⟩,
      ⟨"Person", .model bosses, .leftOuter, .relation (.forward person person
        ⟨"boss", "boss_id", "Person", "people", "id", "id", none⟩), none⟩,
      ⟨"Task", .table "log", .cross, .always, none⟩] }

def teamPieces : List Piece :=
  [.text "SELECT ", .name "t1", .text ".", .name "id", .text ", ", .name "t1", .text ".",
    .name "boss_id", .text " FROM ", .name "people", .text " AS ", .name "t1",
    .text " INNER JOIN ", .name "tasks", .text " AS ", .name "t2"] ++
    equation "t2" "owner_id" "t1" "id" ++
    [.text " CROSS JOIN ", .name "log", .text " LEFT OUTER JOIN ", .name "people", .text " AS ",
      .name "b"] ++ equation "t1" "boss_id" "b" "id"

theorem team_built : team.Built := by
  have htasks : Select.Built { team with context := some "Task", joins := team.joins.take 1 } :=
    .join (m := tasks) (.ofModel people) (by with_unfolding_all rfl)
  have hbosses : Select.Built { team with context := some "b", joins := team.joins.take 2 } :=
    .leftOuterJoin (m := bosses) htasks.resetContext (by with_unfolding_all rfl)
  have hswitched : Select.Built { team with context := some "Task", joins := team.joins.take 2 } :=
    .switch (m := tasks) hbosses (by with_unfolding_all rfl)
  have hlog : Select.crossJoin { team with context := some "Task", joins := team.joins.take 2 }
      (.table "log") = .ok team := by with_unfolding_all rfl
  exact .crossJoin hswitched hlog

/-- The log comes before the bosses, for it hangs off the tasks. -/
theorem team_joins_written :
    team.Built ∧
      (Statement.query (.simple team)).compile .sqlite ⟨0⟩ =
        (.ok (.ofPieces .sqlite teamPieces), ⟨0⟩) ∧
      Join.targets team.walk = ["Task", "log", "b"] ∧ team.walk.Perm team.joins ∧
        ∃ ps, Rendered.ofPieces .sqlite teamPieces = .ofPieces .sqlite ps ∧
          team.Written .sqlite (.model people) 0 ps := by
  have hcompile : (Statement.query (.simple team)).compile .sqlite ⟨0⟩ =
      (.ok (.ofPieces .sqlite teamPieces), ⟨0⟩) := by with_unfolding_all rfl
  obtain ⟨-, -, htree⟩ := Select.Built.joins_written team_built
  obtain ⟨hperm, -, -, -, -, hwritten⟩ := htree (.model people) rfl
  exact ⟨team_built, hcompile, by with_unfolding_all rfl, hperm, hwritten _ _ _ _ hcompile⟩

end Sample

end SqlMapper
