import Mathlib.Data.List.Forall2
import Mathlib.Data.List.Nodup
import SqlMapper.Proofs.Computation
import SqlMapper.Schema.Registry

/-!
# SqlMapper.Proofs.Schema.Declared

What a registry makes of a declaration that it accepts. The registry is only looked at here; what
is written to it comes after.

* `Fields.Sound`: fields know their positions, and have names and columns of their own.
* `Field.Keyed`: the foreign key that a field declares, with what it records of its target.
* `Model.accessorsFor`: the accessors that the foreign keys of a model ask for on another.
* `Registry.Built`: all that is known of a model that was made from a declaration.
-/

namespace SqlMapper

/-! ## Lists -/

theorem exists_of_forall₂ {α β : Type} {R : α → β → Prop} {xs : List α} {ys : List β}
    (h : List.Forall₂ R xs ys) : ∀ y ∈ ys, ∃ x ∈ xs, R x y := by
  induction h with
  | nil => exact fun y hy => nomatch hy
  | cons hxy _ ih =>
    intro y hy
    rcases List.mem_cons.1 hy with rfl | hy
    · exact ⟨_, List.mem_cons_self .., hxy⟩
    · obtain ⟨x, hx, hxy⟩ := ih y hy
      exact ⟨x, List.mem_cons_of_mem _ hx, hxy⟩

theorem nodup_map_concat {α β : Type} {f : α → β} {xs : List α} {x : α} (h : (xs.map f).Nodup)
    (hx : ∀ y ∈ xs, f y ≠ f x) : ((xs ++ [x]).map f).Nodup := by
  rw [List.map_append, List.map_singleton, ← List.concat_eq_append]
  refine h.concat fun hmem => ?_
  obtain ⟨y, hy, hxy⟩ := List.mem_map.1 hmem
  exact hx y hy hxy

/-! ## Fields -/

structure Fields.Sound (fs : List Field) : Prop where
  ordinals : fs.map Field.ordinal = List.range fs.length
  names : (fs.map Field.name).Nodup
  columns : (fs.map Field.column).Nodup

theorem Fields.Sound.ordinal_lt {fs : List Field} (h : Fields.Sound fs) {f : Field} (hf : f ∈ fs) :
    f.ordinal < fs.length := by
  have hmem := List.mem_map_of_mem (f := Field.ordinal) hf
  rwa [h.ordinals, List.mem_range] at hmem

/-- The positions of the fields of a key. -/
def PrimaryKey.positions : PrimaryKey → List Nat
  | single i => [i]
  | composite is => is
  | absent => []

namespace Registry

theorem addField_ok {model : String} {fs fs' : List Field} {d : FieldDecl}
    (h : addField model fs d = .ok fs') :
    (∀ f ∈ fs, f.name ≠ d.name) ∧ (∀ f ∈ fs, f.column ≠ d.resolvedColumn) ∧
      fs' = fs ++ [⟨fs.length, d.resolvedColumn, model, d⟩] := by
  unfold addField at h
  dsimp only at h
  split at h
  · cases h
  · rename_i hname
    split at h
    · cases h
    · rename_i hcolumn
      cases h
      simp only [List.any_eq_true, beq_iff_eq, not_exists, not_and] at hname hcolumn
      exact ⟨hname, hcolumn, rfl⟩

theorem sound_addField {model : String} {fs fs' : List Field} {d : FieldDecl}
    (hfs : Fields.Sound fs) (h : addField model fs d = .ok fs') : Fields.Sound fs' := by
  obtain ⟨hname, hcolumn, rfl⟩ := addField_ok h
  refine ⟨?_, nodup_map_concat hfs.names hname, nodup_map_concat hfs.columns hcolumn⟩
  rw [List.map_append, hfs.ordinals, List.length_append]
  exact (List.range_succ ..).symm

theorem buildFields_sound {d : ModelDecl} {fs : List Field} (h : buildFields d = .ok fs) :
    Fields.Sound fs := by
  obtain ⟨decls, -, hrun⟩ := bind_eq_ok h
  exact foldlM_invariant (fun _ fs => Fields.Sound fs) [] hrun
    ⟨rfl, List.nodup_nil, List.nodup_nil⟩ fun _ _ _ _ hfs hadd => sound_addField hfs hadd

/-! ## Primary keys -/

theorem namedField_mem {d : ModelDecl} {fs : List Field} {n : String} {f : Field}
    (h : namedField d fs n = .ok f) : f ∈ fs := by
  unfold namedField at h
  split at h
  · rename_i hfind
    cases h
    exact List.mem_of_find?_eq_some hfind
  · cases h

theorem resolveKey_positions {d : ModelDecl} {fs : List Field} {key : PrimaryKey}
    (hfs : Fields.Sound fs) (h : resolveKey d fs = .ok key) :
    ∀ i ∈ key.positions, i < fs.length := by
  unfold resolveKey at h
  split at h
  · cases h
  · cases h
  · obtain ⟨gs, hgs, h⟩ := bind_eq_ok h
    cases h
    intro i hi
    obtain ⟨g, hg, rfl⟩ := List.mem_map.1 hi
    obtain ⟨n, -, hn⟩ := mem_of_mapM hgs g hg
    exact hfs.ordinal_lt (namedField_mem hn)
  · cases h
    exact fun i hi => nomatch hi
  · rename_i f _ hmarked
    cases h
    intro i hi
    have hf : f ∈ fs.filter (·.decl.primaryKey) := hmarked ▸ List.mem_singleton_self f
    rw [List.mem_singleton.1 hi]
    exact hfs.ordinal_lt (List.mem_of_mem_filter hf)
  · cases h

end Registry

/-! ## Foreign keys -/

namespace Model

/-- The field that a reference to the model means. -/
def referred? (m : Model) : Option String → Option Field
  | some n => m.field? n
  | none => m.keyField?

/-- The names that a row of the model answers to: its fields and its reverse accessors. -/
def memberNames (m : Model) : List String :=
  m.fields.map Field.name ++ m.reverse.map ReverseRelation.name

/-- What foreign keys are told of a model. -/
def asTarget (m : Model) : Registry.Target := ⟨m.table, m.fields, m.primaryKey, m.reverse⟩

/-- A model as it is while its own foreign keys are resolved. -/
def bare (m : Model) : Model := { m with reverse := [] }

end Model

/-- The name of the accessor that is asked for by a field of a model with that table. -/
inductive Backref.Asks (table : String) : Backref → Option String → Prop
  | byTable : Asks table .byTable (some (table ++ "_set"))
  | named (name : String) : Asks table (.named name) (some name)
  | suppressed : Asks table .suppressed none

theorem Backref.asks_backrefName (table : String) (b : Backref) :
    b.Asks table (Registry.backrefName table b) := by
  cases b with
  | byTable => exact .byTable
  | named name => exact .named name
  | suppressed => exact .suppressed

/-- The foreign key is the one that the field of a model with that table declares, and what it
records is found under the name of its target. -/
def Field.Keyed (find? : String → Option Model) (table : String) (f : Field) (k : ForeignKey) :
    Prop :=
  ∃ ref t g backref, f.decl.reference = some ref ∧ find? ref.target = some t ∧
    t.referred? ref.field = some g ∧ ref.backref.Asks table backref ∧
    k = ⟨f.name, f.column, ref.target, t.table, g.name, g.column, backref⟩

/-- The accessor that a key of the model `source` asks for on the model `target`: it has the name
that the key gives, and leads to the rows that have the key. -/
def ForeignKey.accessorOn (target source : String) (k : ForeignKey) : Option ReverseRelation :=
  match k.backref with
  | some name => if k.target = target then some ⟨name, source, k.field⟩ else none
  | none => none

/-- The accessors that the foreign keys of a model ask for on the model of a name, in the order of
the keys. -/
def Model.accessorsFor (m : Model) (target : String) : List ReverseRelation :=
  m.foreignKeys.filterMap (ForeignKey.accessorOn target m.name)

namespace ForeignKey

variable {target source : String} {k : ForeignKey} {a : ReverseRelation}

theorem accessorOn_eq_some :
    k.accessorOn target source = some a ↔
      k.target = target ∧ ∃ name, k.backref = some name ∧ a = ⟨name, source, k.field⟩ := by
  unfold accessorOn
  cases k.backref with
  | none => exact iff_of_false nofun fun ⟨_, _, h, _⟩ => nomatch h
  | some name =>
    dsimp only
    rw [Option.ite_none_right_eq_some, Option.some.injEq]
    refine and_congr_right fun _ => ⟨fun h => ⟨name, rfl, h.symm⟩, ?_⟩
    rintro ⟨_, hname, rfl⟩
    cases hname
    rfl

theorem accessorOn_eq_none (h : k.target ≠ target) : k.accessorOn target source = none := by
  cases ha : k.accessorOn target source with
  | none => rfl
  | some a => exact absurd (accessorOn_eq_some.1 ha).1 h

/-- A registry makes the accessors of the keys that refer to the model. -/
theorem accessorsOn_eq (target source : String) (ks : List ForeignKey) :
    Registry.accessorsOn target source ks = ks.filterMap (accessorOn target source) := by
  rw [Registry.accessorsOn, List.filterMap_filter]
  refine List.filterMap_congr fun k _ => ?_
  unfold accessorOn Registry.reverseRelation?
  cases k.backref <;> simp

end ForeignKey

/-- No accessor hides a name of its target, or is asked for twice. -/
structure ForeignKey.Fresh (find? : String → Option Model) (ks : List ForeignKey) : Prop where
  new : ∀ k ∈ ks, ∀ name ∈ k.backref, ∀ t ∈ find? k.target, name ∉ t.memberNames
  apart : ks.Pairwise fun k k' => k.target = k'.target → ∀ name ∈ k.backref, k'.backref ≠ some name

namespace Registry

/-- The model that a name means while `m` is being registered. -/
def seen? (r : Registry) (m : Model) (name : String) : Option Model :=
  if name = m.name then some m.bare else r.find? name

theorem resolveTarget_ok {r : Registry} {m : Model} {key name : String} {t : Target}
    (h : r.resolveTarget m.bare.asTarget m.name key name = .ok t) :
    ∃ n, r.seen? m name = some n ∧ t = n.asTarget := by
  unfold resolveTarget at h
  unfold seen?
  split at h
  · rename_i hname
    cases h
    exact ⟨m.bare, if_pos hname, rfl⟩
  · rename_i hname
    split at h
    · rename_i n hn
      cases h
      exact ⟨n, by rw [if_neg hname, hn], rfl⟩
    · cases h

theorem resolveTargetField_ok {key : String} {ref : Reference} {m : Model} {f : Field}
    (h : resolveTargetField key ref m.asTarget = .ok f) : m.referred? ref.field = some f := by
  unfold resolveTargetField at h
  unfold Model.referred? Model.keyField?
  split at h
  · rename_i name hname
    rw [hname]
    split at h
    · rename_i g hg
      cases h
      exact hg
    · cases h
  · rename_i i hnone hkey
    rw [hnone]
    have hkey : m.primaryKey = .single i := hkey
    dsimp only
    rw [hkey]
    split at h
    · rename_i g hg
      cases h
      exact hg
    · cases h
  · cases h

theorem not_accessorTaken {name : String} {ref : Reference} {t : Model} {done : List ForeignKey}
    (h : accessorTaken name ref t.asTarget done = false) :
    name ∉ t.memberNames ∧ ∀ k ∈ done, k.target = ref.target → k.backref ≠ some name := by
  unfold accessorTaken Model.asTarget at h
  simp only [Bool.or_eq_false_iff, List.any_eq_false, beq_iff_eq, Bool.and_eq_true, not_and] at h
  obtain ⟨⟨hfields, hreverse⟩, hdone⟩ := h
  refine ⟨fun hmem => ?_, hdone⟩
  rcases List.mem_append.1 hmem with hmem | hmem
  · obtain ⟨f, hf, hname⟩ := List.mem_map.1 hmem
    exact hfields f hf hname
  · obtain ⟨a, ha, hname⟩ := List.mem_map.1 hmem
    exact hreverse a ha hname

theorem addForeignKey_cases {r : Registry} {self : Target} {model : String}
    {done done' : List ForeignKey} {f : Field}
    (h : r.addForeignKey self model done f = .ok done') :
    (f.decl.reference = none ∧ done' = done) ∨
      ∃ ref t g, f.decl.reference = some ref ∧
        r.resolveTarget self model (model ++ "." ++ f.name) ref.target = .ok t ∧
        resolveTargetField (model ++ "." ++ f.name) ref t = .ok g ∧
        (∀ name ∈ backrefName self.table ref.backref, accessorTaken name ref t done = false) ∧
        done' = done ++ [⟨f.name, f.column, ref.target, t.table, g.name, g.column,
          backrefName self.table ref.backref⟩] := by
  unfold addForeignKey at h
  split at h
  · rename_i href
    cases h
    exact .inl ⟨href, rfl⟩
  · rename_i ref href
    obtain ⟨t, ht, h⟩ := bind_eq_ok h
    obtain ⟨g, hg, h⟩ := bind_eq_ok h
    dsimp only at h
    refine .inr ⟨ref, t, g, href, ht, hg, ?_⟩
    generalize backrefName self.table ref.backref = backref at h ⊢
    cases backref with
    | none =>
      cases h
      exact ⟨fun name hname => (nomatch hname), rfl⟩
    | some name =>
      dsimp only at h
      split at h
      · cases h
      · rename_i hfree
        cases h
        refine ⟨fun n hn => ?_, rfl⟩
        cases hn
        exact Bool.eq_false_iff.2 hfree

/-- What is known of foreign keys: which fields they are, and that their accessors are free. -/
structure KeysBuilt (find? : String → Option Model) (table : String) (fs : List Field)
    (ks : List ForeignKey) : Prop where
  keyed : List.Forall₂ (Field.Keyed find? table) (fs.filter Field.isForeignKey) ks
  fresh : ForeignKey.Fresh find? ks

theorem KeysBuilt.addForeignKey {r : Registry} {m : Model} {fs : List Field}
    {done done' : List ForeignKey} {f : Field} (hdone : KeysBuilt (r.seen? m) m.table fs done)
    (h : r.addForeignKey m.bare.asTarget m.name done f = .ok done') :
    KeysBuilt (r.seen? m) m.table (fs ++ [f]) done' := by
  rcases addForeignKey_cases h with ⟨href, rfl⟩ | ⟨ref, t, g, href, ht, hg, hfree, rfl⟩
  · have hf : f.isForeignKey = false := by rw [Field.isForeignKey, href]; rfl
    refine ⟨?_, hdone.fresh⟩
    rw [List.filter_append, List.filter_singleton, hf]
    exact (List.append_nil _).symm ▸ hdone.keyed
  · obtain ⟨n, hn, rfl⟩ := resolveTarget_ok ht
    have hf : f.isForeignKey = true := by rw [Field.isForeignKey, href]; rfl
    refine ⟨?_, ?_, ?_⟩
    · rw [List.filter_append, List.filter_singleton, hf]
      exact List.rel_append hdone.keyed
        (.cons ⟨ref, n, g, _, href, hn, resolveTargetField_ok hg,
          ref.backref.asks_backrefName _, rfl⟩ .nil)
    · intro k hk name hname u hu
      rcases List.mem_append.1 hk with hk | hk
      · exact hdone.fresh.new k hk name hname u hu
      · cases List.mem_singleton.1 hk
        cases hn.symm.trans hu
        exact (not_accessorTaken (hfree name hname)).1
    · refine List.pairwise_append.2 ⟨hdone.fresh.apart, List.pairwise_singleton .., ?_⟩
      intro k hk k' hk' htarget name hname hname'
      cases List.mem_singleton.1 hk'
      exact (not_accessorTaken (hfree name hname')).2 k hk htarget hname

/-! ## Models -/

/-- What is known of a model that was made from a declaration. -/
structure Built (r : Registry) (d : ModelDecl) (m : Model) : Prop where
  name : m.name = d.name
  fields : Fields.Sound m.fields
  key : ∀ i ∈ m.primaryKey.positions, i < m.fields.length
  keys : KeysBuilt (r.seen? m) m.table m.fields m.foreignKeys
  reverse : m.reverse = m.accessorsFor m.name

theorem buildModel_built {r : Registry} {d : ModelDecl} {m : Model} (h : r.buildModel d = .ok m) :
    r.Built d m := by
  unfold buildModel at h
  obtain ⟨fields, hfields, h⟩ := bind_eq_ok h
  obtain ⟨primaryKey, hkey, h⟩ := bind_eq_ok h
  obtain ⟨foreignKeys, hkeys, h⟩ := bind_eq_ok h
  obtain ⟨indexes, -, h⟩ := bind_eq_ok h
  cases h
  have hsound := buildFields_sound hfields
  refine ⟨rfl, hsound, resolveKey_positions hsound hkey, ?_, ForeignKey.accessorsOn_eq ..⟩
  exact foldlM_invariant (KeysBuilt _ _) [] hkeys ⟨.nil, by simp, .nil⟩
    fun _ _ _ _ hdone hadd => hdone.addForeignKey hadd

end Registry

end SqlMapper
