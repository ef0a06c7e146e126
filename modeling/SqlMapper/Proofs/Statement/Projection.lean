import SqlMapper.Proofs.Fragment.InTurn
import SqlMapper.Proofs.Fragment.Spot
import SqlMapper.Proofs.Statement.Laid
import SqlMapper.Proofs.Statement.Written

/-!
# SqlMapper.Proofs.Statement.Projection

What a select gives out, and what is added to it.

* `Select.entries`: the entries of a projection, whether columns have been chosen or not.
* `Select.Projects`: the texts of the entries in a compilation, behind what stands before them.
* `Select.Closes`: the text from the source on, behind what stands before it.
* `Select.selectMore_keeps_iff`: adding to the columns keeps the projection of a select if columns have
  been chosen, or if its source is a model. From any other source the added columns are all that the
  select gives out then.
-/

namespace SqlMapper

open Fragment

/-- A column under no other name is an entry as it stands. -/
theorem Expr.projectionFragments_columns (d : Dialect) (m : ModelSource) :
    Expr.projectionFragments d m.columns =
      m.model.fieldNames.map (ofColumn (some (.model m))) := by
  rw [ModelSource.columns]
  induction m.model.fieldNames with
  | nil => rfl
  | cons n ns ih =>
    rw [List.map_cons, Expr.projectionFragments, ih, ModelSource.column, Expr.fragments]
    rfl

theorem Expr.projectionFragments_append (d : Dialect) (es es' : List Expr) :
    Expr.projectionFragments d (es ++ es') =
      Expr.projectionFragments d es ++ Expr.projectionFragments d es' := by
  induction es with
  | nil => rfl
  | cons e es ih => rw [List.cons_append, projectionFragments, ih, projectionFragments]; rfl

namespace Select

/-- The columns, or else all that the source has. -/
def entries (d : Dialect) (s : Select) : List (List Fragment) :=
  match s.columns, s.source with
  | [], some (.model m) => m.model.fieldNames.map (ofColumn (some (.model m)))
  | [], some _ => [[text "*"]]
  | es, _ => Expr.projectionFragments d es

variable {d : Dialect} {s : Select} {es : List Expr}

theorem projectionFragments_eq_commas (h : s.source.isSome) :
    s.projectionFragments d = commas (s.entries d) := by
  obtain ⟨source, hsource⟩ := Option.isSome_iff_exists.1 h
  unfold projectionFragments entries
  rw [hsource]
  cases s.columns with
  | nil => cases source <;> rfl
  | cons e es => rfl

/-! ## Adding to the columns -/

theorem selectMore_columns (hes : es ≠ []) : (s.selectMore es).columns ≠ [] :=
  List.append_ne_nil_of_right_ne_nil _ hes

theorem entries_of_columns (h : s.columns ≠ []) :
    s.entries d = Expr.projectionFragments d s.columns := by
  unfold entries
  cases hcolumns : s.columns with
  | nil => exact absurd hcolumns h
  | cons e es => rfl

theorem entries_selectMore (h : s.columns ≠ [] ∨ s.model?.isSome) (hes : es ≠ []) :
    (s.selectMore es).entries d = s.entries d ++ Expr.projectionFragments d es := by
  rw [entries_of_columns (selectMore_columns hes), selectMore]
  cases hcolumns : s.columns with
  | cons e es' =>
    have hentries : s.entries d = Expr.projectionFragments d (e :: es') := by
      rw [entries_of_columns (by simp [hcolumns]), hcolumns]
    rw [hentries, ← Expr.projectionFragments_append]
  | nil =>
    obtain ⟨m, hm⟩ := Option.isSome_iff_exists.1 (h.resolve_left (not_not_intro hcolumns))
    obtain ⟨source, hsource, hmodel⟩ := Option.bind_eq_some_iff.1 hm
    cases source with
    | model n =>
      cases hmodel
      have hentries : s.entries d = m.model.fieldNames.map (ofColumn (some (.model m))) := by
        rw [entries, hcolumns, hsource]
      rw [hentries, ← Expr.projectionFragments_columns, ← Expr.projectionFragments_append]
      dsimp only
      rw [hm]
      rfl
    | table n => cases hmodel
    | derived q n => cases hmodel

/-- A source that is no model leaves only what has been added. -/
theorem entries_selectMore_of_default (hsource : s.source.isSome) (hcolumns : s.columns = [])
    (hmodel : s.model? = none) (hes : es ≠ []) :
    s.entries d = [[text "*"]] ∧ (s.selectMore es).entries d = Expr.projectionFragments d es := by
  constructor
  · obtain ⟨source, hsource⟩ := Option.isSome_iff_exists.1 hsource
    rw [model?, hsource] at hmodel
    rw [entries, hcolumns, hsource]
    cases source with
    | model m => cases hmodel
    | table n => rfl
    | derived q n => rfl
  · rw [entries_of_columns (selectMore_columns hes), selectMore, hcolumns, hmodel]
    rfl

/-! ## In a compilation -/

/-- What follows the projection: the source, the joins, and the clauses after them. -/
def fromFragments (d : Dialect) (s : Select) : List Fragment :=
  Source.clauseFragments d " FROM " s.source ++
    (s.walk.flatMap (fun j => (j.fragments d).content.2) ++ s.tailFragments d)

/-- Where the projection stands, whatever columns there are. -/
def projectionSpot (d : Dialect) (s : Select) : Spot :=
  .beside (ofCtes s.ctes (Cte.listFragments d s.ctes))
    (.nested (selectScope s.origins)
      (.beside (s.origins.map enlist ++ [text "SELECT "] ++ s.distinct.fragments d) .gap
        (s.fromFragments d)))
    []

theorem fragments_eq_projected (h : s.source.isSome) :
    s.fragments d = ofCtes s.ctes (Cte.listFragments d s.ctes) ++
      [nested (selectScope s.origins)
        ((s.origins.map enlist ++ [text "SELECT "] ++ s.distinct.fragments d) ++
          (commas (s.entries d) ++ s.fromFragments d))] := by
  rw [fragments_eq, headFragments, projectionFragments_eq_commas h, fromFragments]
  simp only [List.append_assoc]

/-- The entries of the projection come to the texts, behind what stands before. -/
def Projects (s : Select) (d : Dialect) (supply : Supply) (before : List Piece)
    (pss : List (List Piece)) : Prop :=
  ∃ m m', (s.projectionSpot d).arrive (.start supply) = .ok m ∧ m.output.toList = before ∧
    InTurn Puts (s.entries d) m pss m'

/-- The clauses from the source on come to the pieces, behind all that stands before them. -/
def Closes (s : Select) (d : Dialect) (front back : List Piece) : Prop :=
  ∃ m m', m.output.toList = front ∧ Puts (s.fromFragments d) m back m'

variable {supply : Supply} {before : List Piece} {pss : List (List Piece)} {r : Rendered}

theorem projects_of_compile (h : s.source.isSome)
    (hr : ((Statement.query (.simple s)).compile d supply).1 = .ok r) :
    ∃ m pss m' back, (s.projectionSpot d).arrive (.start supply) = .ok m ∧
      InTurn Puts (s.entries d) m pss m' ∧ s.Closes d (m.output.toList ++ listed pss) back ∧
      r = .ofPieces d (m.output.toList ++ listed pss ++ back) := by
  obtain ⟨ps, _, hps, rfl, -⟩ := Statement.pieces_of_compile (Prod.ext hr rfl)
  rw [Statement.fragments, Query.fragments, fragments_eq_projected h] at hps
  obtain ⟨r₁, ctes, _, hctes, hnested, rfl⟩ := puts_append.1 hps
  obtain ⟨_, hinside, -⟩ := puts_nested.1 hnested
  obtain ⟨m, front, _, hfront, hrest, rfl⟩ := puts_append.1 hinside
  obtain ⟨m', qs, back, hqs, hback, rfl⟩ := puts_append.1 hrest
  have harrive : (s.projectionSpot d).arrive (.start supply) = .ok m := by
    have hrunCtes : runAll _ _ = (.ok (), r₁) := hctes.1
    have hrunFront : runAll _ _ = (.ok (), m) := hfront.1
    rw [projectionSpot, Spot.arrive, hrunCtes]
    dsimp only
    rw [Spot.arrive, Spot.arrive, hrunFront]
    rfl
  have hout : m.output.toList = ctes ++ front :=
    hfront.2.trans (congrArg (· ++ front) hctes.2)
  rw [← List.map_id (s.entries d)] at hqs
  obtain ⟨pss, hpss, rfl⟩ := puts_commas hqs
  have hpss := hpss.map (f := id)
  rw [List.map_id] at hpss
  refine ⟨m, pss, m', back, harrive, hpss, ⟨m', _, hpss.puts.2, hback⟩, ?_⟩
  rw [hout]
  simp only [List.append_assoc]

/-- The texts of the entries stand in the text of the compiled select. -/
theorem Projects.compile (h : s.source.isSome) (hpss : s.Projects d supply before pss)
    (hr : ((Statement.query (.simple s)).compile d supply).1 = .ok r) :
    ∃ back, s.Closes d (before ++ listed pss) back ∧
      r = .ofPieces d (before ++ listed pss ++ back) := by
  obtain ⟨m, m', harrive, rfl, hturn⟩ := hpss
  obtain ⟨n, qss, n', back, harrive', hturn', hcloses, hr⟩ := projects_of_compile h hr
  cases harrive.symm.trans harrive'
  have hputs : Puts (commas (s.entries d)) m (listed qss) n' := hturn'.puts
  rw [(hputs.unique hturn.puts).1] at hcloses hr
  exact ⟨back, hcloses, hr⟩

/-- Expressions that are added to the columns of a select follow its projection exactly if columns
have been chosen or its source is a model. This goes for the entries, whatever becomes of them, and
for the texts of a select that compiles, between what stands before the projection and the clauses
from the source on, which are those of the select that nothing was added to. -/
theorem selectMore_keeps_iff (s : Select) {es : List Expr} (hsource : s.source.isSome)
    (hes : es ≠ []) (d : Dialect) :
    ((s.selectMore es).entries d = s.entries d ++ Expr.projectionFragments d es ↔
      s.columns ≠ [] ∨ s.model?.isSome) ∧
    ∀ supply r, ((Statement.query (.simple (s.selectMore es))).compile d supply).1 = .ok r →
      ∃ before front pss back, s.Projects d supply before front ∧
        (s.selectMore es).Projects d supply before pss ∧
        s.Closes d (before ++ listed pss) back ∧
        r = .ofPieces d (before ++ listed pss ++ back) ∧
        (∀ r₀, ((Statement.query (.simple s)).compile d supply).1 = .ok r₀ →
          ∃ back₀, s.Closes d (before ++ listed front) back₀ ∧
            r₀ = .ofPieces d (before ++ listed front ++ back₀)) ∧
        ((∃ added m m', pss = front ++ added ∧
            InTurn Puts (Expr.projectionFragments d es) m added m') ↔
          s.columns ≠ [] ∨ s.model?.isSome) := by
  by_cases hkept : s.columns ≠ [] ∨ s.model?.isSome
  · have hentries := entries_selectMore (d := d) hkept hes
    refine ⟨iff_of_true hentries hkept, fun supply r hr => ?_⟩
    obtain ⟨m, pss, m', back, harrive, hturn, hcloses, hr⟩ :=
      projects_of_compile (s := s.selectMore es) hsource hr
    have hpss : (s.selectMore es).Projects d supply m.output.toList pss := ⟨m, m', harrive, rfl, hturn⟩
    rw [hentries] at hturn
    obtain ⟨front, added, n, n', rfl, hfront, hadded⟩ := hturn.split
    have hprojects : s.Projects d supply m.output.toList front := ⟨m, n, harrive, rfl, hfront⟩
    exact ⟨_, front, _, back, hprojects, hpss, hcloses, hr, fun _ => hprojects.compile hsource,
      iff_of_true ⟨added, n', m', rfl, hadded⟩ hkept⟩
  · obtain ⟨hcolumns, hmodel⟩ := not_or.1 hkept
    obtain ⟨hentries, hadded⟩ := entries_selectMore_of_default (d := d) hsource
      (not_not.1 hcolumns) (Option.not_isSome_iff_eq_none.1 hmodel) hes
    refine ⟨iff_of_false (fun h => ?_) hkept, fun supply r hr => ?_⟩
    · rw [hentries, hadded] at h
      exact absurd (congrArg List.length h) (by simp)
    · obtain ⟨m, pss, m', back, harrive, hturn, hcloses, hr⟩ :=
        projects_of_compile (s := s.selectMore es) hsource hr
      have hpss : (s.selectMore es).Projects d supply m.output.toList pss :=
        ⟨m, m', harrive, rfl, hturn⟩
      have hprojects : s.Projects d supply m.output.toList [[.text "*"]] := by
        refine ⟨m, m.put (.text "*"), harrive, rfl, ?_⟩
        rw [hentries]
        exact .last (puts_text.2 ⟨rfl, rfl⟩)
      refine ⟨_, _, pss, back, hprojects, hpss, hcloses, hr,
        fun _ => hprojects.compile hsource, iff_of_false ?_ hkept⟩
      rintro ⟨added, n, n', rfl, hturn'⟩
      -- One text is left for each expression, and the default has one of its own.
      have hlength := hturn.length_eq
      rw [hadded, ← hturn'.length_eq] at hlength
      exact absurd hlength (by simp)

end Select

namespace Sample

def line : Field := ⟨0, "line", "Log", { name := "line", type := .text }⟩

def log : ModelSource where
  model := {
    name := "Log", table := "logs", fields := [line], primaryKey := .absent, foreignKeys := [],
    indexes := [], reverse := [] }
  givenName := none

def one : List Expr := [.raw "1"]

/-- A model gives out its fields, and then what is added. -/
theorem log_keeps : ∃ before front pss back,
    (Select.ofModel log).Projects .sqlite ⟨0⟩ before front ∧
      ((Select.ofModel log).selectMore one).Projects .sqlite ⟨0⟩ before pss ∧
      (Select.ofModel log).Closes .sqlite (before ++ listed pss) back ∧
      (⟨"SELECT \"t1\".\"line\", 1 FROM \"logs\" AS \"t1\"", []⟩ : Rendered) =
        .ofPieces .sqlite (before ++ listed pss ++ back) ∧
      ∃ added m m', pss = front ++ added ∧
        InTurn Puts (Expr.projectionFragments .sqlite one) m added m' := by
  have hcompile : ((Statement.query (.simple ((Select.ofModel log).selectMore one))).compile
      .sqlite ⟨0⟩).1 = .ok ⟨"SELECT \"t1\".\"line\", 1 FROM \"logs\" AS \"t1\"", []⟩ := by
    with_unfolding_all rfl
  have hone : one ≠ [] := List.cons_ne_nil _ _
  obtain ⟨before, front, pss, back, hfront, hpss, hcloses, hr, -, hkept⟩ :=
    (Select.selectMore_keeps_iff (Select.ofModel log) rfl hone .sqlite).2 _ _ hcompile
  exact ⟨before, front, pss, back, hfront, hpss, hcloses, hr, hkept.2 (.inr rfl)⟩

/-- A table loses what it gives out to what is added. -/
theorem logs_lost :
    (Statement.query (.simple (.ofTable "logs"))).compile .sqlite ⟨0⟩ =
      (.ok ⟨"SELECT * FROM \"logs\"", []⟩, ⟨0⟩) ∧
    (Statement.query (.simple ((Select.ofTable "logs").selectMore one))).compile .sqlite ⟨0⟩ =
      (.ok ⟨"SELECT 1 FROM \"logs\"", []⟩, ⟨0⟩) ∧
    ((Select.ofTable "logs").selectMore one).entries .sqlite ≠
      (Select.ofTable "logs").entries .sqlite ++ Expr.projectionFragments .sqlite one := by
  refine ⟨by with_unfolding_all rfl, by with_unfolding_all rfl, fun h => ?_⟩
  exact absurd (congrArg List.length h) (by decide)

end Sample

end SqlMapper
