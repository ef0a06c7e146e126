import SqlMapper.Query.Fragment.OfQuery

/-!
# SqlMapper.Proofs.Join.Walk

The walk through the joins of a select, as a list of joins.

The fragments of a select order its joins after each has been turned into fragments. The order
depends only on where a join starts and which source it adds, so it is the order of the joins
themselves (`ordered_map`).
-/

namespace SqlMapper

open Fragment

namespace JoinEdge

variable {α β : Type}

def map (f : α → β) (e : JoinEdge α) : JoinEdge β := ⟨e.context, e.target, f e.content⟩

@[simp] theorem map_context (f : α → β) (e : JoinEdge α) : (e.map f).context = e.context := rfl
@[simp] theorem map_target (f : α → β) (e : JoinEdge α) : (e.map f).target = e.target := rfl
@[simp] theorem map_content (f : α → β) (e : JoinEdge α) : (e.map f).content = f e.content := rfl

theorem below_map (f : α → β) (edges : List (JoinEdge α)) (steps : Nat) (key : String) :
    below (edges.map (map f)) steps key = (below edges steps key).map (map f) := by
  induction steps generalizing key with
  | zero => rfl
  | succ steps ih =>
    simp only [below, List.filter_map, List.flatMap_map, List.map_flatMap, List.map_cons, ih]
    rfl

theorem ordered_map (f : α → β) (edges : List (JoinEdge α)) (root : String) :
    ordered (edges.map (map f)) root = (ordered edges root).map (map f) := by
  rw [ordered, ordered, List.length_map, below_map]

theorem mem_of_mem_below {edges : List (JoinEdge α)} {steps : Nat} {key : String} {e : JoinEdge α}
    (h : e ∈ below edges steps key) : e ∈ edges := by
  induction steps generalizing key with
  | zero => simp [below] at h
  | succ steps ih =>
    simp only [below, List.mem_flatMap, List.mem_filter, List.mem_cons] at h
    obtain ⟨child, ⟨hchild, _⟩, rfl | h⟩ := h
    · exact hchild
    · exact ih h

end JoinEdge

namespace Join

/-- The place of a join among the joins. -/
def edge (j : Join) : JoinEdge Join := ⟨j.context, j.target.key, j⟩

/-- The joins in the order of the text. -/
def walk (joins : List Join) (root : String) : List Join :=
  (JoinEdge.ordered (joins.map edge) root).map JoinEdge.content

theorem mem_of_mem_walk {joins : List Join} {root : String} {j : Join} (h : j ∈ walk joins root) :
    j ∈ joins := by
  obtain ⟨e, he, rfl⟩ := List.mem_map.1 h
  obtain ⟨j, hj, rfl⟩ := List.mem_map.1 (JoinEdge.mem_of_mem_below he)
  exact hj

/-- Any other form of the joins that keeps their places is walked in the same order. -/
theorem ordered_eq_walk {α : Type} (f : Join → α) (joins : List Join) (root : String) :
    JoinEdge.ordered (joins.map fun j => j.edge.map f) root =
      (walk joins root).map fun j => j.edge.map f := by
  have hfun : (fun j : Join => j.edge.map f) = JoinEdge.map f ∘ edge := rfl
  have hedge : ∀ e ∈ JoinEdge.ordered (joins.map edge) root, e.content.edge.map f = e.map f := by
    intro e he
    obtain ⟨j, _, rfl⟩ := List.mem_map.1 (JoinEdge.mem_of_mem_below he)
    rfl
  rw [hfun, ← List.map_map, JoinEdge.ordered_map, walk, List.map_map]
  exact List.map_congr_left fun e he => (hedge e he).symm

/-! ## Joins as fragments -/

theorem fragments_eq (d : Dialect) (j : Join) :
    j.fragments d = j.edge.map fun j => (j.target.origin, (j.fragments d).content.2) := by
  cases j; rfl

theorem listFragments_eq_map (d : Dialect) (joins : List Join) :
    listFragments d joins = joins.map (fragments d) := by
  induction joins with
  | nil => rfl
  | cons j js ih => rw [listFragments, List.map_cons, ih]

theorem ordered_listFragments (d : Dialect) (joins : List Join) (root : String) :
    JoinEdge.ordered (listFragments d joins) root = (walk joins root).map (fragments d) := by
  have h : fragments d = fun j => j.edge.map fun j => (j.target.origin, (j.fragments d).content.2) :=
    funext (fragments_eq d)
  rw [listFragments_eq_map, h, ordered_eq_walk]

end Join

/-! ## Selects by their walk -/

namespace Select

/-- The joins that hang off the root, in the order of the text. -/
def walk (s : Select) : List Join :=
  match s.source with
  | some root => Join.walk s.joins root.key
  | none => []

theorem mem_of_mem_walk {s : Select} {j : Join} (h : j ∈ s.walk) : j ∈ s.joins := by
  unfold walk at h
  split at h
  · exact Join.mem_of_mem_walk h
  · cases h

/-- The root and what the walk adds to it. -/
def origins (s : Select) : List Origin :=
  s.source.toList.map Source.origin ++ s.walk.map (·.target.origin)

def projectionFragments (d : Dialect) (s : Select) : List Fragment :=
  match s.columns, s.source with
  | [], some (.model m) => ofFields m
  | [], some _ => [text "*"]
  | [], none => [refuse (.query .nothingSelected)]
  | columns, _ => commas (Expr.projectionFragments d columns)

/-- What stands in the scope of a select before its joins, and after them. -/
def headFragments (d : Dialect) (s : Select) : List Fragment :=
  [text "SELECT "] ++ s.distinct.fragments d ++ s.projectionFragments d ++
    Source.clauseFragments d " FROM " s.source

def tailFragments (d : Dialect) (s : Select) : List Fragment :=
  Condition.clauseFragments d " WHERE " s.filter ++
    listClause " GROUP BY " (Expr.listFragments d none s.groupBy) ++
    Condition.clauseFragments d " HAVING " s.having ++
    listClause " WINDOW " (Window.listFragments d s.windows) ++
    listClause " ORDER BY " (OrderTerm.listFragments d s.orderBy) ++
    ofLimit d s.limit s.offset ++
    if s.forUpdate then
      requiring d.forUpdate (.unsupported d.name .forUpdate) [text " FOR UPDATE"]
    else []

theorem fragments_eq (d : Dialect) (s : Select) :
    s.fragments d = ofCtes s.ctes (Cte.listFragments d s.ctes) ++
      [nested (selectScope s.origins) (s.origins.map enlist ++ (s.headFragments d ++
        (s.walk.flatMap (fun j => (j.fragments d).content.2) ++ s.tailFragments d)))] := by
  obtain ⟨ctes, source, context, joins, columns, distinct, filter, groupBy, having, windows,
    orderBy, limit, offset, forUpdate⟩ := s
  rw [fragments.eq_def]
  cases source with
  | none =>
    simp only [origins, walk, headFragments, tailFragments, List.append_assoc]
    cases columns <;> rfl
  | some root =>
    have horigins : (Join.walk joins root.key).map (fun j => (j.fragments d).content.1) =
        (Join.walk joins root.key).map (·.target.origin) :=
      List.map_congr_left fun j _ => by rw [Join.fragments_eq]; rfl
    simp only [Join.ordered_listFragments, List.map_map, List.flatMap_map, Function.comp_def,
      horigins]
    simp only [origins, walk, headFragments, tailFragments, List.append_assoc]
    cases columns <;> cases root <;> rfl

end Select

end SqlMapper
