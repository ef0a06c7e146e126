import SqlMapper.Proofs.Join.Walk
import SqlMapper.Statement

/-!
# SqlMapper.Proofs.Statement.Outline

Statements without the values of their literals.

Two statements with the same outline differ in the values of literals alone. Of a value the outline
keeps whether it is NULL, and of an array that stands directly on the right of `IN` or `NOT IN` how
many items it has.
-/

namespace SqlMapper

/-- Stands for every value that is not NULL. -/
def Value.outline (v : Value) : Value := if v.isNull then .null else .bool true

/-- The right side of a comparison, given its outline in other places. -/
def Expr.memberOutline (op : Comparison) (right outline : Expr) : Expr :=
  match op, right.arrayItems? with
  | .isIn, some vs => .literal (.array (vs.map fun _ => .null))
  | .notIn, some vs => .literal (.array (vs.map fun _ => .null))
  | _, _ => outline

mutual

def Expr.outline : Expr → Expr
  | .literal v => .literal v.outline
  | .call function arguments distinct => .call function (Expr.listOutline arguments) distinct
  | .windowed function window => .windowed function.outline window.outline
  | .binary left op right => .binary left.outline op right.outline
  | .list items => .list (Expr.listOutline items)
  | .subquery query => .subquery query.outline
  | .nonEmpty query => .nonEmpty query.outline
  | .condition c => .condition c.outline
  | .cast operand type => .cast operand.outline type
  | .named operand n => .named operand.outline n
  | .column q n => .column q n
  | .raw sql => .raw sql
  | .excluded field => .excluded field
  | .star q => .star q

def Expr.listOutline : List Expr → List Expr
  | [] => []
  | e :: es => e.outline :: Expr.listOutline es

def WindowRef.outline : WindowRef → WindowRef
  | .inline window => .inline window.outline
  | .named n => .named n

def Window.outline : Window → Window
  | ⟨n, partitionBy, orderBy, frame⟩ =>
    ⟨n, Expr.listOutline partitionBy, OrderTerm.listOutline orderBy, frame⟩

def Window.listOutline : List Window → List Window
  | [] => []
  | w :: ws => w.outline :: Window.listOutline ws

def OrderTerm.outline : OrderTerm → OrderTerm
  | ⟨operand, direction, nulls⟩ => ⟨operand.outline, direction, nulls⟩

def OrderTerm.listOutline : List OrderTerm → List OrderTerm
  | [] => []
  | t :: ts => t.outline :: OrderTerm.listOutline ts

def Condition.outline : Condition → Condition
  | .compare left op right negated escaped =>
    .compare left.outline op (right.memberOutline op right.outline) negated escaped
  | .group connective members negated =>
    .group connective (Condition.listOutline members) negated
  | .operand e => .operand e.outline

def Condition.listOutline : List Condition → List Condition
  | [] => []
  | c :: cs => c.outline :: Condition.listOutline cs

def Condition.clauseOutline : Option Condition → Option Condition
  | none => none
  | some c => some c.outline

def Query.outline : Query → Query
  | .simple s => .simple s.outline
  | .compound c => .compound c.outline

def Select.outline : Select → Select
  | ⟨ctes, source, context, joins, columns, distinct, filter, groupBy, having, windows, orderBy,
      limit, offset, forUpdate⟩ =>
    ⟨Cte.listOutline ctes, Source.clauseOutline source, context, Join.listOutline joins,
      Expr.listOutline columns, distinct.outline, Condition.clauseOutline filter,
      Expr.listOutline groupBy, Condition.clauseOutline having, Window.listOutline windows,
      OrderTerm.listOutline orderBy, limit, offset, forUpdate⟩

def Compound.outline : Compound → Compound
  | ⟨ctes, left, op, right, orderBy, limit, offset⟩ =>
    ⟨Cte.listOutline ctes, left.outline, op, right.outline, OrderTerm.listOutline orderBy, limit,
      offset⟩

def Cte.outline : Cte → Cte
  | ⟨n, columns, recursive, query⟩ => ⟨n, columns, recursive, query.outline⟩

def Cte.listOutline : List Cte → List Cte
  | [] => []
  | c :: cs => c.outline :: Cte.listOutline cs

def Source.outline : Source → Source
  | .model m => .model m
  | .table n => .table n
  | .derived query n => .derived query.outline n

def Source.clauseOutline : Option Source → Option Source
  | none => none
  | some s => some s.outline

def Join.outline : Join → Join
  | ⟨context, target, kind, on, exposedAs⟩ => ⟨context, target.outline, kind, on.outline, exposedAs⟩

def Join.listOutline : List Join → List Join
  | [] => []
  | j :: js => j.outline :: Join.listOutline js

def JoinOn.outline : JoinOn → JoinOn
  | .relation r => .relation r
  | .condition c => .condition c.outline
  | .always => .always

def Distinct.outline : Distinct → Distinct
  | .off => .off
  | .rows => .rows
  | .on exprs => .on (Expr.listOutline exprs)

end

/-! ## Statements that change rows -/

def Assignment.outline (a : Assignment) : Assignment := ⟨a.field, a.value.outline⟩

def InsertSource.outline : InsertSource → InsertSource
  | .rows rs => .rows (rs.map (List.map Assignment.outline))
  | .query fields q => .query fields q.outline
  | .defaults => .defaults

def OnConflict.outline (c : OnConflict) : OnConflict where
  action := c.action
  target := c.target
  targetFilter := Condition.clauseOutline c.targetFilter
  preserve := c.preserve
  assignments := c.assignments.map Assignment.outline
  filter := Condition.clauseOutline c.filter

def Insert.outline (i : Insert) : Insert where
  ctes := Cte.listOutline i.ctes
  into := i.into
  source := i.source.outline
  onConflict := i.onConflict.map OnConflict.outline
  returning := Expr.listOutline i.returning

def Update.outline (u : Update) : Update where
  ctes := Cte.listOutline u.ctes
  table := u.table
  assignments := u.assignments.map Assignment.outline
  sources := u.sources.map Source.outline
  filter := Condition.clauseOutline u.filter
  returning := Expr.listOutline u.returning

def Delete.outline (x : Delete) : Delete where
  ctes := Cte.listOutline x.ctes
  table := x.table
  sources := x.sources.map Source.outline
  filter := Condition.clauseOutline x.filter
  returning := Expr.listOutline x.returning

def Statement.outline : Statement → Statement
  | query q => query q.outline
  | insert i => insert i.outline
  | update u => update u.outline
  | delete x => delete x.outline

/-! ## What the outline keeps -/

namespace Value

@[simp] theorem isNull_outline (v : Value) : v.outline.isNull = v.isNull := by
  unfold outline
  split
  · rename_i h
    rw [h]
    rfl
  · rename_i h
    rw [Bool.not_eq_true] at h
    rw [h]
    rfl

end Value

namespace Expr

@[simp] theorem outputName?_outline (e : Expr) : e.outline.outputName? = e.outputName? := by
  cases e <;> simp [outline, outputName?]

@[simp] theorem isNullLiteral_outline (e : Expr) : e.outline.isNullLiteral = e.isNullLiteral := by
  cases e <;> simp [outline, isNullLiteral]

@[simp] theorem field?_outline : (e : Expr) → e.outline.field? = e.field?
  | .named operand _ => by
    rw [outline, field?, field?]
    exact field?_outline operand
  | .column _ _ | .literal _ | .raw _ | .call _ _ _ | .windowed _ _ | .binary _ _ _ | .list _
  | .subquery _ | .nonEmpty _ | .condition _ | .cast _ _ | .excluded _ | .star _ => by
    simp [outline, field?]

/-- An outline is an array only where it stands on the right of `IN`. -/
theorem arrayItems?_outline (e : Expr) : e.outline.arrayItems? = none := by
  cases e with
  | literal v =>
    rw [outline, Value.outline]
    split <;> rfl
  | _ => simp [outline, arrayItems?]

theorem eq_of_arrayItems? {e : Expr} {vs : List Value} (h : e.arrayItems? = some vs) :
    e = .literal (.array vs) := by
  unfold arrayItems? at h
  split at h
  · cases h
    rfl
  · cases h

end Expr

namespace Source

@[simp] theorem key_outline (s : Source) : s.outline.key = s.key := by
  cases s <;> simp [outline, key]

@[simp] theorem origin_outline (s : Source) : s.outline.origin = s.origin := by
  cases s <;> simp [outline, origin]

end Source

theorem OrderTerm.listOutline_isEmpty (ts : List OrderTerm) :
    (OrderTerm.listOutline ts).isEmpty = ts.isEmpty := by
  cases ts <;> rfl

namespace Query

@[simp] theorem isCompound_outline (q : Query) : q.outline.isCompound = q.isCompound := by
  cases q <;> simp [outline, isCompound]

@[simp] theorem isOrdered_outline (q : Query) : q.outline.isOrdered = q.isOrdered := by
  cases q with
  | simple s =>
    obtain ⟨_, _, _, _, _, _, _, _, _, _, orderBy, _, _, _⟩ := s
    simp only [outline, isOrdered, Select.outline, OrderTerm.listOutline_isEmpty]
  | compound c =>
    obtain ⟨_, _, _, _, orderBy, _, _⟩ := c
    simp only [outline, isOrdered, Compound.outline, OrderTerm.listOutline_isEmpty]

end Query

theorem Select.outline_eq (s : Select) :
    s.outline = { s with
      ctes := Cte.listOutline s.ctes
      source := Source.clauseOutline s.source
      joins := Join.listOutline s.joins
      columns := Expr.listOutline s.columns
      distinct := s.distinct.outline
      filter := Condition.clauseOutline s.filter
      groupBy := Expr.listOutline s.groupBy
      having := Condition.clauseOutline s.having
      windows := Window.listOutline s.windows
      orderBy := OrderTerm.listOutline s.orderBy } := by
  cases s
  rfl

theorem Join.edge_outline (j : Join) : j.outline.edge = j.edge.map Join.outline := by
  obtain ⟨context, target, kind, on, exposedAs⟩ := j
  simp [Join.outline, Join.edge, JoinEdge.map]

theorem Join.listOutline_eq_map (joins : List Join) : Join.listOutline joins = joins.map outline := by
  induction joins with
  | nil => rfl
  | cons j js ih => rw [listOutline, List.map_cons, ih]

/-- The walk is the same when literals have other values. -/
theorem Join.walk_outline (joins : List Join) (root : String) :
    Join.walk (Join.listOutline joins) root = (Join.walk joins root).map Join.outline := by
  have hedges : (joins.map Join.outline).map Join.edge =
      (joins.map Join.edge).map (JoinEdge.map Join.outline) := by
    rw [List.map_map, List.map_map]
    exact List.map_congr_left fun j _ => Join.edge_outline j
  rw [listOutline_eq_map, walk, hedges, JoinEdge.ordered_map, walk, List.map_map, List.map_map]
  rfl

end SqlMapper
