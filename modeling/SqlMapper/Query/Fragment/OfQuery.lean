import SqlMapper.Query.Fragment.Basic
import SqlMapper.Query.JoinOrder
import SqlMapper.Query.Spelling

/-!
# SqlMapper.Query.Fragment.OfQuery

Expressions, conditions and queries as fragments.

The fragments of an operand depend on the dialect and on the field whose encoder a literal in that
place goes through: the field it is compared with or assigned to, if there is one.
-/

namespace SqlMapper

open Fragment

namespace Expr

/-- The field behind a column of a model, also under an output name. -/
def field? : Expr → Option Field
  | column (some (.model m)) name => m.model.field? name
  | named e _ => e.field?
  | _ => none

def outputName? : Expr → Option String
  | named _ name => some name
  | _ => none

def isNullLiteral : Expr → Bool
  | literal v => v.isNull
  | _ => false

/-- The values of a literal array, which stands for a list on the right of `IN`. -/
def arrayItems? : Expr → Option (List Value)
  | literal (.array vs) => some vs
  | _ => none

end Expr

namespace Fragment

/-- A literal; NULL needs no encoding. -/
def ofLiteral (codec : Option Field) (v : Value) : List Fragment :=
  match codec with
  | none => [param v]
  | some f =>
    if v.isNull then [param v]
    else
      match f.encode v with
      | .ok v => [param v]
      | .error e => [refuse e]

/-- A column of a model goes by the name of its field. -/
def ofColumn (q : Option Qualifier) (column : String) : List Fragment :=
  match q with
  | none => [identifier column]
  | some (.table table) => [qualifier (.table table), identifier column]
  | some (.model m) =>
    match m.model.field column with
    | .ok f => [qualifier (.model m), identifier f.column]
    | .error e => [refuse e]

def ofStar (q : Option Qualifier) : List Fragment :=
  (q.map qualifier).toList ++ [text "*"]

def ofExcluded (d : Dialect) (field : String) : List Fragment :=
  match d.conflict with
  | .mysql => enclosed "VALUES(" [proposed field] ")"
  | .sqlite | .postgres => [text "EXCLUDED.", proposed field]

/-- Two operands with a sign between them. -/
def ofSigned (left : List Fragment) (sign : String) (right : List Fragment) : List Fragment :=
  parenthesized (left ++ [text " ", text sign, text " "] ++ right)

def ofBinary (d : Dialect) (left : List Fragment) (op : Operator) (right : List Fragment) :
    List Fragment :=
  match op with
  | .bitXor =>
    match d.bitwiseXor with
    | some sign => ofSigned left sign right
    | none => [refuse (.compilation (.noBitwiseXor d.name))]
  | .concat =>
    match d.concat with
    | .function => enclosed "CONCAT(" (left ++ [text ", "] ++ right) ")"
    | .operator => ofSigned left op.sign right
  | op => ofSigned left op.sign right

/-- An operand and what is said of it. -/
def ofSaid (left : List Fragment) (keyword : String) : List Fragment :=
  parenthesized (left ++ [text " ", text keyword])

def comparisonSign (d : Dialect) (op : Comparison) : String :=
  if op = .ilike && !d.ilike then "LIKE" else op.sign

def ofComparison (d : Dialect) (op : Comparison) (escaped : Bool) (left right : List Fragment) :
    List Fragment :=
  let escape := if escaped then [text " ESCAPE ", text d.likeEscape] else []
  parenthesized (left ++ [text " ", text (comparisonSign d op), text " "] ++ right ++ escape)

/-- Membership in a list; nothing is a member of an empty one. -/
def ofMembership (op : Comparison) (left : List Fragment) (members : List (List Fragment)) :
    List Fragment :=
  match members with
  | [] => [text (if op = .isIn then "(0 = 1)" else "(1 = 1)")]
  | _ => ofSigned left op.sign (parenthesized (commas members))

def ofBetween (left : List Fragment) (bounds : List (List Fragment)) : List Fragment :=
  match bounds with
  | [low, high] => parenthesized (left ++ [text " BETWEEN "] ++ low ++ [text " AND "] ++ high)
  | _ => [refuse (.query .betweenBounds)]

/-- The members of a condition between parentheses, a connective between each two. -/
def ofGroup (connective : Connective) (members : List (List Fragment)) : List Fragment :=
  match members with
  | [] => [text connective.ofNothing]
  | _ => parenthesized (separated (" " ++ connective.keyword ++ " ") members)

def negation (negated : Bool) : List Fragment := if negated then [text "NOT "] else []

def ofLimit (d : Dialect) (limit offset : Option Nat) : List Fragment :=
  let limit := match limit, offset, d.limitForOffset with
    | some n, _, _ => [text (" LIMIT " ++ toString n)]
    | none, some _, some everything => [text " LIMIT ", text everything]
    | none, _, _ => []
  limit ++ match offset with
    | some n => [text (" OFFSET " ++ toString n)]
    | none => []

/-- An entry of a projection under its output name. -/
def ofProjected (e : Expr) (operand : List Fragment) : List Fragment :=
  match e.outputName? with
  | some n => operand ++ [text " AS ", identifier n]
  | none => operand

/-- All fields of a model, for a select that names no columns. -/
def ofFields (m : ModelSource) : List Fragment :=
  commas (m.model.fieldNames.map (ofColumn (some (.model m))))

/-- An ordering by an output name or by an operand. -/
def ofOrderTerm (d : Dialect) (e : Expr) (operand : List Fragment) (direction : Direction)
    (nulls : Option Nulls) : List Fragment :=
  let key := match e.outputName? with
    | some n => [identifier n]
    | none => operand
  let nulls := match nulls with
    | none => []
    | some n =>
      requiring d.nullsOrdering (.unsupported d.name .nullsOrdering) [text (" " ++ n.keyword)]
  key ++ [text (" " ++ direction.keyword)] ++ nulls

/-- The clauses of a window that it has, a blank between each two. -/
def ofWindow (partitionBy orderBy : List (List Fragment)) (frame : Option Frame) :
    List Fragment :=
  let clause (lead : String) : List (List Fragment) → List (List Fragment)
    | [] => []
    | items => [text lead :: commas items]
  separated " " (clause "PARTITION BY " partitionBy ++ clause "ORDER BY " orderBy ++
    (frame.map fun f => [text f.sql]).toList)

/-- A window in the `WINDOW` clause of a query. -/
def ofDeclaredWindow (windowName : Option String) (spec : List Fragment) : List Fragment :=
  match windowName with
  | some n => [identifier n, text " AS ("] ++ spec ++ [text ")"]
  | none => [refuse (.compilation .unnamedWindow)]

def ofSource (s : Source) (query : List Fragment) : List Fragment :=
  match s with
  | .model m => [modelTable m]
  | .table n => [identifier n]
  | .derived _ name => parenthesized query ++ [text " AS ", identifier name]

/-- The columns of a foreign key, its own side named by the kind of the relation. -/
def ofRelation (r : Relation) (context target : String) : Fragment :=
  let (column, parentColumn) := r.joinColumns
  match r.kind with
  | .manyToOne => equated context column target parentColumn
  | .oneToMany => equated target column context parentColumn

/-- A `WITH` clause is recursive when any of its queries is. -/
def ofCtes (ctes : List Cte) (queries : List (List Fragment)) : List Fragment :=
  match ctes with
  | [] => []
  | _ =>
    let one (c : Cte) (query : List Fragment) : List Fragment :=
      let columns := match c.columns with
        | [] => []
        | ns => enclosed " (" (names ns) ")"
      identifier c.name :: columns ++ enclosed " AS (" query ")"
    let lead := if ctes.any Cte.recursive then "WITH RECURSIVE " else "WITH "
    text lead :: commas (ctes.zipWith one queries) ++ [text " "]

/-- An operand of a compound query. Without parentheses a compound on the right is read from a
derived table, for set operators associate to the left. -/
def ofOperand (d : Dialect) (isRight isCompound ordered : Bool) (query : List Fragment) :
    List Fragment :=
  match d.compoundParentheses with
  | .always => parenthesized query
  | .never =>
    if isRight && isCompound then
      enclosed "SELECT * FROM (" query ") AS " ++ [identifier "_compound"]
    else requiring (!ordered) (.operandOrdered d.name) query

/-- The scope of a select: the aliases that it gives are not to be generated. -/
def selectScope (origins : List Origin) : Scope :=
  { reserved := origins.filterMap Origin.explicitAlias? }

def clause (lead : String) (body : List Fragment) : List Fragment := text lead :: body

def listClause (lead : String) (items : List (List Fragment)) : List Fragment :=
  match items with
  | [] => []
  | _ => clause lead (commas items)

end Fragment

/-- Whether a query has an ordering, a limit or an offset of its own. -/
def Query.isOrdered : Query → Bool
  | simple s => !s.orderBy.isEmpty || s.limit.isSome || s.offset.isSome
  | compound c => !c.orderBy.isEmpty || c.limit.isSome || c.offset.isSome

def Query.isCompound : Query → Bool
  | simple _ => false
  | compound _ => true

mutual

def Expr.fragments (d : Dialect) (codec : Option Field) : Expr → List Fragment
  | .column q name => ofColumn q name
  | .literal v => ofLiteral codec v
  | .raw sql => [text sql]
  | .call function arguments distinct =>
    text function :: enclosed (if distinct then "(DISTINCT " else "(")
      (commas (Expr.listFragments d none arguments)) ")"
  | .windowed function window => function.fragments d none ++ [text " OVER "] ++ window.fragments d
  | .binary left op right => ofBinary d (left.fragments d none) op (right.fragments d none)
  | .list items => parenthesized (commas (Expr.listFragments d codec items))
  | .subquery query => parenthesized (query.fragments d)
  | .nonEmpty query => enclosed "EXISTS (" (query.fragments d) ")"
  | .condition c => c.fragments d
  | .cast operand type => enclosed "CAST(" (operand.fragments d none ++ [text " AS ", text type]) ")"
  | .named operand _ => operand.fragments d codec
  | .excluded field => ofExcluded d field
  | .star q => ofStar q

def Expr.listFragments (d : Dialect) (codec : Option Field) : List Expr → List (List Fragment)
  | [] => []
  | e :: es => e.fragments d codec :: Expr.listFragments d codec es

/-- The items of a list, each by itself. -/
def Expr.itemFragments? (d : Dialect) (codec : Option Field) : Expr → Option (List (List Fragment))
  | .list items => some (Expr.listFragments d codec items)
  | _ => none

def WindowRef.fragments (d : Dialect) : WindowRef → List Fragment
  | .inline window => parenthesized (window.fragments d)
  | .named n => [identifier n]

def Window.fragments (d : Dialect) : Window → List Fragment
  | ⟨_, partitionBy, orderBy, frame⟩ =>
    ofWindow (Expr.listFragments d none partitionBy) (OrderTerm.listFragments d orderBy) frame

def Window.listFragments (d : Dialect) : List Window → List (List Fragment)
  | [] => []
  | w :: ws => ofDeclaredWindow w.name (w.fragments d) :: Window.listFragments d ws

def OrderTerm.fragments (d : Dialect) : OrderTerm → List Fragment
  | ⟨operand, direction, nulls⟩ =>
    ofOrderTerm d operand (operand.fragments d none) direction nulls

def OrderTerm.listFragments (d : Dialect) : List OrderTerm → List (List Fragment)
  | [] => []
  | t :: ts => t.fragments d :: OrderTerm.listFragments d ts

def Condition.fragments (d : Dialect) : Condition → List Fragment
  | .compare left op right negated escaped =>
    let said : List Fragment := match op with
      | .eq | .is =>
        if right.isNullLiteral then ofSaid (left.fragments d none) "IS NULL"
        else ofComparison d op escaped (left.fragments d none) (right.fragments d left.field?)
      | .ne | .isNot =>
        if right.isNullLiteral then ofSaid (left.fragments d none) "IS NOT NULL"
        else ofComparison d op escaped (left.fragments d none) (right.fragments d left.field?)
      | .like | .notLike | .ilike =>
        ofComparison d op escaped (left.fragments d none) (right.fragments d none)
      | .isIn | .notIn =>
        match right.itemFragments? d left.field? with
        | some items => ofMembership op (left.fragments d none) items
        | none =>
          match right.arrayItems? with
          | some vs => ofMembership op (left.fragments d none) (vs.map (ofLiteral left.field?))
          | none => ofSigned (left.fragments d none) op.sign (right.fragments d left.field?)
      | .between => ofBetween (left.fragments d none) ((right.itemFragments? d left.field?).getD [])
      | .lt | .le | .gt | .ge =>
        ofComparison d op escaped (left.fragments d none) (right.fragments d left.field?)
    negation negated ++ said
  | .group connective members negated =>
    negation negated ++ ofGroup connective (Condition.listFragments d members)
  | .operand e => e.fragments d none

def Condition.listFragments (d : Dialect) : List Condition → List (List Fragment)
  | [] => []
  | c :: cs => c.fragments d :: Condition.listFragments d cs

/-- A clause that may be missing. -/
def Condition.clauseFragments (d : Dialect) (lead : String) : Option Condition → List Fragment
  | none => []
  | some c => clause lead (c.fragments d)

def Expr.projectionFragments (d : Dialect) : List Expr → List (List Fragment)
  | [] => []
  | e :: es => ofProjected e (e.fragments d none) :: Expr.projectionFragments d es

def Query.fragments (d : Dialect) : Query → List Fragment
  | .simple s => s.fragments d
  | .compound c => c.fragments d

def Select.fragments (d : Dialect) : Select → List Fragment
  | ⟨ctes, source, _, joins, columns, distinct, filter, groupBy, having, windows, orderBy, limit,
      offset, forUpdate⟩ =>
    let edges := Join.listFragments d joins
    let ordered := match source with
      | some root => JoinEdge.ordered edges root.key
      | none => []
    let origins := match source with
      | some root => root.origin :: ordered.map fun e => e.content.1
      | none => []
    let projection := match columns, source with
      | [], some (.model m) => ofFields m
      | [], some _ => [text "*"]
      | [], none => [refuse (.query .nothingSelected)]
      | _, _ => commas (Expr.projectionFragments d columns)
    ofCtes ctes (Cte.listFragments d ctes) ++
      [nested (selectScope origins) (
        origins.map enlist ++ [text "SELECT "] ++ distinct.fragments d ++ projection ++
        Source.clauseFragments d " FROM " source ++ ordered.flatMap (fun e => e.content.2) ++
        Condition.clauseFragments d " WHERE " filter ++
        listClause " GROUP BY " (Expr.listFragments d none groupBy) ++
        Condition.clauseFragments d " HAVING " having ++
        listClause " WINDOW " (Window.listFragments d windows) ++
        listClause " ORDER BY " (OrderTerm.listFragments d orderBy) ++
        ofLimit d limit offset ++
        if forUpdate then
          requiring d.forUpdate (.unsupported d.name .forUpdate) [text " FOR UPDATE"]
        else [])]

def Compound.fragments (d : Dialect) : Compound → List Fragment
  | ⟨ctes, left, op, right, orderBy, limit, offset⟩ =>
    let ordering := match orderBy with
      | [] => []
      | _ => [text " ORDER BY ",
          nested { bare := true } (commas (OrderTerm.listFragments d orderBy))]
    ofCtes ctes (Cte.listFragments d ctes) ++
      ofOperand d false left.isCompound left.isOrdered (left.fragments d) ++
      [text (" " ++ op.keyword ++ " ")] ++
      ofOperand d true right.isCompound right.isOrdered (right.fragments d) ++
      ordering ++ ofLimit d limit offset

def Cte.fragments (d : Dialect) : Cte → List Fragment
  | ⟨_, _, _, query⟩ => query.fragments d

def Cte.listFragments (d : Dialect) : List Cte → List (List Fragment)
  | [] => []
  | c :: cs => c.fragments d :: Cte.listFragments d cs

/-- A source in a `FROM` clause or after the keyword of a join. -/
def Source.fragments (d : Dialect) : Source → List Fragment
  | .model m => ofSource (.model m) []
  | .table n => ofSource (.table n) []
  | .derived query name => ofSource (.derived query name) (query.fragments d)

def Source.clauseFragments (d : Dialect) (lead : String) : Option Source → List Fragment
  | none => []
  | some s => clause lead (s.fragments d)

/-- A join with the source that it adds, and its place among the joins. -/
def Join.fragments (d : Dialect) : Join → JoinEdge (Origin × List Fragment)
  | ⟨context, target, kind, on, _⟩ =>
    ⟨context, target.key, target.origin,
      [text (" " ++ kind.keyword ++ " ")] ++ target.fragments d ++
        on.fragments d context target.key⟩

def Join.listFragments (d : Dialect) : List Join → List (JoinEdge (Origin × List Fragment))
  | [] => []
  | j :: js => j.fragments d :: Join.listFragments d js

def JoinOn.fragments (d : Dialect) (context target : String) : JoinOn → List Fragment
  | .relation r => [ofRelation r context target]
  | .condition c => clause " ON " (c.fragments d)
  | .always => []

def Distinct.fragments (d : Dialect) : Distinct → List Fragment
  | .off => []
  | .rows => [text "DISTINCT "]
  | .on exprs =>
    requiring d.distinctOn (.unsupported d.name .distinctOn)
      (enclosed "DISTINCT ON (" (commas (Expr.listFragments d none exprs)) ") ")

end

end SqlMapper
