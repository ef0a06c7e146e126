import SqlMapper.Query.Condition
import SqlMapper.Query.Pattern

/-!
# SqlMapper.Query.Expr

Building operands, and comparing them into conditions.
-/

namespace SqlMapper

/-! ## Columns of a model -/

namespace ModelSource

/-- The column of a field. -/
def column (m : ModelSource) (field : String) : Expr := .column (some (.model m)) field

def star (m : ModelSource) : Expr := .star (some (.model m))

/-- The columns of all fields, in their order. -/
def columns (m : ModelSource) : List Expr := m.model.fieldNames.map m.column

end ModelSource

def Cte.column (c : Cte) (name : String) : Expr := .column (some (.table c.name)) name

namespace Expr

def bare (name : String) : Expr := column none name

def qualified (table name : String) : Expr := column (some (.table table)) name

def value {α : Type} [ToValue α] (a : α) : Expr := literal (toValue a)

/-! ## Functions -/

def function (name : String) (arguments : List Expr) : Expr := call name arguments false

def count (e : Expr) : Expr := function "COUNT" [e]

def countStar : Expr := count (star none)

def sum (e : Expr) : Expr := function "SUM" [e]

def avg (e : Expr) : Expr := function "AVG" [e]

def min (e : Expr) : Expr := function "MIN" [e]

def max (e : Expr) : Expr := function "MAX" [e]

def lower (e : Expr) : Expr := function "LOWER" [e]

def upper (e : Expr) : Expr := function "UPPER" [e]

def coalesce (es : List Expr) : Expr := function "COALESCE" es

/-- A function over different arguments only; any other operand stays as it is. -/
def distinct : Expr → Expr
  | call name arguments _ => call name arguments true
  | e => e

/-! ## Names -/

def unnamed : Expr → Expr
  | named e _ => e
  | e => e

/-- Gives an output name, in place of one that the operand may have. -/
def as (e : Expr) (name : String) : Expr := named e.unnamed name

/-! ## Windows -/

/-- A window with a name is meant to be declared by the query and is only referred to. -/
def overWindow (e : Expr) (w : Window) : Expr :=
  match w.name with
  | some name => windowed e (.named name)
  | none => windowed e (.inline w)

def overNamed (e : Expr) (name : String) : Expr := windowed e (.named name)

def overAll (e : Expr) : Expr := e.overWindow ⟨none, [], [], none⟩

/-! ## Ordering -/

def ascending (e : Expr) : OrderTerm := ⟨e, .ascending, none⟩

def descending (e : Expr) : OrderTerm := ⟨e, .descending, none⟩

/-! ## Comparisons -/

def compare (op : Comparison) (a b : Expr) : Condition := .compare a op b false false

def isIn (e : Expr) (items : List Expr) : Condition := compare .isIn e (list items)

def notIn (e : Expr) (items : List Expr) : Condition := compare .notIn e (list items)

def inQuery (e : Expr) (q : Query) : Condition := compare .isIn e (subquery q)

def notInQuery (e : Expr) (q : Query) : Condition := compare .notIn e (subquery q)

def isNull (e : Expr) : Condition := compare .is e (literal .null)

def isNotNull (e : Expr) : Condition := compare .isNot e (literal .null)

def between (e low high : Expr) : Condition := compare .between e (list [low, high])

/-- A comparison with a pattern in which special characters are escaped. -/
def matching (op : Comparison) (e : Expr) (pattern : String) : Condition :=
  .compare e op (literal (.text pattern)) false true

def startsWith (e : Expr) (text : String) : Condition :=
  matching .like e (Pattern.startingWith text)

def endsWith (e : Expr) (text : String) : Condition :=
  matching .like e (Pattern.endingWith text)

def contains (e : Expr) (text : String) : Condition :=
  matching .like e (Pattern.containing text)

/-- As `contains`, without regard to case. -/
def icontains (e : Expr) (text : String) : Condition :=
  matching .ilike e (Pattern.containing text)

end Expr

namespace OrderTerm

def nullsFirst (t : OrderTerm) : OrderTerm := { t with nulls := some .first }

def nullsLast (t : OrderTerm) : OrderTerm := { t with nulls := some .last }

end OrderTerm

namespace Window

/-- A window to be declared by a query. -/
def declared (name : String) : Except Error Window := do
  Identifier.validate name "window name"
  pure ⟨some name, [], [], none⟩

end Window

namespace Cte

def create (name : String) (query : Query) : Except Error Cte := do
  Identifier.validate name "CTE name"
  pure ⟨name, [], false, query⟩

end Cte

end SqlMapper
