import SqlMapper.Query.Select
import SqlMapper.Query.Fragment.OfQuery

/-!
# SqlMapper.Inspect.Query

Queries under construction as JSON documents, for tools that show them: what a select reads from and
joins, and the shape of its conditions down to their operands.
-/

namespace SqlMapper

def ModelSource.described (m : ModelSource) : String :=
  match m.givenName with
  | some name => m.model.name ++ " AS " ++ name
  | none => m.model.name

/-- What an expression is, in a word. -/
def Expr.kindName : Expr → String
  | column none _ => "bare_column"
  | column _ _ => "column"
  | literal _ => "value"
  | raw _ => "raw"
  | call .. => "function"
  | windowed .. => "over"
  | binary .. => "binary"
  | list _ => "list"
  | subquery _ => "subquery"
  | nonEmpty _ => "exists"
  | condition _ => "condition"
  | cast .. => "cast"
  | named .. => "alias"
  | excluded _ => "excluded"
  | star _ => "star"

namespace Condition

mutual

def inspect : Condition → Json
  | compare l op r negated escaped => .ofMembers [("op", .string op.sign),
      ("lhs", .string l.kindName), ("rhs", .string r.kindName), ("negated", .bool negated),
      ("escape", .bool escaped)]
  | group c members negated => .ofMembers [("node", .string c.keyword),
      ("negated", .bool negated), ("children", .array (inspectAll members))]
  | operand e => .ofMembers [("expr", .string e.kindName)]

def inspectAll : List Condition → List Json
  | [] => []
  | c :: rest => inspect c :: inspectAll rest

end

end Condition

def JoinOn.inspect : JoinOn → Json
  | relation r => .string (r.child ++ "." ++ r.foreignKey.field)
  | condition _ => .string "condition"
  | always => .null

def Join.inspect (e : Join) : Json :=
  .array [.string e.context, .string e.target.key, .string e.kind.keyword, e.on.inspect,
    .ofOption .string e.exposedAs, .bool e.target.model?.isSome]

def Select.inspect (s : Select) : Json :=
  .ofMembers [("context", .ofOption .string s.context),
    ("model", .ofOption (fun m => .string m.described) s.model?),
    ("root_model", .ofOption (fun m => .string m.key) (Query.simple s).model?),
    ("joins", .array (s.joins.map Join.inspect)), ("columns", .ofNat s.columns.length),
    ("where", .ofOption Condition.inspect s.filter),
    ("ordered_or_limited", .bool (Query.simple s).isOrdered)]

end SqlMapper
