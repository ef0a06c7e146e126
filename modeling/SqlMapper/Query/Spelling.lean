import SqlMapper.Query.Syntax

/-!
# SqlMapper.Query.Spelling

The keywords and signs of SQL.
-/

namespace SqlMapper

def Operator.sign : Operator → String
  | add => "+"
  | sub => "-"
  | mul => "*"
  | div => "/"
  | mod => "%"
  | bitAnd => "&"
  | bitOr => "|"
  | bitXor => "^"
  | concat => "||"

def Comparison.sign : Comparison → String
  | eq => "="
  | ne => "!="
  | lt => "<"
  | le => "<="
  | gt => ">"
  | ge => ">="
  | isIn => "IN"
  | notIn => "NOT IN"
  | is => "IS"
  | isNot => "IS NOT"
  | like => "LIKE"
  | notLike => "NOT LIKE"
  | ilike => "ILIKE"
  | between => "BETWEEN"

def Connective.keyword : Connective → String
  | all => "AND"
  | any => "OR"

/-- The condition that a group without members stands for. -/
def Connective.ofNothing : Connective → String
  | all => "(1 = 1)"
  | any => "(0 = 1)"

def Direction.keyword : Direction → String
  | ascending => "ASC"
  | descending => "DESC"

def Nulls.keyword : Nulls → String
  | first => "NULLS FIRST"
  | last => "NULLS LAST"

def FrameUnit.keyword : FrameUnit → String
  | rows => "ROWS"
  | range => "RANGE"
  | groups => "GROUPS"

def FrameBound.sql : FrameBound → String
  | unboundedPreceding => "UNBOUNDED PRECEDING"
  | preceding n => toString n ++ " PRECEDING"
  | currentRow => "CURRENT ROW"
  | following n => toString n ++ " FOLLOWING"
  | unboundedFollowing => "UNBOUNDED FOLLOWING"

def Frame.sql (f : Frame) : String :=
  f.unit.keyword ++ " BETWEEN " ++ f.start.sql ++ " AND " ++ f.stop.sql

def JoinKind.keyword : JoinKind → String
  | inner => "INNER JOIN"
  | leftOuter => "LEFT OUTER JOIN"
  | rightOuter => "RIGHT OUTER JOIN"
  | fullOuter => "FULL OUTER JOIN"
  | cross => "CROSS JOIN"

def SetOperator.keyword : SetOperator → String
  | union => "UNION"
  | unionAll => "UNION ALL"
  | intersect => "INTERSECT"
  | except => "EXCEPT"

end SqlMapper
