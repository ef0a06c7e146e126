import SqlMapper.Identifier

/-!
# SqlMapper.Query.Dialect

What differs between database engines.

A `Dialect` is plain data: the compiler asks for its fields and never for its name. There are
presets for three engines; another engine starts from one of them.
-/

namespace SqlMapper

/-- How bound parameters are written: `?`, or `$1`, or `?1`. -/
inductive PlaceholderStyle
  | question
  | dollar
  | numbered
  deriving DecidableEq

/-- When the operands of a compound query stand in parentheses. -/
inductive CompoundParentheses
  | never
  | always
  deriving DecidableEq

/-- How an insert says what happens to a conflicting row: `INSERT OR … / ON CONFLICT (…) DO …`,
or `ON CONFLICT [(…) | ON CONSTRAINT …] DO …`, or
`INSERT IGNORE / REPLACE / ON DUPLICATE KEY UPDATE`. -/
inductive ConflictStyle
  | sqlite
  | postgres
  | mysql
  deriving DecidableEq

/-- Concatenation as `a || b` or as `CONCAT(a, b)`. -/
inductive ConcatStyle
  | operator
  | function
  deriving DecidableEq

structure Dialect where
  name : String
  /-- The character around identifiers. -/
  quoteChar : Char
  placeholders : PlaceholderStyle
  returning : Bool
  nullsOrdering : Bool
  compoundParentheses : CompoundParentheses
  /-- Whether there is an `ILIKE`; otherwise `LIKE` stands for it. -/
  ilike : Bool
  updateFrom : Bool
  deleteUsing : Bool
  distinctOn : Bool
  forUpdate : Bool
  conflict : ConflictStyle
  bitwiseXor : Option String
  concat : ConcatStyle
  /-- The limit that stands for no limit, where an offset cannot stand alone. -/
  limitForOffset : Option String
  /-- The literal after `ESCAPE`. -/
  likeEscape : String
  deriving DecidableEq

namespace Dialect

def sqlite : Dialect where
  name := "sqlite"
  quoteChar := '"'
  placeholders := .question
  returning := true
  nullsOrdering := true
  compoundParentheses := .never
  ilike := false
  updateFrom := true
  deleteUsing := false
  distinctOn := false
  forUpdate := false
  conflict := .sqlite
  bitwiseXor := none
  concat := .operator
  limitForOffset := some "-1"
  likeEscape := "'\\'"

def postgres : Dialect where
  name := "postgres"
  quoteChar := '"'
  placeholders := .dollar
  returning := true
  nullsOrdering := true
  compoundParentheses := .always
  ilike := true
  updateFrom := true
  deleteUsing := true
  distinctOn := true
  forUpdate := true
  conflict := .postgres
  bitwiseXor := some "#"
  concat := .operator
  limitForOffset := none
  likeEscape := "'\\'"

def mysql : Dialect where
  name := "mysql"
  quoteChar := '\x60'
  placeholders := .question
  returning := false
  nullsOrdering := false
  compoundParentheses := .always
  ilike := false
  updateFrom := false
  deleteUsing := false
  distinctOn := false
  forUpdate := true
  conflict := .mysql
  bitwiseXor := some "^"
  concat := .function
  limitForOffset := some "18446744073709551615"
  likeEscape := "'\\\\'"

instance : Inhabited Dialect := ⟨sqlite⟩

/-- The preset of that name. -/
def named? (n : String) : Option Dialect :=
  [sqlite, postgres, mysql].find? (·.name == n)

def quote (d : Dialect) (name : String) : String :=
  Identifier.quote name d.quoteChar

/-- The placeholder of the `n`-th parameter, counted from one. -/
def placeholder (d : Dialect) (n : Nat) : String :=
  match d.placeholders with
  | .question => "?"
  | .dollar => "$" ++ toString n
  | .numbered => "?" ++ toString n

end Dialect

end SqlMapper
