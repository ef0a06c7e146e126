import SqlMapper.Value.Basic

/-!
# SqlMapper.Row

Rows as a driver returns them: named columns and their values, in the order of the result.
-/

namespace SqlMapper

structure Row where
  columns : List String
  values : List Value

namespace Row

def ofPairs (pairs : List (String × Value)) : Row :=
  ⟨pairs.map Prod.fst, pairs.map Prod.snd⟩

def pairs (r : Row) : List (String × Value) :=
  r.columns.zip r.values

def size (r : Row) : Nat := r.values.length

def get? (r : Row) (i : Nat) : Option Value := r.values[i]?

/-- The value under the first column of that name. -/
def find? (r : Row) (column : String) : Option Value :=
  (r.columns.idxOf? column).bind r.get?

def get (r : Row) (column : String) : Except Error Value :=
  match r.find? column with
  | some v => .ok v
  | none => .error (.conversion (.missingColumn column))

end Row

end SqlMapper
