/-!
# SqlMapper.Text.Described

How values show themselves to a developer: a record as its name and its fields in braces, a span of
time in the largest unit that leaves digits before the point.
-/

namespace SqlMapper.Described

def record (name : String) (fields : List (String × String)) : String :=
  let shown := fields.map fun (field, value) => field ++ ": " ++ value
  name ++ " \x7b " ++ ", ".intercalate shown ++ " \x7d"

def option : Option String → String
  | none => "None"
  | some value => "Some(" ++ value ++ ")"

/-- The digits of a fraction of `places` places, without zeros at the end. -/
def fraction (places n : Nat) : String :=
  let digits := Nat.toDigits 10 (n % Nat.pow 10 places)
  let padded := List.replicate (places - digits.length) '0' ++ digits
  match padded.reverse.dropWhile (· == '0') with
  | [] => ""
  | rest => "." ++ String.ofList rest.reverse

def milliseconds (n : Nat) : String :=
  if n = 0 then "0ns"
  else if n < 1000 then toString n ++ "ms"
  else toString (n / 1000) ++ fraction 3 n ++ "s"

end SqlMapper.Described
