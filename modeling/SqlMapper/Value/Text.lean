import SqlMapper.Value.Basic
import SqlMapper.Json.Printer

/-!
# SqlMapper.Value.Text

Values as text for people and as plain JSON, without their storage types.
-/

namespace SqlMapper
namespace Value

mutual

/-- The text shown for a value. -/
def display : Value → String
  | null => "NULL"
  | bool b => if b then "true" else "false"
  | smallInt n => toString n.toInt
  | int n => toString n.toInt
  | bigInt n => toString n.toInt
  | float x => x.plainText
  | double x => x.plainText
  | decimal s => s
  | text s => s
  | bytes bs => "<" ++ toString bs.length ++ " bytes>"
  | date n => "date(" ++ toString n.toInt ++ ")"
  | time n => "time(" ++ toString n.toInt ++ ")"
  | timestamp n => "timestamp(" ++ toString n.toInt ++ ")"
  | uuid u => u.text
  | json j => j.print
  | array items => "[" ++ ", ".intercalate (displayItems items) ++ "]"

def displayItems : List Value → List String
  | [] => []
  | v :: rest => display v :: displayItems rest

end

mutual

def toJson : Value → Json
  | null => .null
  | bool b => .bool b
  | smallInt n => .ofInt64 n.toInt64
  | int n => .ofInt64 n.toInt64
  | bigInt n => .ofInt64 n
  | float x => .ofBinary64 (.ofBinary32 x)
  | double x => .ofBinary64 x
  | decimal s => .string s
  | text s => .string s
  | bytes bs => .array (bs.map fun b => .number (.natural b.toUInt64))
  | date n => .ofInt64 n.toInt64
  | time n => .ofInt64 n
  | timestamp n => .ofInt64 n
  | uuid u => .string u.text
  | json j => j
  | array items => .array (itemsToJson items)

def itemsToJson : List Value → List Json
  | [] => []
  | v :: rest => toJson v :: itemsToJson rest

end

end Value
end SqlMapper
