import SqlMapper.Json.Basic
import SqlMapper.Uuid

/-!
# SqlMapper.Value.Basic

The values that go to a database and come back from it.

* `Value`: a value with its storage type.
* The readings `int64?`, `binary64?`, `text?` and `bool?`: a value as a number, as text or as a
  truth value, where it has such a reading.
* `Value.same`: equality of values. Floating-point numbers are compared as numbers.
* `ToValue`: the storage type of a plain Lean value.
-/

namespace SqlMapper

inductive Value
  | null
  | bool (b : Bool)
  | smallInt (n : Int16)
  | int (n : Int32)
  | bigInt (n : Int64)
  | float (x : Binary32)
  | double (x : Binary64)
  /-- A decimal of any precision, as its text. -/
  | decimal (text : String)
  | text (s : String)
  | bytes (bs : List UInt8)
  /-- Days since 1970. -/
  | date (days : Int32)
  /-- Microseconds since midnight. -/
  | time (micros : Int64)
  /-- Microseconds since 1970. -/
  | timestamp (micros : Int64)
  | uuid (u : Uuid)
  | json (j : Json)
  | array (items : List Value)

namespace Value

instance : Inhabited Value := ⟨null⟩

def isNull : Value → Bool
  | null => true
  | _ => false

/-- The name of the storage type, for error texts. -/
def typeName : Value → String
  | null => "null"
  | bool _ => "bool"
  | smallInt _ => "smallint"
  | int _ => "int"
  | bigInt _ => "bigint"
  | float _ => "float"
  | double _ => "double"
  | decimal _ => "decimal"
  | text _ => "text"
  | bytes _ => "bytes"
  | date _ => "date"
  | time _ => "time"
  | timestamp _ => "timestamp"
  | uuid _ => "uuid"
  | json _ => "json"
  | array _ => "array"

/-! ## Readings -/

/-- Integers of every width, and truth values as one and zero. -/
def int64? : Value → Option Int64
  | smallInt n => some n.toInt64
  | int n => some n.toInt64
  | bigInt n => some n
  | bool b => some (if b then 1 else 0)
  | _ => none

/-- Every number; a decimal if its text is one. -/
def binary64? : Value → Option Binary64
  | float x => some (.ofBinary32 x)
  | double x => some x
  | decimal s => Binary64.ofText? s
  | v => v.int64?.map fun n => Binary64.ofInt n.toInt

def text? : Value → Option String
  | text s => some s
  | decimal s => some s
  | _ => none

/-- An integer is true when it is not zero. -/
def bool? : Value → Option Bool
  | bool b => some b
  | v => v.int64?.map (· != 0)

/-! ## Equality -/

mutual

def same : Value → Value → Bool
  | null, null => true
  | bool a, bool b => a == b
  | smallInt a, smallInt b => a == b
  | int a, int b => a == b
  | bigInt a, bigInt b => a == b
  | float a, float b => a.sameNumber b
  | double a, double b => a.sameNumber b
  | decimal a, decimal b => a == b
  | text a, text b => a == b
  | bytes a, bytes b => a == b
  | date a, date b => a == b
  | time a, time b => a == b
  | timestamp a, timestamp b => a == b
  | uuid a, uuid b => a == b
  | json a, json b => a.same b
  | array a, array b => sameItems a b
  | _, _ => false

def sameItems : List Value → List Value → Bool
  | [], [] => true
  | a :: as, b :: bs => same a b && sameItems as bs
  | _, _ => false

end

end Value

/-! ## Plain values -/

class ToValue (α : Type) where
  toValue : α → Value

export ToValue (toValue)

instance : ToValue Value := ⟨id⟩
instance : ToValue Bool := ⟨.bool⟩
instance : ToValue Int8 := ⟨fun n => .smallInt n.toInt16⟩
instance : ToValue Int16 := ⟨.smallInt⟩
instance : ToValue UInt8 := ⟨fun n => .smallInt n.toUInt16.toInt16⟩
instance : ToValue Int32 := ⟨.int⟩
instance : ToValue UInt16 := ⟨fun n => .int n.toUInt32.toInt32⟩
instance : ToValue Int64 := ⟨.bigInt⟩
instance : ToValue UInt32 := ⟨fun n => .bigInt n.toUInt64.toInt64⟩
instance : ToValue Binary32 := ⟨.float⟩
instance : ToValue Binary64 := ⟨.double⟩
instance : ToValue String := ⟨.text⟩
instance : ToValue (List UInt8) := ⟨.bytes⟩
instance : ToValue Json := ⟨.json⟩

/-- What is missing is NULL. -/
instance {α : Type} [ToValue α] : ToValue (Option α) :=
  ⟨fun a => a.elim .null toValue⟩

end SqlMapper
