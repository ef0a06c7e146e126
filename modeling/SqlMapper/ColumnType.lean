import SqlMapper.Value.Text
import SqlMapper.Json.Reader

/-!
# SqlMapper.ColumnType

The semantic types of columns.

* `ColumnType.sql`: the spelling of a type.
* `ColumnType.encode`: what a value is stored as. Only conversions that lose nothing happen; any
  other value goes to the driver as it is.
* `ColumnType.decode`: what a stored value means.
-/

namespace SqlMapper

inductive ColumnType
  | boolean
  | smallInt
  | integer
  | bigInt
  | real
  | double
  | decimal (precision scale : UInt8)
  | text
  | varChar (length : UInt32)
  | blob
  | date
  | time
  | timestamp
  | uuid
  | json
  deriving DecidableEq

namespace ColumnType

def sql : ColumnType → String
  | boolean => "BOOLEAN"
  | smallInt => "SMALLINT"
  | integer => "INTEGER"
  | bigInt => "BIGINT"
  | real => "REAL"
  | double => "DOUBLE PRECISION"
  | decimal precision scale =>
    "DECIMAL(" ++ toString precision.toNat ++ ", " ++ toString scale.toNat ++ ")"
  | text => "TEXT"
  | varChar length => "VARCHAR(" ++ toString length.toNat ++ ")"
  | blob => "BLOB"
  | date => "DATE"
  | time => "TIME"
  | timestamp => "TIMESTAMP"
  | uuid => "UUID"
  | json => "JSON"

def isInteger : ColumnType → Bool
  | smallInt | integer | bigInt => true
  | _ => false

/-- The name of the type without its parameters. -/
def name : ColumnType → String
  | boolean => "Boolean"
  | smallInt => "SmallInt"
  | integer => "Integer"
  | bigInt => "BigInt"
  | real => "Real"
  | double => "Double"
  | decimal _ _ => "Decimal"
  | text => "Text"
  | varChar _ => "VarChar"
  | blob => "Blob"
  | date => "Date"
  | time => "Time"
  | timestamp => "Timestamp"
  | uuid => "Uuid"
  | json => "Json"

/-- The type without parameters that has the name. -/
def ofName? (n : String) : Option ColumnType :=
  [boolean, smallInt, integer, bigInt, real, double, text, blob, date, time, timestamp, uuid,
    json].find? (·.name == n)

/-- The type as JSON: its name, with an object or a number for its parameters. -/
def tagged (t : ColumnType) : Json :=
  match t with
  | decimal precision scale =>
    .object [(t.name, .ofMembers
      [("precision", .number (.natural precision.toUInt64)),
        ("scale", .number (.natural scale.toUInt64))])]
  | varChar length => .object [(t.name, .number (.natural length.toUInt64))]
  | _ => .string t.name

def encode : ColumnType → Value → Except Error Value
  | json, .json j => .ok (.text j.print)
  | decimal _ _, .double x => .ok (.decimal x.plainText)
  | uuid, .text s => (Uuid.parse s).map .uuid
  | _, v => .ok v

/-- The integer `n` as a value of a type that holds the integers from `least` to `greatest`. -/
def narrow (v : Value) (n : Int64) (least greatest : Int) (make : Int64 → Value) :
    Except Error Value :=
  if least ≤ n.toInt && n.toInt ≤ greatest then .ok (make n)
  else .error (.conversion (.integerOutOfRange v.typeName))

/-- The meaning of a stored value that has an integer reading `n`. -/
def decodeInteger (v : Value) (n : Int64) : ColumnType → Except Error Value
  | boolean =>
    match v with
    | .bool b => .ok (.bool b)
    | _ => .ok (.bool (n != 0))
  | smallInt => narrow v n (-32768) 32767 fun n => .smallInt n.toInt16
  | integer => narrow v n (-2147483648) 2147483647 fun n => .int n.toInt32
  | bigInt => .ok (.bigInt n)
  | double => .ok (.double (.ofInt n.toInt))
  | _ => .ok v

def decode (t : ColumnType) (v : Value) : Except Error Value :=
  match v.int64? with
  | some n => t.decodeInteger v n
  | none =>
    match t, v with
    | real, .double x => .ok (.float x.toBinary32)
    | double, .float x => .ok (.double (.ofBinary32 x))
    | decimal _ _, .double x => .ok (.decimal x.plainText)
    | json, .text s =>
      match Json.parse? s with
      | some j => .ok (.json j)
      | none => .error (.conversion .invalidJson)
    | uuid, .bytes bs =>
      match Uuid.ofBytes? bs with
      | some u => .ok (.uuid u)
      | none => .error (.conversion (.uuidLength bs.length))
    | uuid, .text s => (Uuid.parse s).map .uuid
    | _, v => .ok v

end ColumnType

end SqlMapper
