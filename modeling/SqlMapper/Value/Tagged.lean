import SqlMapper.Value.Text
import SqlMapper.Json.Reader

/-!
# SqlMapper.Value.Tagged

Values with their storage types as JSON text.

* `Value.tagged`: the text of a value, an object with the name of the storage type as its only
  member; NULL is a bare string. Every number, also one of a `float`, is written in full.
* `Value.ofTagged?`: reads such a text. A whole number may stand for a floating-point one, but
  not the other way round, and every number must fit its type.
-/

namespace SqlMapper
namespace Value

private def member (name payload : String) : String :=
  "\x7b" ++ Json.quoted name ++ ":" ++ payload ++ "\x7d"

private def list (items : List String) : String :=
  "[" ++ ",".intercalate items ++ "]"

private def listBytes (bs : List UInt8) : String :=
  list (bs.map fun b => toString b.toNat)

mutual

def tagged : Value → String
  | null => Json.quoted "Null"
  | bool b => member "Bool" (if b then "true" else "false")
  | smallInt n => member "SmallInt" (toString n.toInt)
  | int n => member "Int" (toString n.toInt)
  | bigInt n => member "BigInt" (toString n.toInt)
  | float x =>
    member "Float" (if (Binary64.ofBinary32 x).isFinite then x.jsonText else "null")
  | double x => member "Double" (if x.isFinite then x.jsonText else "null")
  | decimal s => member "Decimal" (Json.quoted s)
  | text s => member "Text" (Json.quoted s)
  | bytes bs => member "Bytes" (listBytes bs)
  | date n => member "Date" (toString n.toInt)
  | time n => member "Time" (toString n.toInt)
  | timestamp n => member "Timestamp" (toString n.toInt)
  | uuid u => member "Uuid" (listBytes u.bytes)
  | json j => member "Json" j.print
  | array items => member "Array" (list (taggedItems items))

def taggedItems : List Value → List String
  | [] => []
  | v :: rest => tagged v :: taggedItems rest

end

/-! ## Reading -/

/-- A whole number from `least` to `greatest`. -/
def integer? (least greatest : Int) : Json → Option Int
  | .number (.natural n) => within n.toNat
  | .number (.negative n) => within n.toInt
  | _ => none
where
  within (i : Int) : Option Int := if least ≤ i && i ≤ greatest then some i else none

def signed? (bits : Nat) (j : Json) : Option Int :=
  let bound := Int.ofNat (Nat.pow 2 (bits - 1))
  integer? (-bound) (bound - 1) j

def number? : Json → Option Binary64
  | .number (.natural n) => some (.ofInt n.toNat)
  | .number (.negative n) => some (.ofInt n.toInt)
  | .number (.double x) => some x
  | _ => none

/-- A number of the narrow type. A whole number is rounded to it in one step. -/
def narrowNumber? : Json → Option Binary32
  | .number (.natural n) => some (.ofNumber (.finite false n.toNat 0))
  | .number (.negative n) => some (.ofNumber (.finite true n.toInt.natAbs 0))
  | .number (.double x) => some x.toBinary32
  | _ => none

def string? : Json → Option String
  | .string s => some s
  | _ => none

def bytes? : Json → Option (List UInt8)
  | .array items => items.mapM fun j => (integer? 0 255 j).map fun i => .ofNat i.toNat
  | _ => none

mutual

/-- Reads the document of a tagged value, the members of its objects as they stand in the text. -/
def ofJson? : Json → Option Value
  | .string "Null" => some null
  | .object [(tag, payload)] =>
    match tag, payload with
    | "Null", .null => some null
    | "Bool", .bool b => some (bool b)
    | "SmallInt", j => (signed? 16 j).map fun i => smallInt (.ofInt i)
    | "Int", j => (signed? 32 j).map fun i => int (.ofInt i)
    | "BigInt", j => (signed? 64 j).map fun i => bigInt (.ofInt i)
    | "Float", j => (narrowNumber? j).map float
    | "Double", j => (number? j).map double
    | "Decimal", j => (string? j).map decimal
    | "Text", j => (string? j).map text
    | "Bytes", j => (bytes? j).map bytes
    | "Date", j => (signed? 32 j).map fun i => date (.ofInt i)
    | "Time", j => (signed? 64 j).map fun i => time (.ofInt i)
    | "Timestamp", j => (signed? 64 j).map fun i => timestamp (.ofInt i)
    | "Uuid", j => ((bytes? j).bind Uuid.ofBytes?).map uuid
    | "Json", j => some (json j.canonical)
    | "Array", .array items => (ofJsonItems? items).map array
    | _, _ => none
  | _ => none

def ofJsonItems? : List Json → Option (List Value)
  | [] => some []
  | j :: rest => do
    let v ← ofJson? j
    let vs ← ofJsonItems? rest
    pure (v :: vs)

end

def ofTagged? (text : String) : Option Value :=
  (Json.read? text).bind ofJson?

end Value
end SqlMapper
