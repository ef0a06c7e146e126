import SqlMapper.Error
import SqlMapper.Text.Hex

/-!
# SqlMapper.Uuid

Identifiers of sixteen bytes.

* `Uuid.text`: the thirty-two digits, without dashes.
* `Uuid.parse`: reads digits in either case, with dashes anywhere among them.
-/

namespace SqlMapper

structure Uuid where
  bytes : List UInt8
  length_eq : bytes.length = 16
  deriving DecidableEq

namespace Uuid

def ofBytes? (bytes : List UInt8) : Option Uuid :=
  if h : bytes.length = 16 then some ⟨bytes, h⟩ else none

theorem ofBytes?_bytes (u : Uuid) : ofBytes? u.bytes = some u := by
  simp [ofBytes?, u.length_eq]

def text (u : Uuid) : String :=
  .ofList (Hex.ofBytes u.bytes)

/-- Dashes are skipped; what is left must be thirty-two characters that pair up to bytes. -/
def parse (text : String) : Except Error Uuid :=
  let digits := text.toList.filter (· ≠ '-')
  match (Hex.toBytes? digits).bind ofBytes? with
  | some u => .ok u
  | none => .error (.conversion (.invalidUuid text))

end Uuid

end SqlMapper
