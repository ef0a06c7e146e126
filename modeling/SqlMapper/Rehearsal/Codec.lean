import SqlMapper.Schema.Field
import SqlMapper.Value.Text

/-!
# SqlMapper.Rehearsal.Codec

Codecs and computed defaults to rehearse with, by name.
-/

namespace SqlMapper.Rehearsal

def refused (text : String) : Except Error Value := .error (.reported ⟨.conversion, text, none⟩)

/-- A text in upper case, a number twice as large, any value in its displayed form, and for another
name a codec that takes nothing. -/
def codec (name : String) : Codec := fun v =>
  match name, v with
  | "upper", .text s => .ok (.text s.toUpper)
  | "upper", v => refused ("expected text, got " ++ v.typeName)
  | "twice", v => .ok ((v.int64?.map fun n => Value.bigInt (2 * n)).getD v)
  | "show", v => .ok (.text ("<" ++ v.display ++ ">"))
  | _, v => refused ("codec refused " ++ v.typeName)

def sampleJson : Json :=
  .ofMembers [("a", .null), ("b", .array [.number (.natural 1), .number (.natural 2)])]

/-- The numbers from 1 on, or a value that is always the same. -/
def draw (name : String) (s : Supply) : Value × Supply :=
  match name with
  | "seq" => (.bigInt (.ofNat (s.drawn + 1)), ⟨s.drawn + 1⟩)
  | "zero" => (.int 0, s)
  | "empty" => (.text "", s)
  | "json" => (.json sampleJson, s)
  | "uuid_text" => (.text "00112233-4455-6677-8899-aabbccddeeff", s)
  | _ => (.null, s)

end SqlMapper.Rehearsal
