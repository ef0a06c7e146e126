import SqlMapper.Json.Basic
import SqlMapper.Text.Hex

/-!
# SqlMapper.Json.Printer

The compact text of a document: no blanks, and in a string only the quotation mark, the backslash
and the control characters below the blank are escaped.
-/

namespace SqlMapper
namespace Json

def escaped (c : Char) : List Char :=
  if c = '"' then ['\\', '"']
  else if c = '\\' then ['\\', '\\']
  else if c.toNat = 8 then ['\\', 'b']
  else if c.toNat = 12 then ['\\', 'f']
  else if c = '\n' then ['\\', 'n']
  else if c = '\r' then ['\\', 'r']
  else if c = '\t' then ['\\', 't']
  else if c.toNat < 32 then
    ['\\', 'u', '0', '0', Hex.digit (c.toNat / 16), Hex.digit (c.toNat % 16)]
  else [c]

def quoted (s : String) : String :=
  "\"" ++ .ofList (s.toList.flatMap escaped) ++ "\""

def Number.print : Number → String
  | natural n => toString n.toNat
  | negative n => toString n.toInt
  | double x => x.jsonText

mutual

def print : Json → String
  | null => "null"
  | bool b => if b then "true" else "false"
  | number n => n.print
  | string s => quoted s
  | array items => "[" ++ ",".intercalate (printItems items) ++ "]"
  | object members => "\x7b" ++ ",".intercalate (printMembers members) ++ "\x7d"

def printItems : List Json → List String
  | [] => []
  | j :: rest => print j :: printItems rest

def printMembers : List (String × Json) → List String
  | [] => []
  | (n, j) :: rest => (quoted n ++ ":" ++ print j) :: printMembers rest

end

end Json
end SqlMapper
