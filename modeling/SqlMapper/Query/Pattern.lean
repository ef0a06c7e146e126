/-!
# SqlMapper.Query.Pattern

Patterns of `LIKE` that match a text literally. The percent sign, the underscore and the backslash
get a backslash before them.
-/

namespace SqlMapper
namespace Pattern

def isSpecial (c : Char) : Bool := c == '%' || c == '_' || c == '\\'

def escapeChars (cs : List Char) : List Char :=
  cs.flatMap fun c => if isSpecial c then ['\\', c] else [c]

def escape (text : String) : String := .ofList (escapeChars text.toList)

/-- Matches what starts with the text. -/
def startingWith (text : String) : String := escape text ++ "%"

/-- Matches what ends with the text. -/
def endingWith (text : String) : String := "%" ++ escape text

/-- Matches what has the text in it. -/
def containing (text : String) : String := "%" ++ escape text ++ "%"

end Pattern
end SqlMapper
