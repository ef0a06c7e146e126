import SqlMapper.Json.Number
import SqlMapper.Text.Hex

/-!
# SqlMapper.Json.Reader

Reading a document in two passes over a list, each a fold.

* `Token.scan?`: characters into tokens.
* `Json.ofTokens?`: tokens into a document, by a stack of the containers that are still open.
* `Json.read?`: both, with the members of objects as they stand in the text.
* `Json.parse?`: the canonical document of a text.
-/

namespace SqlMapper
namespace Json

inductive Token
  | openArray
  | closeArray
  | openObject
  | closeObject
  | colon
  | comma
  | string (s : String)
  | scalar (j : Json)

namespace Token

/-- Where a scan stands. Characters of an unfinished token are kept last first. -/
inductive Mode
  | between
  | word (letters : List Char)
  | number (characters : List Char)
  | text (done : List Char)
  | escape (done : List Char)
  /-- Inside the four digits of an escaped unit, after a leading surrogate or not. -/
  | unit (done : List Char) (leading : Option Nat) (digits : List Char)
  /-- After a leading surrogate, before the backslash of the trailing one. -/
  | trailing (done : List Char) (leading : Nat)
  /-- After that backslash. -/
  | trailingMark (done : List Char) (leading : Nat)

structure Scan where
  mode : Mode
  tokens : List Token

def inNumber (c : Char) : Bool :=
  c.isDigit || c == '-' || c == '+' || c == '.' || c == 'e' || c == 'E'

def ofWord? (letters : List Char) : Option Token :=
  if letters = "null".toList then some (.scalar null)
  else if letters = "true".toList then some (.scalar (bool true))
  else if letters = "false".toList then some (.scalar (bool false))
  else none

def ofNumber? (characters : List Char) : Option Token :=
  (Number.ofText? characters).map fun n => .scalar (Json.number n)

/-- A character between two tokens. -/
def start? (tokens : List Token) (c : Char) : Option Scan :=
  let one (t : Token) : Option Scan := some ⟨.between, t :: tokens⟩
  if c = ' ' || c = '\t' || c = '\n' || c = '\r' then some ⟨.between, tokens⟩
  else if c = '[' then one .openArray
  else if c = ']' then one .closeArray
  else if c = '\x7b' then one .openObject
  else if c = '\x7d' then one .closeObject
  else if c = ':' then one .colon
  else if c = ',' then one .comma
  else if c = '"' then some ⟨.text [], tokens⟩
  else if c.isLower then some ⟨.word [c], tokens⟩
  else if c.isDigit || c = '-' then some ⟨.number [c], tokens⟩
  else none

/-- The character that a one-letter escape stands for. -/
def unescaped? (c : Char) : Option Char :=
  if c = '"' || c = '\\' || c = '/' then some c
  else if c = 'b' then some '\x08'
  else if c = 'f' then some '\x0c'
  else if c = 'n' then some '\n'
  else if c = 'r' then some '\r'
  else if c = 't' then some '\t'
  else none

/-- An escaped unit is complete. A surrogate counts only as one of a pair. -/
def unitDone? (done : List Char) (leading : Option Nat) (unit : Nat) : Option Mode :=
  match leading with
  | none =>
    if 0xD800 ≤ unit && unit < 0xDC00 then some (.trailing done unit)
    else if 0xDC00 ≤ unit && unit < 0xE000 then none
    else some (.text (.ofNat unit :: done))
  | some lead =>
    if 0xDC00 ≤ unit && unit < 0xE000 then
      some (.text (.ofNat (0x10000 + (lead - 0xD800) * 0x400 + (unit - 0xDC00)) :: done))
    else none

def step? (s : Scan) (c : Char) : Option Scan :=
  match s.mode with
  | .between => start? s.tokens c
  | .word letters =>
    if c.isLower then some ⟨.word (c :: letters), s.tokens⟩
    else (ofWord? letters.reverse).bind fun t => start? (t :: s.tokens) c
  | .number characters =>
    if inNumber c then some ⟨.number (c :: characters), s.tokens⟩
    else (ofNumber? characters.reverse).bind fun t => start? (t :: s.tokens) c
  | .text done =>
    if c = '"' then some ⟨.between, .string (.ofList done.reverse) :: s.tokens⟩
    else if c = '\\' then some ⟨.escape done, s.tokens⟩
    else if c.toNat < 32 then none
    else some ⟨.text (c :: done), s.tokens⟩
  | .escape done =>
    if c = 'u' then some ⟨.unit done none [], s.tokens⟩
    else (unescaped? c).map fun d => ⟨.text (d :: done), s.tokens⟩
  | .unit done leading digits =>
    let digits := c :: digits
    if digits.length < 4 then some ⟨.unit done leading digits, s.tokens⟩
    else do
      let unit ← Hex.toNat? digits.reverse
      let mode ← unitDone? done leading unit
      pure ⟨mode, s.tokens⟩
  | .trailing done leading =>
    if c = '\\' then some ⟨.trailingMark done leading, s.tokens⟩ else none
  | .trailingMark done leading =>
    if c = 'u' then some ⟨.unit done (some leading) [], s.tokens⟩ else none

/-- The tokens of a scan that has reached the end of its text. -/
def finish? (s : Scan) : Option (List Token) :=
  match s.mode with
  | .between => some s.tokens.reverse
  | .word letters => (ofWord? letters.reverse).map fun t => (t :: s.tokens).reverse
  | .number characters => (ofNumber? characters.reverse).map fun t => (t :: s.tokens).reverse
  | _ => none

def scan? (cs : List Char) : Option (List Token) :=
  (cs.foldlM step? ⟨.between, []⟩).bind finish?

end Token

/-! ## Containers -/

/-- A container that is still open, its contents last first. -/
inductive Frame
  | array (items : List Json)
  | object (members : List (String × Json))
  | member (members : List (String × Json)) (name : String)

inductive Expected
  | value
  | valueOrEnd
  | separatorOrEnd
  | name
  | nameOrEnd
  | colon (name : String)

inductive Progress
  | reading (stack : List Frame) (expected : Expected)
  | complete (j : Json)

/-- How many containers may be open at once. -/
def greatestDepth : Nat := 127

namespace Progress

/-- A finished value goes to the innermost open container. -/
def deliver? (j : Json) : List Frame → Option Progress
  | [] => some (.complete j)
  | .array items :: stack => some (.reading (.array (j :: items) :: stack) .separatorOrEnd)
  | .member members name :: stack =>
    some (.reading (.object ((name, j) :: members) :: stack) .separatorOrEnd)
  | .object _ :: _ => none

def enter? (stack : List Frame) (f : Frame) (expected : Expected) : Option Progress :=
  if stack.length < greatestDepth then some (.reading (f :: stack) expected) else none

/-- The start of a value. -/
def value? (stack : List Frame) : Token → Option Progress
  | .openArray => enter? stack (.array []) .valueOrEnd
  | .openObject => enter? stack (.object []) .nameOrEnd
  | .string s => deliver? (string s) stack
  | .scalar j => deliver? j stack
  | _ => none

/-- A closing bracket. -/
def close? : List Frame → Token → Option Progress
  | .array items :: stack, .closeArray => deliver? (array items.reverse) stack
  | .object members :: stack, .closeObject => deliver? (object members.reverse) stack
  | _, _ => none

/-- A comma. -/
def next? : List Frame → Option Progress
  | stack@(.array _ :: _) => some (.reading stack .value)
  | stack@(.object _ :: _) => some (.reading stack .name)
  | _ => none

def step? : Progress → Token → Option Progress
  | .complete _, _ => none
  | .reading stack .value, t => value? stack t
  | .reading stack .valueOrEnd, t => (close? stack t).orElse fun _ => value? stack t
  | .reading stack .separatorOrEnd, .comma => next? stack
  | .reading stack .separatorOrEnd, t => close? stack t
  | .reading stack .name, .string s => some (.reading stack (.colon s))
  | .reading stack .nameOrEnd, .string s => some (.reading stack (.colon s))
  | .reading stack .nameOrEnd, t => close? stack t
  | .reading (.object members :: stack) (.colon name), .colon =>
    some (.reading (.member members name :: stack) .value)
  | _, _ => none

end Progress

def ofTokens? (ts : List Token) : Option Json :=
  match ts.foldlM Progress.step? (.reading [] .value) with
  | some (.complete j) => some j
  | _ => none

/-- The document of a text, its members as they are written there. -/
def read? (text : String) : Option Json :=
  (Token.scan? text.toList).bind ofTokens?

def parse? (text : String) : Option Json :=
  (read? text).map canonical

end Json
end SqlMapper
