import SqlMapper.Binary.Text

/-!
# SqlMapper.Json.Basic

JSON documents.

* `Json.Number`: whole numbers of 64 bits are kept exactly; every other number is a double.
* `Json`: a document. The members of an object are kept in order of their names, each name once;
  `Json.canonical` brings a document as it was read into that form.
* `Json.same`: equality of documents. Numbers of different kinds differ.
-/

namespace SqlMapper

/-- A `negative` number is below zero, so that every whole number has one form. -/
inductive Json.Number
  | natural (n : UInt64)
  | negative (n : Int64)
  | double (x : Binary64)
  deriving DecidableEq

inductive Json
  | null
  | bool (b : Bool)
  | number (n : Json.Number)
  | string (s : String)
  | array (items : List Json)
  | object (members : List (String × Json))

namespace Json

namespace Number

def ofInt64 (n : Int64) : Number :=
  if n < 0 then .negative n else .natural n.toUInt64

def same : Number → Number → Bool
  | natural m, natural n => m == n
  | negative m, negative n => m == n
  | double x, double y => x.sameNumber y
  | _, _ => false

end Number

instance : Inhabited Json := ⟨null⟩

def ofInt64 (n : Int64) : Json :=
  number (.ofInt64 n)

/-- There is no JSON number for a NaN or an infinity. -/
def ofBinary64 (x : Binary64) : Json :=
  if x.isFinite then number (.double x) else null

def ofNat (n : Nat) : Json := number (.natural (.ofNat n))

/-- `null` stands for nothing. -/
def ofOption {α : Type} (f : α → Json) (a : Option α) : Json := a.elim null f

def strings (ss : List String) : Json := array (ss.map string)

/-! ## Parts of a document -/

def member? (name : String) : Json → Option Json
  | object members => members.lookup name
  | _ => none

def string? : Json → Option String
  | string s => some s
  | _ => none

def bool? : Json → Option Bool
  | bool b => some b
  | _ => none

/-! ## Members of an object -/

/-- Sets a member. Names stand in the order of their code points. -/
def insertMember (name : String) (value : Json) : List (String × Json) → List (String × Json)
  | [] => [(name, value)]
  | (n, v) :: rest =>
    if name < n then (name, value) :: (n, v) :: rest
    else if name = n then (name, value) :: rest
    else (n, v) :: insertMember name value rest

/-- An object of the given members; the last of several with one name stays. -/
def ofMembers (members : List (String × Json)) : Json :=
  object (members.foldl (fun acc (n, v) => insertMember n v acc) [])

mutual

/-- Orders the members of every object, the last of several with one name staying. -/
def canonical : Json → Json
  | array items => array (canonicalItems items)
  | object members => ofMembers (canonicalMembers members)
  | j => j

def canonicalItems : List Json → List Json
  | [] => []
  | j :: rest => canonical j :: canonicalItems rest

def canonicalMembers : List (String × Json) → List (String × Json)
  | [] => []
  | (n, j) :: rest => (n, canonical j) :: canonicalMembers rest

end

mutual

def same : Json → Json → Bool
  | null, null => true
  | bool a, bool b => a == b
  | number a, number b => a.same b
  | string a, string b => a == b
  | array a, array b => sameItems a b
  | object a, object b => sameMembers a b
  | _, _ => false

def sameItems : List Json → List Json → Bool
  | [], [] => true
  | a :: as, b :: bs => same a b && sameItems as bs
  | _, _ => false

def sameMembers : List (String × Json) → List (String × Json) → Bool
  | [], [] => true
  | (m, a) :: as, (n, b) :: bs => m == n && same a b && sameMembers as bs
  | _, _ => false

end

end Json

end SqlMapper
