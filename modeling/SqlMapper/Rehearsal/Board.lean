import SqlMapper.Entity

/-!
# SqlMapper.Rehearsal.Board

The entities of a message board, to rehearse with: `User` and `Tweet` with a relation between them,
`Tag` with a key of its own, `Pair` with a key of two fields, and `Broken`, whose declaration no
registry accepts.
-/

namespace SqlMapper.Board

def textOf (r : Record) (field : String) : Except Error String := do
  match (← r.get field).text? with
  | some s => pure s
  | none => throw (.conversion (.notText field))

/-- A number that is no integer is 0. -/
def integerOf (r : Record) (field : String) : Except Error Int64 :=
  (r.get field).map fun v => v.int64?.getD 0

def idOf (r : Record) : Except Error (Option Int64) :=
  (r.get "id").map Value.int64?

/-- A key that the database has not given yet is NULL. -/
def ofId (id : Option Int64) : String × Value := ("id", id.elim .null .bigInt)

/-! ## Users -/

structure User where
  id : Option Int64
  username : String
  active : Bool

def user : Entity User where
  declaration := {
    name := "User"
    table := some "users"
    fields := [
      { name := "username", type := .text, unique := true },
      { name := "active", type := .boolean }] }
  toRow u := [ofId u.id, ("username", .text u.username), ("active", .bool u.active)]
  ofRecord r := do
    let id ← idOf r
    let username ← textOf r "username"
    let active ← r.get "active"
    return ⟨id, username, active.bool?.getD false⟩

/-! ## Tweets -/

structure Tweet where
  id : Option Int64
  user : Int64
  content : String
  likes : Int32

/-- A number of likes that has no room is 0. -/
def likesOf (n : Int64) : Int32 :=
  if n.toInt32.toInt64 = n then n.toInt32 else 0

def tweet : Entity Tweet where
  declaration := {
    name := "Tweet"
    fields := [
      FieldDecl.backref (.named "tweets")
        (FieldDecl.referring "User" none { name := "user", type := .bigInt }),
      { name := "content", type := .text },
      { name := "likes", type := .integer }] }
  toRow t := [ofId t.id, ("user", .bigInt t.user), ("content", .text t.content),
    ("likes", .int t.likes)]
  ofRecord r := do
    let likes ← integerOf r "likes"
    let id ← idOf r
    let user ← integerOf r "user"
    let content ← textOf r "content"
    return ⟨id, user, content, likesOf likes⟩

/-! ## Tags -/

structure Tag where
  key : String
  label : String

/-- An empty label is left to the database. -/
def tag : Entity Tag where
  declaration := {
    name := "Tag"
    fields := [
      { name := "key", type := .text, primaryKey := true },
      { name := "label", type := .text, column := some "tag_label" }] }
  toRow t := ("key", .text t.key) :: if t.label = "" then [] else [("label", .text t.label)]
  ofRecord r := do
    let key ← textOf r "key"
    let label ← textOf r "label"
    return ⟨key, label⟩

/-! ## Pairs -/

structure Pair where
  a : Int64
  b : Int64

def pair : Entity Pair where
  declaration := {
    name := "Pair"
    fields := [{ name := "a", type := .bigInt }, { name := "b", type := .bigInt }]
    compositeKey := some ["b", "a"] }
  toRow p := [("a", .bigInt p.a), ("b", .bigInt p.b)]
  ofRecord r := do
    let a ← integerOf r "a"
    let b ← integerOf r "b"
    return ⟨a, b⟩

/-! ## A declaration that is refused -/

structure Broken where

def broken : Entity Broken where
  declaration := {
    name := "Broken"
    fields := [{ name := "x", type := .text }, { name := "x", type := .text }] }
  toRow _ := [("x", .null)]
  ofRecord _ := .ok {}

def declarations : List ModelDecl :=
  [user.declaration, tweet.declaration, tag.declaration, pair.declaration]

/-- The registry in which the entity types of the board are registered. -/
def registry : Except Error Registry :=
  declarations.foldlM (fun r d => (r.registerEntity d).map Prod.snd) Registry.empty

end SqlMapper.Board
