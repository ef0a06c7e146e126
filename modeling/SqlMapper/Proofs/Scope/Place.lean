import SqlMapper.Proofs.Fragment.Run
import SqlMapper.Statement

/-!
# SqlMapper.Proofs.Scope.Place

What can be seen from each place of a statement.

* `Seen`, `Level`: the sources of one level of nesting, with the names that they have in the text.
* `Place`: a fragment, the state in which it is run, and the levels around it, the innermost first.
* `Fragment.placesAll`: all places of a run. Only sources count as seen, not the models that a
  column refers to without being one of them.
* `Place.Hygienic`: no two sources that are seen have one name, and what the text says of a source
  is understood of it.
* `Place.Clash`, `Place.Hidden`: the ways in which this can fail.
-/

namespace SqlMapper

/-- A source as it is seen from a place. -/
structure Seen where
  /-- What stands before its columns in the syntax. -/
  source : Qualifier
  /-- The name in the text. -/
  name : String
  /-- Whether the name was found by the compiler, not given by the statement. -/
  chosen : Bool

abbrev Level := List Seen

def Qualifier.key : Qualifier → String
  | model m => m.key
  | table name => name

def Seen.key (e : Seen) : String := e.source.key

/-- What a fragment refers to: the source of a column, or a side of a join, which is given by the
key alone. -/
inductive Mention
  | column (q : Qualifier)
  | side (key : String)

namespace Mention

def key : Mention → String
  | column q => q.key
  | side key => key

def means : Mention → Seen → Bool
  | column q, e => q.same e.source
  | side key, e => key == e.key

end Mention

/-- The innermost source that has a key. -/
def known? (ls : List Level) (key : String) : Option Seen := ls.flatten.find? (·.key == key)

/-- The innermost source that a reference means. -/
def meant? (ls : List Level) (ref : Mention) : Option Seen := ls.flatten.find? ref.means

/-- The innermost source that is called by a name, which is what the name stands for in SQL. -/
def called? (ls : List Level) (name : String) : Option Seen := ls.flatten.find? (·.name == name)

namespace Origin

/-- The alias of a model or of a derived table, or the name of a plain table. -/
def givenName? : Origin → Option String
  | model m => m.givenName
  | table name => some name
  | derived name => some name

/-- What refers to a column of the source. -/
def qualifier : Origin → Qualifier
  | model m => .model m
  | table name => .table name
  | derived name => .table name

end Origin

/-- The sources that a scope has when it is entered: the target of a statement, if any. -/
def Scope.level (target : Option ModelSource) (s : Scope) : Level :=
  s.sources.flatMap fun (_, name) => (target.map fun m => ⟨.model m, name, true⟩).toList

/-- What a source is called in the text from now on. A model that is known at this level already
goes by the name it has. -/
def Rendering.nameOf (r : Rendering) : Origin → String
  | .model m => (r.scope.sources.lookup m.key).getD (r.nameModel m).1
  | .table name => name
  | .derived name => name

/-- A source as it will be seen once it is visible. -/
def Rendering.seen (r : Rendering) (o : Origin) : Seen :=
  ⟨o.qualifier, r.nameOf o, o.givenName?.isNone⟩

/-! ## Places -/

structure Place where
  fragment : Fragment
  state : Rendering
  levels : List Level

namespace Fragment

/-- The levels after a fragment: a source that is made visible is the last of its level. -/
def declare (f : Fragment) (r : Rendering) (ls : List Level) : List Level :=
  match f, ls with
  | enlist o, l :: ls => (l ++ [r.seen o]) :: ls
  | _, ls => ls

def declareAll : List Fragment → Rendering → List Level → List Level
  | [], _, ls => ls
  | f :: fs, r, ls => declareAll fs (run f r).2 (f.declare r ls)

mutual

def places (target : Option ModelSource) : Fragment → Rendering → List Level → List Place
  | nested s body, r, ls => placesAll target body (r.enter s) (s.level target :: ls)
  | unqualified body, r, ls => placesAll target body (r.setBare true) ls
  | text s, r, ls => [⟨text s, r, ls⟩]
  | identifier s, r, ls => [⟨identifier s, r, ls⟩]
  | param v, r, ls => [⟨param v, r, ls⟩]
  | qualifier q, r, ls => [⟨qualifier q, r, ls⟩]
  | modelTable m, r, ls => [⟨modelTable m, r, ls⟩]
  | enlist o, r, ls => [⟨enlist o, r, ls⟩]
  | equated child childColumn parent parentColumn, r, ls =>
    [⟨equated child childColumn parent parentColumn, r, ls⟩]
  | proposed field, r, ls => [⟨proposed field, r, ls⟩]
  | drawn f, r, ls => [⟨drawn f, r, ls⟩]
  | refuse e, r, ls => [⟨refuse e, r, ls⟩]

def placesAll (target : Option ModelSource) :
    List Fragment → Rendering → List Level → List Place
  | [], _, _ => []
  | f :: fs, r, ls => places target f r ls ++ placesAll target fs (run f r).2 (f.declare r ls)

end

end Fragment

namespace Place

/-- The levels with what the fragment itself makes visible. -/
def after (p : Place) : List Level := p.fragment.declare p.state p.levels

/-- What the text refers to here, and the names that are written. -/
def mentions (p : Place) : List (Mention × String) :=
  match p.fragment with
  | .qualifier q =>
    if p.state.scope.bare then [] else [(.column q, (p.state.qualifierName q).1)]
  | .modelTable m => [(.column (.model m), (p.state.modelName m).1)]
  | .equated child _ parent _ =>
    ((p.state.lookup? child).map fun name => (.side child, name)).toList ++
      ((p.state.lookup? parent).map fun name => (.side parent, name)).toList
  | _ => []

structure Hygienic (p : Place) : Prop where
  distinct : (p.after.flatten.map Seen.name).Nodup
  /-- The name that is written for a source stands for this source. -/
  faithful : ∀ ref name, (ref, name) ∈ p.mentions →
    ∀ e, meant? p.levels ref = some e → called? p.levels name = some e

/-- A source becomes visible under the name of one that is seen already. There are four ways in
which this can be: names that are generated, and two names that are both given, have no part. -/
inductive Clash : Place → Prop
  /-- A plain table has the name that was found for another source. -/
  | table {n : String} {r : Rendering} {ls : List Level} {e : Seen} :
      e ∈ ls.flatten → e.chosen = true → e.name = n → Clash ⟨.enlist (.table n), r, ls⟩
  /-- An alias is the name that was found for a source of an outer level. -/
  | inner {o : Origin} {r : Rendering} {l : Level} {ls : List Level} {e : Seen} :
      o.explicitAlias?.isSome = true → e ∈ ls.flatten → e.chosen = true → e.name = r.nameOf o →
        Clash ⟨.enlist o, r, l :: ls⟩
  /-- A statement that changes rows reads from a source that is called as another, one of the two
  by its table. -/
  | byTable {o : Origin} {r : Rendering} {ls : List Level} {e : Seen} :
      r.scope.byTable = true → (e.chosen = true ∨ o.givenName? = none) → e ∈ ls.flatten →
        e.name = r.nameOf o → Clash ⟨.enlist o, r, ls⟩
  /-- A model is known already at its level, and goes by the name of the other source. -/
  | repeated {m : ModelSource} {r : Rendering} {ls : List Level} {e : Seen} :
      (r.scope.sources.lookup m.key).isSome = true → e ∈ ls.flatten →
        e.name = r.nameOf (.model m) → Clash ⟨.enlist (.model m), r, ls⟩

/-- The source that is meant is hidden by another one with the same key, as a model is by an alias
that is the name of this model. -/
def Hidden (p : Place) : Prop :=
  ∃ ref name e e', (ref, name) ∈ p.mentions ∧ meant? p.levels ref = some e ∧
    known? p.levels ref.key = some e' ∧ e' ≠ e

end Place

namespace Statement

/-- All places of the statement in a dialect. -/
def places (st : Statement) (d : Dialect) (s : Supply) : List Place :=
  Fragment.placesAll st.target? (st.fragments d) (.start s) [[]]

/-- No two sources that are visible in one place have one name, and every qualifier in the text
stands for the source that is meant. -/
def Hygienic (st : Statement) (d : Dialect) (s : Supply) : Prop :=
  ∀ p ∈ st.places d s, p.Hygienic

/-- Somewhere a source becomes visible under a name that is there already, or is meant where it is
hidden. -/
def Clashes (st : Statement) (d : Dialect) (s : Supply) : Prop :=
  ∃ p ∈ st.places d s, p.Clash ∨ p.Hidden

end Statement

end SqlMapper
