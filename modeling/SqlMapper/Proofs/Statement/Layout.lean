import Mathlib.Data.List.Forall2
import SqlMapper.Proofs.Join.Walk
import SqlMapper.Proofs.Statement.Atom
import SqlMapper.Proofs.Text.Placeholder

/-!
# SqlMapper.Proofs.Statement.Layout

How fragments lay out the atoms of a statement.

`Laid d as fs` says that the fragments `fs` are the atoms `as` in their order, with SQL of the
dialect `d` between them. What follows a parameter is always SQL that does not begin with a digit.
A refusal stands for any atoms, since nothing that contains it is ever rendered.

The rules that follow the definition are the ways in which `SqlMapper.Query.Fragment.OfQuery` puts
fragments together. `LaidOut` is the layout of a whole statement, in which alone rows are changed.
-/

namespace SqlMapper

open Placeholder

/-- The SQL that a dialect brings along. -/
def Dialect.words (d : Dialect) : List String :=
  d.bitwiseXor.toList ++ d.limitForOffset.toList ++ [d.likeEscape]

namespace Fragment

/-- Whether the fragment can stand right after a parameter. -/
def isSeparator : Fragment → Bool
  | text s => s.toList.head?.any fun c => !c.isDigit
  | equated _ _ _ _ | refuse _ => true
  | _ => false

/-- Whether the output of the fragment ends in something other than a parameter. -/
def isClosing : Fragment → Bool
  | text _ | identifier _ | modelTable _ | equated _ _ _ _ | proposed _ | refuse _ => true
  | _ => false

def StartsApart (fs : List Fragment) : Prop := ∀ f ∈ fs.head?, f.isSeparator = true

def EndsApart (fs : List Fragment) : Prop := ∀ f ∈ fs.getLast?, f.isClosing = true

@[simp] theorem startsApart_nil : StartsApart [] := by simp [StartsApart]

@[simp] theorem startsApart_cons {f : Fragment} {fs : List Fragment} :
    StartsApart (f :: fs) ↔ f.isSeparator = true := by simp [StartsApart]

theorem StartsApart.append {fs gs : List Fragment} (hf : StartsApart fs) (hg : StartsApart gs) :
    StartsApart (fs ++ gs) := by
  cases fs with
  | nil => exact hg
  | cons f fs => simpa using hf

@[simp] theorem endsApart_nil : EndsApart [] := by simp [EndsApart]

@[simp] theorem endsApart_concat {fs : List Fragment} {f : Fragment} :
    EndsApart (fs ++ [f]) ↔ f.isClosing = true := by simp [EndsApart]

@[simp] theorem endsApart_singleton {f : Fragment} : EndsApart [f] ↔ f.isClosing = true := by
  simp [EndsApart]

theorem EndsApart.cons {f : Fragment} {fs : List Fragment} (hf : f.isClosing = true)
    (h : EndsApart fs) : EndsApart (f :: fs) := by
  cases fs with
  | nil => exact endsApart_singleton.2 hf
  | cons g gs => simpa [EndsApart] using h

/-- SQL that can stand right after a parameter. -/
structure Keyword (s : String) : Prop where
  noMark : NoMark s.toList
  apart : (text s).isSeparator = true

instance (s : String) : Decidable (Keyword s) :=
  decidable_of_iff (NoMark s.toList ∧ (text s).isSeparator = true)
    ⟨fun h => ⟨h.1, h.2⟩, fun h => ⟨h.noMark, h.apart⟩⟩

/-- A scope in which the target of a statement goes by its table. -/
def targetScope (m : ModelSource) (proposal : Option ModelSource) : Scope :=
  { mutationScope m with proposal := proposal }

/-! ## The layout -/

inductive Laid (d : Dialect) : List Atom → List Fragment → Prop
  | nil : Laid d [] []
  | append {as bs : List Atom} {fs gs : List Fragment} :
      Laid d as fs → Laid d bs gs → (EndsApart fs ∨ StartsApart gs) → Laid d (as ++ bs) (fs ++ gs)
  | sql (s : String) : NoMark s.toList → Laid d [] [text s]
  | dialectWord (s : String) : s ∈ d.words → Laid d [] [text s]
  | name (s : String) : NoMark s.toList → Laid d [] [identifier s]
  | word (s : String) : Laid d [.word s] [text s]
  | identifier (s : String) : Laid d [.word s] [identifier s]
  | literal (codec : Option Field) (v w : Value) :
      Atom.encoded codec v = .ok w → Laid d [.literal codec v] [param w]
  | null : Laid d [.null] [param .null]
  | drawn (f : Field) : Laid d [.default f] [drawn f]
  | column (q : Qualifier) (s : String) :
      Laid d [.reference q, .word s] [qualifier q, Fragment.identifier s]
  | star (q : Qualifier) : Laid d [.reference q] [qualifier q, text "*"]
  | modelTable (m : ModelSource) :
      Laid d [.word m.model.table, .reference (.model m)] [modelTable m]
  | equated (child childColumn parent parentColumn : String) :
      Laid d [.word childColumn, .word parentColumn]
        [equated child childColumn parent parentColumn]
  | proposed (field : String) : Laid d [] [proposed field]
  | refuse (as : List Atom) (e : Error) : Laid d as [refuse e]
  | unqualified {as : List Atom} {fs : List Fragment} : Laid d as fs → Laid d as [unqualified fs]
  | bare {as : List Atom} {fs : List Fragment} :
      Laid d as fs → Laid d as [nested { bare := true } fs]
  | select (os : List Origin) {as : List Atom} {fs : List Fragment} :
      Laid d as fs →
        Laid d (os.map .source ++ as) [nested (selectScope os) (os.map enlist ++ fs)]

/-- A query, or a change of the rows of a target after the queries of its `WITH` clause. -/
inductive LaidOut (d : Dialect) : Option ModelSource → List Atom → List Fragment → Prop
  | query {target : Option ModelSource} {as : List Atom} {fs : List Fragment} :
      Laid d as fs → LaidOut d target as fs
  | mutation (m : ModelSource) (proposal : Option ModelSource) (os : List Origin)
      {as bs : List Atom} {fs body : List Fragment} :
      Laid d as fs → EndsApart fs → (∀ p ∈ proposal, p = m) → Laid d bs body →
        LaidOut d (some m) (as ++ (.target m :: os.map .source ++ bs))
          (fs ++ [nested (targetScope m proposal) (os.map enlist ++ body)])

namespace Laid

variable {d : Dialect} {as bs : List Atom} {fs gs : List Fragment}

theorem lead {s : String} (hs : NoMark s.toList) (h : Laid d as fs) : Laid d as (text s :: fs) :=
  (Laid.sql s hs).append h (.inl (by simp [isClosing]))

/-- What follows need not have atoms. -/
theorem ending (h : Laid d as fs) (h' : Laid d [] gs) (ha : EndsApart fs ∨ StartsApart gs) :
    Laid d as (fs ++ gs) :=
  List.append_nil as ▸ h.append h' ha

theorem snoc {s : String} (h : Laid d as fs) (hs : Keyword s) : Laid d as (fs ++ [text s]) :=
  h.ending (.sql s hs.noMark) (.inr (by simpa using hs.apart))

theorem between {s : String} (h : Laid d as fs) (hs : Keyword s) (h' : Laid d bs gs) :
    Laid d (as ++ bs) (fs ++ text s :: gs) :=
  h.append (h'.lead hs.noMark) (.inr (by simpa using hs.apart))

theorem enclosed {o c : String} (ho : NoMark o.toList) (h : Laid d as fs) (hc : Keyword c) :
    Laid d as (enclosed o fs c) :=
  (h.lead ho).snoc hc

theorem parenthesized (h : Laid d as fs) : Laid d as (parenthesized fs) :=
  h.enclosed (by decide) (by decide)

theorem clause {s : String} (hs : NoMark s.toList) (h : Laid d as fs) :
    Laid d as (Fragment.clause s fs) := h.lead hs

theorem separated {s : String} (hs : Keyword s) {ass : List (List Atom)}
    {fss : List (List Fragment)} (h : List.Forall₂ (Laid d) ass fss) :
    Laid d ass.flatten (separated s fss) := by
  induction h with
  | nil => exact .nil
  | @cons as fs ass fss ha hrest ih =>
    cases hrest with
    | nil => simpa [Fragment.separated] using ha
    | cons hb hrest =>
      rw [Fragment.separated, List.intercalate_cons_cons, List.append_assoc]
      exact ha.between hs ih

theorem commas {ass : List (List Atom)} {fss : List (List Fragment)}
    (h : List.Forall₂ (Laid d) ass fss) : Laid d ass.flatten (commas fss) :=
  separated (by decide) h

theorem listClause {s : String} (hs : NoMark s.toList) {ass : List (List Atom)}
    {fss : List (List Fragment)} (h : List.Forall₂ (Laid d) ass fss) :
    Laid d ass.flatten (listClause s fss) := by
  cases h with
  | nil => exact .nil
  | cons ha hrest => exact (commas (.cons ha hrest)).clause hs

theorem requiring {available : Bool} {e : CompilationError} (h : Laid d as fs) :
    Laid d as (requiring available e fs) := by
  unfold Fragment.requiring
  split
  · exact h
  · exact .refuse _ _

theorem names (ns : List String) : Laid d (Atom.words ns) (names ns) := by
  have h : List.Forall₂ (Laid d) (ns.map fun n => [Atom.word n])
      (ns.map fun n => [Fragment.identifier n]) := by
    rw [List.forall₂_map_left_iff, List.forall₂_map_right_iff, List.forall₂_same]
    exact fun n _ => .identifier n
  have hflat : (ns.map fun n => [Atom.word n]).flatten = Atom.words ns := by
    rw [Atom.words, ← List.flatMap_def, List.map_eq_flatMap]
  exact hflat ▸ commas h

end Laid

end Fragment

end SqlMapper
