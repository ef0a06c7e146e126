import SqlMapper.Query.Expr
import SqlMapper.Query.Dialect

/-!
# SqlMapper.Query.Fragment.Basic

The form a statement has between its syntax and its text.

A statement is first laid out as a list of `Fragment`s: pieces of text, names, parameters, and
instructions about the sources that are visible. What a source is called is not known yet at that
point; `SqlMapper.Query.Fragment.Run` decides it, going through the fragments from left to right.
-/

namespace SqlMapper

/-- A source of rows without its contents: what it is known by, and what it can be called. -/
inductive Origin
  | model (m : ModelSource)
  | table (name : String)
  | derived (name : String)

namespace Origin

def key : Origin → String
  | model m => m.key
  | table name => name
  | derived name => name

/-- An alias that the statement gives, which no generated name may repeat. -/
def explicitAlias? : Origin → Option String
  | model m => m.givenName
  | derived name => some name
  | table _ => none

end Origin

def Source.origin : Source → Origin
  | model m => .model m
  | table name => .table name
  | derived _ name => .derived name

/-- The sources that are visible at one level of nesting. -/
structure Scope where
  /-- Key and name of each source, in the order of their registration. -/
  sources : List (String × String) := []
  /-- Names that are not to be generated. -/
  reserved : List String := []
  /-- Whether models go by their tables, as in inserts, updates and deletes. -/
  byTable : Bool := false
  /-- Whether columns stand without a qualifier. -/
  bare : Bool := false
  /-- The target of an insert, whose proposed values can be referred to. -/
  proposal : Option ModelSource := none

inductive Fragment
  | text (s : String)
  /-- A name, to be quoted. -/
  | identifier (s : String)
  | param (v : Value)
  /-- The name of a source and a dot; nothing where columns are bare. -/
  | qualifier (q : Qualifier)
  /-- The table of a model, with the name it goes by here. -/
  | modelTable (m : ModelSource)
  /-- Makes a source visible. -/
  | enlist (o : Origin)
  /-- An `ON` clause that equates a column of each of two sources, given by their keys. -/
  | equated (child childColumn parent parentColumn : String)
  /-- The column of a field of the row that an insert proposes. -/
  | proposed (field : String)
  /-- The computed default of a field, bound as a parameter. -/
  | drawn (f : Field)
  | refuse (e : Error)
  /-- A level of nesting of its own. -/
  | nested (scope : Scope) (body : List Fragment)
  /-- A stretch in which columns stand without qualifiers. -/
  | unqualified (body : List Fragment)

namespace Fragment

def separated (separator : String) (parts : List (List Fragment)) : List Fragment :=
  [text separator].intercalate parts

def commas (parts : List (List Fragment)) : List Fragment := separated ", " parts

def enclosed (opening : String) (body : List Fragment) (closing : String) : List Fragment :=
  text opening :: body ++ [text closing]

def parenthesized (body : List Fragment) : List Fragment := enclosed "(" body ")"

/-- Stands for a clause that the dialect has, and refuses the statement if it has not. -/
def requiring (available : Bool) (e : CompilationError) (clause : List Fragment) : List Fragment :=
  if available then clause else [refuse (.compilation e)]

def names (ns : List String) : List Fragment := commas (ns.map fun n => [identifier n])

end Fragment

end SqlMapper
