import SqlMapper.Statement

/-!
# SqlMapper.Proofs.Statement.Atom

What callers put into statements, apart from how a dialect spells it.

`Statement.atoms` lists the words, values and sources of a statement in the order in which its text
has them. No dialect takes part in it. A literal comes with the field whose encoder it goes through,
and a row of an insert with the NULLs and defaults for what it leaves out.
-/

namespace SqlMapper

inductive Atom
  /-- An identifier, SQL of the caller, or the name of a function or a type. -/
  | word (s : String)
  | literal (codec : Option Field) (v : Value)
  /-- NULL for a field that a row leaves out. -/
  | null
  /-- The computed default of a field that a row leaves out. -/
  | default (f : Field)
  /-- A source that rows are read from. -/
  | source (o : Origin)
  /-- A source that a column is taken from. -/
  | reference (q : Qualifier)
  /-- The model whose rows are changed. -/
  | target (m : ModelSource)

namespace Atom

def words (ns : List String) : List Atom := ns.map word

/-- A column with what stands before it. -/
def ofColumn (q : Option Qualifier) (column : String) : List Atom :=
  match q with
  | none => [word column]
  | some (.table table) => [reference (.table table), word column]
  | some (.model m) => reference (.model m) :: words ((m.model.field? column).toList.map Field.column)

def ofFields (m : ModelSource) : List Atom :=
  m.model.fieldNames.flatMap (ofColumn (some (.model m)))

/-- The operand of a membership test is not looked at when the list is empty. -/
def ofMembership (left : List Atom) (members : List (List Atom)) : List Atom :=
  match members with
  | [] => []
  | _ => left ++ members.flatten

def ofSource (s : Source) (query : List Atom) : List Atom :=
  match s with
  | .model m => [word m.model.table, reference (.model m)]
  | .table n => [word n]
  | .derived _ name => query ++ [word name]

/-- What is bound for a literal; NULL needs no encoding. -/
def encoded (codec : Option Field) (v : Value) : Except Error Value :=
  match codec with
  | none => .ok v
  | some f => if v.isNull then .ok v else f.encode v

/-- What is bound for an atom that is one, with computed defaults drawn from the supply. -/
def bound? : Atom → Supply → Option (Except Error Value × Supply)
  | literal codec v, s => some (encoded codec v, s)
  | null, s => some (.ok .null, s)
  | default f, s =>
    match f.decl.default with
    | some (.computed draw) => some (encoded (some f) (draw s).1, (draw s).2)
    | some (.server _) => some (.ok .null, s)
    | none => some (.ok .null, s)
  | _, _ => none

end Atom

mutual

def Expr.atoms (codec : Option Field) : Expr → List Atom
  | .column q name => Atom.ofColumn q name
  | .literal v => [.literal codec v]
  | .raw sql => [.word sql]
  | .call function arguments _ => .word function :: (Expr.listAtoms none arguments).flatten
  | .windowed function window => function.atoms none ++ window.atoms
  | .binary left _ right => left.atoms none ++ right.atoms none
  | .list items => (Expr.listAtoms codec items).flatten
  | .subquery query => query.atoms
  | .nonEmpty query => query.atoms
  | .condition c => c.atoms
  | .cast operand type => operand.atoms none ++ [.word type]
  | .named operand _ => operand.atoms codec
  | .excluded _ => []
  | .star q => q.toList.map .reference

def Expr.listAtoms (codec : Option Field) : List Expr → List (List Atom)
  | [] => []
  | e :: es => e.atoms codec :: Expr.listAtoms codec es

def Expr.itemAtoms? (codec : Option Field) : Expr → Option (List (List Atom))
  | .list items => some (Expr.listAtoms codec items)
  | _ => none

def WindowRef.atoms : WindowRef → List Atom
  | .inline window => window.atoms
  | .named n => [.word n]

def Window.atoms : Window → List Atom
  | ⟨_, partitionBy, orderBy, _⟩ =>
    (Expr.listAtoms none partitionBy).flatten ++ (OrderTerm.listAtoms orderBy).flatten

def Window.listAtoms : List Window → List (List Atom)
  | [] => []
  | w :: ws => (Atom.words w.name.toList ++ w.atoms) :: Window.listAtoms ws

def OrderTerm.atoms : OrderTerm → List Atom
  | ⟨operand, _, _⟩ =>
    match operand.outputName? with
    | some n => [.word n]
    | none => operand.atoms none

def OrderTerm.listAtoms : List OrderTerm → List (List Atom)
  | [] => []
  | t :: ts => t.atoms :: OrderTerm.listAtoms ts

def Condition.atoms : Condition → List Atom
  | .compare left op right _ _ =>
    match op with
    | .eq | .is | .ne | .isNot =>
      left.atoms none ++ if right.isNullLiteral then [] else right.atoms left.field?
    | .like | .notLike | .ilike => left.atoms none ++ right.atoms none
    | .isIn | .notIn =>
      match right.itemAtoms? left.field? with
      | some items => Atom.ofMembership (left.atoms none) items
      | none =>
        match right.arrayItems? with
        | some vs => Atom.ofMembership (left.atoms none) (vs.map fun v => [.literal left.field? v])
        | none => left.atoms none ++ right.atoms left.field?
    | .between => left.atoms none ++ ((right.itemAtoms? left.field?).getD []).flatten
    | .lt | .le | .gt | .ge => left.atoms none ++ right.atoms left.field?
  | .group _ members _ => (Condition.listAtoms members).flatten
  | .operand e => e.atoms none

def Condition.listAtoms : List Condition → List (List Atom)
  | [] => []
  | c :: cs => c.atoms :: Condition.listAtoms cs

def Condition.clauseAtoms : Option Condition → List Atom
  | none => []
  | some c => c.atoms

def Expr.projectionAtoms : List Expr → List (List Atom)
  | [] => []
  | e :: es => (e.atoms none ++ Atom.words e.outputName?.toList) :: Expr.projectionAtoms es

def Query.atoms : Query → List Atom
  | .simple s => s.atoms
  | .compound c => c.atoms

/-- The joins come in the order of the text, which is that of the walk from the root. -/
def Select.atoms : Select → List Atom
  | ⟨ctes, source, _, joins, columns, distinct, filter, groupBy, having, windows, orderBy, _, _, _⟩ =>
    let ordered : List (JoinEdge (Origin × List Atom)) := match source with
      | some root => JoinEdge.ordered (Join.listAtoms joins) root.key
      | none => []
    let origins : List Origin := match source with
      | some root => root.origin :: ordered.map (·.content.1)
      | none => []
    let projection := match columns, source with
      | [], some (.model m) => Atom.ofFields m
      | [], _ => []
      | _, _ => (Expr.projectionAtoms columns).flatten
    (Cte.listAtoms ctes).flatten ++
      (origins.map Atom.source ++
        (distinct.atoms ++ projection ++ Source.clauseAtoms source ++
        (ordered.map (·.content.2)).flatten ++
        Condition.clauseAtoms filter ++ (Expr.listAtoms none groupBy).flatten ++
        Condition.clauseAtoms having ++ (Window.listAtoms windows).flatten ++
        (OrderTerm.listAtoms orderBy).flatten))

def Compound.atoms : Compound → List Atom
  | ⟨ctes, left, _, right, orderBy, _, _⟩ =>
    (Cte.listAtoms ctes).flatten ++ left.atoms ++ right.atoms ++
      (OrderTerm.listAtoms orderBy).flatten

def Cte.atoms : Cte → List Atom
  | ⟨_, _, _, query⟩ => query.atoms

def Cte.listAtoms : List Cte → List (List Atom)
  | [] => []
  | c :: cs => (.word c.name :: Atom.words c.columns ++ c.atoms) :: Cte.listAtoms cs

def Source.atoms : Source → List Atom
  | .model m => Atom.ofSource (.model m) []
  | .table n => Atom.ofSource (.table n) []
  | .derived query name => Atom.ofSource (.derived query name) query.atoms

def Source.clauseAtoms : Option Source → List Atom
  | none => []
  | some s => s.atoms

def Join.atoms : Join → JoinEdge (Origin × List Atom)
  | ⟨context, target, _, on, _⟩ =>
    ⟨context, target.key, target.origin, target.atoms ++ on.atoms⟩

def Join.listAtoms : List Join → List (JoinEdge (Origin × List Atom))
  | [] => []
  | j :: js => j.atoms :: Join.listAtoms js

def JoinOn.atoms : JoinOn → List Atom
  | .relation r => Atom.words [r.foreignKey.column, r.foreignKey.targetColumn]
  | .condition c => c.atoms
  | .always => []

def Distinct.atoms : Distinct → List Atom
  | .off => []
  | .rows => []
  | .on exprs => (Expr.listAtoms none exprs).flatten

end

/-! ## Statements that change rows -/

def Assignment.atoms (m : Model) (a : Assignment) : List Atom :=
  match m.field? a.field with
  | some f => .word f.column :: a.value.atoms (some f)
  | none => []

/-- The columns of those names that are fields. -/
def columnAtoms (m : Model) (fields : List String) : List Atom :=
  Atom.words ((fields.filterMap m.field?).map Field.column)

def cellAtoms (assignments : List Assignment) (f : Field) : List Atom :=
  match assignments.find? (·.field == f.name) with
  | some a => a.value.atoms (some f)
  | none => if f.hasComputedDefault then [.default f] else [.null]

def InsertSource.atoms (m : Model) : InsertSource → List Atom
  | .rows rs =>
    match insertedFields m rs with
    | [] => []
    | fields =>
      Atom.words (fields.map Field.column) ++
        (rs.map fun row => (fields.map (cellAtoms row)).flatten).flatten
  | .query fields q => columnAtoms m fields ++ q.atoms
  | .defaults => []

/-- A list of fields or the name of a constraint. Only the former comes with a filter. -/
def conflictTargetAtoms (m : Model) (c : OnConflict) : List Atom :=
  match c.target with
  | some (.fields fields) => columnAtoms m fields ++ Condition.clauseAtoms c.targetFilter
  | some (.constraint n) => [.word n]
  | none => []

/-- What a conflicting row is updated with. -/
def conflictAtoms (m : Model) (c : OnConflict) : List Atom :=
  columnAtoms m c.preserve ++ (c.assignments.map (Assignment.atoms m)).flatten

/-- An insert that replaces has no conflict clause, and one that ignores has no update in it. -/
def OnConflict.atoms (m : Model) (c : OnConflict) : List Atom :=
  match c.action with
  | .replace => []
  | .ignore => conflictTargetAtoms m c
  | .update => conflictTargetAtoms m c ++ (conflictAtoms m c ++ Condition.clauseAtoms c.filter)

def Insert.atoms (i : Insert) : List Atom :=
  let m := i.into.model
  (Cte.listAtoms i.ctes).flatten ++
    (.target i.into ::
      (.word m.table :: i.source.atoms m ++ (i.onConflict.map (OnConflict.atoms m)).getD [] ++
        (Expr.projectionAtoms i.returning).flatten))

def Update.atoms (u : Update) : List Atom :=
  let m := u.table.model
  (Cte.listAtoms u.ctes).flatten ++
    (.target u.table :: (u.sources.map fun s => .source s.origin) ++
      (.word m.table :: (u.assignments.map (Assignment.atoms m)).flatten ++
        (u.sources.map Source.atoms).flatten ++ Condition.clauseAtoms u.filter ++
        (Expr.projectionAtoms u.returning).flatten))

def Delete.atoms (x : Delete) : List Atom :=
  (Cte.listAtoms x.ctes).flatten ++
    (.target x.table :: (x.sources.map fun s => .source s.origin) ++
      (.word x.table.model.table :: (x.sources.map Source.atoms).flatten ++
        Condition.clauseAtoms x.filter ++ (Expr.projectionAtoms x.returning).flatten))

def Statement.atoms : Statement → List Atom
  | .query q => q.atoms
  | .insert i => i.atoms
  | .update u => u.atoms
  | .delete x => x.atoms

end SqlMapper
