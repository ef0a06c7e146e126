import SqlMapper.Proofs.Fragment.Gated
import SqlMapper.Proofs.Fragment.InTurn
import SqlMapper.Proofs.Statement.Written
import SqlMapper.Proofs.Text.Pieces
import SqlMapper.Query.Related

/-!
# SqlMapper.Proofs.Statement.Matching

The text of the query for the rows of a model that have a given value in a field.

* `Fragment.Prints`: fragments that only put out pieces, where a source has a known name.
* `Select.compile_matching`: a value that is not NULL is encoded by the field, and compared with.
* `Select.compile_matching_null`: NULL is asked for by `IS NULL`, without a parameter.
-/

namespace SqlMapper

open Rendering

namespace Fragment

/-! ## Fragments that only put out pieces -/

/-- Wherever the source goes by the name and columns are qualified, the fragments put out the pieces
and change nothing else. -/
def Prints (m : ModelSource) (name : String) (fs : List Fragment) (ps : List Piece) : Prop :=
  ∀ r : Rendering, r.scope.bare = false → r.lookup? m.key = some name → Puts fs r ps (r.putAll ps)

namespace Prints

variable {m : ModelSource} {name : String} {fs gs : List Fragment} {ps qs : List Piece}

theorem nil : Prints m name [] [] := fun _ _ _ => puts_nil.2 ⟨rfl, rfl⟩

theorem append (hf : Prints m name fs ps) (hg : Prints m name gs qs) :
    Prints m name (fs ++ gs) (ps ++ qs) := by
  intro r hbare hname
  have hput : r.putAll (ps ++ qs) = (r.putAll ps).putAll qs := List.foldl_append ..
  refine puts_append.2 ⟨_, ps, qs, hf r hbare hname, ?_, rfl⟩
  rw [hput]
  exact hg _ (by rw [putAll_scope, hbare]) (by rw [lookup?_putAll, hname])

theorem text (s : String) (h : Prints m name fs ps) :
    Prints m name (.text s :: fs) (.text s :: ps) :=
  append (fun _ _ _ => puts_text.2 ⟨rfl, rfl⟩) h

theorem identifier (s : String) : Prints m name [.identifier s] [.name s] :=
  fun _ _ _ => puts_identifier.2 ⟨rfl, rfl⟩

theorem param (v : Value) (h : Prints m name fs ps) :
    Prints m name (.param v :: fs) (.param v :: ps) :=
  append (fun _ _ _ => puts_param.2 ⟨rfl, rfl⟩) h

theorem modelName_eq {r : Rendering} (hname : r.lookup? m.key = some name) :
    r.modelName m = (name, r) := by
  unfold modelName
  rw [hname]

theorem qualifier : Prints m name [.qualifier (.model m)] [.name name, .text "."] := by
  intro r hbare hname
  have h : r.qualifierName (.model m) = (name, r) := modelName_eq hname
  exact (puts_qualifier hbare).2 (by rw [h]; exact ⟨rfl, rfl⟩)

theorem modelTable : Prints m name [.modelTable m]
    (.name m.model.table ::
      if name = m.model.table then [] else [.text " AS ", .name name]) := by
  intro r _ hname
  exact puts_modelTable.2 (by rw [modelName_eq hname]; exact ⟨rfl, rfl⟩)

theorem column {f : Field} (hf : m.model.field? f.name = some f) :
    Prints m name (ofColumn (some (.model m)) f.name)
      [.name name, .text ".", .name f.column] := by
  unfold ofColumn Model.field
  simp only [hf]
  exact qualifier.append (identifier f.column)

theorem columns {fs : List Field} (hfs : ∀ f ∈ fs, m.model.field? f.name = some f) :
    Prints m name (commas ((fs.map Field.name).map (ofColumn (some (.model m)))))
      (listed (fs.map fun f => [.name name, .text ".", .name f.column])) := by
  induction fs with
  | nil => exact nil
  | cons f fs ih =>
    obtain ⟨hf, hfs⟩ := List.forall_mem_cons.1 hfs
    cases fs with
    | nil =>
      rw [List.map_singleton, List.map_singleton, List.map_singleton, commas, separated, listed,
        List.intercalate_singleton, List.intercalate_singleton]
      exact column hf
    | cons g fs =>
      have h := (column hf).append ((ih hfs).text ", ")
      simpa [commas, separated, listed, List.intercalate_cons_cons] using h

end Prints
end Fragment

/-! ## The text of pieces -/

namespace Piece

/-- The pieces are without parameters, and this is their text. -/
structure Reads (d : Dialect) (ps : List Piece) (s : String) : Prop where
  texts : String.join (texts d 0 ps) = s
  params : ps.filterMap param? = []

namespace Reads

variable {d : Dialect} {ps qs : List Piece} {s t : String}

theorem ofPieces_append (h : Reads d ps s) (qs : List Piece) :
    Rendered.ofPieces d (ps ++ qs) =
      ⟨s ++ String.join (Piece.texts d 0 qs), qs.filterMap param?⟩ := by
  have hcount : count ps = 0 := congrArg List.length h.params
  rw [Rendered.ofPieces, texts_append, String.join_append, h.texts, hcount,
    List.filterMap_append, h.params, List.nil_append]

theorem append (hp : Reads d ps s) (hq : Reads d qs t) : Reads d (ps ++ qs) (s ++ t) := by
  have h := hp.ofPieces_append qs
  rw [hq.texts, hq.params] at h
  exact ⟨congrArg Rendered.sql h, congrArg Rendered.params h⟩

theorem text (w : String) (h : Reads d ps s) : Reads d (.text w :: ps) (w ++ s) :=
  ⟨by rw [Piece.texts, String.join_cons, h.texts], h.params⟩

theorem name (w : String) (h : Reads d ps s) : Reads d (.name w :: ps) (d.quote w ++ s) :=
  ⟨by rw [Piece.texts, String.join_cons, h.texts], h.params⟩

theorem nil : Reads d [] "" := ⟨rfl, rfl⟩

theorem listed {α : Type} {ps : α → List Piece} {s : α → String}
    (h : ∀ x, Reads d (ps x) (s x)) (xs : List α) :
    Reads d (Fragment.listed (xs.map ps)) (", ".intercalate (xs.map s)) := by
  induction xs with
  | nil => exact nil
  | cons x xs ih =>
    cases xs with
    | nil =>
      rw [List.map_singleton, List.map_singleton, Fragment.listed, List.intercalate_singleton,
        String.intercalate_singleton]
      exact h x
    | cons y xs =>
      rw [List.map_cons, List.map_cons, List.map_cons, List.map_cons, Fragment.listed,
        List.intercalate_cons_cons, String.intercalate_cons_cons]
      exact ((h x).append (nil.text ", ")).append ih

end Reads
end Piece

/-! ## The query -/

namespace Select

open Fragment

variable {d : Dialect} {m : Model} {f : Field} {v : Value}

theorem model?_matching (m : Model) (field : String) (v : Value) :
    (matching m field v).model? = some ⟨m, none⟩ := rfl

/-- The text of a query for the rows that have a value in a column, up to that column. Its only
source has no name of its own and goes by `t1`. -/
def matchingText (d : Dialect) (m : Model) (f : Field) : String :=
  let column (g : Field) : String := d.quote "t1" ++ "." ++ d.quote g.column
  "SELECT " ++ ", ".intercalate (m.fields.map column) ++ " FROM " ++ d.quote m.table ++
    (if "t1" = m.table then "" else " AS " ++ d.quote "t1") ++ " WHERE (" ++ column f

def columnPieces (f : Field) : List Piece := [.name "t1", .text ".", .name f.column]

def matchingPieces (m : Model) (f : Field) : List Piece :=
  .text "SELECT " :: listed (m.fields.map columnPieces) ++
    (.text " FROM " :: .name m.table ::
      if "t1" = m.table then [] else [.text " AS ", .name "t1"]) ++
    (.text " WHERE " :: .text "(" :: columnPieces f)

theorem reads_matchingPieces (d : Dialect) (m : Model) (f : Field) :
    Piece.Reads d (matchingPieces m f) (matchingText d m f) := by
  have hname (n : String) : Piece.Reads d [.name n] (d.quote n) := by
    simpa using Piece.Reads.nil.name n
  have hcolumn (g : Field) :
      Piece.Reads d (columnPieces g) (d.quote "t1" ++ "." ++ d.quote g.column) := by
    rw [String.append_assoc]
    exact ((hname g.column).text ".").name "t1"
  have hsource : Piece.Reads d (if "t1" = m.table then [] else [.text " AS ", .name "t1"])
      (if "t1" = m.table then "" else " AS " ++ d.quote "t1") := by
    split
    · exact .nil
    · exact (hname "t1").text " AS "
  have hopening : " WHERE " ++ "(" = " WHERE (" := by decide
  have h := (((Piece.Reads.listed hcolumn m.fields).text "SELECT ").append
    ((hsource.name m.table).text " FROM ")).append (((hcolumn f).text "(").text " WHERE ")
  unfold matchingText
  rw [← hopening]
  simp only [String.append_assoc, -String.reduceAppend] at h ⊢
  exact h

/-- What the fragments of the query begin with. -/
def matchingFragments (m : Model) (f : Field) : List Fragment :=
  let source : ModelSource := ⟨m, none⟩
  .text "SELECT " :: ofFields source ++ [.text " FROM ", .modelTable source] ++
    (.text " WHERE " :: .text "(" :: ofColumn (some (.model source)) f.name)

theorem prints_matchingFragments (hm : ∀ g ∈ m.fields, m.field? g.name = some g)
    (hf : f ∈ m.fields) :
    Prints ⟨m, none⟩ "t1" (matchingFragments m f) (matchingPieces m f) :=
  (((Prints.columns hm).text "SELECT ").append (Prints.modelTable.text " FROM ")).append
    (((Prints.column (hm f hf)).text "(").text " WHERE ")

/-- The comparison of the query, from the column on. -/
def comparisonFragments (f : Field) (v : Value) : List Fragment :=
  .text " " :: ((if v.isNull then [.text "IS NULL"]
    else .text "=" :: .text " " :: ofLiteral (some f) v) ++ [.text ")"])

theorem fragments_condition (d : Dialect) (hf : m.field? f.name = some f) (v : Value) :
    (Expr.compare .eq (ModelSource.column ⟨m, none⟩ f.name) (.literal v)).fragments d =
      .text "(" :: ofColumn (some (.model ⟨m, none⟩)) f.name ++ comparisonFragments f v := by
  simp only [Expr.compare, ModelSource.column, Condition.fragments, Expr.fragments, Expr.field?,
    Expr.isNullLiteral, hf, comparisonFragments]
  cases v.isNull <;>
    simp [negation, ofSaid, ofComparison, comparisonSign, Comparison.sign, parenthesized, enclosed]

theorem fragments_matching (d : Dialect) (hf : m.field? f.name = some f) (v : Value) :
    (Statement.query (.simple (matching m f.name v))).fragments d =
      [.nested (selectScope [.model ⟨m, none⟩]) (.enlist (.model ⟨m, none⟩) ::
        (matchingFragments m f ++ comparisonFragments f v))] := by
  have hwalk : (matching m f.name v).walk = [] :=
    List.eq_nil_iff_forall_not_mem.2 fun j hj => nomatch mem_of_mem_walk hj
  rw [Statement.fragments, Query.fragments, Select.fragments_eq, headFragments, tailFragments,
    origins, hwalk]
  simp [matching, filtered, ofModel, ofSource, blank, Condition.extend, Condition.clauseFragments,
    clause, fragments_condition d hf, matchingFragments, ofCtes, projectionFragments,
    Source.origin, Source.clauseFragments, Source.fragments, Fragment.ofSource, Distinct.fragments,
    listClause, ofLimit, Expr.listFragments, OrderTerm.listFragments, Window.listFragments]

/-! ## Its compilation -/

/-- The scope of the query, where its source is visible. -/
def opened (m : Model) (s : Supply) : Rendering :=
  ((Rendering.start s).enter (selectScope [.model ⟨m, none⟩])).enlist (.model ⟨m, none⟩)

theorem opened_lookup? (m : Model) (s : Supply) :
    (opened m s).lookup? (ModelSource.key ⟨m, none⟩) = some "t1" := by
  have hname : generatedName 1 = "t1" := by decide
  have hsources : (opened m s).scope.sources = [(m.name, generatedName 1)] := rfl
  rw [lookup?_eq, hsources, hname, ModelSource.key, Option.getD_none, List.lookup_cons,
    beq_self_eq_true]
  rfl

theorem opened_supply (m : Model) (s : Supply) : (opened m s).supply = s := enlist_supply ..

section

variable (hm : ∀ g ∈ m.fields, m.field? g.name = some g) (hf : f ∈ m.fields)

include hm hf

theorem compile_of_prints {qs : List Piece}
    (h : Prints ⟨m, none⟩ "t1" (comparisonFragments f v) qs) (d : Dialect) (s : Supply) :
    (Statement.query (.simple (matching m f.name v))).compile d s =
      (.ok ⟨matchingText d m f ++ String.join (Piece.texts d 0 qs), qs.filterMap Piece.param?⟩,
        s) := by
  have hbody := ((prints_matchingFragments hm hf).append h) (opened m s) rfl (opened_lookup? m s)
  have hputs : Puts ((Statement.query (.simple (matching m f.name v))).fragments d) (.start s)
      (matchingPieces m f ++ qs) ((opened m s).putAll (matchingPieces m f ++ qs)).leave := by
    rw [fragments_matching d (hm f hf)]
    have henlist : Puts [.enlist (.model ⟨m, none⟩)]
        ((Rendering.start s).enter (selectScope [.model ⟨m, none⟩])) [] (opened m s) :=
      puts_enlist.2 ⟨rfl, rfl⟩
    exact puts_nested.2 ⟨_, puts_cons.2 ⟨_, _, _, henlist, hbody, rfl⟩, rfl⟩
  rw [Statement.compile_of_puts hputs, (reads_matchingPieces d m f).ofPieces_append, leave_supply,
    putAll_supply, opened_supply]

/-- NULL is asked for by name, without a parameter. -/
theorem compile_matching_null (hv : v.isNull = true) (d : Dialect) (s : Supply) :
    (Statement.query (.simple (matching m f.name v))).compile d s =
      (.ok ⟨matchingText d m f ++ " IS NULL)", []⟩, s) := by
  have hprints : Prints ⟨m, none⟩ "t1" (comparisonFragments f v)
      [.text " ", .text "IS NULL", .text ")"] := by
    rw [comparisonFragments, if_pos hv]
    exact ((Prints.nil.text ")").text "IS NULL").text " "
  rw [compile_of_prints hm hf hprints]
  rfl

/-- Any other value is encoded by the field, and compared with. Nothing is compiled if it cannot be
encoded. -/
theorem compile_matching (hv : v.isNull = false) (d : Dialect) (s : Supply) :
    (Statement.query (.simple (matching m f.name v))).compile d s =
      ((f.encode v).map fun w =>
        ⟨matchingText d m f ++ " = " ++ d.placeholder 1 ++ ")", [w]⟩, s) := by
  cases hw : f.encode v with
  | ok w =>
    have hprints : Prints ⟨m, none⟩ "t1" (comparisonFragments f v)
        [.text " ", .text "=", .text " ", .param w, .text ")"] := by
      simp only [comparisonFragments, hv, ofLiteral, hw]
      exact ((((Prints.nil.text ")").param w).text " ").text "=").text " "
    have htext : String.join (Piece.texts d 0
        [.text " ", .text "=", .text " ", .param w, .text ")"]) =
          " = " ++ d.placeholder 1 ++ ")" := by
      have hsign : " " ++ ("=" ++ " ") = " = " := by decide
      rw [← hsign]
      simp only [Piece.texts, String.join_cons, String.join_nil, String.append_empty,
        String.append_assoc, Nat.zero_add]
    rw [compile_of_prints hm hf hprints, htext, ← String.append_assoc, ← String.append_assoc]
    rfl
  | error e =>
    obtain ⟨hruns, -⟩ := prints_matchingFragments hm hf (opened m s) rfl (opened_lookup? m s)
    have hrefused : runAll (comparisonFragments f v) ((opened m s).putAll (matchingPieces m f)) =
        (.error e, ((opened m s).putAll (matchingPieces m f)).putAll
          [.text " ", .text "=", .text " "]) := by
      simp only [comparisonFragments, hv, ofLiteral, hw]
      rfl
    have hbody := (runAll_append_of_ok hruns).trans hrefused
    have henlist : run (.enlist (.model ⟨m, none⟩))
        ((Rendering.start s).enter (selectScope [.model ⟨m, none⟩])) = (.ok (), opened m s) := by
      rw [run, opened]
    rw [Statement.compile, fragments_matching d (hm f hf), render, runAll_singleton, run, runAll,
      henlist]
    dsimp only
    rw [hbody]
    refine Prod.ext rfl ?_
    show (leave _).supply = s
    rw [leave_supply, putAll_supply, putAll_supply, opened_supply]

end
end Select

end SqlMapper
