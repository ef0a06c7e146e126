import SqlMapper.Proofs.Computation
import SqlMapper.Proofs.Statement.Laid

/-!
# SqlMapper.Proofs.Statement.Mutation

Inserts, updates and deletes are laid out from their atoms, and with them every statement
(`Statement.laid`).
-/

namespace SqlMapper

open Fragment Placeholder

variable {d : Dialect}

namespace Model

theorem field_eq_ok {m : Model} {name : String} {f : Field} (h : m.field name = .ok f) :
    m.field? name = some f := by
  unfold field at h
  split at h
  · rename_i g hg
    rw [hg, Except.ok.inj h]
  · cases h

theorem filterMap_field? {m : Model} {names : List String} {fs : List Field}
    (h : names.mapM m.field = .ok fs) : names.filterMap m.field? = fs := by
  induction names generalizing fs with
  | nil => cases h; rfl
  | cons n ns ih =>
    rw [List.mapM_cons] at h
    obtain ⟨f, hn, h⟩ := bind_eq_ok h
    obtain ⟨gs, hns, h⟩ := bind_eq_ok h
    cases h
    rw [List.filterMap_cons_some (field_eq_ok hn), ih hns]

end Model

namespace Fragment

theorem startsApart_returning (d : Dialect) (es : List Expr) :
    StartsApart (returningFragments d es) := by
  unfold returningFragments requiring
  split
  · exact startsApart_nil
  · split
    · exact startsApart_cons.2 (by decide)
    · exact startsApart_cons.2 rfl

theorem startsApart_columnsOf (m : Model) (fields : List String) {opening closing : String}
    (h : (text opening).isSeparator = true) (rest : List Fragment) :
    StartsApart ((columnsOf m fields fun columns => enclosed opening (names columns) closing) ++
      rest) := by
  unfold columnsOf
  split
  · exact startsApart_cons.2 h
  · exact startsApart_cons.2 rfl

theorem endsApart_columnsOf (m : Model) (fields : List String) (opening closing : String) :
    EndsApart (columnsOf m fields fun columns => enclosed opening (names columns) closing) := by
  unfold columnsOf
  split
  · exact endsApart_concat.2 rfl
  · exact endsApart_singleton.2 rfl

theorem startsApart_duplicateKeyClause (d : Dialect) (m : Model) (c : OnConflict) :
    StartsApart (duplicateKeyClause d m c) := by
  unfold duplicateKeyClause requiring
  split
  · split
    · exact startsApart_cons.2 (by decide)
    · exact startsApart_nil
  · exact startsApart_cons.2 rfl

namespace Laid

theorem columnsOf (m : Model) (fields : List String) {o c : String} (ho : NoMark o.toList)
    (hc : Keyword c) :
    Laid d (columnAtoms m fields)
      (columnsOf m fields fun columns => Fragment.enclosed o (Fragment.names columns) c) := by
  unfold SqlMapper.columnsOf
  split
  · rename_i fs hfs
    rw [columnAtoms, Model.filterMap_field? hfs]
    exact (Laid.names _).enclosed ho hc
  · exact .refuse _ _

theorem assignment (m : Model) (a : Assignment) : Laid d (a.atoms m) (a.fragments d m) := by
  unfold Assignment.atoms Assignment.fragments Model.field
  cases m.field? a.field with
  | none => exact .refuse _ _
  | some f =>
    exact (Laid.identifier f.column).between (s := " = ") (by decide) (Expr.laid d (some f) a.value)

theorem assignments (m : Model) (xs : List Assignment) :
    List.Forall₂ (Laid d) (xs.map (Assignment.atoms m)) (xs.map (Assignment.fragments d m)) := by
  rw [List.forall₂_map_left_iff, List.forall₂_map_right_iff, List.forall₂_same]
  exact fun a _ => .assignment m a

theorem returning (es : List Expr) :
    Laid d (Expr.projectionAtoms es).flatten (returningFragments d es) := by
  cases es with
  | nil => exact .nil
  | cons e es =>
    exact ((Laid.commas (Expr.projectionLaid d (e :: es))).unqualified.lead (by decide)).requiring

theorem sources {s : String} (hs : NoMark s.toList) (ss : List Source) :
    Laid d (ss.map Source.atoms).flatten (sourcesFragments d s ss) := by
  refine Laid.listClause hs ?_
  rw [List.forall₂_map_left_iff, List.forall₂_map_right_iff, List.forall₂_same]
  exact fun s _ => Source.laid d s

/-! ## Inserts -/

theorem insertVerb (c : Option OnConflict) : Laid d [] [insertVerb d c] := by
  unfold SqlMapper.insertVerb
  split
  · exact .sql _ (by decide)
  · split
    · split <;> exact .sql _ (by decide)
    · exact .sql _ (by decide)
    · exact .sql _ (by decide)
    · exact .sql _ (by decide)
    · exact .refuse _ _
    · exact .sql _ (by decide)

theorem defaultRow : Laid d [] (defaultRow d) ∧ StartsApart (SqlMapper.defaultRow d) := by
  unfold SqlMapper.defaultRow
  split
  · exact ⟨.sql _ (by decide), startsApart_cons.2 (by decide)⟩
  · exact ⟨.sql _ (by decide), startsApart_cons.2 (by decide)⟩
  · exact ⟨.sql _ (by decide), startsApart_cons.2 (by decide)⟩

theorem cell (m : Model) (row : Nat) (assignments : List Assignment) (f : Field) :
    Laid d (cellAtoms assignments f) (cell d m row assignments f) := by
  unfold cellAtoms SqlMapper.cell
  cases assignments.find? (·.field == f.name) with
  | some a => exact Expr.laid d (some f) a.value
  | none =>
    dsimp only
    split
    · exact .drawn f
    · split
      · exact .null
      · exact .refuse _ _

theorem forall₂_mapIdx {α β γ : Type} {R : β → γ → Prop} {f : α → β} {g : Nat → α → γ}
    (xs : List α) (h : ∀ i, ∀ x ∈ xs, R (f x) (g i x)) :
    List.Forall₂ R (xs.map f) (xs.mapIdx g) := by
  induction xs generalizing g with
  | nil => exact .nil
  | cons x xs ih =>
    rw [List.map_cons, List.mapIdx_cons]
    exact .cons (h 0 x (List.mem_cons_self ..))
      (ih fun i y hy => h (i + 1) y (List.mem_cons_of_mem _ hy))

/-- The rows of an insert, each with one value for every column of the list. -/
theorem insertedRows (m : Model) (rows : List (List Assignment)) :
    Laid d ((InsertSource.rows rows).atoms m) (insertedRows d m rows) ∧
      StartsApart (SqlMapper.insertedRows d m rows) := by
  simp only [InsertSource.atoms, SqlMapper.insertedRows]
  cases rows.flatten.mapM fun a => m.field a.field with
  | error e => exact ⟨.refuse _ _, startsApart_cons.2 rfl⟩
  | ok _ =>
    cases insertedFields m rows with
    | nil => exact defaultRow
    | cons f fs =>
      have hrow (row : List Assignment) (i : Nat) :
          Laid d ((f :: fs).map (cellAtoms row)).flatten (Fragment.parenthesized
            (Fragment.commas ((f :: fs).map (SqlMapper.cell d m i row)))) := by
        refine (Laid.commas ?_).parenthesized
        rw [List.forall₂_map_left_iff, List.forall₂_map_right_iff, List.forall₂_same]
        exact fun f _ => .cell m i row f
      have hrows := Laid.commas (forall₂_mapIdx rows fun i row _ => hrow row i)
      have hcolumns := (Laid.names (d := d) ((f :: fs).map Field.column)).enclosed
        (o := " (") (c := ") VALUES ") (by decide) (by decide)
      exact ⟨hcolumns.append hrows (.inl (endsApart_concat.2 rfl)), startsApart_cons.2 (by decide)⟩

theorem insertSource (m : Model) (s : InsertSource) :
    Laid d (s.atoms m) (s.fragments d m) ∧ StartsApart (s.fragments d m) := by
  cases s with
  | defaults => exact defaultRow
  | query fields q =>
    have hcolumns := Laid.columnsOf (d := d) m fields (o := " (") (c := ") ")
      (by decide) (by decide)
    exact ⟨hcolumns.append (Query.laid d q) (.inl (endsApart_columnsOf m fields _ _)),
      startsApart_columnsOf m fields (by decide) _⟩
  | rows rs => exact insertedRows m rs

theorem preservedField (m : Model) (field : String) :
    Laid d (Atom.words ((m.field? field).toList.map Field.column))
      (match m.field field with
        | .ok f => [Fragment.identifier f.column, text " = "] ++ Fragment.ofExcluded d field
        | .error e => [Fragment.refuse e]) := by
  unfold Model.field
  cases m.field? field with
  | none => exact .refuse _ _
  | some f => exact (Laid.identifier f.column).between (s := " = ") (by decide) (.ofExcluded field)

theorem conflictAssignments (m : Model) (c : OnConflict) :
    Laid d (conflictAtoms m c) (conflictAssignments d m c) := by
  have hpreserved {preserved : String → List Fragment} (h : ∀ field,
      Laid d (Atom.words ((m.field? field).toList.map Field.column)) (preserved field)) :
      List.Forall₂ (Laid d)
        (c.preserve.map fun field => Atom.words ((m.field? field).toList.map Field.column))
        (c.preserve.map preserved) := by
    rw [List.forall₂_map_left_iff, List.forall₂_map_right_iff, List.forall₂_same]
    exact fun field _ => h field
  have hflat : (c.preserve.map fun field =>
      Atom.words ((m.field? field).toList.map Field.column)).flatten = columnAtoms m c.preserve := by
    rw [columnAtoms, ← List.flatMap_def, List.filterMap_eq_flatMap_toList]
    simp only [Atom.words, List.map_flatMap]
  have hall := List.rel_append (hpreserved (preservedField m)) (assignments (d := d) m c.assignments)
  unfold conflictAtoms SqlMapper.conflictAssignments
  rw [← hflat, ← List.flatten_append]
  dsimp only
  split
  · exact .refuse _ _
  · exact commas hall

/-- A dialect without conflict targets has the update alone. -/
theorem duplicateKeyClause (m : Model) (c : OnConflict) :
    Laid d (c.atoms m) (duplicateKeyClause d m c) := by
  obtain ⟨action, target, targetFilter, preserve, assignments, filter⟩ := c
  unfold SqlMapper.duplicateKeyClause Fragment.requiring
  split
  · rename_i hplain
    simp only [Bool.and_eq_true, Option.isNone_iff_eq_none] at hplain
    obtain ⟨⟨rfl, rfl⟩, rfl⟩ := hplain
    cases action with
    | ignore => exact .nil
    | replace => exact .nil
    | update =>
      have h : Laid d _ _ := conflictAssignments m
        ⟨.update, none, none, preserve, assignments, none⟩
      simpa [OnConflict.atoms, conflictTargetAtoms, Condition.clauseAtoms] using
        h.lead (s := " ON DUPLICATE KEY UPDATE ") (by decide)
  · exact .refuse _ _

theorem conflictTarget (m : Model) (c : OnConflict) :
    Laid d (conflictTargetAtoms m c) (conflictTarget d m c) := by
  unfold conflictTargetAtoms SqlMapper.conflictTarget
  cases c.target with
  | none => exact .requiring .nil
  | some target =>
    cases target with
    | fields fields =>
      have hcolumns := Laid.columnsOf (d := d) m fields (o := " (") (c := ")")
        (by decide) (by decide)
      refine hcolumns.append ?_ (.inl (endsApart_columnsOf m fields _ _))
      cases c.targetFilter with
      | none => exact .nil
      | some filter => exact (Condition.laid d filter).unqualified.lead (by decide)
    | constraint n => exact ((Laid.identifier n).lead (by decide)).requiring

theorem onConflictClause (m : Model) (c : OnConflict) (h : c.action ≠ .replace) :
    Laid d (c.atoms m) (onConflictClause d m c) := by
  have htarget : Laid d _ _ := (conflictTarget m c).lead (s := " ON CONFLICT") (by decide)
  unfold OnConflict.atoms SqlMapper.onConflictClause
  cases haction : c.action with
  | replace => exact absurd haction h
  | ignore => exact htarget.snoc (by decide)
  | update =>
    refine htarget.between (s := " DO UPDATE SET ") (by decide) ?_
    exact (conflictAssignments m c).append (Condition.clauseLaid d (by decide) c.filter)
      (.inr (startsApart_conditionClause d (by decide) _))

theorem onConflict (m : Model) (c : OnConflict) :
    Laid d (c.atoms m) (c.fragments d m) ∧ StartsApart (c.fragments d m) := by
  have hclause (h : c.action ≠ .replace) :
      Laid d (c.atoms m) (SqlMapper.onConflictClause d m c) ∧
        StartsApart (SqlMapper.onConflictClause d m c) :=
    ⟨onConflictClause m c h, startsApart_cons.2 (by decide)⟩
  have hreplace (h : c.action = .replace) : Laid d (c.atoms m) [] := by
    simp only [OnConflict.atoms, h]
    exact .nil
  unfold OnConflict.fragments
  split
  · exact ⟨duplicateKeyClause m c, startsApart_duplicateKeyClause d m c⟩
  · rename_i haction _
    exact ⟨hreplace haction, startsApart_nil⟩
  · rename_i haction
    split
    · rename_i htarget
      rw [Option.isNone_iff_eq_none] at htarget
      simp only [OnConflict.atoms, haction, conflictTargetAtoms, htarget]
      exact ⟨.nil, startsApart_nil⟩
    · exact hclause (by simp [haction])
  · rename_i h _
    exact hclause h

theorem conflictClause (m : Model) (c : Option OnConflict) :
    Laid d ((c.map (OnConflict.atoms m)).getD []) ((c.map (OnConflict.fragments d m)).getD []) ∧
      StartsApart ((c.map (OnConflict.fragments d m)).getD []) := by
  cases c with
  | none => exact ⟨.nil, startsApart_nil⟩
  | some c => exact onConflict m c

theorem insert (i : Insert) : LaidOut d (some i.into) i.atoms (i.fragments d) := by
  obtain ⟨hwith, awith⟩ := Laid.ofCtes (Cte.listLaid d i.ctes)
  have hsource := insertSource (d := d) i.into.model i.source
  have hconflict := conflictClause (d := d) i.into.model i.onConflict
  have htable : Laid d [.word i.into.model.table]
      [SqlMapper.insertVerb d i.onConflict, text " ", Fragment.identifier i.into.model.table] :=
    (insertVerb i.onConflict).append ((Laid.identifier _).lead (by decide))
      (.inr (startsApart_cons.2 (by decide)))
  have h := htable.append hsource.1 (.inr hsource.2)
  have h := h.append hconflict.1 (.inr hconflict.2)
  have h := h.append (returning i.returning) (.inr (startsApart_returning d _))
  exact .mutation i.into (some i.into) [] hwith awith (by simp) h

/-- A statement that reads from other sources, refused or not. -/
theorem reading (m : ModelSource) (ss : List Source) (available : Bool) (e : CompilationError)
    {as bs : List Atom} {ctes fs : List Fragment} (hctes : Laid d as ctes) (ha : EndsApart ctes)
    (h : Laid d bs fs) :
    LaidOut d (some m) (as ++ (Atom.target m :: (ss.map fun s => .source s.origin) ++ bs))
      (ctes ++ [nested (mutationScope m)
        (Fragment.requiring available e (ss.map (fun s => Fragment.enlist s.origin) ++ fs))]) := by
  unfold Fragment.requiring
  split
  · have := LaidOut.mutation m none (ss.map Source.origin) hctes ha (by simp) h
    rw [List.map_map, List.map_map] at this
    exact this
  · exact .mutation m none [] hctes ha (by simp) (.refuse _ _)

theorem update (u : Update) : LaidOut d (some u.table) u.atoms (u.fragments d) := by
  obtain ⟨ctes, table, assignments, ss, filter, returning⟩ := u
  obtain ⟨hwith, awith⟩ := Laid.ofCtes (Cte.listLaid d ctes)
  cases assignments with
  | nil => exact .mutation table none [] hwith awith (by simp) (.refuse _ _)
  | cons a as =>
    have htable : Laid d [.word table.model.table]
        [text "UPDATE ", Fragment.identifier table.model.table, text " SET "] :=
      ((Laid.identifier _).snoc (s := " SET ") (by decide)).lead (by decide)
    have h := htable.append (Laid.commas (assignments table.model (a :: as)))
      (.inl (by simp [EndsApart, isClosing]))
    have h := h.append (sources (s := " FROM ") (by decide) ss)
      (.inr (startsApart_listClause (by decide) _))
    have h := h.append (Condition.clauseLaid d (s := " WHERE ") (by decide) filter)
      (.inr (startsApart_conditionClause d (by decide) _))
    have h := h.append (.returning returning) (.inr (startsApart_returning d _))
    simpa only [Update.atoms, Update.fragments, List.append_assoc, List.cons_append,
      List.nil_append] using reading table ss (ss.isEmpty || d.updateFrom) _ hwith awith h

theorem delete (x : Delete) : LaidOut d (some x.table) x.atoms (x.fragments d) := by
  obtain ⟨ctes, table, ss, filter, returning⟩ := x
  obtain ⟨hwith, awith⟩ := Laid.ofCtes (Cte.listLaid d ctes)
  have htable : Laid d [.word table.model.table]
      [text "DELETE FROM ", Fragment.identifier table.model.table] :=
    (Laid.identifier _).lead (by decide)
  have h := htable.append (sources (s := " USING ") (by decide) ss)
    (.inr (startsApart_listClause (by decide) _))
  have h := h.append (Condition.clauseLaid d (s := " WHERE ") (by decide) filter)
    (.inr (startsApart_conditionClause d (by decide) _))
  have h := h.append (.returning returning) (.inr (startsApart_returning d _))
  simpa only [Delete.atoms, Delete.fragments, List.append_assoc, List.cons_append,
    List.nil_append] using reading table ss (ss.isEmpty || d.deleteUsing) _ hwith awith h

end Laid

end Fragment

theorem Statement.laid (d : Dialect) (st : Statement) :
    LaidOut d st.target? st.atoms (st.fragments d) := by
  cases st with
  | query q => exact .query (Query.laid d q)
  | insert i => exact Laid.insert i
  | update u => exact Laid.update u
  | delete x => exact Laid.delete x

end SqlMapper
