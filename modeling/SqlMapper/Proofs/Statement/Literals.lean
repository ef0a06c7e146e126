import SqlMapper.Proofs.Statement.Masked
import SqlMapper.Proofs.Statement.Mutation
import SqlMapper.Proofs.Statement.Parameters
import SqlMapper.Query.Select

/-!
# SqlMapper.Proofs.Statement.Literals

Literals stay out of the text: two statements with one outline have one text
(`Statement.sql_eq_of_outline`).
-/

namespace SqlMapper

open Fragment

variable {d : Dialect}

/-! ## Parts of statements that change rows -/

theorem Assignment.maskAll_outline (m : Model) (a : Assignment) :
    maskAll (a.outline.fragments d m) = maskAll (a.fragments d m) := by
  unfold Assignment.fragments Assignment.outline
  dsimp only
  split
  · simp [Expr.maskAll_outline]
  · rfl

theorem Assignment.listMaskAll_outline (m : Model) (xs : List Assignment) :
    ((xs.map outline).map (fragments d m)).map maskAll = (xs.map (fragments d m)).map maskAll := by
  rw [List.map_map, List.map_map, List.map_map]
  exact List.map_congr_left fun a _ => maskAll_outline m a

theorem maskAll_returning (es : List Expr) :
    maskAll (returningFragments d (Expr.listOutline es)) = maskAll (returningFragments d es) := by
  cases es with
  | nil => rfl
  | cons e es =>
    have h := Expr.projectionMaskAll_outline d (e :: es)
    rw [Expr.listOutline] at h ⊢
    refine maskAll_requiring ?_
    simp [mask, h]

theorem maskAll_sources (s : String) (ss : List Source) :
    maskAll (sourcesFragments d s (ss.map Source.outline)) =
      maskAll (sourcesFragments d s ss) := by
  unfold sourcesFragments
  rw [maskAll_listClause, maskAll_listClause, List.map_map, List.map_map, List.map_map]
  congr 1
  exact List.map_congr_left fun s _ => Source.maskAll_outline d s

/-! ## Inserts -/

theorem givesValue_outline (f : Field) (row : List Assignment) :
    givesValue f (row.map Assignment.outline) = givesValue f row := by
  unfold givesValue
  rw [List.any_map]
  congr 1
  funext a
  simp [Assignment.outline]

theorem insertedFields_outline (m : Model) (rows : List (List Assignment)) :
    insertedFields m (rows.map (List.map Assignment.outline)) = insertedFields m rows := by
  unfold insertedFields
  congr 1
  funext f
  rw [List.any_map]
  simp only [Function.comp_def, givesValue_outline]

theorem maskAll_cell (m : Model) (i : Nat) (row : List Assignment) (f : Field) :
    maskAll (cell d m i (row.map Assignment.outline) f) = maskAll (cell d m i row f) := by
  unfold cell
  rw [List.find?_map]
  have hname : ((fun a : Assignment => a.field == f.name) ∘ Assignment.outline) =
      fun a => a.field == f.name := rfl
  rw [hname]
  cases row.find? fun a => a.field == f.name with
  | none => rfl
  | some a => exact Expr.maskAll_outline d (some f) a.value

theorem mapM_field_outline (m : Model) (rows : List (List Assignment)) :
    ((rows.map (List.map Assignment.outline)).flatten.mapM fun a => m.field a.field) =
      rows.flatten.mapM fun a => m.field a.field := by
  rw [← List.map_flatten, List.mapM_map]
  rfl

theorem maskAll_insertedRows (m : Model) (rows : List (List Assignment)) :
    maskAll (insertedRows d m (rows.map (List.map Assignment.outline))) =
      maskAll (insertedRows d m rows) := by
  unfold insertedRows
  rw [mapM_field_outline, insertedFields_outline]
  cases rows.flatten.mapM fun a => m.field a.field with
  | error e => rfl
  | ok _ =>
    cases insertedFields m rows with
    | nil => rfl
    | cons f fs =>
      have hrow (i : Nat) (row : List Assignment) :
          maskAll (parenthesized (commas ((f :: fs).map
            (cell d m i (row.map Assignment.outline))))) =
          maskAll (parenthesized (commas ((f :: fs).map (cell d m i row)))) := by
        have hcells := List.map_congr_left (l := f :: fs) fun g _ => maskAll_cell (d := d) m i row g
        rw [maskAll_parenthesized, maskAll_commas, maskAll_parenthesized, maskAll_commas,
          List.map_map, List.map_map]
        exact congrArg (fun fss => parenthesized (commas fss)) hcells
      dsimp only
      rw [maskAll_append, maskAll_append, maskAll_commas, maskAll_commas]
      congr 2
      refine List.ext_getElem? fun i => ?_
      rw [List.getElem?_map, List.getElem?_mapIdx, List.getElem?_map, List.getElem?_map,
        List.getElem?_mapIdx]
      cases rows[i]? with
      | none => rfl
      | some row => exact congrArg some (hrow i row)

theorem maskAll_insertSource (m : Model) (s : InsertSource) :
    maskAll (s.outline.fragments d m) = maskAll (s.fragments d m) := by
  cases s with
  | rows rs => exact maskAll_insertedRows m rs
  | query fields q =>
    rw [InsertSource.outline, InsertSource.fragments, InsertSource.fragments, maskAll_append,
      maskAll_append, Query.maskAll_outline]
  | defaults => rfl

theorem maskAll_entries {e : Error} {fss gss : List (List Fragment)} :
    fss.map maskAll = gss.map maskAll →
      maskAll (match fss with | [] => [refuse e] | entries => commas entries) =
        maskAll (match gss with | [] => [refuse e] | entries => commas entries) := by
  intro h
  cases fss with
  | nil => rw [List.map_eq_nil_iff.1 h.symm]
  | cons fs fss =>
    obtain ⟨gs, gss, rfl, -, -⟩ := List.map_eq_cons_iff.1 h.symm
    simp only [maskAll_commas, h]

theorem maskAll_conflictAssignments (m : Model) (c : OnConflict) :
    maskAll (conflictAssignments d m c.outline) = maskAll (conflictAssignments d m c) := by
  refine maskAll_entries ?_
  rw [List.map_append, List.map_append]
  exact congrArg _ (Assignment.listMaskAll_outline m c.assignments)

theorem insertVerb_outline (c : Option OnConflict) :
    insertVerb d (c.map OnConflict.outline) = insertVerb d c := by
  cases c <;> rfl

theorem isNone_clauseOutline (c : Option Condition) :
    (Condition.clauseOutline c).isNone = c.isNone := by
  cases c <;> rfl

theorem maskAll_duplicateKeyClause (m : Model) (c : OnConflict) :
    maskAll (duplicateKeyClause d m c.outline) = maskAll (duplicateKeyClause d m c) := by
  have hassignments := maskAll_conflictAssignments (d := d) m c
  have hfilter : c.outline.filter.isNone = c.filter.isNone := isNone_clauseOutline c.filter
  have htargetFilter : c.outline.targetFilter.isNone = c.targetFilter.isNone :=
    isNone_clauseOutline c.targetFilter
  have haction : c.outline.action = c.action := rfl
  have htarget : c.outline.target = c.target := rfl
  unfold duplicateKeyClause
  rw [hfilter, htargetFilter, haction, htarget]
  refine maskAll_requiring ?_
  split
  · rw [maskAll_cons, maskAll_cons, hassignments]
  · rfl

theorem maskAll_conflictTarget (m : Model) (c : OnConflict) :
    maskAll (conflictTarget d m c.outline) = maskAll (conflictTarget d m c) := by
  obtain ⟨action, target, targetFilter, preserve, assignments, filter⟩ := c
  unfold conflictTarget OnConflict.outline
  dsimp only
  cases target with
  | none => rfl
  | some target =>
    cases target with
    | fields fields =>
      rw [maskAll_append, maskAll_append]
      cases targetFilter with
      | none => rfl
      | some filter => simp [Condition.clauseOutline, mask, Condition.maskAll_outline]
    | constraint n => rfl

theorem maskAll_onConflictClause (m : Model) (c : OnConflict) :
    maskAll (onConflictClause d m c.outline) = maskAll (onConflictClause d m c) := by
  have htarget := maskAll_conflictTarget (d := d) m c
  have hassignments := maskAll_conflictAssignments (d := d) m c
  have hfilter := Condition.clauseMaskAll_outline d " WHERE " c.filter
  have haction : c.outline.action = c.action := rfl
  have hclause : c.outline.filter = Condition.clauseOutline c.filter := rfl
  unfold onConflictClause
  rw [haction, hclause, maskAll_append, maskAll_append, maskAll_cons, maskAll_cons, htarget]
  split
  · rw [maskAll_append, maskAll_append, maskAll_cons, maskAll_cons, hassignments, hfilter]
  · rfl

theorem maskAll_onConflict (m : Model) (c : OnConflict) :
    maskAll (c.outline.fragments d m) = maskAll (c.fragments d m) := by
  have haction : c.outline.action = c.action := rfl
  have htarget : c.outline.target = c.target := rfl
  unfold OnConflict.fragments
  rw [haction, htarget]
  split
  · exact maskAll_duplicateKeyClause m c
  · rfl
  · split
    · rfl
    · exact maskAll_onConflictClause m c
  · exact maskAll_onConflictClause m c

theorem Insert.maskAll_outline (i : Insert) :
    maskAll (i.outline.fragments d) = maskAll (i.fragments d) := by
  obtain ⟨ctes, into, source, onConflict, returning⟩ := i
  have hconflict : maskAll (((onConflict.map OnConflict.outline).map
      (OnConflict.fragments d into.model)).getD []) =
      maskAll ((onConflict.map (OnConflict.fragments d into.model)).getD []) := by
    cases onConflict with
    | none => rfl
    | some c => exact maskAll_onConflict into.model c
  unfold Insert.fragments Insert.outline
  simp only [maskAll_append, maskAll_cons, mask, maskAll_ofCtes ctes (Cte.listMaskAll_outline d ctes),
    insertVerb_outline, maskAll_insertSource, hconflict, maskAll_returning]

/-! ## Updates and deletes -/

theorem map_enlist_outline (ss : List Source) :
    (ss.map Source.outline).map (fun s => enlist s.origin) = ss.map fun s => enlist s.origin := by
  rw [List.map_map]
  exact List.map_congr_left fun s _ => congrArg enlist s.origin_outline

theorem isEmpty_map_outline (ss : List Source) : (ss.map Source.outline).isEmpty = ss.isEmpty := by
  cases ss <;> rfl

theorem Update.maskAll_outline (u : Update) :
    maskAll (u.outline.fragments d) = maskAll (u.fragments d) := by
  obtain ⟨ctes, table, assignments, ss, filter, returning⟩ := u
  have hctes := maskAll_ofCtes ctes (Cte.listMaskAll_outline d ctes)
  have hfilter := Condition.clauseMaskAll_outline d " WHERE " filter
  have hassignments := Assignment.listMaskAll_outline (d := d) table.model assignments
  unfold Update.fragments Update.outline
  dsimp only
  rw [maskAll_append, maskAll_append, hctes]
  congr 1
  cases assignments with
  | nil => rfl
  | cons a as =>
    rw [List.map_cons] at hassignments ⊢
    rw [maskAll_cons, maskAll_cons, mask, mask, map_enlist_outline, isEmpty_map_outline]
    congr 2
    refine maskAll_requiring ?_
    simp only [maskAll_append, maskAll_commas, hassignments, maskAll_sources, hfilter,
      maskAll_returning]

theorem Delete.maskAll_outline (x : Delete) :
    maskAll (x.outline.fragments d) = maskAll (x.fragments d) := by
  obtain ⟨ctes, table, ss, filter, returning⟩ := x
  have hctes := maskAll_ofCtes ctes (Cte.listMaskAll_outline d ctes)
  have hfilter := Condition.clauseMaskAll_outline d " WHERE " filter
  unfold Delete.fragments Delete.outline
  dsimp only
  rw [maskAll_append, maskAll_append, hctes, maskAll_cons, maskAll_cons, mask, mask,
    map_enlist_outline, isEmpty_map_outline]
  congr 3
  refine maskAll_requiring ?_
  simp only [maskAll_append, maskAll_sources, hfilter, maskAll_returning]

namespace Statement

theorem maskAll_outline (st : Statement) :
    maskAll (st.outline.fragments d) = maskAll (st.fragments d) := by
  cases st with
  | query q => exact Query.maskAll_outline d q
  | insert i => exact i.maskAll_outline
  | update u => exact u.maskAll_outline
  | delete x => exact x.maskAll_outline

/-- Statements that differ in the values of literals alone have one text and as many parameters. -/
theorem sql_eq_of_outline (d : Dialect) (st st' : Statement) (h : st.outline = st'.outline)
    (s t s' t' : Supply) (r r' : Rendered) (hr : st.compile d s = (.ok r, s'))
    (hr' : st'.compile d t = (.ok r', t')) :
    r.sql = r'.sql ∧ r.params.length = r'.params.length := by
  obtain ⟨ps, m, hps, rfl, -⟩ := pieces_of_compile hr
  obtain ⟨qs, n, hqs, rfl, -⟩ := pieces_of_compile hr'
  have hmask : maskAll (st.fragments d) = maskAll (st'.fragments d) := by
    rw [← maskAll_outline, h, maskAll_outline]
  have hout := output_eq_of_maskAll hmask hps.1 hqs.1
  rw [hps.2, hqs.2] at hout
  exact Rendered.eq_of_mask hout

end Statement

namespace Sample

/-- The notes whose body is one of some and not another. -/
def search (wanted : List Value) (unwanted : Value) : Statement :=
  let body := Expr.column (some (.model ⟨note, none⟩)) "body"
  .query (.simple (((Select.ofModel ⟨note, none⟩).select [body]).filtered
    (.group .all [.compare body .isIn (.literal (.array wanted)) false false,
      .compare body .ne (.literal unwanted) false false] false)))

def searchPieces (first second unwanted : Value) : List Piece :=
  [.text "SELECT ", .name "t1", .text ".", .name "body", .text " FROM ", .name "notes",
    .text " AS ", .name "t1", .text " WHERE ", .text "(", .text "(", .name "t1", .text ".",
    .name "body", .text " ", .text "IN", .text " ", .text "(", .param first, .text ", ",
    .param second, .text ")", .text ")", .text " AND ", .text "(", .name "t1", .text ".",
    .name "body", .text " ", .text "!=", .text " ", .param unwanted, .text ")", .text ")"]

theorem search_text :
    (Rendered.ofPieces .sqlite (searchPieces (.text "a") (.text "b") (.text "c"))).sql =
        (Rendered.ofPieces .sqlite (searchPieces (.text "') --") .null (.text "?"))).sql ∧
      (Rendered.ofPieces .sqlite (searchPieces (.text "a") (.text "b") (.text "c"))).params.length =
        (Rendered.ofPieces .sqlite
          (searchPieces (.text "') --") .null (.text "?"))).params.length :=
  Statement.sql_eq_of_outline .sqlite (search [.text "a", .text "b"] (.text "c"))
    (search [.text "') --", .null] (.text "?")) (by with_unfolding_all rfl) ⟨0⟩ ⟨4⟩ ⟨0⟩ ⟨4⟩ _ _
    (by with_unfolding_all rfl) (by with_unfolding_all rfl)

end Sample

end SqlMapper
