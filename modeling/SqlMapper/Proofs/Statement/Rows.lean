import SqlMapper.Proofs.Fragment.InTurn
import SqlMapper.Proofs.Statement.Parameters

/-!
# SqlMapper.Proofs.Statement.Rows

The rows of an insert in its text.

* `Insert.Holds`: the rows that an insert was given, one call after another.
* `Tuple`, `RowsText`: the text of rows. An entry of a tuple is what the row supplies for the field
  of its column, else the computed default of the field, else NULL.
* `Insert.rows_written`: what a compiled insert has in its text, and when this is every row and
  every value that it was given.

An insert whose rows leave nothing to write is one row of defaults, however many rows there are.
Of two values for one field of a row the first is written.
-/

namespace SqlMapper

open Fragment

/-! ## The rows of an insert -/

def literalRow (r : List (String × Value)) : List Assignment :=
  r.map fun (field, v) => ⟨field, .literal v⟩

/-- How an insert came by its rows. -/
inductive Insert.Holds (m : ModelSource) : Insert → List (List Assignment) → Prop
  | of : Insert.Holds m (.of m) []
  | row {i : Insert} {rows : List (List Assignment)} (r : List Assignment) :
      Insert.Holds m i rows → Insert.Holds m (i.row r) (rows ++ [r])
  | rows {i : Insert} {rows : List (List Assignment)} (rs : List (List (String × Value))) :
      Insert.Holds m i rows → Insert.Holds m (i.valueRows rs) (rows ++ rs.map literalRow)
  | record {i : Insert} {rows : List (List Assignment)} (r : Record) :
      Insert.Holds m i rows → Insert.Holds m (i.record r) (rows ++ [literalRow r.insertValues])
  | cte {i : Insert} {rows : List (List Assignment)} (c : Cte) :
      Insert.Holds m i rows → Insert.Holds m (i.withCte c) rows
  | onConflict {i : Insert} {rows : List (List Assignment)} (c : OnConflict) :
      Insert.Holds m i rows → Insert.Holds m (i.onConflictDo c) rows
  | returning {i : Insert} {rows : List (List Assignment)} (es : List Expr) :
      Insert.Holds m i rows → Insert.Holds m (i.returningAll es) rows

namespace Insert

/-- The source of an insert that has the rows. -/
def sourceOf : List (List Assignment) → InsertSource
  | [] => .defaults
  | rows => .rows rows

theorem sourceOf_append (rows : List (List Assignment)) (r : List Assignment) :
    sourceOf (rows ++ [r]) = .rows (rows ++ [r]) := by
  cases rows <;> rfl

theorem row_source {i : Insert} {rows : List (List Assignment)} (h : i.source = sourceOf rows)
    (r : List Assignment) : (i.row r).source = sourceOf (rows ++ [r]) := by
  rw [sourceOf_append, row, h]
  cases rows <;> rfl

theorem valueRows_source {i : Insert} {rows : List (List Assignment)}
    (h : i.source = sourceOf rows) (rs : List (List (String × Value))) :
    (i.valueRows rs).source = sourceOf (rows ++ rs.map literalRow) := by
  induction rs generalizing i rows with
  | nil => rwa [List.map_nil, List.append_nil]
  | cons r rs ih =>
    have hnext := ih (row_source h (literalRow r))
    rwa [List.append_assoc] at hnext

theorem valueRows_into (i : Insert) (rs : List (List (String × Value))) :
    (i.valueRows rs).into = i.into := by
  induction rs generalizing i with
  | nil => rfl
  | cons r rs ih => exact ih (i.row (literalRow r))

namespace Holds

variable {m : ModelSource} {i : Insert} {rows : List (List Assignment)}

theorem into_eq (h : i.Holds m rows) : i.into = m := by
  induction h with
  | of => rfl
  | rows rs _ ih => exact (valueRows_into ..).trans ih
  | row _ _ ih | record _ _ ih | cte _ _ ih | onConflict _ _ ih | returning _ _ ih => exact ih

theorem source_eq (h : i.Holds m rows) : i.source = sourceOf rows := by
  induction h with
  | of => rfl
  | row r _ ih => exact row_source ih r
  | rows rs _ ih => exact valueRows_source ih rs
  | record r _ ih => exact row_source ih _
  | cte _ _ ih | onConflict _ _ ih | returning _ _ ih => exact ih

end Holds

end Insert

/-! ## The text of rows -/

/-- The place in a row of the value that counts for a field. -/
def suppliedAt (row : List Assignment) (f : Field) : Option Nat :=
  row.findIdx? (·.field == f.name)

/-- What stands under the column of a field in the tuple of a row. -/
inductive Entry (d : Dialect) (row : List Assignment) (f : Field) :
    Rendering → List Piece → Rendering → Prop
  | supplied {k : Nat} {a : Assignment} {r r' : Rendering} {ps : List Piece} :
      suppliedAt row f = some k → row[k]? = some a →
        Puts (a.value.fragments d (some f)) r ps r' → Entry d row f r ps r'
  | default {v : Value} {r : Rendering} {s : Supply} :
      suppliedAt row f = none → f.hasComputedDefault = true →
        (Atom.default f).bound? r.supply = some (.ok v, s) →
          Entry d row f r [.param v] ({ r with supply := s }.put (.param v))
  | null {r : Rendering} :
      suppliedAt row f = none → f.hasComputedDefault = false →
        Entry d row f r [.param .null] (r.put (.param .null))

/-- The tuple of a row, with an entry for every column. -/
def Tuple (d : Dialect) (columns : List Field) (row : List Assignment) (r : Rendering)
    (ps : List Piece) (r' : Rendering) : Prop :=
  ∃ entries m, entries.length = columns.length ∧
    InTurn (Entry d row) columns (r.put (.text "(")) entries m ∧
      ps = .text "(" :: listed entries ++ [.text ")"] ∧ r' = m.put (.text ")")

/-- What is written for one row of defaults. -/
def defaultsText (d : Dialect) : String :=
  match d.conflict with
  | .mysql => " () VALUES ()"
  | .sqlite | .postgres => " DEFAULT VALUES"

/-- The text of rows under columns, and how many rows it inserts: one for each tuple, or one of
defaults. -/
inductive RowsText (d : Dialect) (rows : List (List Assignment)) :
    Nat → List Field → Rendering → List Piece → Rendering → Prop
  | defaults {r : Rendering} :
      RowsText d rows 1 [] r [.text (defaultsText d)] (r.put (.text (defaultsText d)))
  | tuples {columns : List Field} {head : List Piece} {tuples : List (List Piece)}
      {r m r' : Rendering} : columns ≠ [] →
      Puts (enclosed " (" (names (columns.map Field.column)) ") VALUES ") r head m →
        InTurn (Tuple d columns) rows m tuples r' →
          RowsText d rows tuples.length columns r (head ++ listed tuples) r'

namespace Fragment

variable {d : Dialect} {m : Model} {row : List Assignment} {rows : List (List Assignment)}
  {r r' : Rendering} {ps : List Piece}

theorem entry_of_puts {n : Nat} {f : Field} (h : Puts (cell d m n row f) r ps r') :
    Entry d row f r ps r' := by
  unfold cell at h
  cases hfound : row.find? (·.field == f.name) with
  | some a =>
    rw [hfound] at h
    rw [List.find?_eq_bind_findIdx?_getElem?] at hfound
    obtain ⟨k, hk, ha⟩ := Option.bind_eq_some_iff.1 hfound
    exact .supplied hk ha h
  | none =>
    rw [hfound] at h
    have hnone : suppliedAt row f = none :=
      List.findIdx?_eq_none_iff.2 fun a ha => by simpa using List.find?_eq_none.1 hfound a ha
    dsimp only at h
    split at h
    · rename_i hdefault
      obtain ⟨v, s, hv, rfl, rfl⟩ := puts_drawn h
      exact .default hnone hdefault hv
    · rename_i hdefault
      split at h
      · obtain ⟨rfl, rfl⟩ := puts_param.1 h
        exact .null hnone (by simpa using hdefault)
      · exact absurd h.1 not_runs_refuse

theorem tuple_of_puts {n : Nat} {columns : List Field}
    (h : Puts (parenthesized (commas (columns.map (cell d m n row)))) r ps r') :
    Tuple d columns row r ps r' := by
  obtain ⟨_, _, _, hopening, hrest, rfl⟩ := puts_cons.1 h
  obtain ⟨m', _, _, hcells, hclosing, rfl⟩ := puts_append.1 hrest
  obtain ⟨rfl, rfl⟩ := puts_text.1 hopening
  obtain ⟨rfl, rfl⟩ := puts_text.1 hclosing
  obtain ⟨entries, hentries, rfl⟩ := puts_commas hcells
  exact ⟨entries, m', hentries.length_eq, hentries.mono fun f r ps r' => entry_of_puts,
    by simp, rfl⟩

theorem puts_defaultRow : Puts (defaultRow d) r ps r' ↔
    r' = r.put (.text (defaultsText d)) ∧ ps = [.text (defaultsText d)] := by
  unfold defaultRow defaultsText
  cases d.conflict <;> exact puts_text

/-- What the fragments of rows put out: one row of defaults if there is no column, and otherwise a
list of columns and a tuple for each row. -/
theorem puts_insertedRows (h : Puts (insertedRows d m rows) r ps r') :
    (∀ row ∈ rows, ∀ a ∈ row, ∃ f, m.field? a.field = some f) ∧
      (insertedFields m rows = [] ∧ Puts (defaultRow d) r ps r' ∨
        insertedFields m rows ≠ [] ∧ ∃ head tuples m',
          Puts (enclosed " (" (names ((insertedFields m rows).map Field.column)) ") VALUES ")
            r head m' ∧
          InTurn (fun p => Puts (parenthesized
            (commas ((insertedFields m rows).map (cell d m p.2 p.1))))) rows.zipIdx m' tuples r' ∧
          ps = head ++ listed tuples) := by
  unfold insertedRows at h
  split at h
  · exact absurd h.1 not_runs_refuse
  · rename_i fs hfs
    constructor
    · intro row hrow a ha
      obtain ⟨f, hf⟩ := exists_of_mapM hfs a (List.mem_flatten.2 ⟨row, hrow, ha⟩)
      exact ⟨f, Model.field_eq_ok hf⟩
    · cases hcolumns : insertedFields m rows with
      | nil =>
        rw [hcolumns] at h
        exact .inl ⟨rfl, h⟩
      | cons f fs =>
        rw [hcolumns] at h
        obtain ⟨m', head, _, hhead, htuples, rfl⟩ := puts_append.1 h
        rw [List.mapIdx_eq_zipIdx_map] at htuples
        obtain ⟨tuples, hturn, rfl⟩ := puts_commas htuples
        exact .inr ⟨List.cons_ne_nil _ _, head, tuples, m', hhead, hturn, rfl⟩

/-- Only rows of known fields are put out, as tuples or as one row of defaults. -/
theorem rowsText_of_puts (h : Puts (insertedRows d m rows) r ps r') :
    (∀ row ∈ rows, ∀ a ∈ row, ∃ f, m.field? a.field = some f) ∧
      ∃ n, RowsText d rows n (insertedFields m rows) r ps r' := by
  obtain ⟨hfields, ⟨hnone, hdefaults⟩ | ⟨hsome, head, tuples, m', hhead, hturn, rfl⟩⟩ :=
    puts_insertedRows h
  · obtain ⟨rfl, rfl⟩ := puts_defaultRow.1 hdefaults
    rw [hnone]
    exact ⟨hfields, 1, .defaults⟩
  · have hrows : InTurn (Tuple d (insertedFields m rows)) (rows.zipIdx.map Prod.fst) m' tuples r' :=
      (hturn.mono fun p r ps r' => tuple_of_puts).map
    rw [List.zipIdx_map_fst] at hrows
    exact ⟨hfields, tuples.length, .tuples hsome hhead hrows⟩

end Fragment

/-! ## What is lost -/

/-- NULL for a key that the database assigns, which says no more than leaving the key out. -/
def Assignment.isVacant (m : Model) (a : Assignment) : Bool :=
  (m.field? a.field).any (·.decl.autoIncrement) && a.value.isNullLiteral

/-- As many rows are inserted as there are, and every value of them that is not vacant stands under
exactly one column. -/
def Preserved (m : Model) (rows : List (List Assignment)) (n : Nat) (columns : List Field) : Prop :=
  n = rows.length ∧ ∀ row ∈ rows, ∀ (k : Nat) (a : Assignment), row[k]? = some a →
    a.isVacant m = false → ∃! j : Nat, ∃ f, columns[j]? = some f ∧ suppliedAt row f = some k

/-- There is a column to write, or there is only one row, and no value that is not vacant comes
after another one for its field in its row. -/
def Preservable (m : Model) (rows : List (List Assignment)) : Prop :=
  (insertedFields m rows ≠ [] ∨ rows.length = 1) ∧
    ∀ row ∈ rows, row.Pairwise fun b a => a.isVacant m = false → b.field ≠ a.field

namespace Model

variable {m : Model} {row : List Assignment} {rows : List (List Assignment)}

theorem field?_eq_some {name : String} {f : Field} (h : m.field? name = some f) :
    f ∈ m.fields ∧ f.name = name :=
  ⟨List.mem_of_find?_eq_some h, by simpa using List.find?_some h⟩

/-- A value that is not vacant has a column. -/
theorem mem_insertedFields {a : Assignment} {f : Field} (hrow : row ∈ rows) (ha : a ∈ row)
    (hf : m.field? a.field = some f) (hvacant : a.isVacant m = false) :
    f ∈ insertedFields m rows := by
  obtain ⟨hmem, hname⟩ := field?_eq_some hf
  have hgives : givesValue f row = true := by
    rw [Assignment.isVacant, hf, Option.any_some] at hvacant
    exact List.any_eq_true.2 ⟨a, ha, by simp [hname, hvacant]⟩
  exact List.mem_filter.2 ⟨hmem, by
    rw [Bool.or_eq_true]
    exact .inl (List.any_eq_true.2 ⟨row, hrow, hgives⟩)⟩

end Model

/-- A value counts for its field if none before it is for that field. -/
theorem suppliedAt_eq_some {row : List Assignment} {f : Field} {k : Nat} {a : Assignment}
    (ha : row[k]? = some a) :
    suppliedAt row f = some k ↔
      a.field = f.name ∧
        ∀ (l : Nat) (b : Assignment), l < k → row[l]? = some b → b.field ≠ f.name := by
  obtain ⟨hk, hget⟩ := List.getElem?_eq_some_iff.1 ha
  rw [suppliedAt, List.findIdx?_eq_some_iff_getElem]
  constructor
  · rintro ⟨_, hfield, hfirst⟩
    refine ⟨by simpa [hget] using hfield, fun l b hl hb => ?_⟩
    obtain ⟨hl', rfl⟩ := List.getElem?_eq_some_iff.1 hb
    simpa using hfirst l hl
  · rintro ⟨hfield, hfirst⟩
    refine ⟨hk, by simp [hget, hfield], fun l hl => ?_⟩
    simpa using hfirst l row[l] hl (List.getElem?_eq_getElem _)

/-- A value stands under exactly one column or under none. -/
theorem existsUnique_column_iff {m : Model} (hm : m.fieldNames.Nodup)
    {rows : List (List Assignment)} {row : List Assignment} (hrow : row ∈ rows) {k : Nat}
    {a : Assignment} (ha : row[k]? = some a) {f : Field} (hf : m.field? a.field = some f)
    (hvacant : a.isVacant m = false) :
    (∃! j : Nat, ∃ f, (insertedFields m rows)[j]? = some f ∧ suppliedAt row f = some k) ↔
      ∀ (l : Nat) (b : Assignment), l < k → row[l]? = some b → b.field ≠ a.field := by
  have hname := (Model.field?_eq_some hf).2
  constructor
  · rintro ⟨_, ⟨g, -, hg⟩, -⟩
    obtain ⟨hfield, hfirst⟩ := (suppliedAt_eq_some ha).1 hg
    rwa [hfield]
  · intro hfirst
    have hmem := Model.mem_insertedFields hrow (List.mem_of_getElem? ha) hf hvacant
    obtain ⟨j, hj⟩ := List.mem_iff_getElem?.1 hmem
    refine ⟨j, ⟨f, hj, (suppliedAt_eq_some ha).2 ⟨hname.symm, by rwa [hname]⟩⟩, ?_⟩
    rintro i ⟨g, hi, hg⟩
    have hsame := ((suppliedAt_eq_some ha).1 hg).1
    have hnodup : ((insertedFields m rows).map Field.name).Nodup :=
      hm.sublist (List.filter_sublist.map _)
    have hlt : i < ((insertedFields m rows).map Field.name).length := by
      rw [List.length_map]
      exact (List.getElem?_eq_some_iff.1 hi).1
    refine (List.getElem?_inj hlt hnodup).1 ?_
    rw [List.getElem?_map, List.getElem?_map, hi, hj, Option.map_some, Option.map_some, hname, hsame]

theorem pairwise_fields_iff {m : Model} {row : List Assignment} :
    (row.Pairwise fun b a => a.isVacant m = false → b.field ≠ a.field) ↔
      ∀ (k : Nat) (a : Assignment), row[k]? = some a → a.isVacant m = false →
        ∀ (l : Nat) (b : Assignment), l < k → row[l]? = some b → b.field ≠ a.field := by
  rw [List.pairwise_iff_getElem]
  constructor
  · intro h k a ha hvacant l b hlt hb
    obtain ⟨hk, rfl⟩ := List.getElem?_eq_some_iff.1 ha
    obtain ⟨hl, rfl⟩ := List.getElem?_eq_some_iff.1 hb
    exact h l k hl hk hlt hvacant
  · intro h l k hl hk hlt hvacant
    exact h k _ (List.getElem?_eq_getElem hk) hvacant l _ hlt (List.getElem?_eq_getElem hl)

/-- Text of rows preserves them exactly if they can be preserved. -/
theorem RowsText.preserved_iff {d : Dialect} {m : Model} (hm : m.fieldNames.Nodup)
    {rows : List (List Assignment)} {n : Nat} {r r' : Rendering} {ps : List Piece}
    (hfields : ∀ row ∈ rows, ∀ a ∈ row, ∃ f, m.field? a.field = some f)
    (h : RowsText d rows n (insertedFields m rows) r ps r') :
    Preserved m rows n (insertedFields m rows) ↔ Preservable m rows := by
  have hcount : n = rows.length ↔ insertedFields m rows ≠ [] ∨ rows.length = 1 := by
    generalize insertedFields m rows = columns at h
    cases h with
    | defaults => simp [eq_comm]
    | tuples hne _ htuples => simp [hne, htuples.length_eq]
  unfold Preserved Preservable
  rw [hcount]
  refine and_congr_right fun _ => forall₂_congr fun row hrow => ?_
  rw [pairwise_fields_iff]
  refine forall₂_congr fun k a => forall₂_congr fun ha hvacant => ?_
  obtain ⟨f, hf⟩ := hfields row hrow a (List.mem_of_getElem? ha)
  exact existsUnique_column_iff hm hrow ha hf hvacant

/-! ## Compiled inserts -/

namespace Insert

/-- The text of an insert with its rows: the queries of its `WITH` clause, the verb and the table,
`n` rows under columns, and what is said of conflicts and of the answer. -/
def Writes (d : Dialect) (i : Insert) (rows : List (List Assignment)) (n : Nat)
    (columns : List Field) (s : Supply) (ps : List Piece) : Prop :=
  ∃ ctes verb text back r₁ r₂ r₃,
    Puts (ofCtes i.ctes (Cte.listFragments d i.ctes)) (.start s) ctes r₁ ∧
      insertVerb d i.onConflict = .text verb ∧
        RowsText d rows n columns ((r₁.enter (targetScope i.into (some i.into))).putAll
          [.text verb, .text " ", .name i.into.model.table]) text r₂ ∧
          Puts ((i.onConflict.map (OnConflict.fragments d i.into.model)).getD [] ++
            returningFragments d i.returning) r₂ back r₃ ∧
              ps = ctes ++ [.text verb, .text " ", .name i.into.model.table] ++ text ++ back

theorem insertVerb_cases (d : Dialect) (c : Option OnConflict) :
    (∃ verb, insertVerb d c = .text verb) ∨ ∃ e, insertVerb d c = .refuse e := by
  unfold insertVerb
  split
  · exact .inl ⟨_, rfl⟩
  · split
    · exact .inl ⟨_, rfl⟩
    · exact .inl ⟨_, rfl⟩
    · exact .inl ⟨_, rfl⟩
    · exact .inl ⟨_, rfl⟩
    · exact .inr ⟨_, rfl⟩
    · exact .inl ⟨_, rfl⟩

variable {d : Dialect} {i : Insert} {rows : List (List Assignment)} {s : Supply}
  {r : Rendering} {ps : List Piece}

/-- The parts of the text of an insert, with the states between them. -/
theorem parts_of_puts (h : Puts (i.fragments d) (.start s) ps r) :
    ∃ ctes verb source clause returned r₁ r₂ r₃ r₄,
      Puts (ofCtes i.ctes (Cte.listFragments d i.ctes)) (.start s) ctes r₁ ∧
        insertVerb d i.onConflict = .text verb ∧
          Puts (i.source.fragments d i.into.model)
            ((r₁.enter (targetScope i.into (some i.into))).putAll
              [Piece.text verb, .text " ", .name i.into.model.table]) source r₂ ∧
            Puts ((i.onConflict.map (OnConflict.fragments d i.into.model)).getD []) r₂ clause r₃ ∧
              Puts (returningFragments d i.returning) r₃ returned r₄ ∧
                ps = ctes ++ [Piece.text verb, .text " ", .name i.into.model.table] ++ source ++
                  clause ++ returned ∧
                  r = r₄.leave := by
  unfold Insert.fragments at h
  obtain ⟨r₁, ctes, _, hctes, hnested, rfl⟩ := puts_append.1 h
  obtain ⟨r₄, hbody, rfl⟩ := puts_nested.1 hnested
  obtain ⟨r₃, _, returned, hsaid, hreturned, rfl⟩ := puts_append.1 hbody
  obtain ⟨r₂, _, clause, hfront, hclause, rfl⟩ := puts_append.1 hsaid
  obtain ⟨_, _, source, htable, hsource, rfl⟩ := puts_append.1 hfront
  obtain ⟨_, _, _, hverb, hinto, rfl⟩ := puts_cons.1 htable
  obtain ⟨_, _, _, hblank, hname, rfl⟩ := puts_cons.1 hinto
  obtain ⟨rfl, rfl⟩ := puts_text.1 hblank
  obtain ⟨rfl, rfl⟩ := puts_identifier.1 hname
  rcases insertVerb_cases d i.onConflict with ⟨verb, hv⟩ | ⟨e, he⟩
  · rw [hv] at hverb
    obtain ⟨rfl, rfl⟩ := puts_text.1 hverb
    exact ⟨ctes, verb, source, clause, returned, r₁, r₂, r₃, r₄, hctes, hv, hsource, hclause,
      hreturned, by simp, rfl⟩
  · rw [he] at hverb
    exact absurd hverb.1 not_runs_refuse

theorem writes_of_puts (hsource : i.source = .rows rows)
    (h : Puts (i.fragments d) (.start s) ps r) :
    (∀ row ∈ rows, ∀ a ∈ row, ∃ f, i.into.model.field? a.field = some f) ∧
      ∃ n, i.Writes d rows n (insertedFields i.into.model rows) s ps := by
  obtain ⟨ctes, verb, text, clause, returned, r₁, r₂, r₃, r₄, hctes, hverb, hrows, hclause,
    hreturned, rfl, -⟩ := parts_of_puts h
  rw [hsource] at hrows
  obtain ⟨hfields, n, htext⟩ := rowsText_of_puts hrows
  exact ⟨hfields, n, ctes, verb, text, clause ++ returned, r₁, r₂, r₄, hctes, hverb, htext,
    puts_append.2 ⟨r₃, clause, returned, hclause, hreturned, rfl⟩, by simp⟩

/-- A compiled insert has its rows in their order, each with one entry for every column. Every row
and every value is there, once, exactly if the rows leave a column to write, or are only one, and
no row has two values for a field. -/
theorem rows_written (m : ModelSource) (hm : m.model.fieldNames.Nodup) (i : Insert)
    (rows : List (List Assignment)) (hi : i.Holds m rows) (hrows : rows ≠ []) (d : Dialect)
    (s s' : Supply) (r : Rendered) (h : (Statement.insert i).compile d s = (.ok r, s')) :
    ∃ n ps, r = .ofPieces d ps ∧ i.Writes d rows n (insertedFields m.model rows) s ps ∧
      (Preserved m.model rows n (insertedFields m.model rows) ↔ Preservable m.model rows) := by
  obtain ⟨ps, _, hps, rfl, -⟩ := Statement.pieces_of_compile h
  have hsource : i.source = .rows rows := by
    rw [hi.source_eq]
    cases rows with
    | nil => exact absurd rfl hrows
    | cons row rows => rfl
  obtain ⟨hfields, n, hwrites⟩ := writes_of_puts hsource hps
  rw [hi.into_eq] at hfields hwrites
  have htext := hwrites
  obtain ⟨_, _, _, _, _, _, _, -, -, htext, -⟩ := htext
  exact ⟨n, ps, rfl, hwrites, htext.preserved_iff hm hfields⟩

end Insert

namespace Sample

def ticket : Model where
  name := "Ticket"
  table := "tickets"
  fields := [⟨0, "id", "Ticket", .autoId⟩, ⟨1, "body", "Ticket",
    { name := "body", type := .text, nullable := true }⟩]
  primaryKey := .single 0
  foreignKeys := []
  indexes := []
  reverse := []

/-- Two tickets without a key, the second one without anything. -/
def tickets : Insert :=
  (Insert.of ⟨ticket, none⟩).valueRows [[("id", .null), ("body", .text "a")], [("id", .null)]]

def ticketRows : List (List Assignment) :=
  [[⟨"id", .literal .null⟩, ⟨"body", .literal (.text "a")⟩], [⟨"id", .literal .null⟩]]

def ticketsPieces : List Piece :=
  [.text "INSERT INTO", .text " ", .name "tickets", .text " (", .name "body", .text ") VALUES ",
    .text "(", .param (.text "a"), .text ")", .text ", ", .text "(", .param .null, .text ")"]

theorem tickets_preserved : ∃ n ps,
    Rendered.ofPieces .sqlite ticketsPieces = .ofPieces .sqlite ps ∧
      tickets.Writes .sqlite ticketRows n (insertedFields ticket ticketRows) ⟨0⟩ ps ∧
        Preserved ticket ticketRows n (insertedFields ticket ticketRows) := by
  have hholds : tickets.Holds ⟨ticket, none⟩ ticketRows := Insert.Holds.of.rows _
  have hcompile : (Statement.insert tickets).compile .sqlite ⟨0⟩ =
      (.ok (.ofPieces .sqlite ticketsPieces), ⟨0⟩) := by
    with_unfolding_all rfl
  have hpreservable : Preservable ticket ticketRows :=
    ⟨.inl (by with_unfolding_all exact List.cons_ne_nil _ _), by simp [ticketRows]⟩
  obtain ⟨n, ps, hps, hwrites, hiff⟩ := Insert.rows_written ⟨ticket, none⟩ (by decide) tickets
    ticketRows hholds (List.cons_ne_nil _ _) .sqlite ⟨0⟩ ⟨0⟩ _ hcompile
  exact ⟨n, ps, hps, hwrites, hiff.2 hpreservable⟩

/-- Two tickets without anything. -/
def blankTickets : Insert :=
  (Insert.of ⟨ticket, none⟩).valueRows [[("id", .null)], [("id", .null)]]

def blankRows : List (List Assignment) := [[⟨"id", .literal .null⟩], [⟨"id", .literal .null⟩]]

/-- Both are compiled to one row of defaults, so one of them is lost. -/
theorem blankTickets_lost :
    (Statement.insert blankTickets).compile .sqlite ⟨0⟩ =
        (.ok (.ofPieces .sqlite [.text "INSERT INTO", .text " ", .name "tickets",
          .text " DEFAULT VALUES"]), ⟨0⟩) ∧
      ∀ n ps, blankTickets.Writes .sqlite blankRows n (insertedFields ticket blankRows) ⟨0⟩ ps →
        ¬ Preserved ticket blankRows n (insertedFields ticket blankRows) := by
  refine ⟨by with_unfolding_all rfl, ?_⟩
  rintro n ps ⟨_, _, _, _, _, _, _, -, -, htext, -⟩ ⟨hcount, -⟩
  have hnone : insertedFields ticket blankRows = [] := by with_unfolding_all rfl
  rw [hnone] at htext
  cases htext with
  | defaults => cases hcount
  | tuples hne _ _ => exact hne rfl

end Sample

end SqlMapper
