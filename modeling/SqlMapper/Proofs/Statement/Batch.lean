import SqlMapper.Proofs.Fragment.Repeats
import SqlMapper.Proofs.Statement.Anchored
import SqlMapper.Proofs.Statement.Rows

/-!
# SqlMapper.Proofs.Statement.Batch

Rows that are inserted together, and one after another.

* `Stored`, `Contents`: what a new row holds in its columns, by what is entered for them and by what
  is left out.
* `RowsHeld`: the text of rows, and what each of them holds by it.
* `Insert.Alone`: a row that is inserted by a statement of its own.
* `Insert.batch_agrees_iff`: a row holds the same in both cases, but for fields that it leaves to
  the default of the database while another row gives them a value.
-/

namespace SqlMapper

open Fragment Rendering

/-! ## What a row holds -/

/-- What a new row holds in a column. -/
inductive Stored
  | value (v : Value)
  /-- What an expression comes to. -/
  | computed (e : Expr)
  /-- The next key that the database assigns. -/
  | assigned
  /-- What the default that is declared for the column comes to in the database. -/
  | server (sql : String)

namespace Field

/-- What a column holds that the statement leaves out. -/
def leftOut (f : Field) : Stored :=
  if f.decl.autoIncrement then .assigned
  else
    match f.decl.default with
    | some (.server sql) => .server sql
    | _ => .value .null

/-- What a column holds that a value is bound for. NULL for a key that the database assigns counts
as nothing. -/
def bound (f : Field) (v : Value) : Stored :=
  if f.decl.autoIncrement && v.isNull then f.leftOut else .value v

/-- What a column holds that an expression is given for. -/
def given (d : Dialect) (f : Field) (e : Expr) : Stored :=
  match e.fragments d (some f) with
  | [.param v] => f.bound v
  | _ => .computed e

/-- Whether the default that is declared for a field is one of the database. -/
def hasServerDefault (f : Field) : Bool :=
  match f.decl.default with
  | some (.server _) => true
  | _ => false

end Field

/-- A row of a table. -/
abbrev Contents := Field → Stored

/-- The row that something is entered for in these columns. -/
def contents : List (Field × Stored) → Contents
  | [], f => f.leftOut
  | (c, z) :: cells, f => if c.name = f.name then z else contents cells f

/-- What a row enters for a field: what it supplies, else the computed default, else NULL. -/
inductive Enters (d : Dialect) (row : List Assignment) : Field × Stored → Supply → Supply → Prop
  | given {f : Field} {a : Assignment} {s : Supply} :
      row.find? (·.field == f.name) = some a → Enters d row (f, f.given d a.value) s s
  | default {f : Field} {v : Value} {s s' : Supply} :
      row.find? (·.field == f.name) = none → f.hasComputedDefault = true →
        (Atom.default f).bound? s = some (.ok v, s') → Enters d row (f, f.bound v) s s'
  | null {f : Field} {s : Supply} :
      row.find? (·.field == f.name) = none → f.hasComputedDefault = false →
        Enters d row (f, f.bound .null) s s

/-- An entry of a tuple, with what it enters. -/
def EntryOf (d : Dialect) (row : List Assignment) (cell : Field × Stored) (r : Rendering)
    (ps : List Piece) (r' : Rendering) : Prop :=
  Entry d row cell.1 r ps r' ∧ Enters d row cell r.supply r'.supply

/-- The tuple of a row under columns, with what the row holds by it. -/
def TupleOf (d : Dialect) (columns : List Field) (held : List Assignment × Contents)
    (r : Rendering) (ps : List Piece) (r' : Rendering) : Prop :=
  ∃ cells entries m, cells.map Prod.fst = columns ∧ held.2 = contents cells ∧
    InTurn (EntryOf d held.1) cells (r.put (.text "(")) entries m ∧
      ps = .text "(" :: listed entries ++ [.text ")"] ∧ r' = m.put (.text ")")

/-- The text of rows under columns, with what each of them holds by it. -/
inductive RowsHeld (d : Dialect) (columns : List Field) :
    List (List Assignment × Contents) → Rendering → List Piece → Rendering → Prop
  | defaults {row : List Assignment} {r : Rendering} : columns = [] →
      RowsHeld d columns [(row, Field.leftOut)] r [.text (defaultsText d)]
        (r.put (.text (defaultsText d)))
  | tuples {held : List (List Assignment × Contents)} {head : List Piece}
      {tuples : List (List Piece)} {r m r' : Rendering} : columns ≠ [] →
      Puts (enclosed " (" (names (columns.map Field.column)) ") VALUES ") r head m →
        InTurn (TupleOf d columns) held m tuples r' →
          RowsHeld d columns held r (head ++ listed tuples) r'

namespace Insert

/-- The text of an insert around its rows, for which `rows` stands, when the supply goes from `s` to
`s'`. -/
def Encloses (d : Dialect) (i : Insert) (rows : Rendering → List Piece → Rendering → Prop)
    (s : Supply) (ps : List Piece) (s' : Supply) : Prop :=
  ∃ ctes verb text back r₁ r₂ r₃,
    Puts (ofCtes i.ctes (Cte.listFragments d i.ctes)) (.start s) ctes r₁ ∧
      insertVerb d i.onConflict = .text verb ∧
        rows ((r₁.enter (targetScope i.into (some i.into))).putAll
          [.text verb, .text " ", .name i.into.model.table]) text r₂ ∧
          Puts ((i.onConflict.map (OnConflict.fragments d i.into.model)).getD [] ++
            returningFragments d i.returning) r₂ back r₃ ∧
              ps = ctes ++ [.text verb, .text " ", .name i.into.model.table] ++ text ++ back ∧
                r₃.supply = s'

/-- The same insert of one row. -/
def only (i : Insert) (row : List Assignment) : Insert := { i with source := .rows [row] }

/-- A row is inserted by itself, and holds by this what it is said to hold. -/
def Alone (d : Dialect) (i : Insert) (held : List Assignment × Contents) (s s' : Supply) : Prop :=
  ∃ ps, (Statement.insert (i.only held.1)).compile d s = (.ok (.ofPieces d ps), s') ∧
    (i.only held.1).Encloses d
      (RowsHeld d (insertedFields i.into.model [held.1]) [held]) s ps s'

end Insert

/-- The row leaves the field to its default in the database, and another row gives it a value. -/
structure LosesDefault (m : Model) (rows : List (List Assignment)) (row : List Assignment)
    (f : Field) : Prop where
  declared : f.hasServerDefault = true
  notAssigned : f.decl.autoIncrement = false
  omitted : row.find? (·.field == f.name) = none
  column : f ∈ insertedFields m rows

/-! ## What the text of rows says -/

namespace Fragment

variable {d : Dialect} {m : Model} {row : List Assignment} {rows : List (List Assignment)}
  {r r' : Rendering} {ps : List Piece}

theorem enters_of_puts {n : Nat} {f : Field} (h : Puts (cell d m n row f) r ps r') :
    ∃ z, EntryOf d row (f, z) r ps r' := by
  have hentry := entry_of_puts h
  unfold cell at h
  cases hfound : row.find? (·.field == f.name) with
  | some a =>
    rw [hfound] at h
    have hsupply := (Expr.anchored d [] (some f) a.value).supply h.1
    exact ⟨f.given d a.value, hentry, by rw [hsupply]; exact .given hfound⟩
  | none =>
    rw [hfound] at h
    dsimp only at h
    split at h
    · rename_i hdefault
      obtain ⟨v, s, hv, rfl, rfl⟩ := puts_drawn h
      exact ⟨f.bound v, hentry, .default hfound hdefault hv⟩
    · rename_i hdefault
      split at h
      · obtain ⟨rfl, rfl⟩ := puts_param.1 h
        exact ⟨f.bound .null, hentry, .null hfound (by simpa using hdefault)⟩
      · exact absurd h.1 not_runs_refuse

theorem tupleOf_of_puts {n : Nat} {columns : List Field}
    (h : Puts (parenthesized (commas (columns.map (cell d m n row)))) r ps r') :
    ∃ x, TupleOf d columns (row, x) r ps r' := by
  obtain ⟨_, _, _, hopening, hrest, rfl⟩ := puts_cons.1 h
  obtain ⟨m', _, _, hcells, hclosing, rfl⟩ := puts_append.1 hrest
  obtain ⟨rfl, rfl⟩ := puts_text.1 hopening
  obtain ⟨rfl, rfl⟩ := puts_text.1 hclosing
  obtain ⟨entries, hentries, rfl⟩ := puts_commas hcells
  obtain ⟨cells, hcolumns, hcells⟩ := hentries.exists_paired fun f r ps r' => enters_of_puts
  exact ⟨contents cells, cells, entries, m', hcolumns, rfl, hcells, by simp, rfl⟩

/-- The text of rows says what each of them holds, if it does not leave all of several rows out. -/
theorem rowsHeld_of_puts (h : Puts (insertedRows d m rows) r ps r')
    (hrows : insertedFields m rows ≠ [] ∨ ∃ row, rows = [row]) :
    ∃ held, held.map Prod.fst = rows ∧ RowsHeld d (insertedFields m rows) held r ps r' := by
  obtain ⟨-, ⟨hnone, hdefaults⟩ | ⟨hsome, head, tuples, m', hhead, hturn, rfl⟩⟩ :=
    puts_insertedRows h
  · obtain ⟨row, rfl⟩ := hrows.resolve_left (absurd hnone)
    obtain ⟨rfl, rfl⟩ := puts_defaultRow.1 hdefaults
    exact ⟨[(row, Field.leftOut)], rfl, .defaults hnone⟩
  · have htuples : InTurn (fun row r ps r' =>
        ∃ x, TupleOf d (insertedFields m rows) (row, x) r ps r')
        (rows.zipIdx.map Prod.fst) m' tuples r' :=
      (hturn.mono fun p r ps r' => tupleOf_of_puts).map
    rw [List.zipIdx_map_fst] at htuples
    obtain ⟨held, hheld, hturn⟩ := htuples.exists_paired fun row r ps r' h => h
    exact ⟨held, hheld, .tuples hsome hhead hturn⟩

end Fragment

/-! ## What rows enter -/

namespace Field

theorem bound_of_isNull {f : Field} (hauto : f.decl.autoIncrement = true) {v : Value}
    (hv : v.isNull = true) : f.bound v = f.leftOut := by
  rw [bound, hauto, hv]
  rfl

theorem given_literal_of_isNull {d : Dialect} {f : Field} {v : Value} (hv : v.isNull = true) :
    f.given d (.literal v) = f.bound v := by
  have hfragments : (Expr.literal v).fragments d (some f) = [.param v] := by
    rw [Expr.fragments, ofLiteral]
    simp only [hv, if_true]
  rw [given, hfragments]

/-- NULL is what the column would hold anyway, unless there is a default in the database. -/
theorem bound_null_eq_leftOut_iff (f : Field) :
    f.bound .null = f.leftOut ↔ ¬ (f.hasServerDefault = true ∧ f.decl.autoIncrement = false) := by
  cases hauto : f.decl.autoIncrement with
  | true => simp [bound_of_isNull (v := .null) hauto rfl]
  | false =>
    rw [bound, leftOut, hasServerDefault, hauto]
    rcases f.decl.default with _ | ⟨sql⟩ | ⟨draw⟩ <;> simp

end Field

section

variable {d : Dialect} {m : Model} {row : List Assignment} {rows : List (List Assignment)}
  {s s' s₁ s₂ : Supply} {f : Field} {z : Stored} {cells : List (Field × Stored)}

namespace Enters

theorem unique {w : Stored} (h : Enters d row (f, z) s s₁) (h' : Enters d row (f, w) s s₂) :
    z = w ∧ s₁ = s₂ := by
  cases h with
  | given ha =>
    cases h' with
    | given hb =>
      cases ha.symm.trans hb
      exact ⟨rfl, rfl⟩
    | default hb _ _ => cases ha.symm.trans hb
    | null hb _ => cases ha.symm.trans hb
  | default ha hdefault hv =>
    cases h' with
    | given hb => cases ha.symm.trans hb
    | default _ _ hw =>
      cases hv.symm.trans hw
      exact ⟨rfl, rfl⟩
    | null _ hnone => cases hdefault.symm.trans hnone
  | null ha hnone =>
    cases h' with
    | given hb => cases ha.symm.trans hb
    | default _ hdefault _ => cases hdefault.symm.trans hnone
    | null _ _ => exact ⟨rfl, rfl⟩

/-- A row that gives a field no value enters NULL for it, or what counts as nothing. -/
theorem eq_null (h : Enters d row (f, z) s s') (hgives : givesValue f row = false)
    (hcomputed : f.hasComputedDefault = false) : z = f.bound .null ∧ s' = s := by
  cases h with
  | @given _ a _ ha =>
    have hnull :
        (a.field == f.name && !(f.decl.autoIncrement && a.value.isNullLiteral)) = false := by
      simpa using List.any_eq_false.1 hgives a (List.mem_of_find?_eq_some ha)
    rw [List.find?_some ha, Bool.true_and, Bool.not_eq_false', Bool.and_eq_true] at hnull
    obtain ⟨hauto, hliteral⟩ := hnull
    cases hvalue : a.value with
    | literal v =>
      rw [hvalue] at hliteral
      refine ⟨?_, rfl⟩
      rw [Field.given_literal_of_isNull hliteral, Field.bound_of_isNull hauto hliteral,
        Field.bound_of_isNull (v := .null) hauto rfl]
    | _ =>
      rw [hvalue] at hliteral
      cases hliteral
  | default _ hdefault _ => cases hdefault.symm.trans hcomputed
  | null _ _ => exact ⟨rfl, rfl⟩

end Enters

theorem contents_of_mem (hcells : (cells.map fun c => c.1.name).Nodup) (h : (f, z) ∈ cells) :
    contents cells f = z := by
  induction cells with
  | nil => cases h
  | cons cell cells ih =>
    obtain ⟨c, w⟩ := cell
    obtain ⟨hnew, hcells⟩ := List.nodup_cons.1 hcells
    rw [contents]
    rcases List.mem_cons.1 h with h | h
    · cases h
      exact if_pos rfl
    · have hne : c.name ≠ f.name := fun hname =>
        hnew (List.mem_map.2 ⟨(f, z), h, hname.symm⟩)
      rw [if_neg hne]
      exact ih hcells h

theorem contents_of_not_mem (h : ∀ c ∈ cells, c.1.name ≠ f.name) :
    contents cells f = f.leftOut := by
  induction cells with
  | nil => rfl
  | cons cell cells ih =>
    obtain ⟨c, w⟩ := cell
    obtain ⟨hc, hcells⟩ := List.forall_mem_cons.1 h
    rw [contents, if_neg hc]
    exact ih hcells

/-- What a row enters under columns, and what it holds by it. -/
def EntersAll (d : Dialect) (columns : List Field) (held : List Assignment × Contents)
    (s s' : Supply) : Prop :=
  ∃ cells, cells.map Prod.fst = columns ∧ held.2 = contents cells ∧
    Threads (Enters d held.1) cells s s'

theorem TupleOf.entersAll {columns : List Field} {held : List Assignment × Contents}
    {r r' : Rendering} {ps : List Piece} (h : TupleOf d columns held r ps r') :
    EntersAll d columns held r.supply r'.supply := by
  obtain ⟨cells, entries, m, hcolumns, hheld, hturn, -, rfl⟩ := h
  exact ⟨cells, hcolumns, hheld, hturn.threads (I := fun _ => True) trivial (fun _ _ _ => trivial)
    fun _ _ _ _ _ _ hentry => ⟨trivial, hentry.2⟩⟩

theorem RowsHeld.threads {columns : List Field} {held : List (List Assignment × Contents)}
    {r r' : Rendering} {ps : List Piece} (h : RowsHeld d columns held r ps r') :
    Threads (EntersAll d columns) held r.supply r'.supply := by
  cases h with
  | defaults hnone =>
    rw [hnone]
    exact .cons ⟨[], rfl, rfl, .nil _⟩ (.nil _)
  | tuples _ hhead hturn =>
    rw [← ((Anchored.names _).enclosed _ _).supply hhead.1]
    exact hturn.threads (I := fun _ => True) trivial (fun _ _ _ => trivial)
      fun _ _ _ _ _ _ htuple => ⟨trivial, htuple.entersAll⟩

/-! ## Together and alone -/

/-- Whether a row that is inserted alone has a column for the field. -/
def hasColumn (row : List Assignment) (f : Field) : Bool := givesValue f row || f.hasComputedDefault

theorem insertedFields_only (hrow : row ∈ rows) :
    insertedFields m [row] = (insertedFields m rows).filter (hasColumn row) := by
  unfold insertedFields
  rw [List.filter_filter]
  refine List.filter_congr fun f _ => ?_
  rw [List.any_cons, List.any_nil, Bool.or_false, hasColumn]
  cases hgives : givesValue f row with
  | true => simp [List.any_eq_true.2 ⟨row, hrow, hgives⟩]
  | false => cases f.hasComputedDefault <;> simp

theorem givesValue_of_omitted (h : row.find? (·.field == f.name) = none) :
    givesValue f row = false :=
  List.any_eq_false.2 fun a ha => by
    have hne : ¬ (a.field == f.name) = true := List.find?_eq_none.1 h a ha
    simp [hne]

theorem omitted_of_givesValue (hauto : f.decl.autoIncrement = false)
    (h : givesValue f row = false) : row.find? (·.field == f.name) = none :=
  List.find?_eq_none.2 fun a ha => by simpa [hauto] using List.any_eq_false.1 h a ha

theorem LosesDefault.hasColumn_eq_false (h : LosesDefault m rows row f) :
    hasColumn row f = false := by
  have hdeclared := h.declared
  rw [hasColumn, givesValue_of_omitted h.omitted, Bool.false_or]
  unfold Field.hasServerDefault at hdeclared
  unfold Field.hasComputedDefault
  generalize f.decl.default = default at hdeclared
  rcases default with _ | ⟨sql⟩ | ⟨draw⟩
  · rfl
  · rfl
  · cases hdeclared

/-- A row enters under its own columns what it enters under those of all rows, but for the NULLs
that stand in the place of what it leaves out. -/
theorem EntersAll.agree {x y : Contents} (hm : m.fieldNames.Nodup) (hrow : row ∈ rows)
    (h : EntersAll d (insertedFields m rows) (row, x) s s₁)
    (h' : EntersAll d (insertedFields m [row]) (row, y) s s₂) :
    s₁ = s₂ ∧ ∀ f ∈ m.fields, (x f = y f ↔ ¬ LosesDefault m rows row f) := by
  obtain ⟨cells, hcolumns, rfl, hcells⟩ := h
  obtain ⟨cells', hcolumns', rfl, hcells'⟩ := h'
  rw [insertedFields_only hrow, ← hcolumns] at hcolumns'
  -- The cells of the row alone are those of the batch whose columns the row asks for: the others
  -- are NULL and draw nothing.
  obtain ⟨rfl, hsupply⟩ := hcells.filter hcells' hcolumns'
    (fun _ _ _ _ _ _ hx hy => Enters.unique hx hy) fun c _ hdrop t t' hc => by
      rw [hasColumn, Bool.or_eq_false_iff] at hdrop
      exact (Enters.eq_null (f := c.1) (z := c.2) hc hdrop.1 hdrop.2).2
  refine ⟨hsupply, fun f hf => ?_⟩
  have hnames : (cells.map fun c => c.1.name).Nodup := by
    have hsub : ((insertedFields m rows).map Field.name).Nodup :=
      hm.sublist (List.filter_sublist.map _)
    rw [← hcolumns, List.map_map] at hsub
    exact hsub
  have hinj : ∀ c ∈ cells, c.1.name = f.name → c.1 = f := fun c hc hname => by
    have hmem : c.1 ∈ insertedFields m rows := hcolumns ▸ List.mem_map_of_mem hc
    exact List.inj_on_of_nodup_map hm (List.mem_of_mem_filter hmem) hf hname
  by_cases hmem : f ∈ insertedFields m rows
  · have hcell := hmem
    rw [← hcolumns] at hcell
    obtain ⟨⟨g, z⟩, hz, rfl⟩ := List.mem_map.1 hcell
    rw [contents_of_mem hnames hz]
    by_cases hcolumn : hasColumn row g = true
    · have hnames' : ((cells.filter fun c => hasColumn row c.1).map fun c => c.1.name).Nodup :=
        hnames.sublist (List.filter_sublist.map _)
      rw [contents_of_mem hnames' (List.mem_filter.2 ⟨hz, hcolumn⟩)]
      exact iff_of_true rfl fun hloses => by simp [hloses.hasColumn_eq_false] at hcolumn
    -- The column is there for the sake of another row.
    · have hleft : contents (cells.filter fun c => hasColumn row c.1) g = g.leftOut :=
        contents_of_not_mem fun c hc hname => by
          obtain ⟨hc, hkept⟩ := List.mem_filter.1 hc
          rw [hinj c hc hname] at hkept
          exact hcolumn hkept
      rw [Bool.not_eq_true, hasColumn, Bool.or_eq_false_iff] at hcolumn
      obtain ⟨t, t', henters⟩ := hcells.exists_of_mem hz
      rw [hleft, (henters.eq_null hcolumn.1 hcolumn.2).1, Field.bound_null_eq_leftOut_iff]
      refine not_congr ⟨fun hdeclared => ?_, fun hloses => ⟨hloses.declared, hloses.notAssigned⟩⟩
      exact ⟨hdeclared.1, hdeclared.2, omitted_of_givesValue hdeclared.2 hcolumn.1, hmem⟩
  · have habsent : ∀ c ∈ cells, c.1.name ≠ f.name := fun c hc hname => by
      rw [← hcolumns, ← hinj c hc hname] at hmem
      exact hmem (List.mem_map_of_mem hc)
    rw [contents_of_not_mem habsent,
      contents_of_not_mem fun c hc => habsent c (List.mem_of_mem_filter hc)]
    exact iff_of_true rfl fun hloses => hmem hloses.column

end

/-! ## A row alone -/

namespace Fragment

variable {d : Dialect} {m : Model} {row : List Assignment} {rows : List (List Assignment)}
  {r r' : Rendering} {ps : List Piece}

/-- A cell does not depend on the place of its row. -/
theorem repeats_cell (k n : Nat) (f : Field) : Repeats (cell d m k row f) (cell d m n row f) := by
  unfold cell
  cases row.find? (·.field == f.name) with
  | some a => exact .anchored (Expr.anchored d [] (some f) a.value)
  | none =>
    dsimp only
    split
    · exact .drawn f
    · split
      · exact .anchored (.free _ rfl)
      · exact .refused _ _

/-- A field that the row gives no value draws nothing, so its cell can be missing. -/
theorem repeats_missing (n : Nat) {f : Field} (h : hasColumn row f = false) :
    Repeats (cell d m n row f) [] := by
  rw [hasColumn, Bool.or_eq_false_iff] at h
  unfold cell
  cases row.find? (·.field == f.name) with
  | some a => exact .words (Expr.anchored d [] (some f) a.value) (List.forall_mem_nil _)
  | none =>
    dsimp only
    rw [if_neg (by simp [h.2])]
    split
    · exact .words (.free _ rfl) (List.forall_mem_nil _)
    · exact .refused _ _

theorem isWord_names (ns : List String) : ∀ f ∈ names ns, f.isWord = true := by
  induction ns with
  | nil => exact List.forall_mem_nil _
  | cons n ns ih =>
    cases ns with
    | nil => simp [names, commas, separated, isWord]
    | cons k ns =>
      have hmore : names (n :: k :: ns) = identifier n :: text ", " :: names (k :: ns) := by
        simp [names, commas, separated, List.intercalate_cons_cons]
      rw [hmore]
      exact List.forall_mem_cons.2 ⟨rfl, List.forall_mem_cons.2 ⟨rfl, ih⟩⟩

/-- One row is put out as its cells, between words. -/
theorem insertedRows_only (hfields : ∀ a ∈ row, ∃ f, m.field? a.field = some f) :
    ∃ front back, (∀ f ∈ front, f.isWord = true) ∧ (∀ f ∈ back, f.isWord = true) ∧
      insertedRows d m [row] =
        front ++ commas ((insertedFields m [row]).map (cell d m 0 row)) ++ back := by
  obtain ⟨fs, hfs⟩ : ∃ fs, ([row].flatten.mapM fun a => m.field a.field) = .ok fs :=
    exists_mapM fun a ha => by
      obtain ⟨f, hf⟩ := hfields a (by simpa using ha)
      exact ⟨f, by rw [Model.field, hf]⟩
  unfold insertedRows
  rw [hfs]
  cases insertedFields m [row] with
  | nil =>
    refine ⟨defaultRow d, [], ?_, List.forall_mem_nil _, by simp [commas, separated]⟩
    unfold defaultRow
    split <;> simp [isWord]
  | cons f fs =>
    refine ⟨enclosed " (" (names ((f :: fs).map Field.column)) ") VALUES " ++ [text "("],
      [text ")"], ?_, by simp [isWord], ?_⟩
    · simp only [enclosed, List.forall_mem_append, List.forall_mem_cons]
      exact ⟨⟨⟨rfl, isWord_names _⟩, rfl, List.forall_mem_nil _⟩, rfl, List.forall_mem_nil _⟩
    · simp [commas, separated, parenthesized, enclosed]

/-- A row alone can take the place of its tuple among those of all rows. -/
theorem repeats_only (hfields : ∀ a ∈ row, ∃ f, m.field? a.field = some f) (hrow : row ∈ rows)
    (n : Nat) :
    Repeats (parenthesized (commas ((insertedFields m rows).map (cell d m n row))))
      (insertedRows d m [row]) := by
  obtain ⟨front, back, hfront, hback, hone⟩ := insertedRows_only (d := d) hfields
  have hself (k : Nat) (columns : List Field) :
      ∀ fs ∈ columns.map (cell d m k row), Repeats fs fs := fun fs hfs => by
    obtain ⟨f, -, rfl⟩ := List.mem_map.1 hfs
    exact repeats_cell k k f
  have hcells : Repeats (commas ((insertedFields m rows).map (cell d m n row)))
      (commas (((insertedFields m rows).filter (hasColumn row)).map (cell d m 0 row))) :=
    ((Repeats.commas (hself n _)).1.trans (.filter (fun f _ _ => repeats_cell n 0 f)
      fun f _ hmissing => repeats_missing n hmissing)).trans (Repeats.commas (hself 0 _)).2
  have hopening : Repeats [text "("] front := .words (.free _ rfl) hfront
  have hclosing : Repeats [text ")"] back := .words (.free _ rfl) hback
  rw [hone, insertedFields_only hrow]
  exact (hopening.append hcells).append hclosing

/-- A row alone runs wherever an insert into the model is under way, and takes the supply from `s`
to `s'`. -/
def RunsAlone (d : Dialect) (into : ModelSource) (row : List Assignment) (s s' : Supply) : Prop :=
  ∀ ρ : Rendering, ρ.supply = s → ρ.proposal? = some into →
    ∃ ρ', Runs (insertedRows d into.model [row]) ρ ρ' ∧ ρ'.supply = s'

/-- Where rows are put out together, each of them can be put out alone, and they draw the same. -/
theorem threads_runsAlone {into : ModelSource} (h : Puts (insertedRows d into.model rows) r ps r')
    (hsome : insertedFields into.model rows ≠ []) (hproposal : r.proposal? = some into) :
    Threads (RunsAlone d into) rows r.supply r'.supply := by
  obtain ⟨hfields, ⟨hnone, -⟩ | ⟨-, head, tuples, m', hhead, hturn, -⟩⟩ := puts_insertedRows h
  · exact absurd hnone hsome
  · have hm' : m'.proposal? = some into := hhead.1.extends.proposal?_eq.trans hproposal
    have hthreads : Threads (fun q => RunsAlone d into q.1) rows.zipIdx m'.supply r'.supply := by
      refine hturn.threads (I := fun r => r.proposal? = some into) hm' (fun _ _ hr => hr) ?_
      intro q hq r₁ qs r₂ hr₁ hputs
      have hrow : q.1 ∈ rows := List.fst_mem_of_mem_zipIdx hq
      exact ⟨hputs.1.extends.proposal?_eq.trans hr₁, fun ρ hs hp =>
        repeats_only (hfields q.1 hrow) hrow q.2 hputs.1 hs (hp.trans hr₁.symm)⟩
    have hrows := hthreads.map
    rw [List.zipIdx_map_fst] at hrows
    rw [← ((Anchored.names _).enclosed _ _).supply hhead.1]
    exact hrows

end Fragment

/-! ## Compiled inserts -/

namespace Insert

variable {d : Dialect} {i : Insert} {rows : List (List Assignment)} {row : List Assignment}
  {s s' t t' : Supply} {r : Rendering} {ps : List Piece}

theorem anchored_ctes (d : Dialect) (i : Insert) :
    Anchored [] (ofCtes i.ctes (Cte.listFragments d i.ctes)) :=
  .ofCtes i.ctes (Cte.listAnchored d [] i.ctes)

theorem anchored_back (d : Dialect) (i : Insert) :
    Anchored [] ((i.onConflict.map (OnConflict.fragments d i.into.model)).getD [] ++
      returningFragments d i.returning) :=
  (Anchored.conflictClause i.into.model i.onConflict).append (.returning i.returning)

/-- What surrounds the rows of an insert can surround one of them. -/
theorem compile_only (h : Puts (i.fragments d) (.start s) ps r)
    (hrow : RunsAlone d i.into row t t') :
    ∃ qs, (Statement.insert (i.only row)).compile d t = (.ok (.ofPieces d qs), t') := by
  obtain ⟨ctes, verb, source, clause, returned, r₁, r₂, r₃, r₄, hctes, hverb, hsource, hclause,
    hreturned, -, -⟩ := parts_of_puts h
  have hentered (r : Rendering) : (r.enter (targetScope i.into (some i.into))).proposal? =
      some i.into := rfl
  obtain ⟨ρ₁, hρ₁, hs₁⟩ := (anchored_ctes d i).runs hctes.1 (ρ := .start t) rfl (.nil _)
  have hwords : ∀ f ∈ [text verb, text " ", identifier i.into.model.table], f.isWord = true := by
    simp [isWord]
  obtain ⟨ρ₂, hρ₂, hs₂⟩ := runs_words hwords (ρ₁.enter (targetScope i.into (some i.into)))
  have hproposal₂ : ρ₂.proposal? = some i.into := hρ₂.extends.proposal?_eq.trans (hentered ρ₁)
  obtain ⟨ρ₃, hρ₃, hs₃⟩ := hrow ρ₂ (hs₂.trans hs₁) hproposal₂
  have hproposal₃ : ρ₃.proposal? = r₂.proposal? := by
    rw [hρ₃.extends.proposal?_eq, hproposal₂, hsource.1.extends.proposal?_eq,
      (Extends.putAll _ _).proposal?_eq, hentered]
  obtain ⟨ρ₄, hρ₄, hs₄⟩ := (anchored_back d i).runs (runs_append.2 ⟨r₃, hclause.1, hreturned.1⟩)
    hproposal₃ (.nil _)
  have hruns : Runs ((Statement.insert (i.only row)).fragments d) (.start t) ρ₄.leave := by
    have hinto : Runs [insertVerb d i.onConflict, text " ", identifier i.into.model.table]
        (ρ₁.enter (targetScope i.into (some i.into))) ρ₂ := by rwa [hverb]
    have hbody := runs_append.2 ⟨ρ₃, runs_append.2 ⟨ρ₂, hinto, hρ₃⟩, hρ₄⟩
    rw [← List.append_assoc] at hbody
    exact runs_append.2 ⟨ρ₁, hρ₁, runs_nested.2 ⟨ρ₄, hbody, rfl⟩⟩
  obtain ⟨qs, hqs⟩ := hruns.puts
  exact ⟨qs, by rw [Statement.compile_of_puts hqs, leave_supply, hs₄, hs₃]⟩

theorem encloses_of_puts (hsource : i.source = .rows rows)
    (h : Puts (i.fragments d) (.start s) ps r) :
    i.Encloses d (Puts (insertedRows d i.into.model rows)) s ps r.supply := by
  obtain ⟨ctes, verb, source, clause, returned, r₁, r₂, r₃, r₄, hctes, hverb, htext, hclause,
    hreturned, rfl, rfl⟩ := parts_of_puts h
  rw [hsource] at htext
  exact ⟨ctes, verb, source, clause ++ returned, r₁, r₂, r₄, hctes, hverb, htext,
    puts_append.2 ⟨r₃, clause, returned, hclause, hreturned, rfl⟩, by simp, (leave_supply _).symm⟩

namespace Encloses

variable {R : Rendering → List Piece → Rendering → Prop}

/-- What is found in the text of the rows is found in that of the insert. -/
theorem choose {α : Type} {P : α → Prop} {S : α → Rendering → List Piece → Rendering → Prop}
    (h : i.Encloses d R s ps s') (hRS : ∀ r ps r', R r ps r' → ∃ x, P x ∧ S x r ps r') :
    ∃ x, P x ∧ i.Encloses d (S x) s ps s' := by
  obtain ⟨ctes, verb, text, back, r₁, r₂, r₃, hctes, hverb, htext, hback⟩ := h
  obtain ⟨x, hP, hx⟩ := hRS _ _ _ htext
  exact ⟨x, hP, ctes, verb, text, back, r₁, r₂, r₃, hctes, hverb, hx, hback⟩

/-- Only the rows of an insert draw on the supply. -/
theorem inner (h : i.Encloses d R s ps s') :
    ∃ r text r', R r text r' ∧ r.supply = s ∧ r'.supply = s' ∧ r.proposal? = some i.into := by
  obtain ⟨ctes, verb, text, back, r₁, r₂, r₃, hctes, -, htext, hback, -, rfl⟩ := h
  refine ⟨_, text, r₂, htext, ?_, ((anchored_back d i).supply hback.1).symm, ?_⟩
  · rw [putAll_supply]
    exact (anchored_ctes d i).supply hctes.1
  · exact (Extends.putAll _ _).proposal?_eq.trans rfl

theorem threads {columns : List Field} {held : List (List Assignment × Contents)}
    (h : i.Encloses d (RowsHeld d columns held) s ps s') :
    Threads (EntersAll d columns) held s s' := by
  obtain ⟨r, text, r', htext, rfl, rfl, -⟩ := h.inner
  exact htext.threads

end Encloses

/-- The text of an insert says what its rows hold. -/
theorem encloses_of_compile {out : Rendered} (hsource : i.source = .rows rows)
    (hrows : insertedFields i.into.model rows ≠ [] ∨ ∃ row, rows = [row])
    (h : (Statement.insert i).compile d s = (.ok out, s')) :
    ∃ ps held, out = .ofPieces d ps ∧ held.map Prod.fst = rows ∧
      i.Encloses d (RowsHeld d (insertedFields i.into.model rows) held) s ps s' := by
  obtain ⟨ps, r, hputs, rfl, rfl⟩ := Statement.pieces_of_compile h
  obtain ⟨held, hheld, hencloses⟩ := (encloses_of_puts hsource hputs).choose
    fun r ps r' htext => rowsHeld_of_puts htext hrows
  exact ⟨ps, held, rfl, hheld, hencloses⟩

theorem alone_of_compile
    (h : (Statement.insert (i.only row)).compile d s = (.ok (.ofPieces d ps), s')) :
    ∃ x, i.Alone d (row, x) s s' := by
  obtain ⟨qs, held, hqs, hheld, hencloses⟩ :=
    encloses_of_compile (i := i.only row) rfl (.inr ⟨row, rfl⟩) h
  obtain ⟨p, rest, rfl, rfl, hrest⟩ := List.map_eq_cons_iff.1 hheld
  rw [List.map_eq_nil_iff.1 hrest] at hencloses
  rw [hqs] at h
  exact ⟨p.2, qs, h, hencloses⟩

theorem Alone.entersAll {held : List Assignment × Contents} (h : i.Alone d held s s') :
    EntersAll d (insertedFields i.into.model [held.1]) held s s' := by
  obtain ⟨ps, -, hencloses⟩ := h
  cases hencloses.threads with
  | cons hentersAll hrest =>
    cases hrest with
    | nil _ => exact hentersAll

/-- Every row of an insert that compiles can be inserted alone, one after another. -/
theorem exists_alone {out : Rendered} (hsource : i.source = .rows rows)
    (hcolumns : insertedFields i.into.model rows ≠ [])
    (h : (Statement.insert i).compile d s = (.ok out, s')) :
    ∃ alone : List (List Assignment × Contents),
      alone.map Prod.fst = rows ∧ Threads (i.Alone d) alone s s' := by
  obtain ⟨ps, r, hputs, -, rfl⟩ := Statement.pieces_of_compile h
  obtain ⟨r₁, text, r₂, htext, rfl, hsupply, hproposal⟩ := (encloses_of_puts hsource hputs).inner
  have hrows := threads_runsAlone htext hcolumns hproposal
  rw [hsupply] at hrows
  refine hrows.exists_paired fun row t t' hrow => ?_
  obtain ⟨qs, hqs⟩ := compile_only hputs hrow
  exact alone_of_compile hqs

/-- What the texts say of rows together and of each of them alone. -/
theorem Encloses.agree {batch alone : List (List Assignment × Contents)}
    (hm : i.into.model.fieldNames.Nodup) (hbatch : batch.map Prod.fst = rows)
    (halone : alone.map Prod.fst = rows)
    (h : i.Encloses d (RowsHeld d (insertedFields i.into.model rows) batch) s ps s')
    (hone : Threads (i.Alone d) alone s t) :
    List.Forall₂ (fun p q => p.1 = q.1 ∧ ∀ f ∈ i.into.model.fields,
      (p.2 f = q.2 f ↔ ¬ LosesDefault i.into.model rows p.1 f)) batch alone := by
  have hstep : ∀ p ∈ batch, ∀ y s s₁ s₂,
      EntersAll d (insertedFields i.into.model rows) p s s₁ → i.Alone d (p.1, y) s s₂ →
        s₁ = s₂ ∧ ∀ f ∈ i.into.model.fields,
          (p.2 f = y f ↔ ¬ LosesDefault i.into.model rows p.1 f) := by
    intro p hp y s s₁ s₂ htogether hapart
    have hrow : p.1 ∈ rows := hbatch ▸ List.mem_map_of_mem hp
    exact EntersAll.agree hm hrow htogether hapart.entersAll
  exact (h.threads.paired (P := fun row x y => ∀ f ∈ i.into.model.fields,
    (x f = y f ↔ ¬ LosesDefault i.into.model rows row f)) hone (hbatch.trans halone.symm) hstep).2

/-- Rows that are inserted together hold in every field what they hold when they are inserted one
after another, unless the row leaves the field to its default in the database while another row
gives it a value: then NULL is bound for it. -/
theorem batch_agrees_iff (i : Insert) (rows : List (List Assignment))
    (hsource : i.source = .rows rows) (hm : i.into.model.fieldNames.Nodup)
    (hcolumns : insertedFields i.into.model rows ≠ [])
    (d : Dialect) (s s' : Supply) (r : Rendered)
    (h : (Statement.insert i).compile d s = (.ok r, s')) :
    ∃ ps batch alone, r = .ofPieces d ps ∧ batch.map Prod.fst = rows ∧
      i.Encloses d (RowsHeld d (insertedFields i.into.model rows) batch) s ps s' ∧
      Threads (i.Alone d) alone s s' ∧
      List.Forall₂ (fun p q => p.1 = q.1 ∧ ∀ f ∈ i.into.model.fields,
        (p.2 f = q.2 f ↔ ¬ LosesDefault i.into.model rows p.1 f)) batch alone := by
  obtain ⟨ps, batch, hps, hbatch, hencloses⟩ := encloses_of_compile hsource (.inl hcolumns) h
  obtain ⟨alone, halone, hone⟩ := exists_alone hsource hcolumns h
  exact ⟨ps, batch, alone, hps, hbatch, hencloses, hone, hencloses.agree hm hbatch halone hone⟩

end Insert

namespace Sample

def letter : Model where
  name := "Letter"
  table := "letters"
  fields := [⟨0, "id", "Letter", .autoId⟩, ⟨1, "body", "Letter", { name := "body", type := .text }⟩,
    ⟨2, "state", "Letter",
      { name := "state", type := .text, nullable := true, default := some (.server "'new'") }⟩,
    ⟨3, "stamp", "Letter",
      { name := "stamp", type := .bigInt, default := some (.computed stamp) }⟩]
  primaryKey := .single 0
  foreignKeys := []
  indexes := []
  reverse := []

def post (rows : List (List Assignment)) : Insert :=
  { Insert.of ⟨letter, none⟩ with source := .rows rows }

/-- One letter with a key, and one without. -/
def keyedRows : List (List Assignment) :=
  [[⟨"id", .literal (.bigInt 3)⟩, ⟨"body", .literal (.text "a")⟩], [⟨"body", .literal (.text "b")⟩]]

def keyedPieces : List Piece :=
  [.text "INSERT INTO", .text " ", .name "letters", .text " (", .name "id", .text ", ",
    .name "body", .text ", ", .name "stamp", .text ") VALUES ", .text "(", .param (.bigInt 3),
    .text ", ", .param (.text "a"), .text ", ", .param (.bigInt 7), .text ")", .text ", ",
    .text "(", .param .null, .text ", ", .param (.text "b"), .text ", ", .param (.bigInt 8),
    .text ")"]

theorem keyed_agree : ∃ ps batch alone,
    Rendered.ofPieces .mysql keyedPieces = .ofPieces .mysql ps ∧ batch.map Prod.fst = keyedRows ∧
      (post keyedRows).Encloses .mysql
        (RowsHeld .mysql (insertedFields letter keyedRows) batch) ⟨7⟩ ps ⟨9⟩ ∧
      Threads ((post keyedRows).Alone .mysql) alone ⟨7⟩ ⟨9⟩ ∧
      List.Forall₂ (fun p q => p.1 = q.1 ∧ ∀ f ∈ letter.fields, p.2 f = q.2 f) batch alone := by
  have hcompile : (Statement.insert (post keyedRows)).compile .mysql ⟨7⟩ =
      (.ok (.ofPieces .mysql keyedPieces), ⟨9⟩) := by
    with_unfolding_all rfl
  have hcolumns : insertedFields letter keyedRows =
      [letter.fields[0], letter.fields[1], letter.fields[3]] := by
    with_unfolding_all rfl
  have hsome : insertedFields letter keyedRows ≠ [] := by
    rw [hcolumns]
    exact List.cons_ne_nil _ _
  have hnone : ∀ f ∈ insertedFields letter keyedRows, f.hasServerDefault = false := by
    rw [hcolumns]
    simp only [List.forall_mem_cons]
    exact ⟨rfl, rfl, rfl, List.forall_mem_nil _⟩
  obtain ⟨ps, batch, alone, hps, hbatch, hencloses, halone, hagree⟩ :=
    Insert.batch_agrees_iff (post keyedRows) keyedRows rfl (by decide) hsome .mysql ⟨7⟩ ⟨9⟩ _
      hcompile
  refine ⟨ps, batch, alone, hps, hbatch, hencloses, halone, hagree.imp fun p q hpq => ?_⟩
  refine ⟨hpq.1, fun f hf => (hpq.2 f hf).2 fun hloses => ?_⟩
  cases hloses.declared.symm.trans (hnone f hloses.column)

/-- Only the first letter has a state. -/
def statedRows : List (List Assignment) :=
  [[⟨"body", .literal (.text "a")⟩, ⟨"state", .literal (.text "sent")⟩],
    [⟨"body", .literal (.text "b")⟩]]

def statedPieces : List Piece :=
  [.text "INSERT INTO", .text " ", .name "letters", .text " (", .name "body", .text ", ",
    .name "state", .text ", ", .name "stamp", .text ") VALUES ", .text "(", .param (.text "a"),
    .text ", ", .param (.text "sent"), .text ", ", .param (.bigInt 7), .text ")", .text ", ",
    .text "(", .param (.text "b"), .text ", ", .param .null, .text ", ", .param (.bigInt 8),
    .text ")"]

/-- The second one gets NULL, where it would get its default in the database if it came alone. -/
theorem stated_default_lost :
    (Statement.insert (post statedRows)).compile .postgres ⟨7⟩ =
        (.ok (.ofPieces .postgres statedPieces), ⟨9⟩) ∧
      ∃ ps batch alone, batch.map Prod.fst = statedRows ∧ alone.map Prod.fst = statedRows ∧
        (post statedRows).Encloses .postgres
          (RowsHeld .postgres (insertedFields letter statedRows) batch) ⟨7⟩ ps ⟨9⟩ ∧
        Threads ((post statedRows).Alone .postgres) alone ⟨7⟩ ⟨9⟩ ∧
        ¬ List.Forall₂ (fun p q => ∀ f ∈ letter.fields, p.2 f = q.2 f) batch alone := by
  have hcompile : (Statement.insert (post statedRows)).compile .postgres ⟨7⟩ =
      (.ok (.ofPieces .postgres statedPieces), ⟨9⟩) := by
    with_unfolding_all rfl
  have hcolumns : insertedFields letter statedRows =
      [letter.fields[1], letter.fields[2], letter.fields[3]] := by
    with_unfolding_all rfl
  have hsome : insertedFields letter statedRows ≠ [] := by
    rw [hcolumns]
    exact List.cons_ne_nil _ _
  have hloses : LosesDefault letter statedRows [⟨"body", .literal (.text "b")⟩] letter.fields[2] :=
    ⟨rfl, rfl, rfl, by rw [hcolumns]; exact List.mem_cons_of_mem _ (List.mem_cons_self ..)⟩
  have hstate : letter.fields[2] ∈ letter.fields := List.getElem_mem _
  obtain ⟨ps, batch, -, hbatch, hencloses⟩ :=
    Insert.encloses_of_compile (i := post statedRows) rfl (.inl hsome) hcompile
  obtain ⟨alone, halone, hone⟩ := Insert.exists_alone rfl hsome hcompile
  refine ⟨hcompile, ps, batch, alone, hbatch, halone, hencloses, hone, fun hall => ?_⟩
  have hagree := hencloses.agree (by decide) hbatch halone hone
  obtain ⟨p, batch, rfl, -, hbatch⟩ := List.map_eq_cons_iff.1 hbatch
  obtain ⟨q, batch, rfl, hrow, -⟩ := List.map_eq_cons_iff.1 hbatch
  cases hall with
  | cons _ hall =>
    cases hall with
    | cons hsame _ =>
      cases hagree with
      | cons _ hagree =>
        cases hagree with
        | cons hiff _ => exact (hiff.2 _ hstate).1 (hsame _ hstate) (hrow ▸ hloses)

end Sample

end SqlMapper
