import SqlMapper.Proofs.Statement.Assigned
import SqlMapper.Proofs.Statement.Spots

/-!
# SqlMapper.Proofs.Statement.Regions

The parts of statements, and the regions in which they stand.

* `Region`: outside of the scope of an insert, or in it, and then either in what its conflict clause
  updates or elsewhere.
* `Statement.block`: a statement from the parts that stand directly in it, each with its region.
* `Statement.Holds`: the parts at any depth. `Statement.Holds.spot`: their settings are spots, and the
  proposal around them is the target of the insert in whose scope they are.
-/

namespace SqlMapper

open Fragment

inductive Region
  | outside
  | inside (updating : Bool)

/-! ## What changes rows -/

def Assignment.block (d : Dialect) (m : Model) (a : Assignment) : Block Part :=
  match m.field a.field with
  | .ok f =>
    ((Part.operand (some f) a.value).alone d).within ([identifier f.column, text " = "] ++ ·)
  | .error e => .plain [refuse e]

def returningBlock (d : Dialect) : List Expr → Block Part
  | [] => .plain []
  | es =>
    if d.returning then
      (Block.commas (Expr.projectionBlocks d es)).within fun fs => [text " RETURNING ", unqualified fs]
    else .plain [refuse (.compilation (.unsupported d.name .returning))]

def sourcesBlock (d : Dialect) (lead : String) (ss : List Source) : Block Part :=
  .listClause lead (ss.map fun s => (Part.source s).alone d)

def cellBlock (d : Dialect) (m : Model) (row : Nat) (assignments : List Assignment) (f : Field) :
    Block Part :=
  match assignments.find? (·.field == f.name) with
  | some a => (Part.operand (some f) a.value).alone d
  | none => .plain (cell d m row assignments f)

def insertedRowsBlock (d : Dialect) (m : Model) (rows : List (List Assignment)) : Block Part :=
  match rows.flatten.mapM fun a => m.field a.field with
  | .error e => .plain [refuse e]
  | .ok _ =>
    match insertedFields m rows with
    | [] => .plain (defaultRow d)
    | fields =>
      .plain (enclosed " (" (names (fields.map Field.column)) ") VALUES ") ++
        .commas (rows.mapIdx fun i row =>
          (Block.commas (fields.map (cellBlock d m i row))).within parenthesized)

def InsertSource.block (d : Dialect) (m : Model) : InsertSource → Block Part
  | .rows rs => insertedRowsBlock d m rs
  | .query fields q =>
    .plain (columnsOf m fields fun columns => enclosed " (" (names columns) ") ") ++
      (Part.query q).alone d
  | .defaults => .plain (defaultRow d)

/-! ## Conflict clauses -/

def conflictAssignmentsBlock (d : Dialect) (m : Model) (c : OnConflict) : Block Part :=
  match c.written with
  | [] => .plain [refuse (.query .emptyConflictUpdate)]
  | as => .commas (as.map (Assignment.block d m))

def conflictTargetBlock (d : Dialect) (m : Model) (c : OnConflict) : Block Part :=
  match c.target with
  | some (.fields fields) =>
    .plain (columnsOf m fields fun columns => enclosed " (" (names columns) ")") ++
      match c.targetFilter with
      | some filter =>
        ((Part.condition filter).alone d).within fun fs => [text " WHERE ", unqualified fs]
      | none => .plain []
  | _ => .plain (conflictTarget d m c)

/-- Parts with a mark that tells whether the conflict clause updates by them. -/
def Fragment.Block.mark (updating : Bool) (b : Block Part) : Block (Bool × Part) :=
  b.label (updating, ·)

def duplicateKeyBlock (d : Dialect) (m : Model) (c : OnConflict) : Block (Bool × Part) :=
  if c.target.isNone && c.targetFilter.isNone && c.filter.isNone then
    if c.action = .update then
      (.plain [text " ON DUPLICATE KEY UPDATE "] ++ conflictAssignmentsBlock d m c : Block Part).mark true
    else .plain []
  else .plain [refuse (.compilation (.unsupported d.name .conflictTargets))]

def onConflictBlock (d : Dialect) (m : Model) (c : OnConflict) : Block (Bool × Part) :=
  (.plain [text " ON CONFLICT"] ++ conflictTargetBlock d m c : Block Part).mark false ++
    if c.action = .update then
      (.plain [text " DO UPDATE SET "] ++ conflictAssignmentsBlock d m c ++
        Condition.clauseBlock d " WHERE " c.filter : Block Part).mark true
    else .plain [text " DO NOTHING"]

def OnConflict.block (d : Dialect) (m : Model) (c : OnConflict) : Block (Bool × Part) :=
  match d.conflict, c.action with
  | .mysql, _ => duplicateKeyBlock d m c
  | _, .replace => .plain []
  | .sqlite, .ignore => if c.target.isNone then .plain [] else onConflictBlock d m c
  | _, _ => onConflictBlock d m c

/-! ## Statements -/

/-- What stands in the scope of an insert. -/
def Insert.bodyBlock (d : Dialect) (i : Insert) : Block (Bool × Part) :=
  let m := i.into.model
  (.plain [insertVerb d i.onConflict, text " ", identifier m.table] ++ i.source.block d m :
      Block Part).mark false ++
    (i.onConflict.map (OnConflict.block d m)).getD (.plain []) ++
    (returningBlock d i.returning).mark false

def Insert.block (d : Dialect) (i : Insert) : Block (Region × Part) :=
  (Cte.blocks d i.ctes).label (.outside, ·) ++
    ((i.bodyBlock d).within fun fs =>
      [nested { mutationScope i.into with proposal := some i.into } fs]).label
        fun x => (.inside x.1, x.2)

def Update.bodyBlock (d : Dialect) (u : Update) : Block Part :=
  let m := u.table.model
  match u.assignments with
  | [] => .plain [refuse (.query (.nothingSet m.name))]
  | as =>
    if u.sources.isEmpty || d.updateFrom then
      .plain (u.sources.map (fun s => enlist s.origin) ++
          [text "UPDATE ", identifier m.table, text " SET "]) ++
        .commas (as.map (Assignment.block d m)) ++ sourcesBlock d " FROM " u.sources ++
        Condition.clauseBlock d " WHERE " u.filter ++ returningBlock d u.returning
    else .plain [refuse (.compilation (.unsupported d.name .updateFrom))]

def Update.block (d : Dialect) (u : Update) : Block Part :=
  Cte.blocks d u.ctes ++ (u.bodyBlock d).within fun fs => [nested (mutationScope u.table) fs]

def Delete.bodyBlock (d : Dialect) (x : Delete) : Block Part :=
  if x.sources.isEmpty || d.deleteUsing then
    .plain (x.sources.map (fun s => enlist s.origin) ++
        [text "DELETE FROM ", identifier x.table.model.table]) ++
      sourcesBlock d " USING " x.sources ++ Condition.clauseBlock d " WHERE " x.filter ++
      returningBlock d x.returning
  else .plain [refuse (.compilation (.unsupported d.name .deleteUsing))]

def Delete.block (d : Dialect) (x : Delete) : Block Part :=
  Cte.blocks d x.ctes ++ (x.bodyBlock d).within fun fs => [nested (mutationScope x.table) fs]

namespace Statement

def block (d : Dialect) : Statement → Block (Region × Part)
  | query q => ((Part.query q).alone d).label (.outside, ·)
  | insert i => i.block d
  | update u => (u.block d).label (.outside, ·)
  | delete x => (x.block d).label (.outside, ·)

/-- The target of an insert, whose rows are proposed. -/
def proposal? : Statement → Option ModelSource
  | insert i => some i.into
  | _ => none

/-- The statement has the part in the region, at any depth. -/
def Holds (d : Dialect) (st : Statement) (region : Region) (C : Setting) (t : Part) : Prop :=
  ∃ D p E, (D, (region, p)) ∈ (st.block d).parts ∧ p.Holds d E t ∧ C = D ∘ E

end Statement

/-- The proposal that is known in a region. -/
def Region.proposal (st : Statement) : Region → Option ModelSource
  | outside => none
  | inside _ => st.proposal?

/-! ## Blocks have the fragments of statements -/

section Fragments

variable (d : Dialect)

theorem Assignment.fragments_block (m : Model) (a : Assignment) :
    (a.block d m).fragments = a.fragments d m := by
  unfold block fragments
  cases m.field a.field <;> rfl

theorem fragments_returningBlock (es : List Expr) :
    (returningBlock d es).fragments = returningFragments d es := by
  unfold returningBlock returningFragments requiring
  cases es with
  | nil => rfl
  | cons e es =>
    dsimp only
    split
    · rw [Block.fragments_within, Block.fragments_commas, Expr.fragments_projectionBlocks]
    · rfl

theorem fragments_sourcesBlock (lead : String) (ss : List Source) :
    (sourcesBlock d lead ss).fragments = sourcesFragments d lead ss := by
  rw [sourcesBlock, sourcesFragments, Block.fragments_listClause, List.map_map]
  rfl

theorem fragments_cellBlock (m : Model) (row : Nat) (as : List Assignment) (f : Field) :
    (cellBlock d m row as f).fragments = cell d m row as f := by
  unfold cellBlock
  cases h : as.find? (·.field == f.name) with
  | none => rfl
  | some a =>
    unfold cell
    rw [h]
    rfl

theorem fragments_insertedRowsBlock (m : Model) (rows : List (List Assignment)) :
    (insertedRowsBlock d m rows).fragments = insertedRows d m rows := by
  unfold insertedRowsBlock insertedRows
  cases rows.flatten.mapM fun a => m.field a.field with
  | error e => rfl
  | ok fs =>
    cases insertedFields m rows with
    | nil => rfl
    | cons f fs =>
      simp only [Block.fragments_append, Block.fragments_plain, Block.fragments_commas,
        List.mapIdx_eq_zipIdx_map, Block.fragments_within, List.map_map, Function.comp_def,
        fragments_cellBlock]

theorem InsertSource.fragments_block (m : Model) (s : InsertSource) :
    (s.block d m).fragments = s.fragments d m := by
  cases s with
  | rows rs => exact fragments_insertedRowsBlock d m rs
  | query fields q => rfl
  | defaults => rfl

theorem fragments_conflictAssignmentsBlock (m : Model) (c : OnConflict) :
    (conflictAssignmentsBlock d m c).fragments = conflictAssignments d m c := by
  rw [OnConflict.conflictAssignments_eq, conflictAssignmentsBlock]
  cases c.written with
  | nil => rfl
  | cons a as =>
    simp only [Block.fragments_commas, List.map_map, List.map_cons, Function.comp_def,
      Assignment.fragments_block]

theorem fragments_conflictTargetBlock (m : Model) (c : OnConflict) :
    (conflictTargetBlock d m c).fragments = conflictTarget d m c := by
  unfold conflictTargetBlock
  cases h : c.target with
  | none => rfl
  | some t =>
    cases t with
    | constraint n => rfl
    | fields fields =>
      unfold conflictTarget
      rw [h]
      cases c.targetFilter <;> rfl

theorem OnConflict.fragments_block (m : Model) (c : OnConflict) :
    (c.block d m).fragments = c.fragments d m := by
  have hduplicate : (duplicateKeyBlock d m c).fragments = duplicateKeyClause d m c := by
    unfold duplicateKeyBlock duplicateKeyClause requiring
    split
    · split
      · simp only [Block.mark, Block.fragments_label, Block.fragments_append, Block.fragments_plain,
          fragments_conflictAssignmentsBlock, List.singleton_append]
      · rfl
    · rfl
  have hclause : (onConflictBlock d m c).fragments = onConflictClause d m c := by
    unfold onConflictBlock onConflictClause
    split
    · simp [Block.mark, fragments_conflictTargetBlock, fragments_conflictAssignmentsBlock,
        Condition.fragments_clauseBlock]
    · simp [Block.mark, fragments_conflictTargetBlock]
  unfold block fragments
  cases d.conflict with
  | mysql => exact hduplicate
  | sqlite =>
    cases c.action with
    | ignore =>
      dsimp only
      split
      · rfl
      · exact hclause
    | replace => rfl
    | update => exact hclause
  | postgres =>
    cases c.action with
    | replace => rfl
    | ignore | update => exact hclause

theorem Insert.fragments_block (i : Insert) : (i.block d).fragments = i.fragments d := by
  have hconflict : ((i.onConflict.map (OnConflict.block d i.into.model)).getD (.plain [])).fragments =
      (i.onConflict.map (OnConflict.fragments d i.into.model)).getD [] := by
    cases i.onConflict with
    | none => rfl
    | some c => exact OnConflict.fragments_block d i.into.model c
  simp only [block, bodyBlock, fragments, Block.mark, Block.fragments_append, Block.fragments_label,
    Block.fragments_within, Block.fragments_plain, Cte.fragments_blocks,
    InsertSource.fragments_block, hconflict, fragments_returningBlock]

theorem Update.fragments_block (u : Update) : (u.block d).fragments = u.fragments d := by
  have hbody : (u.bodyBlock d).fragments = match u.assignments with
      | [] => [refuse (.query (.nothingSet u.table.model.name))]
      | as =>
        requiring (u.sources.isEmpty || d.updateFrom) (.unsupported d.name .updateFrom)
          (u.sources.map (fun s => enlist s.origin) ++
            [text "UPDATE ", identifier u.table.model.table, text " SET "] ++
            commas (as.map (Assignment.fragments d u.table.model)) ++
            sourcesFragments d " FROM " u.sources ++
            Condition.clauseFragments d " WHERE " u.filter ++ returningFragments d u.returning) := by
    unfold bodyBlock requiring
    cases u.assignments with
    | nil => rfl
    | cons a as =>
      dsimp only
      split
      · simp only [Block.fragments_append, Block.fragments_plain, Block.fragments_commas,
          List.map_map, Function.comp_def, Assignment.fragments_block, fragments_sourcesBlock,
          Condition.fragments_clauseBlock, fragments_returningBlock]
      · rfl
  rw [block, Block.fragments_append, Cte.fragments_blocks, Block.fragments_within, hbody]
  rfl

theorem Delete.fragments_block (x : Delete) : (x.block d).fragments = x.fragments d := by
  unfold block bodyBlock fragments requiring
  rw [Block.fragments_append, Cte.fragments_blocks, Block.fragments_within]
  split
  · simp only [Block.fragments_append, Block.fragments_plain, fragments_sourcesBlock,
      Condition.fragments_clauseBlock, fragments_returningBlock]
  · rfl

theorem Statement.fragments_block (st : Statement) : (st.block d).fragments = st.fragments d := by
  cases st with
  | query q => rfl
  | insert i => exact Insert.fragments_block d i
  | update u => exact Update.fragments_block d u
  | delete x => exact Delete.fragments_block d x

end Fragments

/-! ## Blocks are sound -/

section Sound

variable (d : Dialect) (m : Model)

theorem Assignment.sound_block (a : Assignment) : Part.Sound d (a.block d m) := by
  unfold block
  split
  · exact (Part.sound_alone d _).within (IsSpot.id.lead _)
  · exact .plain _

theorem Assignment.sound_blocks (as : List Assignment) :
    Part.Sound d (.commas (as.map (Assignment.block d m))) := by
  refine .commas fun b hb => ?_
  obtain ⟨a, -, rfl⟩ := List.mem_map.1 hb
  exact sound_block d m a

theorem sound_returningBlock (es : List Expr) : Part.Sound d (returningBlock d es) := by
  unfold returningBlock
  split
  · exact .plain _
  · split
    · exact (Block.Sound.commas (Expr.sound_projectionBlocks d _)).within
        (IsSpot.id.unqualified.lead [text " RETURNING "])
    · exact .plain _

theorem sound_sourcesBlock (lead : String) (ss : List Source) :
    Part.Sound d (sourcesBlock d lead ss) := by
  refine .listClause _ fun b hb => ?_
  obtain ⟨s, -, rfl⟩ := List.mem_map.1 hb
  exact Part.sound_alone d _

theorem sound_insertedRowsBlock (rows : List (List Assignment)) :
    Part.Sound d (insertedRowsBlock d m rows) := by
  have hcell (row : Nat) (as : List Assignment) (f : Field) :
      Part.Sound d (cellBlock d m row as f) := by
    unfold cellBlock
    split
    · exact Part.sound_alone d _
    · exact .plain _
  unfold insertedRowsBlock
  split
  · exact .plain _
  · split
    · exact .plain _
    · refine (Block.Sound.plain _).append (.commas fun b hb => ?_)
      obtain ⟨row, as, rfl⟩ := List.mem_mapIdx.1 hb
      refine (Block.Sound.commas fun b hb => ?_).within IsSpot.id.parenthesized
      obtain ⟨f, -, rfl⟩ := List.mem_map.1 hb
      exact hcell _ _ f

theorem InsertSource.sound_block (s : InsertSource) : Part.Sound d (s.block d m) := by
  cases s with
  | rows rs => exact sound_insertedRowsBlock d m rs
  | query fields q => exact (Block.Sound.plain _).append (Part.sound_alone d _)
  | defaults => exact .plain _

theorem sound_conflictAssignmentsBlock (c : OnConflict) :
    Part.Sound d (conflictAssignmentsBlock d m c) := by
  unfold conflictAssignmentsBlock
  split
  · exact .plain _
  · exact Assignment.sound_blocks d m _

theorem sound_conflictTargetBlock (c : OnConflict) : Part.Sound d (conflictTargetBlock d m c) := by
  unfold conflictTargetBlock
  split
  · refine (Block.Sound.plain _).append ?_
    split
    · exact (Part.sound_alone d _).within (IsSpot.id.unqualified.lead [text " WHERE "])
    · exact .plain _
  · exact .plain _

/-- The parts of the block, marked or not, are in spots of their own. -/
abbrev Part.MarkedSound (b : Block (Bool × Part)) : Prop :=
  b.Sound (fun x => x.2.fragments d) fun _ => none

theorem Part.sound_mark (updating : Bool) {b : Block Part} (h : Part.Sound d b) :
    Part.MarkedSound d (b.mark updating) := .label h

theorem OnConflict.sound_block (c : OnConflict) : Part.MarkedSound d (c.block d m) := by
  have hassignments := sound_conflictAssignmentsBlock d m c
  have hduplicate : Part.MarkedSound d (duplicateKeyBlock d m c) := by
    unfold duplicateKeyBlock
    split
    · split
      · exact Part.sound_mark d true ((Block.Sound.plain _).append hassignments)
      · exact .plain _
    · exact .plain _
  have hclause : Part.MarkedSound d (onConflictBlock d m c) := by
    refine (Part.sound_mark d false
      ((Block.Sound.plain _).append (sound_conflictTargetBlock d m c))).append ?_
    split
    · exact Part.sound_mark d true (((Block.Sound.plain _).append hassignments).append
        (Condition.sound_clauseBlock d " WHERE " c.filter))
    · exact .plain _
  unfold block
  split
  · exact hduplicate
  · exact .plain _
  · split
    · exact .plain _
    · exact hclause
  · exact hclause

theorem Insert.sound_bodyBlock (i : Insert) : Part.MarkedSound d (i.bodyBlock d) := by
  refine ((Part.sound_mark d false ((Block.Sound.plain _).append
    (InsertSource.sound_block d i.into.model i.source))).append ?_).append
      (Part.sound_mark d false (sound_returningBlock d i.returning))
  cases i.onConflict with
  | none => exact .plain _
  | some c => exact OnConflict.sound_block d i.into.model c

theorem Update.sound_block (u : Update) : Part.Sound d (u.block d) := by
  refine (Cte.sound_blocks d u.ctes).append (Block.Sound.within ?_ (IsSpot.id.nested _))
  unfold bodyBlock
  split
  · exact .plain _
  · split
    · exact ((((Block.Sound.plain _).append (Assignment.sound_blocks d _ _)).append
        (sound_sourcesBlock d _ _)).append (Condition.sound_clauseBlock d _ _)).append
          (sound_returningBlock d _)
    · exact .plain _

theorem Delete.sound_block (x : Delete) : Part.Sound d (x.block d) := by
  refine (Cte.sound_blocks d x.ctes).append (Block.Sound.within ?_ (IsSpot.id.nested _))
  unfold bodyBlock
  split
  · exact (((Block.Sound.plain _).append (sound_sourcesBlock d _ _)).append
      (Condition.sound_clauseBlock d _ _)).append (sound_returningBlock d _)
  · exact .plain _

/-- Every part of a statement is in a spot of its own, under the proposal of its region. -/
theorem Statement.sound_block (st : Statement) :
    (st.block d).Sound (fun x => x.2.fragments d) fun x => x.1.proposal st := by
  cases st with
  | query q => exact .label (Part.sound_alone d _)
  | insert i =>
    have hbody := (Insert.sound_bodyBlock d i).within_of (IsSpot.id.nested
      { mutationScope i.into with proposal := some i.into })
    exact Block.Sound.append (.label (Cte.sound_blocks d i.ctes)) (.label hbody)
  | update u => exact .label (Update.sound_block d u)
  | delete x => exact .label (Delete.sound_block d x)

end Sound

theorem Statement.Holds.spot {d : Dialect} {st : Statement} {region : Region} {C : Setting} {t : Part}
    (h : st.Holds d region C t) :
    st.fragments d = C (t.fragments d) ∧ IsSpot (region.proposal st) C := by
  obtain ⟨D, p, E, hp, hholds, rfl⟩ := h
  obtain ⟨hfragments, hD⟩ := sound_block d st D (region, p) hp
  obtain ⟨hpart, hE⟩ := hholds.spot
  rw [fragments_block] at hfragments
  dsimp only at hfragments
  rw [hpart] at hfragments
  exact ⟨hfragments, hD.comp hE⟩

/-- A part of a statement stands directly in it, or directly in another of its parts. -/
theorem Statement.Holds.last {d : Dialect} {st : Statement} {region : Region} {C : Setting} {t : Part}
    (h : st.Holds d region C t) :
    (C, (region, t)) ∈ (st.block d).parts ∨
      ∃ u D E, st.Holds d region D u ∧ (E, t) ∈ (u.block d).parts ∧ C = D ∘ E := by
  obtain ⟨D, p, E, hp, hholds, rfl⟩ := h
  rcases hholds.last with ⟨rfl, rfl⟩ | ⟨u, D', E', hu, ht, rfl⟩
  · exact .inl hp
  · exact .inr ⟨u, D ∘ D', E', ⟨D, p, D', hp, hu, rfl⟩, ht, rfl⟩

theorem Statement.Holds.snoc {d : Dialect} {st : Statement} {region : Region} {C D : Setting}
    {u t : Part} (h : st.Holds d region C u) (ht : (D, t) ∈ (u.block d).parts) :
    st.Holds d region (C ∘ D) t := by
  obtain ⟨B, p, E, hp, hholds, rfl⟩ := h
  exact ⟨B, p, E ∘ D, hp, hholds.snoc ht, rfl⟩

/-! ## Getting to a part -/

namespace Statement

/-- The compilation gets to the part in the state. -/
def Reaches (st : Statement) (d : Dialect) (s : Supply) (region : Region) (C : Setting) (t : Part)
    (m : Rendering) : Prop :=
  st.Holds d region C t ∧
    ∃ spot : Spot, C = spot.fill ∧ spot.proposal = region.proposal st ∧
      spot.arrive (.start s) = .ok m

variable {st : Statement} {d : Dialect} {s : Supply} {region : Region} {C : Setting} {t : Part}
  {m : Rendering} {e : Error}

theorem compile_error_iff :
    (st.compile d s).1 = .error e ↔ (runAll (st.fragments d) (.start s)).1 = .error e := by
  unfold compile render
  rcases runAll (st.fragments d) (.start s) with ⟨e' | ⟨⟩, m⟩
  · exact ⟨fun h => by cases h; rfl, fun h => by cases h; rfl⟩
  · exact iff_of_false (fun h => nomatch h) fun h => nomatch h

/-- A part that is not reached stands behind what ends the compilation. -/
theorem Holds.reaches (h : st.Holds d region C t) (s : Supply) :
    (∃ e, (st.compile d s).1 = .error e) ∨ ∃ m, st.Reaches d s region C t m := by
  obtain ⟨hfragments, spot, rfl, hproposal⟩ := h.spot
  cases harrive : spot.arrive (.start s) with
  | error e =>
    refine .inl ⟨e, compile_error_iff.2 ?_⟩
    rw [hfragments]
    exact Spot.error_of_arrive harrive _
  | ok m => exact .inr ⟨m, h, spot, rfl, hproposal, harrive⟩

/-- A compilation that ends well has got to every part. -/
theorem Holds.reaches_of_compile (h : st.Holds d region C t) {r : Rendered}
    (hr : (st.compile d s).1 = .ok r) : ∃ m, st.Reaches d s region C t m := by
  refine (h.reaches s).resolve_left ?_
  rintro ⟨e, he⟩
  rw [hr] at he
  cases he

namespace Reaches

theorem proposal?_eq (h : st.Reaches d s region C t m) : m.proposal? = region.proposal st := by
  obtain ⟨-, spot, -, hproposal, harrive⟩ := h
  rw [Spot.arrive_proposal? harrive, hproposal]
  exact Option.or_none

theorem compile_error (h : st.Reaches d s region C t m)
    (he : (runAll (t.fragments d) m).1 = .error e) : (st.compile d s).1 = .error e := by
  obtain ⟨hholds, spot, rfl, -, harrive⟩ := h
  rw [compile_error_iff, hholds.spot.1]
  exact Spot.error_of_gap harrive he

/-- The text of a compiled statement has that of the part, behind what stands before it. -/
theorem pieces (h : st.Reaches d s region C t m) {r : Rendered} (hr : (st.compile d s).1 = .ok r) :
    ∃ ps m' back, Puts (t.fragments d) m ps m' ∧
      r = .ofPieces d (m.output.toList ++ ps ++ back) := by
  obtain ⟨hholds, spot, rfl, -, harrive⟩ := h
  obtain ⟨ps, m', hps, rfl, -⟩ := pieces_of_compile (Prod.ext hr rfl)
  rw [hholds.spot.1] at hps
  obtain ⟨front, qs, back, rfl, n, n', harrive', hout, hqs, -⟩ := Spot.puts_of_fill hps
  cases harrive.symm.trans harrive'
  have hfront : m.output.toList = front := hout
  exact ⟨qs, n', back, hqs, by rw [hfront]⟩

end Reaches

/-- What the part comes to in the state: pieces, and the text of a compiled statement has them behind
what stands before; or an error, and the compilation ends in it. -/
def Renders (st : Statement) (d : Dialect) (s : Supply) (t : Part) (m : Rendering) :
    Except Error (List Piece) → Prop
  | .ok ps => (∃ m', Puts (t.fragments d) m ps m') ∧
      ∀ r, (st.compile d s).1 = .ok r → ∃ back, r = .ofPieces d (m.output.toList ++ ps ++ back)
  | .error e => (runAll (t.fragments d) m).1 = .error e ∧ (st.compile d s).1 = .error e

theorem Reaches.renders_ok (h : st.Reaches d s region C t m) {ps : List Piece} {m' : Rendering}
    (hps : Puts (t.fragments d) m ps m') : st.Renders d s t m (.ok ps) := by
  refine ⟨⟨m', hps⟩, fun r hr => ?_⟩
  obtain ⟨qs, _, back, hqs, hr⟩ := h.pieces hr
  rw [(hqs.unique hps).1] at hr
  exact ⟨back, hr⟩

theorem Reaches.renders_error (h : st.Reaches d s region C t m)
    (he : (runAll (t.fragments d) m).1 = .error e) : st.Renders d s t m (.error e) :=
  ⟨he, h.compile_error he⟩

theorem Renders.unique {o o' : Except Error (List Piece)} (h : st.Renders d s t m o)
    (h' : st.Renders d s t m o') : o = o' := by
  cases o with
  | error e =>
    cases o' with
    | error e' => exact congrArg _ (Except.error.inj (h.1.symm.trans h'.1))
    | ok qs =>
      obtain ⟨⟨_, hqs⟩, -⟩ := h'
      cases h.1.symm.trans (congrArg Prod.fst hqs.1)
  | ok ps =>
    obtain ⟨⟨_, hps⟩, -⟩ := h
    cases o' with
    | error e' => cases h'.1.symm.trans (congrArg Prod.fst hps.1)
    | ok qs =>
      obtain ⟨⟨_, hqs⟩, -⟩ := h'
      rw [(hps.unique hqs).1]

/-! ## Around a part -/

/-- The text of the statement has the part, between what stands before it and after it. -/
def Places (st : Statement) (d : Dialect) (s : Supply) (region : Region) (C : Setting) (t : Part)
    (before ps after : List Piece) : Prop :=
  st.Holds d region C t ∧
    ∃ spot : Spot, C = spot.fill ∧ spot.Puts (t.fragments d) (.start s) before ps after

variable {before ps after : List Piece} {r : Rendered}

theorem Places.unique {before' ps' after' : List Piece}
    (h : st.Places d s region C t before ps after) (h' : st.Places d s region C t before' ps' after') :
    before = before' ∧ ps = ps' ∧ after = after' := by
  obtain ⟨-, spot, rfl, hputs⟩ := h
  obtain ⟨-, spot', hfill, hputs'⟩ := h'
  exact hputs.unique hfill hputs'

theorem Places.compile (h : st.Places d s region C t before ps after)
    (hr : (st.compile d s).1 = .ok r) : r = .ofPieces d (before ++ ps ++ after) := by
  obtain ⟨hholds, spot, rfl, _, _, -, -, -, _, hwhole⟩ := h
  obtain ⟨qs, _, hqs, rfl, -⟩ := pieces_of_compile (Prod.ext hr rfl)
  rw [hholds.spot.1] at hqs
  rw [(hqs.unique hwhole).1]

theorem Holds.places (h : st.Holds d region C t) (hr : (st.compile d s).1 = .ok r) :
    ∃ before ps after, st.Places d s region C t before ps after := by
  obtain ⟨hfragments, spot, rfl, -⟩ := h.spot
  obtain ⟨ps, _, hps, -, -⟩ := pieces_of_compile (Prod.ext hr rfl)
  rw [hfragments] at hps
  obtain ⟨before, qs, after, -, hputs⟩ := Spot.puts_of_fill hps
  exact ⟨before, qs, after, h, spot, rfl, hputs⟩

/-- Fragments next to the part put out what stands next to it. -/
theorem Holds.places_beside {spot : Spot} {front back : List Fragment}
    (h : st.Holds d region (fun fs => spot.fill (front ++ fs ++ back)) t)
    (hr : (st.compile d s).1 = .ok r) :
    ∃ n m₁ m₂ m' outer lead ps trail rest,
      Fragment.Puts front n lead m₁ ∧ Fragment.Puts back m₂ trail m' ∧
      spot.Puts (front ++ t.fragments d ++ back) (.start s) outer (lead ++ ps ++ trail) rest ∧
      st.Places d s region (fun fs => spot.fill (front ++ fs ++ back)) t (outer ++ lead) ps
        (trail ++ rest) := by
  obtain ⟨qs, _, hqs, -, -⟩ := pieces_of_compile (Prod.ext hr rfl)
  rw [h.spot.1] at hqs
  obtain ⟨outer, _, rest, -, hputs⟩ := Spot.puts_of_fill hqs
  obtain ⟨n, m₁, m₂, m', lead, ps, trail, hfront, hback, hpieces, hinner⟩ := hputs.inner
  refine ⟨n, m₁, m₂, m', outer, lead, ps, trail, rest, hfront, hback, hpieces ▸ hputs, h, _, ?_,
    hinner⟩
  funext fs
  rw [Spot.fill_comp]
  rfl

end Statement

end SqlMapper
