import SqlMapper.Proofs.Statement.Regions

/-!
# SqlMapper.Proofs.Statement.Given

The values that statements give to fields.

`Statement.Gives` says which assignments of a statement count, and in which region each of them
stands. In a statement that compiles their values are parts, under the field of the target that they
are for (`Gives.mem_labels`).
-/

namespace SqlMapper

open Fragment

namespace Statement

/-- In the region the statement gives a field of its target a value by the assignment. Of two for one
field of a row it is the first that counts. -/
inductive Gives : Statement → Region → Assignment → Prop
  | row {i : Insert} {rows : List (List Assignment)} {row : List Assignment} {a : Assignment} :
      i.source = .rows rows → row ∈ rows → row.find? (·.field == a.field) = some a →
        Gives (.insert i) (.inside false) a
  | set {u : Update} {a : Assignment} : a ∈ u.assignments → Gives (.update u) .outside a
  | conflict {i : Insert} {c : OnConflict} {a : Assignment} :
      i.onConflict = some c → c.action = .update → a ∈ c.assignments →
        Gives (.insert i) (.inside true) a

end Statement

namespace Fragment

variable {d : Dialect} {m : Model} {r r' : Rendering} {ps : List Piece}

theorem mem_assignments {as : List Assignment} {a : Assignment} (ha : a ∈ as)
    (h : Puts (Block.commas (as.map (Assignment.block d m))).fragments r ps r') :
    ∃ f, m.field? a.field = some f ∧
      Part.operand (some f) a.value ∈ (Block.commas (as.map (Assignment.block d m))).labels := by
  rw [Block.fragments_commas, List.map_map] at h
  obtain ⟨_, hturn, -⟩ := puts_commas h
  obtain ⟨_, _, _, hputs⟩ := hturn.exists_of_mem ha
  rw [Function.comp_apply, Assignment.fragments_block] at hputs
  obtain ⟨f, hf, -⟩ := setEntry_of_puts hputs
  have hfield : m.field a.field = .ok f := by rw [Model.field, hf]
  have hblock : Part.operand (some f) a.value ∈ (a.block d m).labels := by
    rw [Assignment.block, hfield]
    exact List.mem_singleton_self _
  rw [Block.labels_commas, List.flatMap_map]
  exact ⟨f, hf, List.mem_flatMap.2 ⟨a, ha, hblock⟩⟩

theorem mem_row {rows : List (List Assignment)} {row : List Assignment} {a : Assignment}
    (hrow : row ∈ rows) (ha : row.find? (·.field == a.field) = some a)
    (hnull : a.value.isNullLiteral = false) (h : Puts (insertedRows d m rows) r ps r') :
    ∃ f, m.field? a.field = some f ∧
      .operand (some f) a.value ∈ (insertedRowsBlock d m rows).labels := by
  have hmem := List.mem_of_find?_eq_some ha
  obtain ⟨hfields, -⟩ := puts_insertedRows h
  obtain ⟨f, hf⟩ := hfields row hrow a hmem
  refine ⟨f, hf, ?_⟩
  have hvacant : a.isVacant m = false := by
    rw [Assignment.isVacant, hnull, Bool.and_false]
  have hinserted := Model.mem_insertedFields hrow hmem hf hvacant
  obtain ⟨i, hi⟩ := List.mem_iff_getElem?.1 hrow
  have hcell : .operand (some f) a.value ∈ (cellBlock d m i row f).labels := by
    have hname : row.find? (·.field == f.name) = some a := by rw [(Model.field?_eq_some hf).2, ha]
    rw [cellBlock, hname]
    exact List.mem_singleton_self _
  unfold insertedRowsBlock
  unfold insertedRows at h
  cases hall : rows.flatten.mapM fun a => m.field a.field with
  | error e =>
    rw [hall] at h
    exact absurd h.1 not_runs_refuse
  | ok fs =>
    cases hcolumns : insertedFields m rows with
    | nil =>
      rw [hcolumns] at hinserted
      cases hinserted
    | cons g gs =>
      rw [hcolumns] at hinserted
      obtain ⟨hlt, rfl⟩ := List.getElem?_eq_some_iff.1 hi
      dsimp only
      rw [Block.labels_append, Block.labels_plain, List.nil_append, Block.labels_commas]
      refine List.mem_flatMap.2 ⟨_, List.mem_mapIdx.2 ⟨i, hlt, rfl⟩, ?_⟩
      rw [Block.labels_within, Block.labels_commas, List.flatMap_map]
      exact List.mem_flatMap.2 ⟨f, hinserted, hcell⟩

theorem mem_conflict {c : OnConflict} {a : Assignment} (haction : c.action = .update)
    (ha : a ∈ c.assignments) (h : Puts (c.fragments d m) r ps r') :
    ∃ f, m.field? a.field = some f ∧ (true, .operand (some f) a.value) ∈ (c.block d m).labels := by
  have hwritten : a ∈ c.written := List.mem_append_right _ ha
  have hlist {r r' : Rendering} {ps : List Piece} (h : Puts (conflictAssignments d m c) r ps r') :
      ∃ f, m.field? a.field = some f ∧
        .operand (some f) a.value ∈ (conflictAssignmentsBlock d m c).labels := by
    rw [← fragments_conflictAssignmentsBlock] at h
    unfold conflictAssignmentsBlock at h ⊢
    split at h
    · exact absurd h.1 not_runs_refuse
    · exact mem_assignments hwritten h
  have hclause (h : Puts (onConflictClause d m c) r ps r') :
      ∃ f, m.field? a.field = some f ∧
        (true, .operand (some f) a.value) ∈ (onConflictBlock d m c).labels := by
    unfold onConflictClause at h
    rw [if_pos haction] at h
    obtain ⟨_, _, _, -, hupdate, -⟩ := puts_append.1 h
    obtain ⟨_, _, _, hset, -, -⟩ := puts_append.1 hupdate
    obtain ⟨_, _, _, -, hassignments, -⟩ := puts_cons.1 hset
    obtain ⟨f, hf, hmem⟩ := hlist hassignments
    refine ⟨f, hf, ?_⟩
    rw [onConflictBlock, if_pos haction]
    simp [Block.mark, hmem]
  unfold OnConflict.fragments at h
  unfold OnConflict.block
  cases hd : d.conflict with
  | mysql =>
    rw [hd] at h
    obtain ⟨hplain, h⟩ := puts_requiring.1 h
    rw [if_pos haction] at h
    obtain ⟨_, _, _, -, hassignments, -⟩ := puts_cons.1 h
    obtain ⟨f, hf, hmem⟩ := hlist hassignments
    refine ⟨f, hf, ?_⟩
    dsimp only
    rw [duplicateKeyBlock, if_pos hplain, if_pos haction]
    simp [Block.mark, hmem]
  | sqlite | postgres =>
    rw [hd, haction] at h
    rw [haction]
    exact hclause h

end Fragment

namespace Insert

variable {i : Insert} {d : Dialect}

theorem mem_body {updating : Bool} {p : Part} (h : (updating, p) ∈ (i.bodyBlock d).labels) :
    (.inside updating, p) ∈ ((Statement.insert i).block d).labels := by
  simp [Statement.block, Insert.block, h]

end Insert

namespace Statement

variable {st : Statement} {d : Dialect} {s : Supply} {region : Region} {a : Assignment}

/-- In a compiled statement every value that counts is a part, under its field. NULL does not count
for a field that the database assigns. -/
theorem Gives.mem_labels (h : st.Gives region a) (hnull : a.value.isNullLiteral = false) {r : Rendered}
    (hr : (st.compile d s).1 = .ok r) :
    ∃ f, (∃ m ∈ st.target?, m.model.field? a.field = some f) ∧
      (region, .operand (some f) a.value) ∈ (st.block d).labels := by
  obtain ⟨ps, n, hps, -, -⟩ := pieces_of_compile (Prod.ext hr rfl)
  cases h with
  | @set u _ ha =>
    rw [fragments, ← Update.fragments_block, Update.block, Block.fragments_append] at hps
    obtain ⟨_, _, _, -, hnested, -⟩ := puts_append.1 hps
    obtain ⟨_, hbody, -⟩ := puts_nested.1 hnested
    suffices ∃ f, u.table.model.field? a.field = some f ∧
        .operand (some f) a.value ∈ (u.bodyBlock d).labels by
      obtain ⟨f, hf, hmem⟩ := this
      exact ⟨f, ⟨u.table, rfl, hf⟩, by simp [block, Update.block, hmem]⟩
    unfold Update.bodyBlock at hbody ⊢
    split at hbody
    · exact absurd hbody.1 not_runs_refuse
    · split at hbody
      · rename_i hsources
        -- The assignments stand behind the table, before sources, filter and what is returned.
        obtain ⟨_, _, _, hbody, -, -⟩ := puts_append.1 hbody
        obtain ⟨_, _, _, hbody, -, -⟩ := puts_append.1 hbody
        obtain ⟨_, _, _, hbody, -, -⟩ := puts_append.1 hbody
        obtain ⟨_, _, _, -, hset, -⟩ := puts_append.1 hbody
        obtain ⟨f, hf, hmem⟩ := mem_assignments ha hset
        refine ⟨f, hf, ?_⟩
        dsimp only
        rw [if_pos hsources]
        simp only [Block.labels_append, List.mem_append, hmem, true_or, or_true]
      · exact absurd hbody.1 not_runs_refuse
  | @row i rows row _ hsource hrow ha =>
    obtain ⟨_, _, _, _, _, _, _, _, _, -, -, hputs, -⟩ := Insert.parts_of_puts hps
    rw [hsource] at hputs
    obtain ⟨f, hf, hmem⟩ := mem_row hrow ha hnull hputs
    refine ⟨f, ⟨i.into, rfl, hf⟩, Insert.mem_body ?_⟩
    have hsources : .operand (some f) a.value ∈ (i.source.block d i.into.model).labels := by
      rw [hsource]
      exact hmem
    simp [Insert.bodyBlock, Block.mark, hsources]
  | @conflict i c _ hc haction ha =>
    obtain ⟨_, _, _, _, _, _, _, _, _, -, -, -, hputs, -⟩ := Insert.parts_of_puts hps
    rw [hc] at hputs
    obtain ⟨f, hf, hmem⟩ := mem_conflict haction ha hputs
    refine ⟨f, ⟨i.into, rfl, hf⟩, Insert.mem_body ?_⟩
    simp [Insert.bodyBlock, Block.mark, hc, hmem]

theorem Gives.holds (h : st.Gives region a) (hnull : a.value.isNullLiteral = false) {r : Rendered}
    (hr : (st.compile d s).1 = .ok r) :
    ∃ C f, (∃ m ∈ st.target?, m.model.field? a.field = some f) ∧
      st.Holds d region C (.operand (some f) a.value) := by
  obtain ⟨f, hf, hmem⟩ := h.mem_labels hnull hr
  obtain ⟨C, hC⟩ := Block.mem_labels.1 hmem
  exact ⟨C, f, hf, C, _, _, hC, .self _, rfl⟩

end Statement

end SqlMapper
