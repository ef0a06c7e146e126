import SqlMapper.Proofs.Statement.Regions

/-!
# SqlMapper.Proofs.Statement.WithScope

Where a query with a `WITH` clause stands.

* `Statement.Stands`: a query by itself, so that nobody else sees what its `WITH` clause declares.
* `Part.query_position`, `Statement.query_position`: the places of queries. They have parentheses of
  their own, but for a whole statement, the source of an insert, and some operands of compounds.
* `Statement.with_scope_iff`: a `WITH` clause comes first in its query. All queries that have one stand
  by themselves exactly if no operand without parentheses has one.
-/

namespace SqlMapper

open Fragment

def Query.ctes : Query → List Cte
  | .simple s => s.ctes
  | .compound c => c.ctes

/-- The text between the operands of a compound. -/
def SetOperator.between (op : SetOperator) : String := " " ++ op.keyword ++ " "

/-- The first text of a `WITH` clause. -/
def Cte.lead (cs : List Cte) : String := if cs.any Cte.recursive then "WITH RECURSIVE " else "WITH "

theorem Query.puts_ctes {d : Dialect} {q : Query} {m m' : Rendering} {ps : List Piece}
    (h : Puts (q.fragments d) m ps m') (hctes : q.ctes ≠ []) :
    ∃ rest, ps = .text (Cte.lead q.ctes) :: rest := by
  have hlead : ∃ gs, q.fragments d = text (Cte.lead q.ctes) :: gs := by
    cases q with
    | simple s =>
      obtain ⟨c, cs, hcs⟩ := List.exists_cons_of_ne_nil hctes
      have hctes : s.ctes = c :: cs := hcs
      rw [fragments, Select.fragments_eq, hctes, ofCtes_cons, ctes, hctes]
      exact ⟨_, rfl⟩
    | compound x =>
      obtain ⟨c, cs, hcs⟩ := List.exists_cons_of_ne_nil hctes
      have hctes : x.ctes = c :: cs := hcs
      rw [fragments, Compound.fragments_eq, hctes, ofCtes_cons, ctes, hctes]
      exact ⟨_, rfl⟩
  obtain ⟨gs, hgs⟩ := hlead
  rw [hgs] at h
  obtain ⟨_, _, rest, htext, -, rfl⟩ := puts_cons.1 h
  obtain ⟨-, rfl⟩ := puts_text.1 htext
  exact ⟨rest, rfl⟩

/-- The setting has the text of the operator next to what is put in. -/
inductive SetOperator.Beside (op : SetOperator) : Setting → Prop
  | left (front back : List Fragment) : op.Beside fun fs => front ++ fs ++ text op.between :: back
  | right (front back : List Fragment) : op.Beside fun fs => front ++ [text op.between] ++ fs ++ back

/-- An operand of a compound, by its side. -/
def Compound.operand (c : Compound) : Bool → Query
  | false => c.left
  | true => c.right

/-- The operand has no parentheses. -/
def Compound.Bare (d : Dialect) (c : Compound) (isRight : Bool) : Prop :=
  d.compoundParentheses = .never ∧ (isRight && (c.operand isRight).isCompound) = false

/-! ## Standing by itself -/

/-- What stands before and after the query makes it a whole statement, or gives it parentheses of its
own, or makes it the source of an insert, with no operand beside it. -/
inductive Statement.Stands (st : Statement) (q : Query) : List Piece → List Piece → Prop
  | whole : st = .query q → st.Stands q [] []
  | parenthesized (before after : List Piece) (o c : String) :
      st.Stands q (before ++ [.text (o ++ "(")]) (.text (")" ++ c) :: after)
  | source {i : Insert} {fields : List String} {before after : List Piece} :
      st = .insert i → i.source = .query fields q →
        (∀ op : SetOperator, after.head? ≠ some (.text op.between)) →
          st.Stands q (before ++ [.text ") "]) after

namespace Statement

variable {st : Statement} {q : Query} {before after : List Piece} {op : SetOperator}

theorem not_stands_left : ¬ st.Stands q before (.text op.between :: after) := by
  generalize hafter : Piece.text op.between :: after = ps
  intro h
  cases h with
  | whole _ => cases hafter
  | parenthesized _ _ o c =>
    obtain ⟨htext, -⟩ := List.cons.inj hafter
    have hchars := congrArg String.toList (Piece.text.inj htext)
    cases op <;> simp [SetOperator.between, SetOperator.keyword] at hchars
  | source _ _ hop =>
    rw [← hafter] at hop
    exact hop op rfl

theorem not_stands_right : ¬ st.Stands q (before ++ [Piece.text op.between]) after := by
  generalize hbefore : before ++ [Piece.text op.between] = ps
  intro h
  cases h with
  | whole _ => simp at hbefore
  | parenthesized _ _ o c =>
    have hlast := (List.append_inj' hbefore rfl).2
    have hchars := congrArg (List.getLast? ∘ String.toList) (Piece.text.inj (List.cons.inj hlast).1)
    cases op <;> simp [SetOperator.between, SetOperator.keyword] at hchars
  | source _ _ _ =>
    have hlast := (List.append_inj' hbefore rfl).2
    have htext := Piece.text.inj (List.cons.inj hlast).1
    cases op <;> exact absurd htext (by decide)

end Statement

/-! ## The places of queries -/

section Positions

variable {d : Dialect} {q q' : Query} {t : Part} {E : Setting}

theorem Cte.isEnclosed_of_mem {cs : List Cte} (h : (E, t) ∈ (Cte.blocks d cs).parts) :
    IsEnclosed E := by
  cases cs with
  | nil => cases h
  | cons c cs =>
    obtain ⟨F, hF, rfl⟩ := Block.mem_within.1 h
    obtain ⟨D, b, G, hD, hb, hG, rfl⟩ := Block.mem_separated hF
    obtain ⟨c', -, rfl⟩ := List.mem_map.1 hb
    obtain ⟨G', hG', rfl⟩ := Block.mem_within.1 hG
    cases List.mem_singleton.1 hG'
    have hcte : IsEnclosed (ofCte c') := .comp (IsSpot.id.lead _) (.enclosed " AS " "")
    exact .comp (IsSpot.id.beside [_] _) (.comp hD hcte)

@[simp] theorem Part.labels_alone (p : Part) : (p.alone d).labels = [p] := rfl

@[simp] theorem Expr.labels_blocks (codec : Option Field) (es : List Expr) :
    (Expr.blocks d codec es).flatMap Block.labels = es.map (Part.operand codec) := by
  rw [blocks, List.flatMap_map]
  exact List.map_eq_flatMap.symm

@[simp] theorem OrderTerm.labels_blocks (ts : List OrderTerm) :
    (OrderTerm.blocks d ts).flatMap Block.labels = ts.map Part.term := by
  rw [blocks, List.flatMap_map]
  exact List.map_eq_flatMap.symm

theorem Expr.isEnclosed_of_mem {codec : Option Field} {e : Expr}
    (h : (E, .query q) ∈ (e.block d codec).parts) : IsEnclosed E := by
  have hlabels := Block.mem_labels.2 ⟨E, h⟩
  cases e with
  | subquery q' =>
    obtain ⟨F, hF, rfl⟩ := Block.mem_within.1 h
    cases List.mem_singleton.1 hF
    exact .enclosed "" ""
  | nonEmpty q' =>
    obtain ⟨F, hF, rfl⟩ := Block.mem_within.1 h
    cases List.mem_singleton.1 hF
    exact .enclosed "EXISTS " ""
  | windowed function w => cases w <;> simp [block] at hlabels
  | binary left op right =>
    rw [block] at hlabels
    split at hlabels <;> simp at hlabels
  | _ => simp [block] at hlabels

theorem Condition.query_not_mem (c : Condition) : Part.query q ∉ (c.block d).labels := by
  cases c with
  | compare left op right negated escaped =>
    rw [block, Block.labels_within]
    unfold comparisonBlock
    cases op with
    | eq | ne | is | isNot | isIn | notIn | between => dsimp only; split <;> simp
    | _ => simp
  | group connective members negated => cases members <;> simp [block]
  | operand e => simp [block]

theorem Window.query_not_mem (w : Window) : Part.query q ∉ (w.block d).labels := by
  rw [block]
  cases w.partitionBy <;> cases w.orderBy <;> cases w.frame <;> simp [Expr.blocks, OrderTerm.blocks]

theorem OrderTerm.query_not_mem (t : OrderTerm) : Part.query q ∉ (t.block d).labels := by
  rw [block]
  split <;> simp

theorem Source.isEnclosed_of_mem {s : Source} (h : (E, .query q) ∈ (s.block d).parts) :
    IsEnclosed E := by
  cases s with
  | derived q' n =>
    obtain ⟨F, hF, rfl⟩ := Block.mem_within.1 h
    cases List.mem_singleton.1 hF
    have hsource : IsEnclosed
        ((· ++ [text " AS ", identifier n]) ∘ (enclosed ("" ++ "(") · (")" ++ ""))) :=
      .comp (IsSpot.id.ending _) (.enclosed "" "")
    exact hsource
  | model m => cases h
  | table n => cases h

theorem Join.query_not_mem (j : Join) : Part.query q ∉ (j.block d).labels := by
  rw [block]
  split <;> simp

theorem Condition.query_not_mem_clause (lead : String) (c : Option Condition) :
    Part.query q ∉ (Condition.clauseBlock d lead c).labels := by
  cases c <;> simp [clauseBlock]

theorem Source.query_not_mem_clause (lead : String) (s : Option Source) :
    Part.query q ∉ (Source.clauseBlock d lead s).labels := by
  cases s <;> simp [clauseBlock]

theorem Expr.query_not_mem_projection (es : List Expr) :
    Part.query q ∉ (Block.commas (Expr.projectionBlocks d es)).labels := by
  simp [projectionBlocks]

theorem Select.isEnclosed_of_mem {s : Select} (h : (E, .query q) ∈ (s.block d).parts) :
    IsEnclosed E := by
  have hdistinct : Part.query q ∉ (s.distinct.block d).labels := by
    cases s.distinct with
    | on es => rw [Distinct.block]; split <;> simp
    | _ => simp [Distinct.block]
  have hprojection : Part.query q ∉ (s.projectionBlock d).labels := by
    unfold projectionBlock
    split
    · simp
    · exact Expr.query_not_mem_projection _
  have hwindows : Part.query q ∉ (s.windows.map (Window.declaredBlock d)).flatMap Block.labels := by
    simp only [List.mem_flatMap, List.mem_map, not_exists, not_and]
    rintro _ ⟨w, -, rfl⟩
    unfold Window.declaredBlock
    split <;> simp
  rcases Block.mem_append.1 h with ⟨F, hF, rfl⟩ | ⟨F, hF, rfl⟩
  · exact .comp (IsSpot.id.ending _) (Cte.isEnclosed_of_mem hF)
  · have hlabels := Block.mem_labels.2 ⟨F, hF⟩
    simp [hdistinct, hprojection, hwindows, Condition.query_not_mem_clause,
      Source.query_not_mem_clause] at hlabels

theorem Query.operand_position {isRight : Bool}
    (h : (E, .query q) ∈ (Query.operandBlock d isRight q').parts) :
    q = q' ∧
      (IsEnclosed E ∨ d.compoundParentheses = .never ∧ (isRight && q'.isCompound) = false) := by
  unfold operandBlock at h
  split at h
  · cases h
  · obtain ⟨F, hF, rfl⟩ := Block.mem_within.1 h
    cases List.mem_singleton.1 hF
    refine ⟨rfl, ?_⟩
    unfold ofOperand
    cases d.compoundParentheses with
    | always => exact .inl (.enclosed "" "")
    | never =>
      dsimp only
      split
      · have hoperand : IsEnclosed
            ((· ++ [identifier "_compound"]) ∘ (enclosed ("SELECT * FROM " ++ "(") · (")" ++ " AS "))) :=
          .comp (IsSpot.id.ending _) (.enclosed _ _)
        exact .inl hoperand
      · rename_i hbare
        exact .inr ⟨rfl, Bool.eq_false_iff.2 hbare⟩

/-- Every query in the block has parentheses of its own, or is an operand without. -/
def Compound.Positions (d : Dialect) (c : Compound) (b : Block Part) : Prop :=
  ∀ E q, (E, .query q) ∈ b.parts → IsEnclosed E ∨ ∃ isRight, c.Bare d isRight ∧ q = c.operand isRight

namespace Compound

variable {c : Compound} {a b : Block Part}

theorem Positions.append (ha : c.Positions d a) (hb : c.Positions d b) : c.Positions d (a ++ b) := by
  intro E q h
  rcases Block.mem_append.1 h with ⟨F, hF, rfl⟩ | ⟨F, hF, rfl⟩
  · exact (ha F q hF).imp_left (.comp (IsSpot.id.ending _))
  · exact (hb F q hF).imp_left (.comp (IsSpot.id.lead _))

theorem positions_of_labels (h : ∀ q, Part.query q ∉ b.labels) : c.Positions d b :=
  fun E q hE => absurd (Block.mem_labels.2 ⟨E, hE⟩) (h q)

theorem positions_operand (isRight : Bool) :
    c.Positions d ((c.operand isRight).operandBlock d isRight) := by
  intro E q h
  obtain ⟨hq, h⟩ := Query.operand_position h
  exact h.imp_right fun hbare => ⟨isRight, hbare, hq⟩

theorem positions_block (c : Compound) : c.Positions d (c.block d) := by
  have hctes : c.Positions d (Cte.blocks d c.ctes) := fun E q h => .inl (Cte.isEnclosed_of_mem h)
  have hplain (fs : List Fragment) : c.Positions d (.plain fs) := fun E q h => nomatch h
  have h := (hctes.append (positions_operand false)).append (hplain [text (" " ++ c.op.keyword ++ " ")])
  refine ((h.append (positions_operand true)).append (positions_of_labels fun q => ?_)).append (hplain _)
  cases c.orderBy <;> simp

/-- An operand without parentheses stands next to the operator. -/
theorem bare_mem {isRight : Bool} (hbare : c.Bare d isRight)
    (hordered : (c.operand isRight).isOrdered = false) :
    ∃ E, (E, .query (c.operand isRight)) ∈ (c.block d).parts ∧ c.op.Beside E := by
  obtain ⟨hd, hside⟩ := hbare
  have hmem : (id, .query (c.operand isRight)) ∈
      ((c.operand isRight).operandBlock d isRight).parts := by
    unfold Query.operandBlock
    rw [if_neg fun h => Bool.eq_false_iff.1 hordered h.2.2]
    refine Block.mem_within.2 ⟨id, List.mem_singleton_self _, ?_⟩
    unfold ofOperand
    rw [hd, hside, hordered]
    rfl
  cases isRight with
  | false =>
    refine ⟨_, Block.mem_append_left _ (Block.mem_append_left _ (Block.mem_append_left _
      (Block.mem_append_left _ (Block.mem_append_right _ hmem)))), ?_⟩
    have hleft := @SetOperator.Beside.left c.op (Cte.blocks d c.ctes).fragments
    simp only [List.append_assoc] at hleft ⊢
    exact hleft _
  | true =>
    refine ⟨_, Block.mem_append_left _ (Block.mem_append_left _ (Block.mem_append_right _ hmem)), ?_⟩
    have hright := @SetOperator.Beside.right c.op
      ((Cte.blocks d c.ctes).fragments ++ (c.left.operandBlock d false).fragments)
    simp only [Block.fragments_append, List.append_assoc] at hright ⊢
    exact hright _

end Compound

theorem Part.query_position {u : Part} (h : (E, .query q) ∈ (u.block d).parts) :
    IsEnclosed E ∨
      ∃ c isRight, u = .query (.compound c) ∧ c.Bare d isRight ∧ q = c.operand isRight := by
  have hlabels := Block.mem_labels.2 ⟨E, h⟩
  cases u with
  | operand codec e => exact .inl (Expr.isEnclosed_of_mem h)
  | condition c => exact absurd hlabels c.query_not_mem
  | window w => exact absurd hlabels w.query_not_mem
  | term t => exact absurd hlabels t.query_not_mem
  | source s => exact .inl (Source.isEnclosed_of_mem h)
  | join j => exact absurd hlabels j.query_not_mem
  | query u =>
    cases u with
    | simple s => exact .inl (Select.isEnclosed_of_mem h)
    | compound c =>
      exact (c.positions_block E q h).imp_right fun ⟨isRight, hbare, hq⟩ =>
        ⟨c, isRight, rfl, hbare, hq⟩

theorem Assignment.query_not_mem (m : Model) (a : Assignment) :
    Part.query q ∉ (a.block d m).labels := by
  unfold block
  split <;> simp

theorem query_not_mem_returning (es : List Expr) : Part.query q ∉ (returningBlock d es).labels := by
  unfold returningBlock
  split
  · simp
  · split
    · simpa using Expr.query_not_mem_projection _
    · simp

theorem query_not_mem_sources (lead : String) (ss : List Source) :
    Part.query q ∉ (sourcesBlock d lead ss).labels := by
  simp [sourcesBlock]

theorem query_not_mem_conflictAssignments (m : Model) (c : OnConflict) :
    Part.query q ∉ (conflictAssignmentsBlock d m c).labels := by
  unfold conflictAssignmentsBlock
  split
  · simp
  · simp [Assignment.query_not_mem]

theorem query_not_mem_conflictTarget (m : Model) (c : OnConflict) :
    Part.query q ∉ (conflictTargetBlock d m c).labels := by
  unfold conflictTargetBlock
  split
  · cases c.targetFilter <;> simp
  · simp

theorem OnConflict.query_not_mem (updating : Bool) (m : Model) (c : OnConflict) :
    (updating, Part.query q) ∉ (c.block d m).labels := by
  have hduplicate : (updating, Part.query q) ∉ (duplicateKeyBlock d m c).labels := by
    unfold duplicateKeyBlock
    split
    · split <;> simp [Block.mark, query_not_mem_conflictAssignments]
    · simp
  have hclause : (updating, Part.query q) ∉ (onConflictBlock d m c).labels := by
    unfold onConflictBlock
    split <;> simp [Block.mark, query_not_mem_conflictAssignments, query_not_mem_conflictTarget,
      Condition.query_not_mem_clause]
  unfold block
  split
  · exact hduplicate
  · simp
  · split
    · simp
    · exact hclause
  · exact hclause

theorem InsertSource.query_position {m : Model} {s : InsertSource}
    (h : (E, .query q) ∈ (s.block d m).parts) :
    ∃ fields, s = .query fields q ∧
      E = (columnsOf m fields (fun columns => enclosed " (" (names columns) ") ") ++ ·) := by
  cases s with
  | rows rs =>
    have hcell (row : Nat) (as : List Assignment) (f : Field) :
        Part.query q ∉ (cellBlock d m row as f).labels := by
      unfold cellBlock
      split <;> simp
    have hlabels : Part.query q ∈ (insertedRowsBlock d m rs).labels := Block.mem_labels.2 ⟨E, h⟩
    unfold insertedRowsBlock at hlabels
    split at hlabels
    · cases hlabels
    · split at hlabels
      · cases hlabels
      · simp [hcell, List.mapIdx_eq_zipIdx_map] at hlabels
  | query fields q' =>
    rcases Block.mem_append.1 h with ⟨F, hF, -⟩ | ⟨F, hF, rfl⟩
    · cases hF
    · cases List.mem_singleton.1 hF
      exact ⟨fields, rfl, rfl⟩
  | defaults => cases h

/-- The spot in the scope of an insert. -/
def Insert.spot (d : Dialect) (i : Insert) : Spot :=
  .beside (Cte.blocks d i.ctes).fragments
    (.nested { mutationScope i.into with proposal := some i.into } .gap) []

/-- What follows the source of an insert. -/
def Insert.trailing (d : Dialect) (i : Insert) : List Fragment :=
  (i.onConflict.map (OnConflict.fragments d i.into.model)).getD [] ++ returningFragments d i.returning

/-- The list of columns before the source of an insert. -/
def Insert.listed (i : Insert) (fields : List String) : List Fragment :=
  columnsOf i.into.model fields fun columns => enclosed " (" (names columns) ") "

theorem Insert.query_position {i : Insert} {updating : Bool}
    (h : (E, (updating, .query q)) ∈ (i.bodyBlock d).parts) :
    ∃ fields front, i.source = .query fields q ∧
      E = fun fs => front ++ i.listed fields ++ fs ++ i.trailing d := by
  rcases Block.mem_append.1 h with ⟨F, hF, rfl⟩ | ⟨F, hF, -⟩
  · rcases Block.mem_append.1 hF with ⟨G, hG, rfl⟩ | ⟨G, hG, -⟩
    · obtain ⟨_, hG, heq⟩ := Block.mem_label.1 hG
      cases heq
      rcases Block.mem_append.1 hG with ⟨H, hH, -⟩ | ⟨H, hH, rfl⟩
      · cases hH
      · obtain ⟨fields, hsource, rfl⟩ := InsertSource.query_position hH
        refine ⟨fields, [insertVerb d i.onConflict, text " ", identifier i.into.model.table], hsource, ?_⟩
        have hconflict :
            ((i.onConflict.map (OnConflict.block d i.into.model)).getD (.plain [])).fragments =
              (i.onConflict.map (OnConflict.fragments d i.into.model)).getD [] := by
          cases i.onConflict with
          | none => rfl
          | some c => exact c.fragments_block d i.into.model
        funext fs
        simp [listed, trailing, hconflict, Block.mark, fragments_returningBlock]
    · have hlabels := Block.mem_labels.2 ⟨G, hG⟩
      cases hc : i.onConflict with
      | none => simp [hc] at hlabels
      | some c =>
        rw [hc] at hlabels
        exact absurd hlabels (c.query_not_mem updating i.into.model)
  · obtain ⟨_, hF, heq⟩ := Block.mem_label.1 hF
    cases heq
    exact absurd (Block.mem_labels.2 ⟨F, hF⟩) (query_not_mem_returning i.returning)

theorem Update.query_not_mem (u : Update) : Part.query q ∉ (u.bodyBlock d).labels := by
  unfold bodyBlock
  split
  · simp
  · split
    · simp [Assignment.query_not_mem, query_not_mem_sources, query_not_mem_returning,
        Condition.query_not_mem_clause]
    · simp

theorem Delete.query_not_mem (x : Delete) : Part.query q ∉ (x.bodyBlock d).labels := by
  unfold bodyBlock
  split
  · simp [query_not_mem_sources, query_not_mem_returning, Condition.query_not_mem_clause]
  · simp

theorem Statement.query_position {st : Statement} {region : Region}
    (h : (E, (region, .query q)) ∈ (st.block d).parts) :
    (st = .query q ∧ E = id) ∨ IsEnclosed E ∨
      ∃ i fields front, st = .insert i ∧ i.source = .query fields q ∧
        E = fun fs => (i.spot d).fill (front ++ i.listed fields ++ fs ++ i.trailing d) := by
  have hctes {F : Setting} {cs : List Cte} (back : List Fragment)
      (hF : (F, .query q) ∈ (Cte.blocks d cs).parts) : IsEnclosed ((· ++ back) ∘ F) :=
    .comp (IsSpot.id.ending _) (Cte.isEnclosed_of_mem hF)
  cases st with
  | query q' =>
    obtain ⟨_, h, heq⟩ := Block.mem_label.1 h
    cases heq
    cases List.mem_singleton.1 h
    exact .inl ⟨rfl, rfl⟩
  | insert i =>
    rcases Block.mem_append.1 h with ⟨F, hF, rfl⟩ | ⟨F, hF, rfl⟩
    · obtain ⟨_, hF, heq⟩ := Block.mem_label.1 hF
      cases heq
      exact .inr (.inl (hctes _ hF))
    · obtain ⟨⟨_, _⟩, hbody, heq⟩ := Block.mem_label.1 hF
      cases heq
      obtain ⟨G, hG, rfl⟩ := Block.mem_within.1 hbody
      obtain ⟨fields, front, hsource, rfl⟩ := Insert.query_position hG
      refine .inr (.inr ⟨i, fields, front, rfl, hsource, ?_⟩)
      funext fs
      exact (List.append_nil _).symm
  | update u =>
    obtain ⟨_, h, heq⟩ := Block.mem_label.1 h
    cases heq
    rcases Block.mem_append.1 h with ⟨F, hF, rfl⟩ | ⟨F, hF, -⟩
    · exact .inr (.inl (hctes _ hF))
    · obtain ⟨G, hG, -⟩ := Block.mem_within.1 hF
      exact absurd (Block.mem_labels.2 ⟨G, hG⟩) u.query_not_mem
  | delete x =>
    obtain ⟨_, h, heq⟩ := Block.mem_label.1 h
    cases heq
    rcases Block.mem_append.1 h with ⟨F, hF, rfl⟩ | ⟨F, hF, -⟩
    · exact .inr (.inl (hctes _ hF))
    · obtain ⟨G, hG, -⟩ := Block.mem_within.1 hF
      exact absurd (Block.mem_labels.2 ⟨G, hG⟩) x.query_not_mem

end Positions

/-! ## Texts around a query -/

namespace Fragment

/-- What the fragments put out does not begin with the text between operands. -/
def OpensApart (fs : List Fragment) : Prop :=
  ∀ m ps m', Puts fs m ps m' → ∀ op : SetOperator, ps.head? ≠ some (.text op.between)

namespace OpensApart

variable {fs gs : List Fragment}

theorem nil : OpensApart [] := by
  rintro m ps m' h op
  obtain ⟨-, rfl⟩ := puts_nil.1 h
  exact nofun

theorem refusing (e : Error) : OpensApart [refuse e] :=
  fun _ _ _ h => absurd h.1 not_runs_refuse

theorem text {s : String} (hs : ∀ op : SetOperator, s ≠ op.between) (fs : List Fragment) :
    OpensApart (.text s :: fs) := by
  rintro m ps m' h op hop
  obtain ⟨_, _, rest, htext, -, rfl⟩ := puts_cons.1 h
  obtain ⟨-, rfl⟩ := puts_text.1 htext
  exact hs op (Piece.text.inj (Option.some.inj hop))

theorem append (hf : OpensApart fs) (hg : OpensApart gs) : OpensApart (fs ++ gs) := by
  rintro m ps m' h op
  obtain ⟨n, lead, rest, hlead, hrest, rfl⟩ := puts_append.1 h
  cases lead with
  | nil => exact hg n rest m' hrest op
  | cons p lead => exact hf m _ n hlead op

end OpensApart

end Fragment

theorem OnConflict.opensApart (d : Dialect) (m : Model) (c : OnConflict) :
    OpensApart (c.fragments d m) := by
  have hduplicate : OpensApart (duplicateKeyClause d m c) := by
    unfold duplicateKeyClause requiring
    split
    · split
      · exact .text (by rintro ⟨⟩ <;> decide) _
      · exact .nil
    · exact .refusing _
  have hclause : OpensApart (onConflictClause d m c) := .text (by rintro ⟨⟩ <;> decide) _
  unfold fragments
  split
  · exact hduplicate
  · exact .nil
  · split
    · exact .nil
    · exact hclause
  · exact hclause

theorem Insert.opensApart (d : Dialect) (i : Insert) : OpensApart (i.trailing d) := by
  refine .append ?_ ?_
  · cases i.onConflict with
    | none => exact .nil
    | some c => exact c.opensApart d i.into.model
  · unfold returningFragments requiring
    split
    · exact .nil
    · split
      · exact .text (by rintro ⟨⟩ <;> decide) _
      · exact .refusing _

theorem Insert.puts_listed {i : Insert} {fields : List String} {m m' : Rendering} {ps : List Piece}
    (h : Puts (i.listed fields) m ps m') : ∃ qs, ps = qs ++ [Piece.text ") "] := by
  unfold listed columnsOf at h
  split at h
  · obtain ⟨_, qs, _, -, hclosing, rfl⟩ := puts_append.1 h
    obtain ⟨-, rfl⟩ := puts_text.1 hclosing
    exact ⟨qs, rfl⟩
  · exact absurd h.1 not_runs_refuse

namespace Statement

variable {st : Statement} {d : Dialect} {s : Supply} {r : Rendered} {region : Region} {C : Setting}
  {q : Query} {before ps after : List Piece}

theorem Places.stands_of_enclosed (h : st.Places d s region C (.query q) before ps after)
    (hr : (st.compile d s).1 = .ok r) (hC : IsEnclosed C) : st.Stands q before after := by
  obtain ⟨spot, o, c, rfl⟩ := hC
  have hholds : st.Holds d region
      (fun fs => spot.fill ([text (o ++ "(")] ++ fs ++ [text (")" ++ c)])) (.query q) := h.1
  obtain ⟨_, _, _, _, outer, _, _, _, rest, hfront, hback, -, hplace⟩ := hholds.places_beside hr
  obtain ⟨-, rfl⟩ := puts_text.1 hfront
  obtain ⟨-, rfl⟩ := puts_text.1 hback
  obtain ⟨rfl, -, rfl⟩ := h.unique hplace
  exact .parenthesized outer rest o c

theorem Places.stands_of_whole
    (h : (Statement.query q).Places d s region id (.query q) before ps after) :
    (Statement.query q).Stands q before after := by
  obtain ⟨-, spot, hfill, hputs⟩ := h
  have hgap : spot.fill = Spot.gap.fill := hfill.symm
  obtain ⟨_, _, -, -, -, _, hwhole⟩ := id hputs
  rw [hgap] at hwhole
  obtain ⟨rfl, -, rfl⟩ := hputs.unique hgap (Spot.puts_gap hwhole)
  exact .whole rfl

theorem Places.stands_of_source {i : Insert} {fields : List String} {front : List Fragment}
    (h : (Statement.insert i).Places d s region
      (fun fs => (i.spot d).fill (front ++ i.listed fields ++ fs ++ i.trailing d)) (.query q) before ps
        after)
    (hr : ((Statement.insert i).compile d s).1 = .ok r) (hsource : i.source = .query fields q) :
    (Statement.insert i).Stands q before after := by
  obtain ⟨_, _, _, _, outer, lead, _, trail, rest, hfront, hback, hputs, hplace⟩ :=
    h.1.places_beside hr
  obtain ⟨_, qs, _, -, hlisted, rfl⟩ := puts_append.1 hfront
  obtain ⟨qs', rfl⟩ := Insert.puts_listed hlisted
  obtain rfl := hputs.after_nested
  obtain ⟨rfl, -, rfl⟩ := h.unique hplace
  rw [List.append_nil, ← List.append_assoc, ← List.append_assoc]
  exact .source rfl hsource (i.opensApart d _ _ _ hback)

/-- Next to an operator a query does not stand by itself. -/
theorem Holds.places_beside_operator {p : Option ModelSource} {D E : Setting} {op : SetOperator}
    (h : st.Holds d region (D ∘ E) (.query q)) (hD : IsSpot p D) (hE : op.Beside E)
    (hr : (st.compile d s).1 = .ok r) :
    ∃ before ps after, st.Places d s region (D ∘ E) (.query q) before ps after ∧
      ¬ st.Stands q before after := by
  obtain ⟨spot, rfl, -⟩ := hD
  cases hE with
  | left front back =>
    obtain ⟨_, _, _, _, outer, lead, ps, _, rest, -, hback, -, hplace⟩ := h.places_beside hr
    obtain ⟨_, _, trail, htext, -, rfl⟩ := puts_cons.1 hback
    obtain ⟨-, rfl⟩ := puts_text.1 htext
    exact ⟨_, _, _, hplace, not_stands_left⟩
  | right front back =>
    obtain ⟨_, _, _, _, outer, _, ps, trail, rest, hfront, -, -, hplace⟩ := h.places_beside hr
    obtain ⟨_, lead, _, -, htext, rfl⟩ := puts_append.1 hfront
    obtain ⟨-, rfl⟩ := puts_text.1 htext
    rw [← List.append_assoc] at hplace
    exact ⟨_, _, _, hplace, not_stands_right⟩

/-- An ordered operand without parentheses is refused. -/
theorem Holds.operand_unordered {c : Compound} {isRight : Bool}
    (h : st.Holds d region C (.query (.compound c))) (hbare : c.Bare d isRight)
    (hr : (st.compile d s).1 = .ok r) : (c.operand isRight).isOrdered = false := by
  obtain ⟨_, ps, _, -, _, -, m, m', -, -, hps, -⟩ := h.places hr
  have hoperand : ∃ n qs n', Fragment.Puts (ofOperand d isRight (c.operand isRight).isCompound
      (c.operand isRight).isOrdered ((c.operand isRight).fragments d)) n qs n' := by
    rw [Part.fragments, Query.fragments, Compound.fragments_eq] at hps
    obtain ⟨_, _, _, hps, -, -⟩ := puts_append.1 hps
    obtain ⟨_, _, _, hps, -, -⟩ := puts_append.1 hps
    obtain ⟨_, _, _, hleft, hright, -⟩ := puts_append.1 hps
    obtain ⟨_, _, _, hleft, -, -⟩ := puts_append.1 hleft
    obtain ⟨_, _, _, -, hleft, -⟩ := puts_append.1 hleft
    cases isRight with
    | false => exact ⟨_, _, _, hleft⟩
    | true => exact ⟨_, _, _, hright⟩
  obtain ⟨n, qs, n', hoperand⟩ := hoperand
  obtain ⟨hd, hside⟩ := hbare
  cases hordered : (c.operand isRight).isOrdered with
  | false => rfl
  | true =>
    unfold ofOperand at hoperand
    rw [hd, hside, hordered] at hoperand
    exact absurd hoperand.1 not_runs_refuse

/-- A query other than an operand without parentheses stands by itself. -/
theorem Places.stands (h : st.Places d s region C (.query q) before ps after)
    (hr : (st.compile d s).1 = .ok r)
    (hbare : ∀ D c isRight, st.Holds d region D (.query (.compound c)) → c.Bare d isRight →
      q ≠ c.operand isRight) :
    st.Stands q before after := by
  rcases h.1.last with hmem | ⟨u, D, E, hu, hmem, rfl⟩
  · rcases Statement.query_position hmem with ⟨rfl, rfl⟩ | hC | ⟨i, fields, front, rfl, hsource, rfl⟩
    · exact h.stands_of_whole
    · exact h.stands_of_enclosed hr hC
    · exact h.stands_of_source hr hsource
  · rcases Part.query_position hmem with hE | ⟨c, isRight, rfl, hc, hq⟩
    · exact h.stands_of_enclosed hr (.comp hu.spot.2 hE)
    · exact absurd hq (hbare D c isRight hu hc)

/-- In a compiled statement a `WITH` clause is the first of the text of the query that has it. All
such queries stand by themselves exactly if no operand without parentheses has a `WITH` clause. -/
theorem with_scope_iff (hr : (st.compile d s).1 = .ok r) :
    (∀ region C q, st.Holds d region C (.query q) → q.ctes ≠ [] → ∃ before rest after,
      st.Places d s region C (.query q) before (.text (Cte.lead q.ctes) :: rest) after ∧
        r = .ofPieces d (before ++ .text (Cte.lead q.ctes) :: rest ++ after)) ∧
    ((∀ region C q before ps after, st.Places d s region C (.query q) before ps after →
        q.ctes ≠ [] → st.Stands q before after) ↔
      ∀ region C c isRight, st.Holds d region C (.query (.compound c)) → c.Bare d isRight →
        (c.operand isRight).ctes = []) := by
  refine ⟨fun region C q h hctes => ?_, fun h region C c isRight hc hbare => ?_, ?_⟩
  · obtain ⟨before, ps, after, hplace⟩ := h.places hr
    obtain ⟨-, _, -, _, _, -, -, hps, -⟩ := id hplace
    obtain ⟨rest, rfl⟩ := Query.puts_ctes hps hctes
    exact ⟨before, rest, after, hplace, hplace.compile hr⟩
  · by_contra hctes
    obtain ⟨E, hE, hbeside⟩ := Compound.bare_mem hbare (hc.operand_unordered hbare hr)
    obtain ⟨before, ps, after, hplace, hstands⟩ :=
      (hc.snoc hE).places_beside_operator hc.spot.2 hbeside hr
    exact hstands (h _ _ _ _ _ _ hplace hctes)
  · intro h region C q before ps after hplace hctes
    refine hplace.stands hr fun D c isRight hc hbare hq => ?_
    subst hq
    exact hctes (h region D c isRight hc hbare)

end Statement

namespace Sample

/-- The notes under the name of a table that there is as well. -/
def recentNotes : Cte := ⟨"recent", [], false, .simple ((Select.ofTable "notes").select [.bare "body"])⟩

def recentBodies : Select := (Select.ofTable "recent").select [.bare "body"]

def fromNotes : Query := .simple (recentBodies.withCte recentNotes)

/-- What the notes have, and what the table has. -/
def allBodies : Compound := .of fromNotes .union (.simple recentBodies)

theorem fromNotes_in_scope :
    ((Statement.query (.compound allBodies)).compile .postgres ⟨0⟩).1 = .ok
      ⟨"(WITH \"recent\" AS (SELECT \"body\" FROM \"notes\") SELECT \"body\" FROM \"recent\")" ++
        " UNION (SELECT \"body\" FROM \"recent\")", []⟩ ∧
    ∃ C before rest after,
      (Statement.query (.compound allBodies)).Places .postgres ⟨0⟩ .outside C (.query fromNotes) before
        (.text "WITH " :: rest) after ∧
      (Statement.query (.compound allBodies)).Stands fromNotes before after := by
  have hcompile : ((Statement.query (.compound allBodies)).compile .postgres ⟨0⟩).1 = .ok
      ⟨"(WITH \"recent\" AS (SELECT \"body\" FROM \"notes\") SELECT \"body\" FROM \"recent\")" ++
        " UNION (SELECT \"body\" FROM \"recent\")", []⟩ := by
    with_unfolding_all rfl
  have hlabels : .query fromNotes ∈ (allBodies.block .postgres).labels := by
    simp [Compound.block, allBodies, Compound.of, Query.operandBlock, Dialect.postgres]
  obtain ⟨C, hC⟩ := Block.mem_labels.1 hlabels
  have hholds : (Statement.query (.compound allBodies)).Holds .postgres .outside (id ∘ C)
      (.query fromNotes) := ⟨_, _, _, List.mem_singleton_self _, .inner hC (.self _), rfl⟩
  have hctes : fromNotes.ctes ≠ [] := List.cons_ne_nil _ _
  have hbare (c : Compound) (isRight : Bool) : ¬ c.Bare .postgres isRight := by
    rintro ⟨⟨⟩, -⟩
  obtain ⟨hlead, hstands⟩ := Statement.with_scope_iff hcompile
  obtain ⟨before, rest, after, hplace, -⟩ := hlead _ _ _ hholds hctes
  exact ⟨hcompile, _, before, rest, after, hplace,
    hstands.2 (fun _ _ c isRight _ hc => absurd hc (hbare c isRight)) _ _ _ _ _ _ hplace hctes⟩

/-- Without parentheses the table is hidden by the notes, in both operands. -/
theorem fromNotes_out_of_scope :
    (Statement.query (.compound allBodies)).compile .sqlite ⟨0⟩ =
      (.ok ⟨"WITH \"recent\" AS (SELECT \"body\" FROM \"notes\") SELECT \"body\" FROM \"recent\"" ++
        " UNION SELECT \"body\" FROM \"recent\"", []⟩, ⟨0⟩) ∧
    fromNotes.ctes = [recentNotes] ∧
    ∃ C before ps after,
      (Statement.query (.compound allBodies)).Places .sqlite ⟨0⟩ .outside C (.query fromNotes) before ps
        after ∧
      ¬ (Statement.query (.compound allBodies)).Stands fromNotes before after := by
  have hcompile : (Statement.query (.compound allBodies)).compile .sqlite ⟨0⟩ =
      (.ok ⟨"WITH \"recent\" AS (SELECT \"body\" FROM \"notes\") SELECT \"body\" FROM \"recent\"" ++
        " UNION SELECT \"body\" FROM \"recent\"", []⟩, ⟨0⟩) := by
    with_unfolding_all rfl
  have hbare : allBodies.Bare .sqlite false := ⟨rfl, rfl⟩
  obtain ⟨E, hE, hbeside⟩ := Compound.bare_mem hbare rfl
  have hholds : (Statement.query (.compound allBodies)).Holds .sqlite .outside (id ∘ E)
      (.query fromNotes) := ⟨_, _, _, List.mem_singleton_self _, .inner hE (.self _), rfl⟩
  exact ⟨hcompile, rfl, _, hholds.places_beside_operator .id hbeside (congrArg Prod.fst hcompile)⟩

end Sample

end SqlMapper
