import SqlMapper.Proofs.Statement.Parts

/-!
# SqlMapper.Proofs.Statement.Spots

Where the parts of a query stand in it.

* `Part.sound_block`: what stands directly in a part is in a spot there, whatever it is.
* `Part.Holds`: the parts at any depth, each with its setting.
* `Part.Holds.spot`: such a setting is a spot too, and nothing in a query makes a proposal.
-/

namespace SqlMapper

open Fragment

/-- Every part of the block is in a spot of its own. -/
abbrev Part.Sound (d : Dialect) (b : Block Part) : Prop := b.Sound (Part.fragments d) fun _ => none

namespace Fragment.IsSpot

variable {d : Dialect}

theorem clause (lead : String) : IsSpot none (clause lead) := IsSpot.id.lead [text lead]

theorem ofSigned_left (s : String) (right : List Fragment) : IsSpot none (ofSigned · s right) :=
  ((IsSpot.id.ending _).ending right).parenthesized

theorem ofSigned_right (left : List Fragment) (s : String) : IsSpot none (ofSigned left s) :=
  (IsSpot.id.lead _).parenthesized

theorem ofBinary_left {op : Operator} (h : ¬ (op = .bitXor ∧ d.bitwiseXor = none))
    (right : List Fragment) : IsSpot none (ofBinary d · op right) := by
  unfold ofBinary
  cases op with
  | bitXor =>
    cases hxor : d.bitwiseXor with
    | some s => exact ofSigned_left s right
    | none => exact absurd ⟨rfl, hxor⟩ h
  | concat =>
    cases d.concat with
    | function => exact ((IsSpot.id.ending [text ", "]).ending right).enclosed "CONCAT(" ")"
    | operator => exact ofSigned_left _ right
  | _ => exact ofSigned_left _ right

theorem ofBinary_right {op : Operator} (h : ¬ (op = .bitXor ∧ d.bitwiseXor = none))
    (left : List Fragment) : IsSpot none (ofBinary d left op) := by
  unfold ofBinary
  cases op with
  | bitXor =>
    cases hxor : d.bitwiseXor with
    | some s => exact ofSigned_right left s
    | none => exact absurd ⟨rfl, hxor⟩ h
  | concat =>
    cases d.concat with
    | function => exact (IsSpot.id.lead (left ++ [text ", "])).enclosed "CONCAT(" ")"
    | operator => exact ofSigned_right left _
  | _ => exact ofSigned_right left _

theorem ofSaid (s : String) : IsSpot none (ofSaid · s) := (IsSpot.id.ending _).parenthesized

theorem ofComparison_left (op : Comparison) (escaped : Bool) (right : List Fragment) :
    IsSpot none (ofComparison d op escaped · right) :=
  (((IsSpot.id.ending _).ending right).ending _).parenthesized

theorem ofComparison_right (op : Comparison) (escaped : Bool) (left : List Fragment) :
    IsSpot none (ofComparison d op escaped left) :=
  (IsSpot.id.beside _ _).parenthesized

theorem ofProjected (e : Expr) : IsSpot none (ofProjected e) := by
  unfold Fragment.ofProjected
  cases e.outputName? with
  | none => exact .id
  | some n => exact IsSpot.id.ending _

theorem ofOrderTerm {e : Expr} (h : e.outputName? = none) (direction : Direction)
    (nulls : Option Nulls) : IsSpot none (ofOrderTerm d e · direction nulls) := by
  unfold Fragment.ofOrderTerm
  rw [h]
  exact (IsSpot.id.ending _).ending _

theorem ofSource (q : Query) (n : String) : IsSpot none (ofSource (.derived q n)) :=
  IsSpot.id.parenthesized.ending _

theorem ofCte (c : Cte) : IsSpot none (ofCte c) := (IsSpot.id.enclosed " AS (" ")").lead _

theorem ofOperand {isRight isCompound ordered : Bool}
    (h : ¬ (d.compoundParentheses = .never ∧ (isRight && isCompound) = false ∧ ordered = true)) :
    IsSpot none (ofOperand d isRight isCompound ordered) := by
  unfold Fragment.ofOperand
  cases hd : d.compoundParentheses with
  | always => exact IsSpot.id.parenthesized
  | never =>
    dsimp only
    split
    · exact (IsSpot.id.enclosed "SELECT * FROM (" ") AS ").ending _
    · rename_i hbare
      cases ordered with
      | false => exact .id
      | true => exact absurd ⟨hd, by simpa using hbare, rfl⟩ h

end Fragment.IsSpot

section Sound

variable (d : Dialect)

theorem Part.sound_alone (p : Part) : Part.Sound d (p.alone d) := .single p

theorem Expr.sound_blocks (codec : Option Field) (es : List Expr) :
    ∀ b ∈ Expr.blocks d codec es, Part.Sound d b := by
  intro b hb
  obtain ⟨e, -, rfl⟩ := List.mem_map.1 hb
  exact Part.sound_alone d _

theorem OrderTerm.sound_blocks (ts : List OrderTerm) :
    ∀ b ∈ OrderTerm.blocks d ts, Part.Sound d b := by
  intro b hb
  obtain ⟨t, -, rfl⟩ := List.mem_map.1 hb
  exact Part.sound_alone d _

theorem Expr.sound_block (codec : Option Field) (e : Expr) : Part.Sound d (e.block d codec) := by
  have halone := Part.sound_alone d
  cases e with
  | call function arguments distinct =>
    exact (Block.Sound.commas (sound_blocks d none arguments)).within
      ((IsSpot.id.enclosed _ ")").lead [text function])
  | windowed function window =>
    cases window with
    | inline w =>
      exact (halone _).pair (halone _) (fun gs => (IsSpot.id.ending _).ending _)
        fun fs => IsSpot.id.parenthesized.lead _
    | named n => exact (halone _).within (IsSpot.id.ending _)
  | binary left op right =>
    rw [block]
    split
    · exact .plain _
    · rename_i h
      exact (halone _).pair (halone _) (IsSpot.ofBinary_left h) (IsSpot.ofBinary_right h)
  | list items =>
    exact (Block.Sound.commas (sound_blocks d codec items)).within IsSpot.id.parenthesized
  | subquery q => exact (halone _).within IsSpot.id.parenthesized
  | nonEmpty q => exact (halone _).within (IsSpot.id.enclosed "EXISTS (" ")")
  | condition c => exact halone _
  | cast e type => exact (halone _).within ((IsSpot.id.ending _).enclosed "CAST(" ")")
  | named e n => exact halone _
  | column q n => exact .plain _
  | literal v => exact .plain _
  | raw sql => exact .plain _
  | excluded field => exact .plain _
  | star q => exact .plain _

theorem Condition.sound_comparisonBlock (left : Expr) (op : Comparison) (right : Expr)
    (escaped : Bool) : Part.Sound d (Condition.comparisonBlock d left op right escaped) := by
  have halone := Part.sound_alone d
  have hcomparison (p q : Part) :
      Part.Sound d (.pair (ofComparison d op escaped) (p.alone d) (q.alone d)) :=
    (halone p).pair (halone q) (IsSpot.ofComparison_left op escaped)
      (IsSpot.ofComparison_right op escaped)
  unfold comparisonBlock
  cases op with
  | eq | is | ne | isNot =>
    dsimp only
    split
    · exact (halone _).within (IsSpot.ofSaid _)
    · exact hcomparison _ _
  | like | notLike | ilike | lt | le | gt | ge => exact hcomparison _ _
  | isIn | notIn =>
    dsimp only
    split
    · exact .plain _
    · exact (halone _).pair (.commas (Expr.sound_blocks d _ _))
        (fun gs => IsSpot.ofSigned_left _ _) fun fs =>
          (IsSpot.ofSigned_right fs _).comp IsSpot.id.parenthesized
    · exact (halone _).pair (halone _) (IsSpot.ofSigned_left _) fun fs => IsSpot.ofSigned_right fs _
  | between =>
    dsimp only
    split
    · exact (((((halone _).append (.plain _)).append (halone _)).append (.plain _)).append
        (halone _)).within IsSpot.id.parenthesized
    · exact .plain _

theorem Condition.sound_block (c : Condition) : Part.Sound d (c.block d) := by
  cases c with
  | compare left op right negated escaped =>
    exact (sound_comparisonBlock d left op right escaped).within (IsSpot.id.lead _)
  | group connective members negated =>
    cases members with
    | nil => exact .plain _
    | cons c cs =>
      refine ((Block.Sound.separated _ fun b hb => ?_).within IsSpot.id.parenthesized).within
        (IsSpot.id.lead _)
      obtain ⟨c, -, rfl⟩ := List.mem_map.1 hb
      exact Part.sound_alone d _
  | operand e => exact Part.sound_alone d _

theorem Window.sound_block (w : Window) : Part.Sound d (w.block d) := by
  have hclause (lead : String) (bs : List (Block Part)) (h : ∀ b ∈ bs, Part.Sound d b) :
      Part.Sound d ((Block.commas bs).within (text lead :: ·)) :=
    (Block.Sound.commas h).within (IsSpot.clause lead)
  refine Block.Sound.separated _ fun b hb => ?_
  simp only [List.mem_append] at hb
  rcases hb with (hb | hb) | hb
  · split at hb
    · cases hb
    · rw [List.mem_singleton.1 hb]
      exact hclause _ _ (Expr.sound_blocks d none w.partitionBy)
  · split at hb
    · cases hb
    · rw [List.mem_singleton.1 hb]
      exact hclause _ _ (OrderTerm.sound_blocks d w.orderBy)
  · obtain ⟨f, -, rfl⟩ := Option.map_eq_some_iff.1 (Option.mem_toList.1 hb)
    exact .plain _

theorem Window.sound_declaredBlock (w : Window) : Part.Sound d (w.declaredBlock d) := by
  unfold declaredBlock
  split
  · exact (Part.sound_alone d _).within (IsSpot.id.beside _ _)
  · exact .plain _

theorem OrderTerm.sound_block (t : OrderTerm) : Part.Sound d (t.block d) := by
  unfold block
  split
  · exact .plain _
  · rename_i h
    exact (Part.sound_alone d _).within (IsSpot.ofOrderTerm h t.direction t.nulls)

theorem Source.sound_block (s : Source) : Part.Sound d (s.block d) := by
  cases s with
  | derived q n => exact (Part.sound_alone d _).within (IsSpot.ofSource q n)
  | model m => exact .plain _
  | table n => exact .plain _

theorem Join.sound_block (j : Join) : Part.Sound d (j.block d) := by
  refine ((Block.Sound.plain _).append (Part.sound_alone d _)).append ?_
  split
  · exact (Part.sound_alone d _).within (IsSpot.clause _)
  · exact .plain _

theorem Cte.sound_blocks (cs : List Cte) : Part.Sound d (Cte.blocks d cs) := by
  unfold blocks
  split
  · exact .plain _
  · refine (Block.Sound.commas fun b hb => ?_).within (IsSpot.id.beside [_] _)
    obtain ⟨c, -, rfl⟩ := List.mem_map.1 hb
    exact (Part.sound_alone d _).within (IsSpot.ofCte c)

theorem Condition.sound_clauseBlock (lead : String) (c : Option Condition) :
    Part.Sound d (Condition.clauseBlock d lead c) := by
  cases c with
  | none => exact .plain _
  | some c => exact (Part.sound_alone d _).within (IsSpot.clause lead)

theorem Source.sound_clauseBlock (lead : String) (s : Option Source) :
    Part.Sound d (Source.clauseBlock d lead s) := by
  cases s with
  | none => exact .plain _
  | some s => exact (Part.sound_alone d _).within (IsSpot.clause lead)

theorem Expr.sound_projectionBlocks (es : List Expr) :
    ∀ b ∈ Expr.projectionBlocks d es, Part.Sound d b := by
  intro b hb
  obtain ⟨e, -, rfl⟩ := List.mem_map.1 hb
  exact (Part.sound_alone d _).within (IsSpot.ofProjected e)

theorem Distinct.sound_block (x : Distinct) : Part.Sound d (x.block d) := by
  cases x with
  | on es =>
    rw [block]
    split
    · exact (Block.Sound.commas (Expr.sound_blocks d none es)).within
        (IsSpot.id.enclosed "DISTINCT ON (" ") ")
    · exact .plain _
  | off => exact .plain _
  | rows => exact .plain _

theorem Select.sound_block (s : Select) : Part.Sound d (s.block d) := by
  have hprojection : Part.Sound d (s.projectionBlock d) := by
    unfold projectionBlock
    split
    · exact .plain _
    · exact .commas (Expr.sound_projectionBlocks d _)
  have hjoins : Part.Sound d (.concat (s.walk.map fun j => (Part.join j).alone d)) := by
    refine .concat fun b hb => ?_
    obtain ⟨j, -, rfl⟩ := List.mem_map.1 hb
    exact Part.sound_alone d _
  have hwindows : Part.Sound d (.listClause " WINDOW " (s.windows.map (Window.declaredBlock d))) := by
    refine .listClause _ fun b hb => ?_
    obtain ⟨w, -, rfl⟩ := List.mem_map.1 hb
    exact Window.sound_declaredBlock d w
  have hbody := ((Block.Sound.plain [text "SELECT "]).append (Distinct.sound_block d s.distinct)).append
    hprojection
  have hbody := (hbody.append (Source.sound_clauseBlock d " FROM " s.source)).append hjoins
  have hbody := hbody.append (Condition.sound_clauseBlock d " WHERE " s.filter)
  have hbody := hbody.append (.listClause " GROUP BY " (Expr.sound_blocks d none s.groupBy))
  have hbody := (hbody.append (Condition.sound_clauseBlock d " HAVING " s.having)).append hwindows
  have hbody := hbody.append (.listClause " ORDER BY " (OrderTerm.sound_blocks d s.orderBy))
  exact (Cte.sound_blocks d s.ctes).append
    ((hbody.append (.plain _)).within ((IsSpot.id.lead _).nested (selectScope s.origins)))

theorem Query.sound_operandBlock (isRight : Bool) (q : Query) :
    Part.Sound d (q.operandBlock d isRight) := by
  unfold operandBlock
  split
  · exact .plain _
  · rename_i h
    exact (Part.sound_alone d _).within (IsSpot.ofOperand h)

theorem Compound.sound_block (c : Compound) : Part.Sound d (c.block d) := by
  have h := (Cte.sound_blocks d c.ctes).append (Query.sound_operandBlock d false c.left)
  have h := (h.append (.plain [text (" " ++ c.op.keyword ++ " ")])).append
    (Query.sound_operandBlock d true c.right)
  refine (h.append ?_).append (.plain _)
  split
  · exact .plain _
  · exact (Block.Sound.commas (OrderTerm.sound_blocks d _)).within
      ((IsSpot.id.nested _).lead [text " ORDER BY "])

theorem Part.sound_block (p : Part) : Part.Sound d (p.block d) := by
  cases p with
  | operand codec e => exact Expr.sound_block d codec e
  | condition c => exact Condition.sound_block d c
  | window w => exact Window.sound_block d w
  | term t => exact OrderTerm.sound_block d t
  | source s => exact Source.sound_block d s
  | join j => exact Join.sound_block d j
  | query q =>
    cases q with
    | simple s => exact Select.sound_block d s
    | compound c => exact Compound.sound_block d c

end Sound

/-! ## Parts at any depth -/

/-- The part holds another one, itself included, in the setting. -/
inductive Part.Holds (d : Dialect) : Part → Setting → Part → Prop
  | self (p : Part) : Part.Holds d p id p
  | inner {p q t : Part} {C D : Setting} :
      (C, q) ∈ (p.block d).parts → Part.Holds d q D t → Part.Holds d p (C ∘ D) t

theorem Part.Holds.spot {d : Dialect} {p t : Part} {C : Setting} (h : p.Holds d C t) :
    p.fragments d = C (t.fragments d) ∧ IsSpot none C := by
  induction h with
  | self p => exact ⟨rfl, .id⟩
  | @inner p q t C D hq _ ih =>
    obtain ⟨hfragments, hspot⟩ := sound_block d p C q hq
    rw [fragments_block] at hfragments
    refine ⟨by rw [hfragments, ih.1]; rfl, hspot.comp ih.2⟩

theorem Part.Holds.snoc {d : Dialect} {p u t : Part} {C D : Setting} (h : p.Holds d C u)
    (ht : (D, t) ∈ (u.block d).parts) : p.Holds d (C ∘ D) t := by
  induction h with
  | self p =>
    have hinner : p.Holds d (D ∘ id) t := .inner ht (.self t)
    exact hinner
  | @inner p q u C' D' hq _ ih =>
    have hinner : p.Holds d (C' ∘ (D' ∘ D)) t := .inner hq (ih ht)
    exact hinner

/-- A part at depth stands directly in one that is held too. -/
theorem Part.Holds.last {d : Dialect} {p t : Part} {C : Setting} (h : p.Holds d C t) :
    (t = p ∧ C = id) ∨
      ∃ u D E, p.Holds d D u ∧ (E, t) ∈ (u.block d).parts ∧ C = D ∘ E := by
  induction h with
  | self p => exact .inl ⟨rfl, rfl⟩
  | @inner p q t C D hq _ ih =>
    rcases ih with ⟨rfl, rfl⟩ | ⟨u, D', E, hu, ht, rfl⟩
    · exact .inr ⟨p, id, C, .self p, hq, rfl⟩
    · exact .inr ⟨u, C ∘ D', E, .inner hq hu, ht, rfl⟩

end SqlMapper
