import SqlMapper.Proofs.Fragment.Block
import SqlMapper.Proofs.Statement.Laid

/-!
# SqlMapper.Proofs.Statement.Parts

The parts of queries and of what stands in them.

`Part.block` puts a part together from the parts that stand directly in it, and has the fragments of
the part (`Part.fragments_block`). What is given but has no place in the text is no part, and neither
is what stands in a refusal.
-/

namespace SqlMapper

open Fragment

inductive Part
  /-- An operand, with the field whose encoder its literals go through. -/
  | operand (codec : Option Field) (e : Expr)
  | condition (c : Condition)
  | window (w : Window)
  | term (t : OrderTerm)
  | source (s : Source)
  | join (j : Join)
  | query (q : Query)

namespace Part

def fragments (d : Dialect) : Part → List Fragment
  | operand codec e => e.fragments d codec
  | condition c => c.fragments d
  | window w => w.fragments d
  | term t => t.fragments d
  | source s => s.fragments d
  | join j => (j.fragments d).content.2
  | query q => q.fragments d

def alone (d : Dialect) (p : Part) : Block Part := .single (p.fragments d) p

end Part

/-! ## Operands -/

/-- The members of what stands on the right of `IN`: those of a list, or the values of an array. -/
def Expr.members? : Expr → Option (List Expr)
  | .list items => some items
  | e => e.arrayItems?.map (List.map .literal)

def Expr.blocks (d : Dialect) (codec : Option Field) (es : List Expr) : List (Block Part) :=
  es.map fun e => (Part.operand codec e).alone d

def OrderTerm.blocks (d : Dialect) (ts : List OrderTerm) : List (Block Part) :=
  ts.map fun t => (Part.term t).alone d

def Expr.block (d : Dialect) (codec : Option Field) : Expr → Block Part
  | .call function arguments distinct =>
    (Block.commas (Expr.blocks d none arguments)).within fun fs =>
      text function :: enclosed (if distinct then "(DISTINCT " else "(") fs ")"
  | .windowed function (.inline w) =>
    .pair (fun fs gs => fs ++ [text " OVER "] ++ parenthesized gs) ((Part.operand none function).alone d)
      ((Part.window w).alone d)
  | .windowed function (.named n) =>
    ((Part.operand none function).alone d).within (· ++ [text " OVER ", identifier n])
  | .binary left op right =>
    if op = .bitXor ∧ d.bitwiseXor = none then .plain [refuse (.compilation (.noBitwiseXor d.name))]
    else
      .pair (ofBinary d · op ·) ((Part.operand none left).alone d) ((Part.operand none right).alone d)
  | .list items => (Block.commas (Expr.blocks d codec items)).within parenthesized
  | .subquery q => ((Part.query q).alone d).within parenthesized
  | .nonEmpty q => ((Part.query q).alone d).within (enclosed "EXISTS (" · ")")
  | .condition c => (Part.condition c).alone d
  | .cast e type =>
    ((Part.operand none e).alone d).within fun fs =>
      enclosed "CAST(" (fs ++ [text " AS ", text type]) ")"
  | .named e _ => (Part.operand codec e).alone d
  | e => .plain (e.fragments d codec)

/-- A comparison without what negates it. -/
def Condition.comparisonBlock (d : Dialect) (left : Expr) (op : Comparison) (right : Expr)
    (escaped : Bool) : Block Part :=
  let l := (Part.operand none left).alone d
  let r := (Part.operand left.field? right).alone d
  let comparison (r : Block Part) : Block Part := .pair (ofComparison d op escaped) l r
  match op with
  | .eq | .is => if right.isNullLiteral then l.within (ofSaid · "IS NULL") else comparison r
  | .ne | .isNot => if right.isNullLiteral then l.within (ofSaid · "IS NOT NULL") else comparison r
  | .like | .notLike | .ilike => comparison ((Part.operand none right).alone d)
  | .isIn | .notIn =>
    match right.members? with
    | some [] => .plain (ofMembership op [] [])
    | some es =>
      .pair (fun fs gs => ofSigned fs op.sign (parenthesized gs)) l
        (.commas (Expr.blocks d left.field? es))
    | none => .pair (ofSigned · op.sign ·) l r
  | .between =>
    match right with
    | .list [low, high] =>
      (l ++ .plain [text " BETWEEN "] ++ (Part.operand left.field? low).alone d ++
        .plain [text " AND "] ++ (Part.operand left.field? high).alone d).within parenthesized
    | _ => .plain [refuse (.query .betweenBounds)]
  | .lt | .le | .gt | .ge => comparison r

def Condition.block (d : Dialect) : Condition → Block Part
  | .compare left op right negated escaped =>
    (Condition.comparisonBlock d left op right escaped).within (negation negated ++ ·)
  | .group connective [] negated => .plain (negation negated ++ [text connective.ofNothing])
  | .group connective members negated =>
    ((Block.separated (" " ++ connective.keyword ++ " ")
      (members.map fun c => (Part.condition c).alone d)).within parenthesized).within
        (negation negated ++ ·)
  | .operand e => (Part.operand none e).alone d

/-! ## Queries -/

def Window.block (d : Dialect) (w : Window) : Block Part :=
  let clause (lead : String) : List (Block Part) → List (Block Part)
    | [] => []
    | bs => [(Block.commas bs).within (text lead :: ·)]
  .separated " " (clause "PARTITION BY " (Expr.blocks d none w.partitionBy) ++
    clause "ORDER BY " (OrderTerm.blocks d w.orderBy) ++
      (w.frame.map fun f => .plain [text f.sql]).toList)

/-- A window in the `WINDOW` clause of a query. -/
def Window.declaredBlock (d : Dialect) (w : Window) : Block Part :=
  match w.name with
  | some n => ((Part.window w).alone d).within fun fs => [identifier n, text " AS ("] ++ fs ++ [text ")"]
  | none => .plain [refuse (.compilation .unnamedWindow)]

/-- A term that goes by an output name has no operand. -/
def OrderTerm.block (d : Dialect) (t : OrderTerm) : Block Part :=
  match t.operand.outputName? with
  | some _ => .plain (t.fragments d)
  | none =>
    ((Part.operand none t.operand).alone d).within (ofOrderTerm d t.operand · t.direction t.nulls)

def Source.block (d : Dialect) : Source → Block Part
  | .derived q n => ((Part.query q).alone d).within (ofSource (.derived q n))
  | s => .plain (s.fragments d)

def Join.block (d : Dialect) (j : Join) : Block Part :=
  .plain [text (" " ++ j.kind.keyword ++ " ")] ++ (Part.source j.target).alone d ++
    match j.on with
    | .condition c => ((Part.condition c).alone d).within (clause " ON ")
    | on => .plain (on.fragments d j.context j.target.key)

def Cte.blocks (d : Dialect) (cs : List Cte) : Block Part :=
  match cs with
  | [] => .plain []
  | _ =>
    (Block.commas (cs.map fun c => ((Part.query c.query).alone d).within (ofCte c))).within fun fs =>
      text (if cs.any Cte.recursive then "WITH RECURSIVE " else "WITH ") :: fs ++ [text " "]

def Condition.clauseBlock (d : Dialect) (lead : String) : Option Condition → Block Part
  | none => .plain []
  | some c => ((Part.condition c).alone d).within (clause lead)

def Source.clauseBlock (d : Dialect) (lead : String) : Option Source → Block Part
  | none => .plain []
  | some s => ((Part.source s).alone d).within (clause lead)

def Expr.projectionBlocks (d : Dialect) (es : List Expr) : List (Block Part) :=
  es.map fun e => ((Part.operand none e).alone d).within (ofProjected e)

def Distinct.block (d : Dialect) : Distinct → Block Part
  | .on es =>
    if d.distinctOn then
      (Block.commas (Expr.blocks d none es)).within (enclosed "DISTINCT ON (" · ") ")
    else .plain [refuse (.compilation (.unsupported d.name .distinctOn))]
  | x => .plain (x.fragments d)

def Select.projectionBlock (d : Dialect) (s : Select) : Block Part :=
  match s.columns with
  | [] => .plain (s.projectionFragments d)
  | es => .commas (Expr.projectionBlocks d es)

def Select.lastFragments (d : Dialect) (s : Select) : List Fragment :=
  ofLimit d s.limit s.offset ++
    if s.forUpdate then
      requiring d.forUpdate (.unsupported d.name .forUpdate) [text " FOR UPDATE"]
    else []

def Select.block (d : Dialect) (s : Select) : Block Part :=
  Cte.blocks d s.ctes ++
    (.plain [text "SELECT "] ++ s.distinct.block d ++ s.projectionBlock d ++
      Source.clauseBlock d " FROM " s.source ++
      .concat (s.walk.map fun j => (Part.join j).alone d) ++
      Condition.clauseBlock d " WHERE " s.filter ++
      .listClause " GROUP BY " (Expr.blocks d none s.groupBy) ++
      Condition.clauseBlock d " HAVING " s.having ++
      .listClause " WINDOW " (s.windows.map (Window.declaredBlock d)) ++
      .listClause " ORDER BY " (OrderTerm.blocks d s.orderBy) ++
      .plain (s.lastFragments d)).within
        fun fs => [nested (selectScope s.origins) (s.origins.map enlist ++ fs)]

/-- An ordered operand is refused where it would stand without parentheses. -/
def Query.operandBlock (d : Dialect) (isRight : Bool) (q : Query) : Block Part :=
  if d.compoundParentheses = .never ∧ (isRight && q.isCompound) = false ∧ q.isOrdered then
    .plain [refuse (.compilation (.operandOrdered d.name))]
  else ((Part.query q).alone d).within (ofOperand d isRight q.isCompound q.isOrdered)

def Compound.block (d : Dialect) (c : Compound) : Block Part :=
  Cte.blocks d c.ctes ++ c.left.operandBlock d false ++ .plain [text (" " ++ c.op.keyword ++ " ")] ++
    c.right.operandBlock d true ++
    (match c.orderBy with
    | [] => .plain []
    | ts => (Block.commas (OrderTerm.blocks d ts)).within fun fs =>
      [text " ORDER BY ", nested { bare := true } fs]) ++
    .plain (ofLimit d c.limit c.offset)

def Part.block (d : Dialect) : Part → Block Part
  | operand codec e => e.block d codec
  | condition c => c.block d
  | window w => w.block d
  | term t => t.block d
  | source s => s.block d
  | join j => j.block d
  | query (.simple s) => s.block d
  | query (.compound c) => c.block d

/-! ## Blocks have the fragments of their parts -/

section Fragments

variable (d : Dialect)

theorem Expr.listFragments_eq_map (codec : Option Field) (es : List Expr) :
    Expr.listFragments d codec es = es.map fun e => e.fragments d codec := by
  induction es with
  | nil => rfl
  | cons e es ih => rw [Expr.listFragments, List.map_cons, ih]

theorem OrderTerm.listFragments_eq_map (ts : List OrderTerm) :
    OrderTerm.listFragments d ts = ts.map (OrderTerm.fragments d) := by
  induction ts with
  | nil => rfl
  | cons t ts ih => rw [OrderTerm.listFragments, List.map_cons, ih]

theorem Condition.listFragments_eq_map (cs : List Condition) :
    Condition.listFragments d cs = cs.map (Condition.fragments d) := by
  induction cs with
  | nil => rfl
  | cons c cs ih => rw [Condition.listFragments, List.map_cons, ih]

theorem Window.listFragments_eq_map (ws : List Window) :
    Window.listFragments d ws = ws.map fun w => ofDeclaredWindow w.name (w.fragments d) := by
  induction ws with
  | nil => rfl
  | cons w ws ih => rw [Window.listFragments, List.map_cons, ih]

theorem Cte.listFragments_eq_map (cs : List Cte) :
    Cte.listFragments d cs = cs.map fun c => c.query.fragments d := by
  induction cs with
  | nil => rfl
  | cons c cs ih =>
    rw [Cte.listFragments, List.map_cons, ih]
    cases c
    rw [Cte.fragments]

theorem Expr.projectionFragments_eq_map (es : List Expr) :
    Expr.projectionFragments d es = es.map fun e => ofProjected e (e.fragments d none) := by
  induction es with
  | nil => rfl
  | cons e es ih => rw [Expr.projectionFragments, List.map_cons, ih]

@[simp] theorem Part.fragments_alone (p : Part) : (p.alone d).fragments = p.fragments d := rfl

@[simp] theorem Expr.fragments_blocks (codec : Option Field) (es : List Expr) :
    (Expr.blocks d codec es).map Block.fragments = Expr.listFragments d codec es := by
  rw [blocks, List.map_map, listFragments_eq_map]
  rfl

@[simp] theorem OrderTerm.fragments_blocks (ts : List OrderTerm) :
    (OrderTerm.blocks d ts).map Block.fragments = OrderTerm.listFragments d ts := by
  rw [blocks, List.map_map, listFragments_eq_map]
  rfl

theorem Expr.fragments_block (codec : Option Field) (e : Expr) :
    (e.block d codec).fragments = e.fragments d codec := by
  cases e with
  | windowed function window =>
    cases window <;> simp [block, fragments, WindowRef.fragments, Part.fragments]
  | binary left op right =>
    rw [block, fragments]
    split
    · rename_i h
      obtain ⟨rfl, hxor⟩ := h
      simp only [ofBinary, hxor, Block.fragments_plain]
    · rfl
  | _ => simp [block, fragments, Part.fragments]

/-- What stands on the right of `IN` has the fragments of its members. -/
theorem Expr.fragments_members (codec : Option Field) (e : Expr) :
    e.members?.map (Expr.listFragments d codec) =
      (e.itemFragments? d codec).or (e.arrayItems?.map (List.map (ofLiteral codec))) := by
  have harray (e : Expr) (hitems : e.itemFragments? d codec = none)
      (hmembers : e.members? = e.arrayItems?.map (List.map .literal)) :
      e.members?.map (Expr.listFragments d codec) =
        (e.itemFragments? d codec).or (e.arrayItems?.map (List.map (ofLiteral codec))) := by
    rw [hitems, hmembers, Option.map_map, Option.none_or]
    congr 1
    funext vs
    rw [Function.comp_apply, listFragments_eq_map, List.map_map]
    exact List.map_congr_left fun v _ => by rw [Function.comp_apply, fragments]
  cases e with
  | list items => rfl
  | _ => exact harray _ (by rw [itemFragments?]; rintro _ ⟨⟩) rfl

theorem Condition.fragments_comparisonBlock (left : Expr) (op : Comparison) (right : Expr)
    (negated escaped : Bool) :
    negation negated ++ (Condition.comparisonBlock d left op right escaped).fragments =
      (Condition.compare left op right negated escaped).fragments d := by
  rw [Condition.fragments.eq_def]
  dsimp only
  congr 1
  have hmembers := Expr.fragments_members d left.field? right
  cases op with
  | eq | is | ne | isNot =>
    unfold comparisonBlock
    dsimp only
    split <;> rfl
  | like | notLike | ilike | lt | le | gt | ge => rfl
  | isIn | notIn =>
    unfold comparisonBlock
    cases hitems : right.itemFragments? d left.field? with
    | some fss =>
      rw [hitems, Option.some_or] at hmembers
      obtain ⟨es, hes, rfl⟩ := Option.map_eq_some_iff.1 hmembers
      rw [hes]
      cases es <;> simp [ofMembership, Expr.listFragments, Part.fragments]
    | none =>
      rw [hitems, Option.none_or] at hmembers
      cases harray : right.arrayItems? with
      | some vs =>
        rw [harray, Option.map_some] at hmembers
        obtain ⟨es, hes, hvs⟩ := Option.map_eq_some_iff.1 hmembers
        dsimp only
        rw [hes, ← hvs]
        cases es <;> simp [ofMembership, Expr.listFragments, Part.fragments]
      | none =>
        rw [harray, Option.map_none, Option.map_eq_none_iff] at hmembers
        dsimp only
        rw [hmembers]
        rfl
  | between =>
    unfold comparisonBlock
    dsimp only
    split
    · simp [Expr.itemFragments?, Expr.listFragments, ofBetween, Part.fragments]
    · rename_i hpair
      cases right with
      | list items =>
        rw [Expr.itemFragments?, Option.getD_some]
        rcases items with _ | ⟨e, _ | ⟨e', _ | ⟨e'', es⟩⟩⟩
        · rfl
        · rfl
        · exact absurd rfl (hpair e e')
        · rfl
      | _ => rfl

theorem Condition.fragments_block (c : Condition) : (c.block d).fragments = c.fragments d := by
  cases c with
  | compare left op right negated escaped =>
    rw [block, Block.fragments_within, fragments_comparisonBlock]
  | group connective members negated =>
    rw [fragments, listFragments_eq_map]
    cases members with
    | nil => rfl
    | cons c cs =>
      simp [block, ofGroup, Part.fragments, Function.comp_def]
  | operand e => rw [fragments]; rfl

theorem Window.fragments_block (w : Window) : (w.block d).fragments = w.fragments d := by
  obtain ⟨name, partitionBy, orderBy, frame⟩ := w
  rw [fragments, block, Block.fragments_separated, ofWindow]
  congr 1
  cases partitionBy <;> cases orderBy <;> cases frame <;>
    simp [Expr.blocks, OrderTerm.blocks, Expr.listFragments_eq_map, OrderTerm.listFragments_eq_map,
      Part.fragments, Function.comp_def]

theorem Window.fragments_declaredBlock (w : Window) :
    (w.declaredBlock d).fragments = ofDeclaredWindow w.name (w.fragments d) := by
  unfold declaredBlock ofDeclaredWindow
  cases w.name <;> rfl

theorem OrderTerm.fragments_block (t : OrderTerm) : (t.block d).fragments = t.fragments d := by
  obtain ⟨operand, direction, nulls⟩ := t
  unfold block
  cases h : operand.outputName? with
  | some n => rfl
  | none => rw [fragments]; rfl

theorem Source.fragments_block (s : Source) : (s.block d).fragments = s.fragments d := by
  cases s <;> simp [block, fragments, Part.fragments]

theorem Join.fragments_block (j : Join) : (j.block d).fragments = (j.fragments d).content.2 := by
  obtain ⟨context, target, kind, on, exposedAs⟩ := j
  rw [fragments]
  cases on with
  | condition c => simp [block, JoinOn.fragments, Part.fragments]
  | _ => rfl

theorem Cte.fragments_blocks (cs : List Cte) :
    (Cte.blocks d cs).fragments = ofCtes cs (Cte.listFragments d cs) := by
  cases cs with
  | nil => rfl
  | cons c cs =>
    have hentries : List.zipWith ofCte (c :: cs) (Cte.listFragments d (c :: cs)) =
        (c :: cs).map fun c => ofCte c (c.query.fragments d) := by
      rw [listFragments_eq_map, List.zipWith_map_right, List.zipWith_self]
    rw [ofCtes_cons, hentries]
    simp only [blocks, Block.fragments_within, Block.fragments_commas, List.map_map]
    rfl

theorem Condition.fragments_clauseBlock (lead : String) (c : Option Condition) :
    (Condition.clauseBlock d lead c).fragments = Condition.clauseFragments d lead c := by
  cases c with
  | none => rfl
  | some c => rw [clauseFragments]; rfl

theorem Source.fragments_clauseBlock (lead : String) (s : Option Source) :
    (Source.clauseBlock d lead s).fragments = Source.clauseFragments d lead s := by
  cases s with
  | none => rfl
  | some s => rw [clauseFragments]; rfl

theorem Expr.fragments_projectionBlocks (es : List Expr) :
    (Expr.projectionBlocks d es).map Block.fragments = Expr.projectionFragments d es := by
  rw [projectionBlocks, List.map_map, projectionFragments_eq_map]
  rfl

theorem Distinct.fragments_block (x : Distinct) : (x.block d).fragments = x.fragments d := by
  cases x with
  | on es =>
    rw [block, fragments, requiring]
    split
    · rw [Block.fragments_within, Block.fragments_commas, Expr.fragments_blocks]
    · rfl
  | _ => rfl

theorem Select.fragments_projectionBlock (s : Select) :
    (s.projectionBlock d).fragments = s.projectionFragments d := by
  unfold projectionBlock
  cases h : s.columns with
  | nil => rfl
  | cons e es =>
    have hchosen : s.projectionFragments d = commas (Expr.projectionFragments d (e :: es)) := by
      unfold projectionFragments
      rw [h]
    rw [hchosen, Block.fragments_commas, Expr.fragments_projectionBlocks]

theorem Select.fragments_block (s : Select) : (s.block d).fragments = s.fragments d := by
  have hwalk : (s.walk.map fun j => (Part.join j).alone d).flatMap Block.fragments =
      s.walk.flatMap fun j => (j.fragments d).content.2 := by
    rw [List.flatMap_map]
    rfl
  have hwindows : (s.windows.map (Window.declaredBlock d)).map Block.fragments =
      Window.listFragments d s.windows := by
    rw [List.map_map, Window.listFragments_eq_map]
    exact List.map_congr_left fun w _ => Window.fragments_declaredBlock d w
  rw [fragments_eq]
  simp only [block, headFragments, tailFragments, lastFragments, Block.fragments_append,
    Block.fragments_within, Block.fragments_plain, Block.fragments_concat,
    Block.fragments_listClause, Cte.fragments_blocks, Distinct.fragments_block,
    fragments_projectionBlock, Source.fragments_clauseBlock, Condition.fragments_clauseBlock,
    Expr.fragments_blocks, OrderTerm.fragments_blocks, hwalk, hwindows, List.append_assoc]

theorem Query.fragments_operandBlock (isRight : Bool) (q : Query) :
    (q.operandBlock d isRight).fragments =
      ofOperand d isRight q.isCompound q.isOrdered (q.fragments d) := by
  unfold operandBlock
  split
  · rename_i h
    obtain ⟨hnever, hsimple, hordered⟩ := h
    simp [ofOperand, hnever, hsimple, hordered, requiring]
  · rfl

theorem Compound.fragments_block (c : Compound) : (c.block d).fragments = c.fragments d := by
  rw [fragments_eq]
  simp only [block, Block.fragments_append, Block.fragments_plain, Cte.fragments_blocks,
    Query.fragments_operandBlock]
  congr 2
  cases h : c.orderBy with
  | nil => rfl
  | cons t ts => simp [Compound.orderingFragments]

theorem Part.fragments_block (p : Part) : (p.block d).fragments = p.fragments d := by
  cases p with
  | operand codec e => exact Expr.fragments_block d codec e
  | condition c => exact Condition.fragments_block d c
  | window w => exact Window.fragments_block d w
  | term t => exact OrderTerm.fragments_block d t
  | source s => exact Source.fragments_block d s
  | join j => exact Join.fragments_block d j
  | query q =>
    rw [fragments]
    cases q with
    | simple s => rw [Query.fragments]; exact Select.fragments_block d s
    | compound c => rw [Query.fragments]; exact Compound.fragments_block d c

end Fragments

end SqlMapper
