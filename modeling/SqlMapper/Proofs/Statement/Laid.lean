import SqlMapper.Proofs.Statement.Clauses

/-!
# SqlMapper.Proofs.Statement.Laid

Every query is laid out from its atoms, in every dialect (`Query.laid`). The induction follows the
syntax, with one lemma for each kind of it.
-/

namespace SqlMapper

open Fragment Placeholder

namespace Join

theorem atoms_eq (j : Join) : j.atoms = j.edge.map fun j => (j.target.origin, j.atoms.content.2) := by
  cases j; rfl

theorem listAtoms_eq_map (joins : List Join) : listAtoms joins = joins.map atoms := by
  induction joins with
  | nil => rfl
  | cons j js ih => rw [listAtoms, List.map_cons, ih]

theorem ordered_listAtoms (joins : List Join) (root : String) :
    JoinEdge.ordered (listAtoms joins) root = (walk joins root).map atoms := by
  have h : atoms = fun j => j.edge.map fun j => (j.target.origin, j.atoms.content.2) :=
    funext atoms_eq
  rw [listAtoms_eq_map, h, ordered_eq_walk]

/-- The fragments of a join start with its keyword. -/
theorem startsApart_fragments (d : Dialect) (j : Join) :
    StartsApart (j.fragments d).content.2 := by
  obtain ⟨context, target, kind, on, exposedAs⟩ := j
  simp [fragments, isSeparator]

end Join

namespace Fragment

@[simp] theorem startsApart_clause {s : String} {fs : List Fragment} :
    StartsApart (clause s fs) ↔ (text s).isSeparator = true := startsApart_cons

theorem startsApart_listClause {s : String} (h : (text s).isSeparator = true)
    (fss : List (List Fragment)) : StartsApart (listClause s fss) := by
  cases fss with
  | nil => exact startsApart_nil
  | cons fs fss => exact startsApart_clause.2 h

theorem startsApart_conditionClause (d : Dialect) {s : String} (h : (text s).isSeparator = true)
    (c : Option Condition) : StartsApart (Condition.clauseFragments d s c) := by
  cases c with
  | none => exact startsApart_nil
  | some c => exact startsApart_clause.2 h

theorem startsApart_sourceClause (d : Dialect) {s : String} (h : (text s).isSeparator = true)
    (source : Option Source) : StartsApart (Source.clauseFragments d s source) := by
  cases source with
  | none => exact startsApart_nil
  | some source => exact startsApart_clause.2 h

theorem startsApart_ofLimit (d : Dialect) (limit offset : Option Nat) :
    StartsApart (ofLimit d limit offset) := by
  unfold ofLimit
  refine StartsApart.append ?_ ?_
  · split <;> simp [isSeparator]
  · cases offset <;> simp [isSeparator]

theorem endsApart_distinct (d : Dialect) (x : Distinct) : EndsApart (x.fragments d) := by
  cases x with
  | off => exact endsApart_nil
  | rows => exact endsApart_singleton.2 rfl
  | on exprs =>
    unfold Distinct.fragments requiring
    split
    · exact endsApart_concat.2 rfl
    · exact endsApart_singleton.2 rfl

theorem Laid.flatMap {d : Dialect} {α : Type} {xs : List α} {as : α → List Atom}
    {fs : α → List Fragment} (h : ∀ x ∈ xs, Laid d (as x) (fs x) ∧ StartsApart (fs x)) :
    Laid d (xs.map as).flatten (xs.flatMap fs) ∧ StartsApart (xs.flatMap fs) := by
  induction xs with
  | nil => exact ⟨.nil, startsApart_nil⟩
  | cons x xs ih =>
    obtain ⟨hx, hxa⟩ := h x (List.mem_cons_self ..)
    obtain ⟨hxs, hxsa⟩ := ih fun y hy => h y (List.mem_cons_of_mem _ hy)
    rw [List.map_cons, List.flatten_cons, List.flatMap_cons]
    exact ⟨hx.append hxs (.inr hxsa), hxa.append hxsa⟩

/-- One entry of a `WITH` clause. -/
def ofCte (c : Cte) (query : List Fragment) : List Fragment :=
  identifier c.name :: (match c.columns with
    | [] => []
    | ns => enclosed " (" (names ns) ")") ++ enclosed " AS (" query ")"

theorem ofCtes_cons (c : Cte) (cs : List Cte) (queries : List (List Fragment)) :
    ofCtes (c :: cs) queries =
      text (if (c :: cs).any Cte.recursive then "WITH RECURSIVE " else "WITH ") ::
        commas ((c :: cs).zipWith ofCte queries) ++ [text " "] := rfl

theorem Laid.cte {d : Dialect} (c : Cte) {as : List Atom} {query : List Fragment}
    (h : Laid d as query) : Laid d (.word c.name :: Atom.words c.columns ++ as) (ofCte c query) := by
  have hquery : Laid d as (Fragment.enclosed " AS (" query ")") :=
    h.enclosed (by decide) (by decide)
  have hcolumns : Laid d (Atom.words c.columns) (match c.columns with
      | [] => []
      | ns => Fragment.enclosed " (" (Fragment.names ns) ")") ∧
      StartsApart (match c.columns with
      | [] => []
      | ns => Fragment.enclosed " (" (Fragment.names ns) ")") := by
    split
    · rename_i hnil
      rw [hnil]
      exact ⟨.nil, startsApart_nil⟩
    · exact ⟨(Laid.names _).enclosed (by decide) (by decide), startsApart_cons.2 (by decide)⟩
  exact ((Laid.identifier c.name).append hcolumns.1 (.inr hcolumns.2)).append hquery
    (.inr (startsApart_cons.2 (by decide)))

/-- A `WITH` clause is nothing, or closed by a blank. -/
theorem Laid.ofCtes {d : Dialect} {ctes : List Cte} {queries : List (List Fragment)}
    (h : List.Forall₂ (fun c query => Laid d c.atoms query) ctes queries) :
    Laid d (Cte.listAtoms ctes).flatten (Fragment.ofCtes ctes queries) ∧
      EndsApart (Fragment.ofCtes ctes queries) := by
  have hall : List.Forall₂ (Laid d) (Cte.listAtoms ctes) (ctes.zipWith ofCte queries) := by
    induction h with
    | nil => exact .nil
    | @cons c query cs queries hc _ ih => exact .cons (.cte c hc) ih
  cases h with
  | nil => exact ⟨.nil, endsApart_nil⟩
  | @cons c query cs queries hc hcs =>
    have hlead : NoMark
        (if (c :: cs).any Cte.recursive then "WITH RECURSIVE " else "WITH ").toList := by
      split <;> decide
    rw [ofCtes_cons]
    exact ⟨((commas hall).lead hlead).snoc (by decide), endsApart_concat.2 rfl⟩

end Fragment

/-! ## Selects and compounds from their parts -/

namespace Select

def projectionAtoms (s : Select) : List Atom :=
  match s.columns, s.source with
  | [], some (.model m) => Atom.ofFields m
  | [], _ => []
  | columns, _ => (Expr.projectionAtoms columns).flatten

def headAtoms (s : Select) : List Atom :=
  s.distinct.atoms ++ s.projectionAtoms ++ Source.clauseAtoms s.source

def tailAtoms (s : Select) : List Atom :=
  Condition.clauseAtoms s.filter ++ (Expr.listAtoms none s.groupBy).flatten ++
    Condition.clauseAtoms s.having ++ (Window.listAtoms s.windows).flatten ++
    (OrderTerm.listAtoms s.orderBy).flatten

theorem atoms_eq (s : Select) :
    s.atoms = (Cte.listAtoms s.ctes).flatten ++ (s.origins.map Atom.source ++
      (s.headAtoms ++ ((s.walk.map fun j => j.atoms.content.2).flatten ++ s.tailAtoms))) := by
  obtain ⟨ctes, source, context, joins, columns, distinct, filter, groupBy, having, windows,
    orderBy, limit, offset, forUpdate⟩ := s
  rw [atoms.eq_def]
  cases source with
  | none =>
    simp only [origins, walk, headAtoms, tailAtoms, List.append_assoc]
    cases columns <;> rfl
  | some root =>
    have horigins : (Join.walk joins root.key).map (fun j => j.atoms.content.1) =
        (Join.walk joins root.key).map (·.target.origin) :=
      List.map_congr_left fun j _ => by rw [Join.atoms_eq]; rfl
    simp only [Join.ordered_listAtoms, List.map_map, Function.comp_def, horigins]
    simp only [origins, walk, headAtoms, tailAtoms, List.append_assoc]
    cases columns <;> cases root <;> rfl

end Select

/-- The ordering of a compound, in a scope in which columns stand without qualifiers. -/
def Compound.orderingFragments (d : Dialect) (ts : List OrderTerm) : List Fragment :=
  match ts with
  | [] => []
  | _ => [text " ORDER BY ", nested { bare := true } (commas (OrderTerm.listFragments d ts))]

theorem Compound.fragments_eq (d : Dialect) (c : Compound) :
    c.fragments d = ofCtes c.ctes (Cte.listFragments d c.ctes) ++
      ofOperand d false c.left.isCompound c.left.isOrdered (c.left.fragments d) ++
      [text (" " ++ c.op.keyword ++ " ")] ++
      ofOperand d true c.right.isCompound c.right.isOrdered (c.right.fragments d) ++
      Compound.orderingFragments d c.orderBy ++ ofLimit d c.limit c.offset := by
  cases c
  rw [fragments.eq_def]
  rfl

namespace Fragment.Laid

variable {d : Dialect}

theorem head {s : Select} (hdistinct : Laid d s.distinct.atoms (s.distinct.fragments d))
    (hcolumns : List.Forall₂ (Laid d) (Expr.projectionAtoms s.columns)
      (Expr.projectionFragments d s.columns))
    (hsource : Laid d (Source.clauseAtoms s.source) (Source.clauseFragments d " FROM " s.source)) :
    Laid d s.headAtoms (s.headFragments d) := by
  have hprojection : Laid d s.projectionAtoms (s.projectionFragments d) := by
    unfold Select.projectionAtoms Select.projectionFragments
    generalize s.columns = columns at hcolumns
    cases columns with
    | nil =>
      cases s.source with
      | none => exact .refuse _ _
      | some root =>
        cases root with
        | model m => exact .ofFields m
        | table n => exact .sql "*" (by decide)
        | derived q n => exact .sql "*" (by decide)
    | cons e es => exact commas hcolumns
  have h := (hdistinct.lead (s := "SELECT ") (by decide)).append hprojection
    (.inl ((endsApart_distinct d s.distinct).cons rfl))
  exact h.append hsource (.inr (startsApart_sourceClause d (by decide) _))

theorem tail {s : Select}
    (hfilter : Laid d (Condition.clauseAtoms s.filter)
      (Condition.clauseFragments d " WHERE " s.filter))
    (hgroup : List.Forall₂ (Laid d) (Expr.listAtoms none s.groupBy)
      (Expr.listFragments d none s.groupBy))
    (hhaving : Laid d (Condition.clauseAtoms s.having)
      (Condition.clauseFragments d " HAVING " s.having))
    (hwindows : List.Forall₂ (Laid d) (Window.listAtoms s.windows)
      (Window.listFragments d s.windows))
    (horder : List.Forall₂ (Laid d) (OrderTerm.listAtoms s.orderBy)
      (OrderTerm.listFragments d s.orderBy)) :
    Laid d s.tailAtoms (s.tailFragments d) ∧ StartsApart (s.tailFragments d) := by
  have hlock : Laid d [] (if s.forUpdate then
      Fragment.requiring d.forUpdate (.unsupported d.name .forUpdate) [text " FOR UPDATE"]
    else []) ∧ StartsApart (if s.forUpdate then
      Fragment.requiring d.forUpdate (.unsupported d.name .forUpdate) [text " FOR UPDATE"]
    else []) := by
    split
    · refine ⟨(Laid.sql " FOR UPDATE" (by decide)).requiring, ?_⟩
      unfold Fragment.requiring
      split <;> exact startsApart_cons.2 rfl
    · exact ⟨.nil, startsApart_nil⟩
  have agroup := startsApart_listClause (s := " GROUP BY ") (by decide)
    (Expr.listFragments d none s.groupBy)
  have ahaving := startsApart_conditionClause d (s := " HAVING ") (by decide) s.having
  have awindows := startsApart_listClause (s := " WINDOW ") (by decide)
    (Window.listFragments d s.windows)
  have aorder := startsApart_listClause (s := " ORDER BY ") (by decide)
    (OrderTerm.listFragments d s.orderBy)
  have alimit := startsApart_ofLimit d s.limit s.offset
  constructor
  · have h := hfilter.append (listClause (s := " GROUP BY ") (by decide) hgroup) (.inr agroup)
    have h := h.append hhaving (.inr ahaving)
    have h := h.append (listClause (s := " WINDOW ") (by decide) hwindows) (.inr awindows)
    have h := h.append (listClause (s := " ORDER BY ") (by decide) horder) (.inr aorder)
    have h := h.ending (ofLimit s.limit s.offset) (.inr alimit)
    exact h.ending hlock.1 (.inr hlock.2)
  · have afilter := startsApart_conditionClause d (s := " WHERE ") (by decide) s.filter
    exact (((((afilter.append agroup).append ahaving).append awindows).append aorder).append
      alimit).append hlock.2

theorem ofSelect {s : Select}
    (hctes : List.Forall₂ (fun c query => Laid d c.atoms query) s.ctes
      (Cte.listFragments d s.ctes))
    (hhead : Laid d s.headAtoms (s.headFragments d))
    (hjoins : ∀ j ∈ s.joins, Laid d j.atoms.content.2 (j.fragments d).content.2)
    (htail : Laid d s.tailAtoms (s.tailFragments d) ∧ StartsApart (s.tailFragments d)) :
    Laid d s.atoms (s.fragments d) := by
  obtain ⟨hwith, awith⟩ := ofCtes hctes
  have hall : ∀ j ∈ s.walk, Laid d j.atoms.content.2 (j.fragments d).content.2 ∧
      StartsApart (j.fragments d).content.2 := fun j hj =>
    ⟨hjoins j (Select.mem_of_mem_walk hj), Join.startsApart_fragments d j⟩
  obtain ⟨hwalk, awalk⟩ := Laid.flatMap hall
  have hbody := hhead.append (hwalk.append htail.1 (.inr htail.2)) (.inr (awalk.append htail.2))
  rw [Select.atoms_eq, Select.fragments_eq]
  exact hwith.append (.select _ hbody) (.inl awith)

theorem ofOperand {as : List Atom} {query : List Fragment} (isRight isCompound ordered : Bool)
    (h : Laid d as query) : Laid d as (Fragment.ofOperand d isRight isCompound ordered query) := by
  unfold Fragment.ofOperand
  split
  · exact h.parenthesized
  · split
    · exact (h.enclosed (o := "SELECT * FROM (") (c := ") AS ") (by decide) (by decide)).ending
        (.name "_compound" (by decide)) (.inl (endsApart_concat.2 rfl))
    · exact h.requiring

theorem ofCompound {c : Compound}
    (hctes : List.Forall₂ (fun c query => Laid d c.atoms query) c.ctes
      (Cte.listFragments d c.ctes))
    (hleft : Laid d c.left.atoms (c.left.fragments d))
    (hright : Laid d c.right.atoms (c.right.fragments d))
    (horder : List.Forall₂ (Laid d) (OrderTerm.listAtoms c.orderBy)
      (OrderTerm.listFragments d c.orderBy)) :
    Laid d c.atoms (c.fragments d) := by
  obtain ⟨ctes, left, op, right, orderBy, limit, offset⟩ := c
  obtain ⟨hwith, awith⟩ := ofCtes hctes
  have hop : NoMark (" " ++ op.keyword ++ " ").toList := by cases op <;> decide
  have hordering : Laid d (OrderTerm.listAtoms orderBy).flatten
      (Compound.orderingFragments d orderBy) ∧
      StartsApart (Compound.orderingFragments d orderBy) := by
    cases orderBy with
    | nil => exact ⟨.nil, startsApart_nil⟩
    | cons t ts => exact ⟨(commas horder).bare.lead (by decide), startsApart_cons.2 (by decide)⟩
  have h := hwith.append (hleft.ofOperand false left.isCompound left.isOrdered) (.inl awith)
  have h := (h.snoc (s := " " ++ op.keyword ++ " ") ⟨hop, by simp [isSeparator]⟩).append
    (hright.ofOperand true right.isCompound right.isOrdered) (.inl (endsApart_concat.2 rfl))
  have h := h.append hordering.1 (.inr hordering.2)
  have h := h.ending (ofLimit limit offset) (.inr (startsApart_ofLimit d limit offset))
  rw [Compound.atoms, Compound.fragments_eq]
  exact h

end Fragment.Laid

/-! ## Queries -/

variable (d : Dialect)

mutual

theorem Expr.laid (codec : Option Field) : (e : Expr) →
    Laid d (e.atoms codec) (e.fragments d codec)
  | .column q name => by
    rw [Expr.atoms, Expr.fragments]
    exact .ofColumn q name
  | .literal v => by
    rw [Expr.atoms, Expr.fragments]
    exact .ofLiteral codec v
  | .raw sql => by
    rw [Expr.atoms, Expr.fragments]
    exact .word sql
  | .call function arguments distinct => by
    rw [Expr.atoms, Expr.fragments]
    have hopening : NoMark (if distinct then "(DISTINCT " else "(").toList := by
      cases distinct <;> decide
    exact (Laid.word function).append
      ((Laid.commas (Expr.listLaid none arguments)).enclosed hopening (by decide))
      (.inl (endsApart_singleton.2 rfl))
  | .windowed function window => by
    rw [Expr.atoms, Expr.fragments, List.append_assoc]
    exact (Expr.laid none function).between (s := " OVER ") (by decide) (WindowRef.laid window)
  | .binary left op right => by
    rw [Expr.atoms, Expr.fragments]
    exact .ofBinary op (Expr.laid none left) (Expr.laid none right)
  | .list items => by
    rw [Expr.atoms, Expr.fragments]
    exact (Laid.commas (Expr.listLaid codec items)).parenthesized
  | .subquery query => by
    rw [Expr.atoms, Expr.fragments]
    exact (Query.laid query).parenthesized
  | .nonEmpty query => by
    rw [Expr.atoms, Expr.fragments]
    exact (Query.laid query).enclosed (by decide) (by decide)
  | .condition c => by
    rw [Expr.atoms, Expr.fragments]
    exact Condition.laid c
  | .cast operand type => by
    rw [Expr.atoms, Expr.fragments]
    exact ((Expr.laid none operand).between (s := " AS ") (by decide) (.word type)).enclosed
      (by decide) (by decide)
  | .named operand _ => by
    rw [Expr.atoms, Expr.fragments]
    exact Expr.laid codec operand
  | .excluded field => by
    rw [Expr.atoms, Expr.fragments]
    exact .ofExcluded field
  | .star q => by
    rw [Expr.atoms, Expr.fragments]
    exact .ofStar q

theorem Expr.listLaid (codec : Option Field) : (es : List Expr) →
    List.Forall₂ (Laid d) (Expr.listAtoms codec es) (Expr.listFragments d codec es)
  | [] => .nil
  | e :: es => .cons (Expr.laid codec e) (Expr.listLaid codec es)

/-- An operand is a list of items for both, or for neither. -/
theorem Expr.itemLaid (codec : Option Field) : (e : Expr) →
    Option.Rel (List.Forall₂ (Laid d)) (e.itemAtoms? codec) (e.itemFragments? d codec)
  | .list items => .some (Expr.listLaid codec items)
  | .column _ _ | .literal _ | .raw _ | .call _ _ _ | .windowed _ _ | .binary _ _ _
  | .subquery _ | .nonEmpty _ | .condition _ | .cast _ _ | .named _ _ | .excluded _
  | .star _ => .none

theorem WindowRef.laid : (w : WindowRef) → Laid d w.atoms (w.fragments d)
  | .inline window => by
    rw [WindowRef.atoms, WindowRef.fragments]
    exact (Window.laid window).parenthesized
  | .named n => by
    rw [WindowRef.atoms, WindowRef.fragments]
    exact .identifier n

theorem Window.laid : (w : Window) → Laid d w.atoms (w.fragments d)
  | ⟨_, partitionBy, orderBy, frame⟩ => by
    rw [Window.atoms, Window.fragments]
    exact .ofWindow frame (Expr.listLaid none partitionBy) (OrderTerm.listLaid orderBy)

theorem Window.listLaid : (ws : List Window) →
    List.Forall₂ (Laid d) (Window.listAtoms ws) (Window.listFragments d ws)
  | [] => .nil
  | w :: ws => .cons (.ofDeclaredWindow w.name (Window.laid w)) (Window.listLaid ws)

theorem OrderTerm.laid : (t : OrderTerm) → Laid d t.atoms (t.fragments d)
  | ⟨operand, direction, nulls⟩ => by
    rw [OrderTerm.atoms, OrderTerm.fragments]
    exact .ofOrderTerm operand direction nulls (Expr.laid none operand)

theorem OrderTerm.listLaid : (ts : List OrderTerm) →
    List.Forall₂ (Laid d) (OrderTerm.listAtoms ts) (OrderTerm.listFragments d ts)
  | [] => .nil
  | t :: ts => .cons (OrderTerm.laid t) (OrderTerm.listLaid ts)

theorem Condition.laid : (c : Condition) → Laid d c.atoms (c.fragments d)
  | .compare left op right negated escaped => by
    have hleft := Expr.laid none left
    have hright := Expr.laid left.field? right
    have hitems := Expr.itemLaid left.field? right
    have hnull (s : String) (hs : Keyword s) : Laid d
        (left.atoms none ++ if right.isNullLiteral then [] else right.atoms left.field?)
        (if right.isNullLiteral then ofSaid (left.fragments d none) s
          else ofComparison d op escaped (left.fragments d none) (right.fragments d left.field?)) := by
      split
      · rw [List.append_nil]
        exact .ofSaid hs hleft
      · exact .ofComparison op escaped hleft hright
    have hmember : Laid d
        (match right.itemAtoms? left.field? with
          | some items => Atom.ofMembership (left.atoms none) items
          | none =>
            match right.arrayItems? with
            | some vs => Atom.ofMembership (left.atoms none) (vs.map fun v => [.literal left.field? v])
            | none => left.atoms none ++ right.atoms left.field?)
        (match right.itemFragments? d left.field? with
          | some items => ofMembership op (left.fragments d none) items
          | none =>
            match right.arrayItems? with
            | some vs => ofMembership op (left.fragments d none) (vs.map (ofLiteral left.field?))
            | none => ofSigned (left.fragments d none) op.sign (right.fragments d left.field?)) := by
      generalize right.itemAtoms? left.field? = ass, right.itemFragments? d left.field? = fss at hitems
      cases hitems with
      | some h => exact .ofMembership hleft h
      | none =>
        cases right.arrayItems? with
        | some vs =>
          refine .ofMembership hleft ?_
          rw [List.forall₂_map_left_iff, List.forall₂_map_right_iff, List.forall₂_same]
          exact fun v _ => .ofLiteral left.field? v
        | none => exact .ofSigned (.inl op.noMark_sign) hleft hright
    rw [Condition.atoms.eq_def, Condition.fragments.eq_def]
    refine .negated negated ?_
    cases op with
    | eq => exact hnull _ (by decide)
    | is => exact hnull _ (by decide)
    | ne => exact hnull _ (by decide)
    | isNot => exact hnull _ (by decide)
    | like => exact .ofComparison _ escaped hleft (Expr.laid none right)
    | notLike => exact .ofComparison _ escaped hleft (Expr.laid none right)
    | ilike => exact .ofComparison _ escaped hleft (Expr.laid none right)
    | isIn => exact hmember
    | notIn => exact hmember
    | between =>
      refine .ofBetween hleft ?_
      generalize right.itemAtoms? left.field? = ass, right.itemFragments? d left.field? = fss at hitems
      cases hitems with
      | some h => exact h
      | none => exact .nil
    | lt => exact .ofComparison _ escaped hleft hright
    | le => exact .ofComparison _ escaped hleft hright
    | gt => exact .ofComparison _ escaped hleft hright
    | ge => exact .ofComparison _ escaped hleft hright
  | .group connective members negated => by
    rw [Condition.atoms, Condition.fragments]
    exact .negated negated (.ofGroup connective (Condition.listLaid members))
  | .operand e => by
    rw [Condition.atoms, Condition.fragments]
    exact Expr.laid none e

theorem Condition.listLaid : (cs : List Condition) →
    List.Forall₂ (Laid d) (Condition.listAtoms cs) (Condition.listFragments d cs)
  | [] => .nil
  | c :: cs => .cons (Condition.laid c) (Condition.listLaid cs)

theorem Condition.clauseLaid {s : String} (hs : NoMark s.toList) : (c : Option Condition) →
    Laid d (Condition.clauseAtoms c) (Condition.clauseFragments d s c)
  | none => .nil
  | some c => (Condition.laid c).clause hs

theorem Expr.projectionLaid : (es : List Expr) →
    List.Forall₂ (Laid d) (Expr.projectionAtoms es) (Expr.projectionFragments d es)
  | [] => .nil
  | e :: es => .cons (.ofProjected e (Expr.laid none e)) (Expr.projectionLaid es)

theorem Query.laid : (q : Query) → Laid d q.atoms (q.fragments d)
  | .simple s => by
    rw [Query.atoms, Query.fragments]
    exact Select.laid s
  | .compound c => by
    rw [Query.atoms, Query.fragments]
    exact Compound.laid c

theorem Select.laid : (s : Select) → Laid d s.atoms (s.fragments d)
  | ⟨ctes, source, _, joins, columns, distinct, filter, groupBy, having, windows, orderBy, _, _, _⟩ => by
    refine .ofSelect (Cte.listLaid ctes) (.head (Distinct.laid distinct) (Expr.projectionLaid columns)
      (Source.clauseLaid (by decide) source)) (Join.listLaid joins) (Laid.tail ?_ ?_ ?_ ?_ ?_)
    · exact Condition.clauseLaid (by decide) filter
    · exact Expr.listLaid none groupBy
    · exact Condition.clauseLaid (by decide) having
    · exact Window.listLaid windows
    · exact OrderTerm.listLaid orderBy

theorem Compound.laid : (c : Compound) → Laid d c.atoms (c.fragments d)
  | ⟨ctes, left, _, right, orderBy, _, _⟩ =>
    .ofCompound (Cte.listLaid ctes) (Query.laid left) (Query.laid right)
      (OrderTerm.listLaid orderBy)

theorem Cte.laid : (c : Cte) → Laid d c.atoms (c.fragments d)
  | ⟨_, _, _, query⟩ => by
    rw [Cte.atoms, Cte.fragments]
    exact Query.laid query

theorem Cte.listLaid : (cs : List Cte) →
    List.Forall₂ (fun c query => Laid d c.atoms query) cs (Cte.listFragments d cs)
  | [] => .nil
  | c :: cs => .cons (Cte.laid c) (Cte.listLaid cs)

theorem Source.laid : (s : Source) → Laid d s.atoms (s.fragments d)
  | .model m => by
    rw [Source.atoms, Source.fragments]
    exact .ofSource (.model m) .nil
  | .table n => by
    rw [Source.atoms, Source.fragments]
    exact .ofSource (.table n) .nil
  | .derived query name => by
    rw [Source.atoms, Source.fragments]
    exact .ofSource (.derived query name) (Query.laid query)

theorem Source.clauseLaid {s : String} (hs : NoMark s.toList) : (source : Option Source) →
    Laid d (Source.clauseAtoms source) (Source.clauseFragments d s source)
  | none => .nil
  | some source => (Source.laid source).clause hs

theorem Join.laid : (j : Join) → Laid d j.atoms.content.2 (j.fragments d).content.2
  | ⟨context, target, kind, on, _⟩ => by
    rw [Join.atoms, Join.fragments]
    have htarget := (Source.laid target).lead (s := " " ++ kind.keyword ++ " ")
      (by cases kind <;> decide)
    obtain ⟨hon, honApart⟩ := JoinOn.laid context target.key on
    exact htarget.append hon (.inr honApart)

theorem Join.listLaid : (js : List Join) →
    ∀ j ∈ js, Laid d j.atoms.content.2 (j.fragments d).content.2
  | [] => by simp
  | j :: js => by
    intro k hk
    rcases List.mem_cons.1 hk with hk | hk
    · exact hk ▸ Join.laid j
    · exact Join.listLaid js k hk

theorem JoinOn.laid (context target : String) : (on : JoinOn) →
    Laid d on.atoms (on.fragments d context target) ∧ StartsApart (on.fragments d context target)
  | .relation r => by
    rw [JoinOn.atoms, JoinOn.fragments]
    refine ⟨.ofRelation r context target, startsApart_cons.2 ?_⟩
    unfold ofRelation
    cases r.kind <;> rfl
  | .condition c => by
    rw [JoinOn.atoms, JoinOn.fragments]
    exact ⟨(Condition.laid c).clause (by decide), startsApart_clause.2 (by decide)⟩
  | .always => ⟨.nil, startsApart_nil⟩

theorem Distinct.laid : (x : Distinct) → Laid d x.atoms (x.fragments d)
  | .off => .nil
  | .rows => .sql "DISTINCT " (by decide)
  | .on exprs => by
    rw [Distinct.atoms, Distinct.fragments]
    exact ((Laid.commas (Expr.listLaid none exprs)).enclosed (by decide) (by decide)).requiring

end

end SqlMapper
