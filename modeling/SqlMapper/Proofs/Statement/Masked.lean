import SqlMapper.Proofs.Fragment.Mask
import SqlMapper.Proofs.Statement.Laid
import SqlMapper.Proofs.Statement.Outline

/-!
# SqlMapper.Proofs.Statement.Masked

The fragments of a query and those of its outline are the same under a mask, in every place of the
syntax (`Query.maskAll_outline`). What a clause does with its parts depends on them only up to the
mask.
-/

namespace SqlMapper

open Fragment

/-! ## Masked clauses -/

namespace Fragment

variable {d : Dialect} {left left' right right' : List Fragment} {fss gss : List (List Fragment)}

@[simp] theorem maskAll_separated (s : String) (fss : List (List Fragment)) :
    maskAll (separated s fss) = separated s (fss.map maskAll) := by
  unfold separated
  induction fss with
  | nil => rfl
  | cons fs fss ih =>
    cases fss with
    | nil => simp
    | cons gs fss =>
      rw [List.intercalate_cons_cons, maskAll_append, maskAll_append, ih, List.map_cons,
        List.map_cons, List.map_cons, List.intercalate_cons_cons]
      rfl

@[simp] theorem maskAll_commas (fss : List (List Fragment)) :
    maskAll (commas fss) = commas (fss.map maskAll) := maskAll_separated ..

@[simp] theorem maskAll_enclosed (o : String) (fs : List Fragment) (c : String) :
    maskAll (enclosed o fs c) = enclosed o (maskAll fs) c := by
  simp [enclosed, mask]

@[simp] theorem maskAll_parenthesized (fs : List Fragment) :
    maskAll (parenthesized fs) = parenthesized (maskAll fs) := maskAll_enclosed ..

@[simp] theorem maskAll_clause (s : String) (fs : List Fragment) :
    maskAll (clause s fs) = clause s (maskAll fs) := rfl

@[simp] theorem maskAll_listClause (s : String) (fss : List (List Fragment)) :
    maskAll (listClause s fss) = listClause s (fss.map maskAll) := by
  cases fss with
  | nil => rfl
  | cons fs fss => exact congrArg (clause s) (maskAll_commas _)

theorem maskAll_requiring {available : Bool} {e : CompilationError}
    (h : maskAll left = maskAll left') :
    maskAll (requiring available e left) = maskAll (requiring available e left') := by
  unfold requiring
  split
  · exact h
  · rfl

@[simp] theorem maskAll_ofLiteral (codec : Option Field) (v : Value) :
    maskAll (ofLiteral codec v) = [param .null] := by
  unfold ofLiteral
  split
  · rfl
  · split
    · rfl
    · split <;> rfl

theorem maskAll_ofSigned {s : String} (hl : maskAll left = maskAll left')
    (hr : maskAll right = maskAll right') :
    maskAll (ofSigned left s right) = maskAll (ofSigned left' s right') := by
  simp [ofSigned, hl, hr]

theorem maskAll_ofBinary {op : Operator} (hl : maskAll left = maskAll left')
    (hr : maskAll right = maskAll right') :
    maskAll (ofBinary d left op right) = maskAll (ofBinary d left' op right') := by
  unfold ofBinary
  split
  · split
    · exact maskAll_ofSigned hl hr
    · rfl
  · split
    · simp [hl, hr]
    · exact maskAll_ofSigned hl hr
  · exact maskAll_ofSigned hl hr

theorem maskAll_ofSaid {s : String} (hl : maskAll left = maskAll left') :
    maskAll (ofSaid left s) = maskAll (ofSaid left' s) := by
  simp [ofSaid, hl]

theorem maskAll_ofComparison {op : Comparison} {escaped : Bool} (hl : maskAll left = maskAll left')
    (hr : maskAll right = maskAll right') :
    maskAll (ofComparison d op escaped left right) =
      maskAll (ofComparison d op escaped left' right') := by
  simp [ofComparison, hl, hr]

theorem maskAll_ofMembership {op : Comparison} (hl : maskAll left = maskAll left')
    (h : fss.map maskAll = gss.map maskAll) :
    maskAll (ofMembership op left fss) = maskAll (ofMembership op left' gss) := by
  cases fss with
  | nil =>
    rw [List.map_eq_nil_iff.1 h.symm]
    rfl
  | cons fs fss =>
    obtain ⟨gs, gss, rfl, -, -⟩ := List.map_eq_cons_iff.1 h.symm
    refine maskAll_ofSigned hl ?_
    rw [maskAll_parenthesized, maskAll_parenthesized, maskAll_commas, maskAll_commas, h]

theorem maskAll_ofBetween (hl : maskAll left = maskAll left')
    (h : fss.map maskAll = gss.map maskAll) :
    maskAll (ofBetween left fss) = maskAll (ofBetween left' gss) := by
  rcases fss with _ | ⟨low, _ | ⟨high, _ | ⟨more, fss⟩⟩⟩
  · rw [List.map_eq_nil_iff.1 h.symm]
    rfl
  · obtain ⟨low', gss, rfl, -, h⟩ := List.map_eq_cons_iff.1 h.symm
    rw [List.map_eq_nil_iff.1 h]
    rfl
  · obtain ⟨low', gss, rfl, hlow, h⟩ := List.map_eq_cons_iff.1 h.symm
    obtain ⟨high', gss, rfl, hhigh, h⟩ := List.map_eq_cons_iff.1 h
    rw [List.map_eq_nil_iff.1 h]
    simp [ofBetween, hl, hlow, hhigh]
  · obtain ⟨low', gss, rfl, -, h⟩ := List.map_eq_cons_iff.1 h.symm
    obtain ⟨high', gss, rfl, -, h⟩ := List.map_eq_cons_iff.1 h
    obtain ⟨more', gss, rfl, -, -⟩ := List.map_eq_cons_iff.1 h
    rfl

theorem maskAll_ofGroup (connective : Connective) (h : fss.map maskAll = gss.map maskAll) :
    maskAll (ofGroup connective fss) = maskAll (ofGroup connective gss) := by
  cases fss with
  | nil => rw [List.map_eq_nil_iff.1 h.symm]
  | cons fs fss =>
    obtain ⟨gs, gss, rfl, -, -⟩ := List.map_eq_cons_iff.1 h.symm
    simp only [ofGroup, maskAll_parenthesized, maskAll_separated, h]

theorem maskAll_ofProjected {e e' : Expr} (he : e.outputName? = e'.outputName?)
    (h : maskAll left = maskAll left') :
    maskAll (ofProjected e left) = maskAll (ofProjected e' left') := by
  unfold ofProjected
  rw [he]
  cases e'.outputName? with
  | none => exact h
  | some n => simp [h]

theorem maskAll_ofOrderTerm {e e' : Expr} {direction : Direction} {nulls : Option Nulls}
    (he : e.outputName? = e'.outputName?) (h : maskAll left = maskAll left') :
    maskAll (ofOrderTerm d e left direction nulls) =
      maskAll (ofOrderTerm d e' left' direction nulls) := by
  unfold ofOrderTerm
  rw [he]
  cases e'.outputName? with
  | none => simp [h]
  | some n => rfl

theorem maskAll_ofWindow {frame : Option Frame} {pss oss qss rss : List (List Fragment)}
    (hp : pss.map maskAll = qss.map maskAll) (ho : oss.map maskAll = rss.map maskAll) :
    maskAll (ofWindow pss oss frame) = maskAll (ofWindow qss rss frame) := by
  have hcommas (s : String) {fss gss : List (List Fragment)}
      (h : fss.map maskAll = gss.map maskAll) :
      maskAll (text s :: commas fss) = maskAll (text s :: commas gss) := by
    rw [maskAll_cons, maskAll_cons, maskAll_commas, maskAll_commas, h]
  unfold ofWindow
  rw [maskAll_separated, maskAll_separated]
  congr 1
  cases pss with
  | nil =>
    rw [List.map_eq_nil_iff.1 hp.symm]
    cases oss with
    | nil => rw [List.map_eq_nil_iff.1 ho.symm]
    | cons fs fss =>
      obtain ⟨gs, gss, rfl, -, -⟩ := List.map_eq_cons_iff.1 ho.symm
      simp [hcommas "ORDER BY " ho]
  | cons fs fss =>
    obtain ⟨gs, gss, rfl, -, -⟩ := List.map_eq_cons_iff.1 hp.symm
    cases oss with
    | nil =>
      rw [List.map_eq_nil_iff.1 ho.symm]
      simp [hcommas "PARTITION BY " hp]
    | cons fs fss =>
      obtain ⟨gs, gss, rfl, -, -⟩ := List.map_eq_cons_iff.1 ho.symm
      simp [hcommas "PARTITION BY " hp, hcommas "ORDER BY " ho]

theorem maskAll_ofDeclaredWindow {n : Option String} (h : maskAll left = maskAll left') :
    maskAll (ofDeclaredWindow n left) = maskAll (ofDeclaredWindow n left') := by
  unfold ofDeclaredWindow
  cases n with
  | none => rfl
  | some n => simp [h]

theorem maskAll_ofOperand {isRight isCompound ordered : Bool} (h : maskAll left = maskAll left') :
    maskAll (ofOperand d isRight isCompound ordered left) =
      maskAll (ofOperand d isRight isCompound ordered left') := by
  unfold ofOperand
  split
  · simp [h]
  · split
    · simp [h]
    · exact maskAll_requiring h

theorem maskAll_ofSource {s s' : Source} (hs : s.origin = s'.origin)
    (h : maskAll left = maskAll left') :
    maskAll (ofSource s left) = maskAll (ofSource s' left') := by
  cases s <;> cases s' <;> cases hs
  · rfl
  · rfl
  · simp [ofSource, h]

theorem maskAll_ofCtes (ctes : List Cte) {queries queries' : List (List Fragment)}
    (h : queries.map maskAll = queries'.map maskAll) :
    maskAll (ofCtes (Cte.listOutline ctes) queries) = maskAll (ofCtes ctes queries') := by
  have hrecursive : (Cte.listOutline ctes).any Cte.recursive = ctes.any Cte.recursive := by
    clear h
    induction ctes with
    | nil => rfl
    | cons c cs ih =>
      rw [Cte.listOutline, List.any_cons, List.any_cons, ih]
      cases c
      rfl
  have hentry (c : Cte) {fs gs : List Fragment} (h : maskAll fs = maskAll gs) :
      maskAll (ofCte c.outline fs) = maskAll (ofCte c gs) := by
    cases c
    simp [ofCte, Cte.outline, h]
  have hentries : ((Cte.listOutline ctes).zipWith ofCte queries).map maskAll =
      (ctes.zipWith ofCte queries').map maskAll := by
    clear hrecursive
    induction ctes generalizing queries queries' with
    | nil => rfl
    | cons c cs ih =>
      cases queries with
      | nil =>
        rw [List.map_eq_nil_iff.1 h.symm]
        rfl
      | cons fs fss =>
        obtain ⟨gs, gss, rfl, hgs, h⟩ := List.map_eq_cons_iff.1 h.symm
        rw [Cte.listOutline, List.zipWith_cons_cons, List.zipWith_cons_cons, List.map_cons,
          List.map_cons, ih h.symm, hentry c hgs.symm]
  cases ctes with
  | nil => rfl
  | cons c cs =>
    rw [Cte.listOutline] at hrecursive hentries ⊢
    rw [ofCtes_cons, ofCtes_cons, hrecursive]
    simp only [List.cons_append, maskAll_cons, maskAll_append, maskAll_commas, hentries]

theorem maskAll_flatMap {α : Type} {xs : List α} {f g : α → List Fragment}
    (h : ∀ x ∈ xs, maskAll (f x) = maskAll (g x)) :
    maskAll (xs.flatMap f) = maskAll (xs.flatMap g) := by
  induction xs with
  | nil => rfl
  | cons x xs ih =>
    rw [List.flatMap_cons, List.flatMap_cons, maskAll_append, maskAll_append,
      h x (List.mem_cons_self ..), ih fun y hy => h y (List.mem_cons_of_mem _ hy)]

/-- What a membership test makes of its right side, which may be a list, an array or a query. -/
def ofMember (d : Dialect) (codec : Option Field) (op : Comparison) (left : List Fragment)
    (right : Expr) : List Fragment :=
  match right.itemFragments? d codec with
  | some items => ofMembership op left items
  | none =>
    match right.arrayItems? with
    | some vs => ofMembership op left (vs.map (ofLiteral codec))
    | none => ofSigned left op.sign (right.fragments d codec)

theorem maskAll_ofMember {codec : Option Field} {op : Comparison} {e : Expr}
    (hop : op = .isIn ∨ op = .notIn) (hl : maskAll left = maskAll left')
    (hr : maskAll (e.outline.fragments d codec) = maskAll (e.fragments d codec))
    (hi : (e.outline.itemFragments? d codec).map (List.map maskAll) =
      (e.itemFragments? d codec).map (List.map maskAll)) :
    maskAll (ofMember d codec op left (e.memberOutline op e.outline)) =
      maskAll (ofMember d codec op left' e) := by
  cases harray : e.arrayItems? with
  | some vs =>
    have hmember : e.memberOutline op e.outline = .literal (.array (vs.map fun _ => .null)) := by
      rcases hop with rfl | rfl <;> simp only [Expr.memberOutline, harray]
    rw [hmember, Expr.eq_of_arrayItems? harray]
    refine maskAll_ofMembership hl ?_
    rw [List.map_map, List.map_map, List.map_map]
    exact List.map_congr_left fun v _ => (maskAll_ofLiteral ..).trans (maskAll_ofLiteral ..).symm
  | none =>
    have hmember : e.memberOutline op e.outline = e.outline := by
      rcases hop with rfl | rfl <;> simp only [Expr.memberOutline, harray]
    rw [hmember]
    unfold ofMember
    rw [harray, Expr.arrayItems?_outline]
    cases hitems : e.itemFragments? d codec with
    | none =>
      rw [hitems, Option.map_none, Option.map_eq_none_iff] at hi
      rw [hi]
      exact maskAll_ofSigned hl hr
    | some items =>
      rw [hitems, Option.map_some, Option.map_eq_some_iff] at hi
      obtain ⟨items', hitems', hi⟩ := hi
      rw [hitems']
      exact maskAll_ofMembership hl hi

end Fragment

/-! ## Selects and compounds from their parts -/

namespace Select

theorem walk_outline (s : Select) : s.outline.walk = s.walk.map Join.outline := by
  obtain ⟨ctes, source, context, joins, columns, distinct, filter, groupBy, having, windows,
    orderBy, limit, offset, forUpdate⟩ := s
  cases source with
  | none => rfl
  | some root =>
    simp only [outline, walk, Source.clauseOutline, Source.key_outline]
    exact Join.walk_outline joins root.key

theorem origins_outline (s : Select) : s.outline.origins = s.origins := by
  have htarget (j : Join) : j.outline.target.origin = j.target.origin := by
    cases j
    exact Source.origin_outline _
  have hsource : s.outline.source.toList.map Source.origin = s.source.toList.map Source.origin := by
    obtain ⟨_, source, _, _, _, _, _, _, _, _, _, _, _, _⟩ := s
    cases source with
    | none => rfl
    | some root => exact congrArg (fun o => [o]) root.origin_outline
  rw [origins, origins, hsource, walk_outline, List.map_map]
  simp only [Function.comp_def, htarget]

variable {d : Dialect} {s : Select}

theorem maskAll_projection
    (h : (Expr.projectionFragments d (Expr.listOutline s.columns)).map maskAll =
      (Expr.projectionFragments d s.columns).map maskAll) :
    maskAll (s.outline.projectionFragments d) = maskAll (s.projectionFragments d) := by
  rw [outline_eq]
  unfold projectionFragments
  dsimp only
  generalize s.columns = columns at h
  cases columns with
  | nil =>
    cases s.source with
    | none => rfl
    | some root => cases root <;> simp [Source.clauseOutline, Source.outline, Expr.listOutline]
  | cons e es =>
    rw [Expr.listOutline] at h ⊢
    simp [h]

theorem maskAll_head
    (hdistinct : maskAll (s.distinct.outline.fragments d) = maskAll (s.distinct.fragments d))
    (hcolumns : (Expr.projectionFragments d (Expr.listOutline s.columns)).map maskAll =
      (Expr.projectionFragments d s.columns).map maskAll)
    (hsource : maskAll (Source.clauseFragments d " FROM " (Source.clauseOutline s.source)) =
      maskAll (Source.clauseFragments d " FROM " s.source)) :
    maskAll (s.outline.headFragments d) = maskAll (s.headFragments d) := by
  have hprojection := maskAll_projection hcolumns
  unfold headFragments
  rw [maskAll_append, maskAll_append, maskAll_append, hprojection, outline_eq]
  dsimp only
  rw [hdistinct, hsource, maskAll_append, maskAll_append, maskAll_append]

theorem maskAll_tail
    (hfilter : maskAll (Condition.clauseFragments d " WHERE " (Condition.clauseOutline s.filter)) =
      maskAll (Condition.clauseFragments d " WHERE " s.filter))
    (hgroup : (Expr.listFragments d none (Expr.listOutline s.groupBy)).map maskAll =
      (Expr.listFragments d none s.groupBy).map maskAll)
    (hhaving : maskAll (Condition.clauseFragments d " HAVING " (Condition.clauseOutline s.having)) =
      maskAll (Condition.clauseFragments d " HAVING " s.having))
    (hwindows : (Window.listFragments d (Window.listOutline s.windows)).map maskAll =
      (Window.listFragments d s.windows).map maskAll)
    (horder : (OrderTerm.listFragments d (OrderTerm.listOutline s.orderBy)).map maskAll =
      (OrderTerm.listFragments d s.orderBy).map maskAll) :
    maskAll (s.outline.tailFragments d) = maskAll (s.tailFragments d) := by
  rw [outline_eq]
  unfold tailFragments
  simp only [maskAll_append, maskAll_listClause, hfilter, hgroup, hhaving, hwindows, horder]

theorem maskAll_outline_of_parts
    (hctes : (Cte.listFragments d (Cte.listOutline s.ctes)).map maskAll =
      (Cte.listFragments d s.ctes).map maskAll)
    (hhead : maskAll (s.outline.headFragments d) = maskAll (s.headFragments d))
    (hjoins : ∀ j ∈ s.joins,
      maskAll (j.outline.fragments d).content.2 = maskAll (j.fragments d).content.2)
    (htail : maskAll (s.outline.tailFragments d) = maskAll (s.tailFragments d)) :
    maskAll (s.outline.fragments d) = maskAll (s.fragments d) := by
  have hwith : maskAll (ofCtes s.outline.ctes (Cte.listFragments d s.outline.ctes)) =
      maskAll (ofCtes s.ctes (Cte.listFragments d s.ctes)) := by
    rw [outline_eq]
    exact maskAll_ofCtes s.ctes hctes
  have hwalk : maskAll (s.outline.walk.flatMap fun j => (j.fragments d).content.2) =
      maskAll (s.walk.flatMap fun j => (j.fragments d).content.2) := by
    rw [walk_outline, List.flatMap_map]
    exact maskAll_flatMap fun j hj => hjoins j (mem_of_mem_walk hj)
  rw [fragments_eq, fragments_eq, origins_outline]
  simp only [maskAll_append, maskAll_cons, mask, hwith, hhead, hwalk, htail]

end Select

theorem Compound.maskAll_outline_of_parts {d : Dialect} {c : Compound}
    (hctes : (Cte.listFragments d (Cte.listOutline c.ctes)).map maskAll =
      (Cte.listFragments d c.ctes).map maskAll)
    (hleft : maskAll (c.left.outline.fragments d) = maskAll (c.left.fragments d))
    (hright : maskAll (c.right.outline.fragments d) = maskAll (c.right.fragments d))
    (horder : (OrderTerm.listFragments d (OrderTerm.listOutline c.orderBy)).map maskAll =
      (OrderTerm.listFragments d c.orderBy).map maskAll) :
    maskAll (c.outline.fragments d) = maskAll (c.fragments d) := by
  obtain ⟨ctes, left, op, right, orderBy, limit, offset⟩ := c
  have hordering : maskAll (orderingFragments d (OrderTerm.listOutline orderBy)) =
      maskAll (orderingFragments d orderBy) := by
    cases orderBy with
    | nil => rfl
    | cons t ts =>
      rw [OrderTerm.listOutline] at horder ⊢
      simp [orderingFragments, mask, horder]
  rw [fragments_eq, fragments_eq, outline]
  simp only [maskAll_append, maskAll_ofCtes ctes hctes, Query.isCompound_outline,
    Query.isOrdered_outline, maskAll_ofOperand hleft, maskAll_ofOperand hright, hordering]

/-! ## Queries -/

variable (d : Dialect)

mutual

theorem Expr.maskAll_outline (codec : Option Field) : (e : Expr) →
    maskAll (e.outline.fragments d codec) = maskAll (e.fragments d codec)
  | .literal v => by
    rw [Expr.outline, Expr.fragments, Expr.fragments, maskAll_ofLiteral, maskAll_ofLiteral]
  | .call function arguments distinct => by
    rw [Expr.outline, Expr.fragments, Expr.fragments]
    have h := Expr.listMaskAll_outline none arguments
    simp [h]
  | .windowed function window => by
    rw [Expr.outline, Expr.fragments, Expr.fragments]
    have hfunction := Expr.maskAll_outline none function
    have hwindow := WindowRef.maskAll_outline window
    simp [hfunction, hwindow]
  | .binary left op right => by
    rw [Expr.outline, Expr.fragments, Expr.fragments]
    exact maskAll_ofBinary (Expr.maskAll_outline none left) (Expr.maskAll_outline none right)
  | .list items => by
    rw [Expr.outline, Expr.fragments, Expr.fragments]
    have h := Expr.listMaskAll_outline codec items
    simp [h]
  | .subquery query => by
    rw [Expr.outline, Expr.fragments, Expr.fragments]
    have h := Query.maskAll_outline query
    simp [h]
  | .nonEmpty query => by
    rw [Expr.outline, Expr.fragments, Expr.fragments]
    have h := Query.maskAll_outline query
    simp [h]
  | .condition c => by
    rw [Expr.outline, Expr.fragments, Expr.fragments]
    exact Condition.maskAll_outline c
  | .cast operand type => by
    rw [Expr.outline, Expr.fragments, Expr.fragments]
    have h := Expr.maskAll_outline none operand
    simp [h]
  | .named operand _ => by
    rw [Expr.outline, Expr.fragments, Expr.fragments]
    exact Expr.maskAll_outline codec operand
  | .column _ _ => by rw [Expr.outline]
  | .raw _ => by rw [Expr.outline]
  | .excluded _ => by rw [Expr.outline]
  | .star _ => by rw [Expr.outline]

theorem Expr.listMaskAll_outline (codec : Option Field) : (es : List Expr) →
    (Expr.listFragments d codec (Expr.listOutline es)).map maskAll =
      (Expr.listFragments d codec es).map maskAll
  | [] => rfl
  | e :: es => by
    rw [Expr.listOutline, Expr.listFragments, Expr.listFragments, List.map_cons, List.map_cons,
      Expr.maskAll_outline codec e, Expr.listMaskAll_outline codec es]

theorem Expr.itemMaskAll_outline (codec : Option Field) : (e : Expr) →
    (e.outline.itemFragments? d codec).map (List.map maskAll) =
      (e.itemFragments? d codec).map (List.map maskAll)
  | .list items => by
    rw [Expr.outline, Expr.itemFragments?, Expr.itemFragments?, Option.map_some, Option.map_some,
      Expr.listMaskAll_outline codec items]
  | .column _ _ | .literal _ | .raw _ | .call _ _ _ | .windowed _ _ | .binary _ _ _
  | .subquery _ | .nonEmpty _ | .condition _ | .cast _ _ | .named _ _ | .excluded _
  | .star _ => by simp [Expr.outline, Expr.itemFragments?]

theorem WindowRef.maskAll_outline : (w : WindowRef) →
    maskAll (w.outline.fragments d) = maskAll (w.fragments d)
  | .inline window => by
    rw [WindowRef.outline, WindowRef.fragments, WindowRef.fragments, maskAll_parenthesized,
      Window.maskAll_outline window, maskAll_parenthesized]
  | .named _ => by rw [WindowRef.outline]

theorem Window.maskAll_outline : (w : Window) →
    maskAll (w.outline.fragments d) = maskAll (w.fragments d)
  | ⟨_, partitionBy, orderBy, _⟩ => by
    rw [Window.outline, Window.fragments, Window.fragments]
    exact maskAll_ofWindow (Expr.listMaskAll_outline none partitionBy)
      (OrderTerm.listMaskAll_outline orderBy)

theorem Window.listMaskAll_outline : (ws : List Window) →
    (Window.listFragments d (Window.listOutline ws)).map maskAll =
      (Window.listFragments d ws).map maskAll
  | [] => rfl
  | w :: ws => by
    have hname : w.outline.name = w.name := by cases w; rfl
    rw [Window.listOutline, Window.listFragments, Window.listFragments, List.map_cons,
      List.map_cons, hname, maskAll_ofDeclaredWindow (Window.maskAll_outline w),
      Window.listMaskAll_outline ws]

theorem OrderTerm.maskAll_outline : (t : OrderTerm) →
    maskAll (t.outline.fragments d) = maskAll (t.fragments d)
  | ⟨operand, direction, nulls⟩ => by
    rw [OrderTerm.outline, OrderTerm.fragments, OrderTerm.fragments]
    exact maskAll_ofOrderTerm operand.outputName?_outline (Expr.maskAll_outline none operand)

theorem OrderTerm.listMaskAll_outline : (ts : List OrderTerm) →
    (OrderTerm.listFragments d (OrderTerm.listOutline ts)).map maskAll =
      (OrderTerm.listFragments d ts).map maskAll
  | [] => rfl
  | t :: ts => by
    rw [OrderTerm.listOutline, OrderTerm.listFragments, OrderTerm.listFragments, List.map_cons,
      List.map_cons, OrderTerm.maskAll_outline t, OrderTerm.listMaskAll_outline ts]

theorem Condition.maskAll_outline : (c : Condition) →
    maskAll (c.outline.fragments d) = maskAll (c.fragments d)
  | .compare left op right negated escaped => by
    have hleft := Expr.maskAll_outline none left
    have hright := Expr.maskAll_outline none right
    have hcoded := Expr.maskAll_outline left.field? right
    have hitems := Expr.itemMaskAll_outline left.field? right
    have hnull (s : String) :
        maskAll (if right.outline.isNullLiteral then ofSaid (left.outline.fragments d none) s
          else ofComparison d op escaped (left.outline.fragments d none)
            (right.outline.fragments d left.field?)) =
        maskAll (if right.isNullLiteral then ofSaid (left.fragments d none) s
          else ofComparison d op escaped (left.fragments d none)
            (right.fragments d left.field?)) := by
      rw [Expr.isNullLiteral_outline]
      split
      · exact maskAll_ofSaid hleft
      · exact maskAll_ofComparison hleft hcoded
    rw [Condition.outline, Condition.fragments.eq_def, Condition.fragments.eq_def]
    dsimp only
    rw [maskAll_append, maskAll_append, Expr.field?_outline]
    congr 1
    cases op with
    | eq => exact hnull "IS NULL"
    | is => exact hnull "IS NULL"
    | ne => exact hnull "IS NOT NULL"
    | isNot => exact hnull "IS NOT NULL"
    | like => exact maskAll_ofComparison hleft hright
    | notLike => exact maskAll_ofComparison hleft hright
    | ilike => exact maskAll_ofComparison hleft hright
    | isIn => exact maskAll_ofMember (.inl rfl) hleft hcoded hitems
    | notIn => exact maskAll_ofMember (.inr rfl) hleft hcoded hitems
    | between =>
      refine maskAll_ofBetween hleft ?_
      exact (Option.getD_map (List.map maskAll) [] _).symm.trans
        ((congrArg (·.getD []) hitems).trans (Option.getD_map (List.map maskAll) [] _))
    | lt => exact maskAll_ofComparison hleft hcoded
    | le => exact maskAll_ofComparison hleft hcoded
    | gt => exact maskAll_ofComparison hleft hcoded
    | ge => exact maskAll_ofComparison hleft hcoded
  | .group connective members negated => by
    rw [Condition.outline, Condition.fragments, Condition.fragments, maskAll_append,
      maskAll_append, maskAll_ofGroup connective (Condition.listMaskAll_outline members)]
  | .operand e => by
    rw [Condition.outline, Condition.fragments, Condition.fragments]
    exact Expr.maskAll_outline none e

theorem Condition.listMaskAll_outline : (cs : List Condition) →
    (Condition.listFragments d (Condition.listOutline cs)).map maskAll =
      (Condition.listFragments d cs).map maskAll
  | [] => rfl
  | c :: cs => by
    rw [Condition.listOutline, Condition.listFragments, Condition.listFragments, List.map_cons,
      List.map_cons, Condition.maskAll_outline c, Condition.listMaskAll_outline cs]

theorem Condition.clauseMaskAll_outline (s : String) : (c : Option Condition) →
    maskAll (Condition.clauseFragments d s (Condition.clauseOutline c)) =
      maskAll (Condition.clauseFragments d s c)
  | none => rfl
  | some c => congrArg (text s :: ·) (Condition.maskAll_outline c)

theorem Expr.projectionMaskAll_outline : (es : List Expr) →
    (Expr.projectionFragments d (Expr.listOutline es)).map maskAll =
      (Expr.projectionFragments d es).map maskAll
  | [] => rfl
  | e :: es => by
    rw [Expr.listOutline, Expr.projectionFragments, Expr.projectionFragments, List.map_cons,
      List.map_cons, maskAll_ofProjected e.outputName?_outline (Expr.maskAll_outline none e),
      Expr.projectionMaskAll_outline es]

theorem Query.maskAll_outline : (q : Query) →
    maskAll (q.outline.fragments d) = maskAll (q.fragments d)
  | .simple s => by
    rw [Query.outline, Query.fragments, Query.fragments]
    exact Select.maskAll_outline s
  | .compound c => by
    rw [Query.outline, Query.fragments, Query.fragments]
    exact Compound.maskAll_outline c

theorem Select.maskAll_outline : (s : Select) →
    maskAll (s.outline.fragments d) = maskAll (s.fragments d)
  | ⟨ctes, source, _, joins, columns, distinct, filter, groupBy, having, windows, orderBy, _, _, _⟩ =>
    Select.maskAll_outline_of_parts (Cte.listMaskAll_outline ctes)
      (Select.maskAll_head (Distinct.maskAll_outline distinct)
        (Expr.projectionMaskAll_outline columns) (Source.clauseMaskAll_outline " FROM " source))
      (Join.listMaskAll_outline joins)
      (Select.maskAll_tail (Condition.clauseMaskAll_outline " WHERE " filter)
        (Expr.listMaskAll_outline none groupBy) (Condition.clauseMaskAll_outline " HAVING " having)
        (Window.listMaskAll_outline windows) (OrderTerm.listMaskAll_outline orderBy))

theorem Compound.maskAll_outline : (c : Compound) →
    maskAll (c.outline.fragments d) = maskAll (c.fragments d)
  | ⟨ctes, left, _, right, orderBy, _, _⟩ =>
    Compound.maskAll_outline_of_parts (Cte.listMaskAll_outline ctes) (Query.maskAll_outline left)
      (Query.maskAll_outline right) (OrderTerm.listMaskAll_outline orderBy)

theorem Cte.maskAll_outline : (c : Cte) →
    maskAll (c.outline.fragments d) = maskAll (c.fragments d)
  | ⟨_, _, _, query⟩ => by
    rw [Cte.outline, Cte.fragments, Cte.fragments]
    exact Query.maskAll_outline query

theorem Cte.listMaskAll_outline : (cs : List Cte) →
    (Cte.listFragments d (Cte.listOutline cs)).map maskAll =
      (Cte.listFragments d cs).map maskAll
  | [] => rfl
  | c :: cs => by
    rw [Cte.listOutline, Cte.listFragments, Cte.listFragments, List.map_cons, List.map_cons,
      Cte.maskAll_outline c, Cte.listMaskAll_outline cs]

theorem Source.maskAll_outline : (s : Source) →
    maskAll (s.outline.fragments d) = maskAll (s.fragments d)
  | .model _ => by rw [Source.outline]
  | .table _ => by rw [Source.outline]
  | .derived query n => by
    rw [Source.outline, Source.fragments, Source.fragments]
    exact maskAll_ofSource rfl (Query.maskAll_outline query)

theorem Source.clauseMaskAll_outline (s : String) : (source : Option Source) →
    maskAll (Source.clauseFragments d s (Source.clauseOutline source)) =
      maskAll (Source.clauseFragments d s source)
  | none => rfl
  | some source => congrArg (text s :: ·) (Source.maskAll_outline source)

theorem Join.maskAll_outline : (j : Join) →
    maskAll (j.outline.fragments d).content.2 = maskAll (j.fragments d).content.2
  | ⟨context, target, kind, on, _⟩ => by
    rw [Join.outline, Join.fragments, Join.fragments]
    dsimp only
    rw [maskAll_append, maskAll_append, maskAll_append, maskAll_append,
      Source.maskAll_outline target, Source.key_outline, JoinOn.maskAll_outline context target.key on]

theorem Join.listMaskAll_outline : (js : List Join) → ∀ j ∈ js,
    maskAll (j.outline.fragments d).content.2 = maskAll (j.fragments d).content.2
  | [] => by simp
  | j :: js => by
    intro k hk
    rcases List.mem_cons.1 hk with hk | hk
    · exact hk ▸ Join.maskAll_outline j
    · exact Join.listMaskAll_outline js k hk

theorem JoinOn.maskAll_outline (context target : String) : (on : JoinOn) →
    maskAll (on.outline.fragments d context target) = maskAll (on.fragments d context target)
  | .relation _ => by rw [JoinOn.outline]
  | .condition c => by
    rw [JoinOn.outline, JoinOn.fragments, JoinOn.fragments, maskAll_clause, maskAll_clause,
      Condition.maskAll_outline c]
  | .always => by rw [JoinOn.outline]

theorem Distinct.maskAll_outline : (x : Distinct) →
    maskAll (x.outline.fragments d) = maskAll (x.fragments d)
  | .off => by rw [Distinct.outline]
  | .rows => by rw [Distinct.outline]
  | .on exprs => by
    rw [Distinct.outline, Distinct.fragments, Distinct.fragments]
    refine maskAll_requiring ?_
    rw [maskAll_enclosed, maskAll_enclosed, maskAll_commas, maskAll_commas,
      Expr.listMaskAll_outline none exprs]

end

end SqlMapper
