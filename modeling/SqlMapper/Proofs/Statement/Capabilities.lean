import SqlMapper.Proofs.Fragment.Gated
import SqlMapper.Proofs.Statement.Masked
import SqlMapper.Proofs.Statement.Mutation

/-!
# SqlMapper.Proofs.Statement.Capabilities

What a dialect can do decides only whether a statement is refused.

`Dialect.Gains` compares two dialects of which the second may have more capabilities. In every
place of the syntax the fragments of the first are those of the second with some stretches refused
(`Query.gated`, `Statement.gated`), and so are whole compilations (`Statement.compile_gains`).
-/

namespace SqlMapper

open Fragment

/-- The second dialect is the first with some more of `RETURNING`, `NULLS FIRST` and `LAST`,
`UPDATE … FROM`, `DELETE … USING`, `DISTINCT ON`, `FOR UPDATE` and a sign for exclusive or. -/
structure Dialect.Gains (d d' : Dialect) : Prop where
  name : d'.name = d.name
  quoteChar : d'.quoteChar = d.quoteChar
  placeholders : d'.placeholders = d.placeholders
  compoundParentheses : d'.compoundParentheses = d.compoundParentheses
  ilike : d'.ilike = d.ilike
  conflict : d'.conflict = d.conflict
  concat : d'.concat = d.concat
  limitForOffset : d'.limitForOffset = d.limitForOffset
  likeEscape : d'.likeEscape = d.likeEscape
  returning : d.returning = true → d'.returning = true
  nullsOrdering : d.nullsOrdering = true → d'.nullsOrdering = true
  updateFrom : d.updateFrom = true → d'.updateFrom = true
  deleteUsing : d.deleteUsing = true → d'.deleteUsing = true
  distinctOn : d.distinctOn = true → d'.distinctOn = true
  forUpdate : d.forUpdate = true → d'.forUpdate = true
  bitwiseXor : ∀ sign, d.bitwiseXor = some sign → d'.bitwiseXor = some sign

instance (d d' : Dialect) : Decidable (d.Gains d') :=
  decidable_of_iff
    (d' = { d with
      returning := d'.returning, nullsOrdering := d'.nullsOrdering, updateFrom := d'.updateFrom,
      deleteUsing := d'.deleteUsing, distinctOn := d'.distinctOn, forUpdate := d'.forUpdate,
      bitwiseXor := d'.bitwiseXor } ∧
      (d.returning = true → d'.returning = true) ∧
      (d.nullsOrdering = true → d'.nullsOrdering = true) ∧
      (d.updateFrom = true → d'.updateFrom = true) ∧
      (d.deleteUsing = true → d'.deleteUsing = true) ∧
      (d.distinctOn = true → d'.distinctOn = true) ∧
      (d.forUpdate = true → d'.forUpdate = true) ∧
      (d.bitwiseXor = none ∨ d'.bitwiseXor = d.bitwiseXor)) <| by
    constructor
    · rintro ⟨h, hret, hnulls, hupdate, hdelete, hdistinct, hlock, hxor⟩
      have hsign : ∀ sign, d.bitwiseXor = some sign → d'.bitwiseXor = some sign := by
        intro sign hsign
        rcases hxor with hxor | hxor
        · rw [hxor] at hsign
          cases hsign
        · rw [hxor, hsign]
      obtain ⟨⟩ := d
      obtain ⟨⟩ := d'
      simp only [Dialect.mk.injEq] at h
      obtain ⟨rfl, rfl, rfl, -, -, rfl, rfl, -, -, -, -, rfl, -, rfl, rfl, rfl⟩ := h
      exact ⟨rfl, rfl, rfl, rfl, rfl, rfl, rfl, rfl, rfl, hret, hnulls, hupdate, hdelete, hdistinct,
        hlock, hsign⟩
    · intro h
      refine ⟨?_, h.returning, h.nullsOrdering, h.updateFrom, h.deleteUsing, h.distinctOn,
        h.forUpdate, ?_⟩
      · obtain ⟨⟩ := d
        obtain ⟨⟩ := d'
        obtain ⟨rfl, rfl, rfl, rfl, rfl, rfl, rfl, rfl, rfl, -⟩ := h
        rfl
      · cases hsign : d.bitwiseXor with
        | none => exact .inl rfl
        | some sign => exact .inr (h.bitwiseXor sign hsign)

namespace Fragment.Gated

variable {d d' : Dialect} {left left' right right' : List Fragment}
  {fss gss fss' gss' : List (List Fragment)}

/-! ## Clauses -/

theorem ofSigned (sign : String) (hl : Gated left left') (hr : Gated right right') :
    Gated (ofSigned left sign right) (ofSigned left' sign right') :=
  ((hl.ending _).append hr).parenthesized

theorem ofBinary (h : d.Gains d') (op : Operator) (hl : Gated left left')
    (hr : Gated right right') : Gated (ofBinary d left op right) (ofBinary d' left' op right') := by
  unfold Fragment.ofBinary
  rw [h.concat]
  split
  · cases hsign : d.bitwiseXor with
    | none => exact .refused _ _
    | some sign =>
      rw [h.bitwiseXor sign hsign]
      exact ofSigned sign hl hr
  · split
    · exact ((hl.ending _).append hr).enclosed _ _
    · exact ofSigned _ hl hr
  · exact ofSigned _ hl hr

theorem ofSaid (keyword : String) (hl : Gated left left') :
    Gated (ofSaid left keyword) (ofSaid left' keyword) :=
  (hl.ending _).parenthesized

theorem ofComparison (h : d.Gains d') (op : Comparison) (escaped : Bool) (hl : Gated left left')
    (hr : Gated right right') :
    Gated (ofComparison d op escaped left right) (ofComparison d' op escaped left' right') := by
  unfold Fragment.ofComparison comparisonSign
  rw [h.ilike, h.likeEscape]
  exact (((hl.ending _).append hr).ending _).parenthesized

theorem ofMembership (op : Comparison) (hl : Gated left left') (h : List.Forall₂ Gated fss gss) :
    Gated (ofMembership op left fss) (ofMembership op left' gss) := by
  cases h with
  | nil => exact .refl _
  | cons hf hrest => exact ofSigned op.sign hl (commas (.cons hf hrest)).parenthesized

theorem ofBetween (hl : Gated left left') (h : List.Forall₂ Gated fss gss) :
    Gated (ofBetween left fss) (ofBetween left' gss) := by
  rcases h with _ | ⟨hlow, _ | ⟨hhigh, _ | ⟨_, _⟩⟩⟩
  · exact .refl _
  · exact .refl _
  · exact ((((hl.ending _).append hlow).ending _).append hhigh).parenthesized
  · exact .refl _

theorem ofGroup (connective : Connective) (h : List.Forall₂ Gated fss gss) :
    Gated (ofGroup connective fss) (ofGroup connective gss) := by
  cases h with
  | nil => exact .refl _
  | cons hf hrest => exact (separated _ (.cons hf hrest)).parenthesized

theorem ofProjected (e : Expr) (hl : Gated left left') :
    Gated (ofProjected e left) (ofProjected e left') := by
  unfold Fragment.ofProjected
  split
  · exact hl.ending _
  · exact hl

theorem ofOrderTerm (h : d.Gains d') (e : Expr) (direction : Direction) (nulls : Option Nulls)
    (hl : Gated left left') :
    Gated (ofOrderTerm d e left direction nulls) (ofOrderTerm d' e left' direction nulls) := by
  unfold Fragment.ofOrderTerm
  rw [h.name]
  refine Gated.append (Gated.ending ?_ _) ?_
  · split
    · exact .refl _
    · exact hl
  · split
    · exact .refl _
    · exact .available h.nullsOrdering _ (.refl _)

theorem ofWindow (frame : Option Frame) (hp : List.Forall₂ Gated fss gss)
    (ho : List.Forall₂ Gated fss' gss') :
    Gated (ofWindow fss fss' frame) (ofWindow gss gss' frame) := by
  unfold Fragment.ofWindow
  refine separated " " (List.rel_append (List.rel_append ?_ ?_) ?_)
  · cases hp with
    | nil => exact .nil
    | cons hf hrest => exact .cons ((commas (.cons hf hrest)).cons _) .nil
  · cases ho with
    | nil => exact .nil
    | cons hf hrest => exact .cons ((commas (.cons hf hrest)).cons _) .nil
  · exact List.forall₂_same.2 fun fs _ => .refl fs

theorem ofDeclaredWindow (windowName : Option String) (hl : Gated left left') :
    Gated (ofDeclaredWindow windowName left) (ofDeclaredWindow windowName left') := by
  unfold Fragment.ofDeclaredWindow
  split
  · exact (hl.lead _).ending _
  · exact .refl _

theorem ofSource (s : Source) (hl : Gated left left') : Gated (ofSource s left) (ofSource s left') := by
  unfold Fragment.ofSource
  split
  · exact .refl _
  · exact .refl _
  · exact hl.parenthesized.ending _

theorem ofCtes (ctes : List Cte) (h : List.Forall₂ Gated fss gss) :
    Gated (ofCtes ctes fss) (ofCtes ctes gss) := by
  have hentry (c : Cte) {fs gs : List Fragment} (h : Gated fs gs) :
      Gated (ofCte c fs) (ofCte c gs) := (h.enclosed _ _).lead _
  have hentries : List.Forall₂ Gated (ctes.zipWith ofCte fss) (ctes.zipWith ofCte gss) := by
    induction h generalizing ctes with
    | nil => cases ctes <;> exact .nil
    | cons hf _ ih =>
      cases ctes with
      | nil => exact .nil
      | cons c cs => exact .cons (hentry c hf) (ih cs)
  cases ctes with
  | nil => exact .refl _
  | cons c cs =>
    rw [ofCtes_cons, ofCtes_cons]
    exact ((commas hentries).cons _).ending _

theorem ofOperand (h : d.Gains d') (isRight isCompound ordered : Bool) (hl : Gated left left') :
    Gated (ofOperand d isRight isCompound ordered left)
      (ofOperand d' isRight isCompound ordered left') := by
  unfold Fragment.ofOperand
  rw [h.compoundParentheses, h.name]
  split
  · exact hl.parenthesized
  · split
    · exact (hl.enclosed _ _).ending _
    · exact hl.requiring _ _

theorem ofLimit (h : d.Gains d') (limit offset : Option Nat) :
    Gated (ofLimit d limit offset) (ofLimit d' limit offset) := by
  unfold Fragment.ofLimit
  rw [h.limitForOffset]
  exact .refl _

theorem ofExcluded (h : d.Gains d') (field : String) :
    Gated (ofExcluded d field) (ofExcluded d' field) := by
  unfold Fragment.ofExcluded
  rw [h.conflict]
  exact .refl _

/-! ## Selects and compounds from their parts -/

theorem ofSelect (h : d.Gains d') (s : Select)
    (hctes : List.Forall₂ Gated (Cte.listFragments d s.ctes) (Cte.listFragments d' s.ctes))
    (hdistinct : Gated (s.distinct.fragments d) (s.distinct.fragments d'))
    (hcolumns : List.Forall₂ Gated (Expr.projectionFragments d s.columns)
      (Expr.projectionFragments d' s.columns))
    (hsource : Gated (Source.clauseFragments d " FROM " s.source)
      (Source.clauseFragments d' " FROM " s.source))
    (hjoins : ∀ j ∈ s.joins, Gated (j.fragments d).content.2 (j.fragments d').content.2)
    (hfilter : Gated (Condition.clauseFragments d " WHERE " s.filter)
      (Condition.clauseFragments d' " WHERE " s.filter))
    (hgroup : List.Forall₂ Gated (Expr.listFragments d none s.groupBy)
      (Expr.listFragments d' none s.groupBy))
    (hhaving : Gated (Condition.clauseFragments d " HAVING " s.having)
      (Condition.clauseFragments d' " HAVING " s.having))
    (hwindows : List.Forall₂ Gated (Window.listFragments d s.windows)
      (Window.listFragments d' s.windows))
    (horder : List.Forall₂ Gated (OrderTerm.listFragments d s.orderBy)
      (OrderTerm.listFragments d' s.orderBy)) :
    Gated (s.fragments d) (s.fragments d') := by
  have hprojection : Gated (s.projectionFragments d) (s.projectionFragments d') := by
    unfold Select.projectionFragments
    split
    · exact .refl _
    · exact .refl _
    · exact .refl _
    · exact commas hcolumns
  have hlock : Gated
      (if s.forUpdate then
        Fragment.requiring d.forUpdate (.unsupported d.name .forUpdate) [text " FOR UPDATE"]
      else [])
      (if s.forUpdate then
        Fragment.requiring d'.forUpdate (.unsupported d'.name .forUpdate) [text " FOR UPDATE"]
      else []) := by
    rw [h.name]
    split
    · exact .available h.forUpdate _ (.refl _)
    · exact .refl _
  have hhead : Gated (s.headFragments d) (s.headFragments d') :=
    ((hdistinct.lead _).append hprojection).append hsource
  have htail : Gated (s.tailFragments d) (s.tailFragments d') :=
    (((((hfilter.append (listClause _ hgroup)).append hhaving).append
      (listClause _ hwindows)).append (listClause _ horder)).append (ofLimit h _ _)).append hlock
  have hwalk := flatMap fun j hj => hjoins j (Select.mem_of_mem_walk hj)
  rw [Select.fragments_eq, Select.fragments_eq]
  exact (ofCtes s.ctes hctes).append (((hhead.append (hwalk.append htail)).lead _).nested _)

theorem ofCompound (h : d.Gains d') (c : Compound)
    (hctes : List.Forall₂ Gated (Cte.listFragments d c.ctes) (Cte.listFragments d' c.ctes))
    (hleft : Gated (c.left.fragments d) (c.left.fragments d'))
    (hright : Gated (c.right.fragments d) (c.right.fragments d'))
    (horder : List.Forall₂ Gated (OrderTerm.listFragments d c.orderBy)
      (OrderTerm.listFragments d' c.orderBy)) :
    Gated (c.fragments d) (c.fragments d') := by
  have hordering : Gated (Compound.orderingFragments d c.orderBy)
      (Compound.orderingFragments d' c.orderBy) := by
    generalize c.orderBy = orderBy at horder
    cases orderBy with
    | nil => exact .refl _
    | cons t ts => exact ((commas horder).nested _).cons _
  rw [Compound.fragments_eq, Compound.fragments_eq]
  exact (((((ofCtes c.ctes hctes).append (ofOperand h _ _ _ hleft)).ending _).append
    (ofOperand h _ _ _ hright)).append hordering).append (ofLimit h _ _)

end Fragment.Gated

/-! ## Queries -/

section

variable {d d' : Dialect}

mutual

theorem Expr.gated (h : d.Gains d') (codec : Option Field) : (e : Expr) →
    Gated (e.fragments d codec) (e.fragments d' codec)
  | .column q name => by
    rw [Expr.fragments, Expr.fragments]
    exact .refl _
  | .literal v => by
    rw [Expr.fragments, Expr.fragments]
    exact .refl _
  | .raw sql => by
    rw [Expr.fragments, Expr.fragments]
    exact .refl _
  | .call function arguments distinct => by
    rw [Expr.fragments, Expr.fragments]
    exact ((Gated.commas (Expr.listGated h none arguments)).enclosed _ _).cons _
  | .windowed function window => by
    rw [Expr.fragments, Expr.fragments]
    exact ((Expr.gated h none function).ending _).append (WindowRef.gated h window)
  | .binary left op right => by
    rw [Expr.fragments, Expr.fragments]
    exact .ofBinary h op (Expr.gated h none left) (Expr.gated h none right)
  | .list items => by
    rw [Expr.fragments, Expr.fragments]
    exact (Gated.commas (Expr.listGated h codec items)).parenthesized
  | .subquery query => by
    rw [Expr.fragments, Expr.fragments]
    exact (Query.gated h query).parenthesized
  | .nonEmpty query => by
    rw [Expr.fragments, Expr.fragments]
    exact (Query.gated h query).enclosed _ _
  | .condition c => by
    rw [Expr.fragments, Expr.fragments]
    exact Condition.gated h c
  | .cast operand type => by
    rw [Expr.fragments, Expr.fragments]
    exact ((Expr.gated h none operand).ending _).enclosed _ _
  | .named operand _ => by
    rw [Expr.fragments, Expr.fragments]
    exact Expr.gated h codec operand
  | .excluded field => by
    rw [Expr.fragments, Expr.fragments]
    exact .ofExcluded h field
  | .star q => by
    rw [Expr.fragments, Expr.fragments]
    exact .refl _

theorem Expr.listGated (h : d.Gains d') (codec : Option Field) : (es : List Expr) →
    List.Forall₂ Gated (Expr.listFragments d codec es) (Expr.listFragments d' codec es)
  | [] => .nil
  | e :: es => .cons (Expr.gated h codec e) (Expr.listGated h codec es)

theorem Expr.itemGated (h : d.Gains d') (codec : Option Field) : (e : Expr) →
    Option.Rel (List.Forall₂ Gated) (e.itemFragments? d codec) (e.itemFragments? d' codec)
  | .list items => .some (Expr.listGated h codec items)
  | .column _ _ | .literal _ | .raw _ | .call _ _ _ | .windowed _ _ | .binary _ _ _
  | .subquery _ | .nonEmpty _ | .condition _ | .cast _ _ | .named _ _ | .excluded _
  | .star _ => .none

theorem WindowRef.gated (h : d.Gains d') : (w : WindowRef) → Gated (w.fragments d) (w.fragments d')
  | .inline window => by
    rw [WindowRef.fragments, WindowRef.fragments]
    exact (Window.gated h window).parenthesized
  | .named n => by
    rw [WindowRef.fragments, WindowRef.fragments]
    exact .refl _

theorem Window.gated (h : d.Gains d') : (w : Window) → Gated (w.fragments d) (w.fragments d')
  | ⟨_, partitionBy, orderBy, frame⟩ => by
    rw [Window.fragments, Window.fragments]
    exact .ofWindow frame (Expr.listGated h none partitionBy) (OrderTerm.listGated h orderBy)

theorem Window.listGated (h : d.Gains d') : (ws : List Window) →
    List.Forall₂ Gated (Window.listFragments d ws) (Window.listFragments d' ws)
  | [] => .nil
  | w :: ws => .cons (.ofDeclaredWindow w.name (Window.gated h w)) (Window.listGated h ws)

theorem OrderTerm.gated (h : d.Gains d') : (t : OrderTerm) → Gated (t.fragments d) (t.fragments d')
  | ⟨operand, direction, nulls⟩ => by
    rw [OrderTerm.fragments, OrderTerm.fragments]
    exact .ofOrderTerm h operand direction nulls (Expr.gated h none operand)

theorem OrderTerm.listGated (h : d.Gains d') : (ts : List OrderTerm) →
    List.Forall₂ Gated (OrderTerm.listFragments d ts) (OrderTerm.listFragments d' ts)
  | [] => .nil
  | t :: ts => .cons (OrderTerm.gated h t) (OrderTerm.listGated h ts)

theorem Condition.gated (h : d.Gains d') : (c : Condition) → Gated (c.fragments d) (c.fragments d')
  | .compare left op right negated escaped => by
    have hleft := Expr.gated h none left
    have hright := Expr.gated h left.field? right
    have hitems := Expr.itemGated h left.field? right
    have hnull (keyword : String) : Gated
        (if right.isNullLiteral then ofSaid (left.fragments d none) keyword
          else ofComparison d op escaped (left.fragments d none) (right.fragments d left.field?))
        (if right.isNullLiteral then ofSaid (left.fragments d' none) keyword
          else ofComparison d' op escaped (left.fragments d' none)
            (right.fragments d' left.field?)) := by
      split
      · exact .ofSaid keyword hleft
      · exact .ofComparison h op escaped hleft hright
    have hmember : Gated (ofMember d left.field? op (left.fragments d none) right)
        (ofMember d' left.field? op (left.fragments d' none) right) := by
      unfold ofMember
      generalize right.itemFragments? d left.field? = fss,
        right.itemFragments? d' left.field? = gss at hitems
      cases hitems with
      | some h => exact .ofMembership op hleft h
      | none =>
        cases right.arrayItems? with
        | some vs => exact .ofMembership op hleft (List.forall₂_same.2 fun fs _ => .refl fs)
        | none => exact .ofSigned op.sign hleft hright
    rw [Condition.fragments.eq_def, Condition.fragments.eq_def]
    refine Gated.lead _ ?_
    cases op with
    | eq => exact hnull _
    | is => exact hnull _
    | ne => exact hnull _
    | isNot => exact hnull _
    | like => exact .ofComparison h _ escaped hleft (Expr.gated h none right)
    | notLike => exact .ofComparison h _ escaped hleft (Expr.gated h none right)
    | ilike => exact .ofComparison h _ escaped hleft (Expr.gated h none right)
    | isIn => exact hmember
    | notIn => exact hmember
    | between =>
      refine .ofBetween hleft ?_
      generalize right.itemFragments? d left.field? = fss,
        right.itemFragments? d' left.field? = gss at hitems
      cases hitems with
      | some h => exact h
      | none => exact .nil
    | lt => exact .ofComparison h _ escaped hleft hright
    | le => exact .ofComparison h _ escaped hleft hright
    | gt => exact .ofComparison h _ escaped hleft hright
    | ge => exact .ofComparison h _ escaped hleft hright
  | .group connective members negated => by
    rw [Condition.fragments, Condition.fragments]
    exact (Gated.ofGroup connective (Condition.listGated h members)).lead _
  | .operand e => by
    rw [Condition.fragments, Condition.fragments]
    exact Expr.gated h none e

theorem Condition.listGated (h : d.Gains d') : (cs : List Condition) →
    List.Forall₂ Gated (Condition.listFragments d cs) (Condition.listFragments d' cs)
  | [] => .nil
  | c :: cs => .cons (Condition.gated h c) (Condition.listGated h cs)

theorem Condition.clauseGated (h : d.Gains d') (lead : String) : (c : Option Condition) →
    Gated (Condition.clauseFragments d lead c) (Condition.clauseFragments d' lead c)
  | none => .refl _
  | some c => (Condition.gated h c).clause lead

theorem Expr.projectionGated (h : d.Gains d') : (es : List Expr) →
    List.Forall₂ Gated (Expr.projectionFragments d es) (Expr.projectionFragments d' es)
  | [] => .nil
  | e :: es => .cons (.ofProjected e (Expr.gated h none e)) (Expr.projectionGated h es)

theorem Query.gated (h : d.Gains d') : (q : Query) → Gated (q.fragments d) (q.fragments d')
  | .simple s => by
    rw [Query.fragments, Query.fragments]
    exact Select.gated h s
  | .compound c => by
    rw [Query.fragments, Query.fragments]
    exact Compound.gated h c

theorem Select.gated (h : d.Gains d') : (s : Select) → Gated (s.fragments d) (s.fragments d')
  | ⟨ctes, source, _, joins, columns, distinct, filter, groupBy, having, windows, orderBy, _, _, _⟩ =>
    .ofSelect h _ (Cte.listGated h ctes) (Distinct.gated h distinct) (Expr.projectionGated h columns)
      (Source.clauseGated h " FROM " source) (Join.listGated h joins)
      (Condition.clauseGated h " WHERE " filter) (Expr.listGated h none groupBy)
      (Condition.clauseGated h " HAVING " having) (Window.listGated h windows)
      (OrderTerm.listGated h orderBy)

theorem Compound.gated (h : d.Gains d') : (c : Compound) → Gated (c.fragments d) (c.fragments d')
  | ⟨ctes, left, _, right, orderBy, _, _⟩ =>
    .ofCompound h _ (Cte.listGated h ctes) (Query.gated h left) (Query.gated h right)
      (OrderTerm.listGated h orderBy)

theorem Cte.gated (h : d.Gains d') : (c : Cte) → Gated (c.fragments d) (c.fragments d')
  | ⟨_, _, _, query⟩ => by
    rw [Cte.fragments, Cte.fragments]
    exact Query.gated h query

theorem Cte.listGated (h : d.Gains d') : (cs : List Cte) →
    List.Forall₂ Gated (Cte.listFragments d cs) (Cte.listFragments d' cs)
  | [] => .nil
  | c :: cs => .cons (Cte.gated h c) (Cte.listGated h cs)

theorem Source.gated (h : d.Gains d') : (s : Source) → Gated (s.fragments d) (s.fragments d')
  | .model m => by
    rw [Source.fragments, Source.fragments]
    exact .refl _
  | .table n => by
    rw [Source.fragments, Source.fragments]
    exact .refl _
  | .derived query name => by
    rw [Source.fragments, Source.fragments]
    exact .ofSource (.derived query name) (Query.gated h query)

theorem Source.clauseGated (h : d.Gains d') (lead : String) : (source : Option Source) →
    Gated (Source.clauseFragments d lead source) (Source.clauseFragments d' lead source)
  | none => .refl _
  | some source => (Source.gated h source).clause lead

theorem Join.gated (h : d.Gains d') : (j : Join) → Gated (j.fragments d).content.2 (j.fragments d').content.2
  | ⟨context, target, _, on, _⟩ => by
    rw [Join.fragments, Join.fragments]
    exact ((Source.gated h target).lead _).append (JoinOn.gated h context target.key on)

theorem Join.listGated (h : d.Gains d') : (js : List Join) →
    ∀ j ∈ js, Gated (j.fragments d).content.2 (j.fragments d').content.2
  | [] => by simp
  | j :: js => by
    intro k hk
    rcases List.mem_cons.1 hk with hk | hk
    · exact hk ▸ Join.gated h j
    · exact Join.listGated h js k hk

theorem JoinOn.gated (h : d.Gains d') (context target : String) : (on : JoinOn) →
    Gated (on.fragments d context target) (on.fragments d' context target)
  | .relation r => by
    rw [JoinOn.fragments, JoinOn.fragments]
    exact .refl _
  | .condition c => by
    rw [JoinOn.fragments, JoinOn.fragments]
    exact (Condition.gated h c).clause _
  | .always => .refl _

theorem Distinct.gated (h : d.Gains d') : (x : Distinct) → Gated (x.fragments d) (x.fragments d')
  | .off => .refl _
  | .rows => .refl _
  | .on exprs => by
    rw [Distinct.fragments, Distinct.fragments, h.name]
    exact .available h.distinctOn _ ((Gated.commas (Expr.listGated h none exprs)).enclosed _ _)

end

end

/-! ## Statements that change rows -/

namespace Fragment.Gated

variable {d d' : Dialect} (h : d.Gains d')

include h

theorem assignment (m : Model) (a : Assignment) : Gated (a.fragments d m) (a.fragments d' m) := by
  unfold Assignment.fragments
  split
  · exact (Expr.gated h _ a.value).lead _
  · exact .refl _

theorem returning (es : List Expr) :
    Gated (returningFragments d es) (returningFragments d' es) := by
  unfold returningFragments
  rw [h.name]
  split
  · exact .refl _
  · exact .available h.returning _ ((commas (Expr.projectionGated h _)).unqualified.cons _)

theorem sources (lead : String) (ss : List Source) :
    Gated (sourcesFragments d lead ss) (sourcesFragments d' lead ss) :=
  listClause lead (map fun s => Source.gated h s)

theorem insertVerb (c : Option OnConflict) :
    SqlMapper.insertVerb d c = SqlMapper.insertVerb d' c := by
  unfold SqlMapper.insertVerb
  rw [h.conflict, h.name]

theorem cell (m : Model) (row : Nat) (assignments : List Assignment) (f : Field) :
    Gated (cell d m row assignments f) (cell d' m row assignments f) := by
  unfold SqlMapper.cell
  split
  · exact Expr.gated h _ _
  · exact .refl _

theorem insertedRows (m : Model) (rows : List (List Assignment)) :
    Gated (insertedRows d m rows) (insertedRows d' m rows) := by
  have hdefault : defaultRow d = defaultRow d' := by
    unfold defaultRow
    rw [h.conflict]
  unfold SqlMapper.insertedRows
  rw [hdefault]
  split
  · exact .refl _
  · split
    · exact .refl _
    · refine (commas ?_).lead _
      simp only [List.mapIdx_eq_zipIdx_map]
      exact map fun p => (commas (map fun f => cell h m p.2 p.1 f)).parenthesized

theorem insertSource (m : Model) (s : InsertSource) :
    Gated (s.fragments d m) (s.fragments d' m) := by
  cases s with
  | defaults =>
    unfold InsertSource.fragments defaultRow
    rw [h.conflict]
    exact .refl _
  | query fields q => exact (Query.gated h q).lead _
  | rows rs => exact insertedRows h m rs

theorem conflictAssignments (m : Model) (c : OnConflict) :
    Gated (conflictAssignments d m c) (conflictAssignments d' m c) := by
  have hexcluded : Fragment.ofExcluded d = Fragment.ofExcluded d' := by
    funext field
    unfold Fragment.ofExcluded
    rw [h.conflict]
  unfold SqlMapper.conflictAssignments
  rw [hexcluded]
  dsimp only
  generalize c.preserve.map _ = preserved
  have hentries : List.Forall₂ Gated (preserved ++ c.assignments.map (Assignment.fragments d m))
      (preserved ++ c.assignments.map (Assignment.fragments d' m)) :=
    List.rel_append (List.forall₂_same.2 fun fs _ => .refl fs) (map (assignment h m))
  generalize preserved ++ c.assignments.map (Assignment.fragments d m) = fss,
    preserved ++ c.assignments.map (Assignment.fragments d' m) = gss at hentries ⊢
  cases hentries with
  | nil => exact .refl _
  | cons hf hrest => exact commas (.cons hf hrest)

theorem duplicateKeyClause (m : Model) (c : OnConflict) :
    Gated (duplicateKeyClause d m c) (duplicateKeyClause d' m c) := by
  unfold SqlMapper.duplicateKeyClause
  rw [h.name]
  refine requiring _ _ ?_
  split
  · exact (conflictAssignments h m c).cons _
  · exact .refl _

theorem conflictTarget (m : Model) (c : OnConflict) :
    Gated (conflictTarget d m c) (conflictTarget d' m c) := by
  unfold SqlMapper.conflictTarget
  rw [h.conflict, h.name]
  split
  · refine Gated.lead _ ?_
    split
    · exact (Condition.gated h _).unqualified.cons _
    · exact .refl _
  · exact .refl _
  · exact .refl _

theorem onConflictClause (m : Model) (c : OnConflict) :
    Gated (onConflictClause d m c) (onConflictClause d' m c) := by
  unfold SqlMapper.onConflictClause
  refine ((conflictTarget h m c).cons _).append ?_
  split
  · exact ((conflictAssignments h m c).append (Condition.clauseGated h _ _)).cons _
  · exact .refl _

theorem conflictClause (m : Model) (c : Option OnConflict) :
    Gated ((c.map (OnConflict.fragments d m)).getD [])
      ((c.map (OnConflict.fragments d' m)).getD []) := by
  cases c with
  | none => exact .refl _
  | some c =>
    rw [Option.map_some, Option.map_some, Option.getD_some, Option.getD_some]
    unfold OnConflict.fragments
    rw [h.conflict]
    split
    · exact duplicateKeyClause h m c
    · exact .refl _
    · split
      · exact .refl _
      · exact onConflictClause h m c
    · exact onConflictClause h m c

theorem insert (i : Insert) : Gated (i.fragments d) (i.fragments d') := by
  unfold Insert.fragments
  rw [insertVerb h]
  exact (ofCtes i.ctes (Cte.listGated h i.ctes)).append
    (((((insertSource h i.into.model i.source).lead _).append
      (conflictClause h i.into.model i.onConflict)).append (returning h i.returning)).nested _)

theorem update (u : Update) : Gated (u.fragments d) (u.fragments d') := by
  have hsources : (u.sources.isEmpty || d.updateFrom) = true →
      (u.sources.isEmpty || d'.updateFrom) = true := by
    rw [Bool.or_eq_true, Bool.or_eq_true]
    exact Or.imp_right h.updateFrom
  unfold Update.fragments
  rw [h.name]
  refine (ofCtes u.ctes (Cte.listGated h u.ctes)).append (Gated.nested _ ?_)
  split
  · exact .refl _
  · exact .available hsources _ (((((commas (map (assignment h u.table.model))).lead _).append
      (sources h _ _)).append (Condition.clauseGated h _ _)).append (returning h _))

theorem delete (x : Delete) : Gated (x.fragments d) (x.fragments d') := by
  have hsources : (x.sources.isEmpty || d.deleteUsing) = true →
      (x.sources.isEmpty || d'.deleteUsing) = true := by
    rw [Bool.or_eq_true, Bool.or_eq_true]
    exact Or.imp_right h.deleteUsing
  unfold Delete.fragments
  rw [h.name]
  exact (ofCtes x.ctes (Cte.listGated h x.ctes)).append ((available hsources _
    ((((sources h _ _).lead _).append (Condition.clauseGated h _ _)).append
      (returning h _))).nested _)

end Fragment.Gated

/-! ## Compilation -/

namespace Statement

theorem gated {d d' : Dialect} (h : d.Gains d') (st : Statement) :
    Gated (st.fragments d) (st.fragments d') := by
  cases st with
  | query q => exact Query.gated h q
  | insert i => exact Gated.insert h i
  | update u => exact Gated.update h u
  | delete x => exact Gated.delete h x

end Statement

/-- Names and placeholders look the same in both dialects, so their texts are the same. -/
theorem Rendered.ofPieces_gains {d d' : Dialect} (h : d.Gains d') (ps : List Piece) :
    ofPieces d ps = ofPieces d' ps := by
  have htexts (n : Nat) : Piece.texts d n ps = Piece.texts d' n ps := by
    induction ps generalizing n with
    | nil => rfl
    | cons p ps ih =>
      cases p with
      | text s => rw [Piece.texts, Piece.texts, ih]
      | name s => rw [Piece.texts, Piece.texts, ih, Dialect.quote, Dialect.quote, h.quoteChar]
      | param v =>
        rw [Piece.texts, Piece.texts, ih, Dialect.placeholder, Dialect.placeholder, h.placeholders]
  rw [ofPieces, ofPieces, htexts]

namespace Statement

/-- A compilation with fewer capabilities is that with more, or is refused as one. -/
theorem compile_gains {d d' : Dialect} (h : d.Gains d') (st : Statement) (s : Supply) :
    st.compile d s = st.compile d' s ∨ ∃ e, (st.compile d s).1 = .error (.compilation e) := by
  unfold compile render
  rcases (st.gated h).runAll (.start s) with heq | ⟨e, he⟩
  · left
    simp only [heq, Rendered.ofPieces_gains h]
  · right
    exact ⟨e, by simp only [he]; rfl⟩

/-- More capabilities change nothing about what compiles with fewer. What needs one of them is
refused by a compilation error where it is missing, and never left out or written in another way. -/
theorem capabilities_only_gate (st : Statement) (d d' : Dialect) (h : d.Gains d') (s : Supply)
    (r : Rendered) (t : Supply) :
    (st.compile d s = (.ok r, t) → st.compile d' s = (.ok r, t)) ∧
      (st.compile d' s = (.ok r, t) →
        st.compile d s = (.ok r, t) ∨ ∃ e, (st.compile d s).1 = .error (.compilation e)) := by
  rcases compile_gains h st s with heq | ⟨e, he⟩
  · rw [heq]
    exact ⟨id, .inl⟩
  · constructor
    · intro hok
      rw [hok] at he
      cases he
    · exact fun _ => .inr ⟨e, he⟩

end Statement

namespace Sample

/-- Notes ranked by a window whose order says where NULL goes. -/
def ranked : Statement :=
  .query (.simple ((Select.ofTable "notes").select
    [(Expr.function "RANK" []).overWindow
      ⟨none, [], [⟨.bare "body", .descending, some .last⟩], none⟩]))

def rankedPieces : List Piece :=
  [.text "SELECT ", .text "RANK", .text "(", .text ")", .text " OVER ", .text "(",
    .text "ORDER BY ", .name "body", .text " DESC", .text " NULLS LAST", .text ")",
    .text " FROM ", .name "notes"]

theorem ranked_only_gated :
    ranked.compile .postgres ⟨0⟩ = (.ok (.ofPieces .postgres rankedPieces), ⟨0⟩) ∧
      ∃ e, (ranked.compile { Dialect.postgres with nullsOrdering := false } ⟨0⟩).1 =
        .error (.compilation e) := by
  have hgains : Dialect.Gains { Dialect.postgres with nullsOrdering := false } .postgres := by decide
  have hfull : ranked.compile .postgres ⟨0⟩ = (.ok (.ofPieces .postgres rankedPieces), ⟨0⟩) := by
    with_unfolding_all rfl
  have hrefused : (ranked.compile { Dialect.postgres with nullsOrdering := false } ⟨0⟩).1.isOk =
      false := by
    with_unfolding_all rfl
  refine ⟨hfull, ?_⟩
  rcases (Statement.capabilities_only_gate ranked _ _ hgains ⟨0⟩ _ _).2 hfull with h | h
  · rw [h] at hrefused
    cases hrefused
  · exact h

end Sample

end SqlMapper
