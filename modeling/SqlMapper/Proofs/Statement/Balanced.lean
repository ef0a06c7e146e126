import SqlMapper.Proofs.Statement.Delimited

/-!
# SqlMapper.Proofs.Statement.Balanced

The text of every part of a query closes the quotes and parentheses that it opens, and holds no set
operator, ordering, limit or offset outside of parentheses but those of queries and windows
themselves (`Expr.balanced`, `Query.balanced`). This needs that the dialect can be read and that
what the caller wrote as SQL does the same (`Expr.sqlTexts`).
-/

namespace SqlMapper

open Fragment Lexer

/-! ## What the caller wrote as SQL -/

mutual

/-- Raw SQL and the names of functions and of types. -/
def Expr.sqlTexts : Expr → List String
  | .column _ _ | .literal _ | .excluded _ | .star _ => []
  | .raw sql => [sql]
  | .call function arguments _ => function :: Expr.listSqlTexts arguments
  | .windowed function window => function.sqlTexts ++ window.sqlTexts
  | .binary left _ right => left.sqlTexts ++ right.sqlTexts
  | .list items => Expr.listSqlTexts items
  | .subquery query => query.sqlTexts
  | .nonEmpty query => query.sqlTexts
  | .condition c => c.sqlTexts
  | .cast operand type => operand.sqlTexts ++ [type]
  | .named operand _ => operand.sqlTexts

def Expr.listSqlTexts : List Expr → List String
  | [] => []
  | e :: es => e.sqlTexts ++ Expr.listSqlTexts es

def WindowRef.sqlTexts : WindowRef → List String
  | .inline window => window.sqlTexts
  | .named _ => []

def Window.sqlTexts : Window → List String
  | ⟨_, partitionBy, orderBy, _⟩ => Expr.listSqlTexts partitionBy ++ OrderTerm.listSqlTexts orderBy

def Window.listSqlTexts : List Window → List String
  | [] => []
  | w :: ws => w.sqlTexts ++ Window.listSqlTexts ws

def OrderTerm.sqlTexts : OrderTerm → List String
  | ⟨operand, _, _⟩ => operand.sqlTexts

def OrderTerm.listSqlTexts : List OrderTerm → List String
  | [] => []
  | t :: ts => t.sqlTexts ++ OrderTerm.listSqlTexts ts

def Condition.sqlTexts : Condition → List String
  | .compare left _ right _ _ => left.sqlTexts ++ right.sqlTexts
  | .group _ members _ => Condition.listSqlTexts members
  | .operand e => e.sqlTexts

def Condition.listSqlTexts : List Condition → List String
  | [] => []
  | c :: cs => c.sqlTexts ++ Condition.listSqlTexts cs

def Condition.clauseSqlTexts : Option Condition → List String
  | none => []
  | some c => c.sqlTexts

def Query.sqlTexts : Query → List String
  | .simple s => s.sqlTexts
  | .compound c => c.sqlTexts

def Select.sqlTexts : Select → List String
  | ⟨ctes, source, _, joins, columns, distinct, filter, groupBy, having, windows, orderBy, _, _, _⟩ =>
    Cte.listSqlTexts ctes ++ (Source.clauseSqlTexts source ++ (Join.listSqlTexts joins ++
      (Expr.listSqlTexts columns ++ (distinct.sqlTexts ++ (Condition.clauseSqlTexts filter ++
        (Expr.listSqlTexts groupBy ++ (Condition.clauseSqlTexts having ++
          (Window.listSqlTexts windows ++ OrderTerm.listSqlTexts orderBy))))))))

def Compound.sqlTexts : Compound → List String
  | ⟨ctes, left, _, right, orderBy, _, _⟩ =>
    Cte.listSqlTexts ctes ++ (left.sqlTexts ++ (right.sqlTexts ++ OrderTerm.listSqlTexts orderBy))

def Cte.sqlTexts : Cte → List String
  | ⟨_, _, _, query⟩ => query.sqlTexts

def Cte.listSqlTexts : List Cte → List String
  | [] => []
  | c :: cs => c.sqlTexts ++ Cte.listSqlTexts cs

def Source.sqlTexts : Source → List String
  | .model _ | .table _ => []
  | .derived query _ => query.sqlTexts

def Source.clauseSqlTexts : Option Source → List String
  | none => []
  | some s => s.sqlTexts

def Join.sqlTexts : Join → List String
  | ⟨_, target, _, on, _⟩ => target.sqlTexts ++ on.sqlTexts

def Join.listSqlTexts : List Join → List String
  | [] => []
  | j :: js => j.sqlTexts ++ Join.listSqlTexts js

def JoinOn.sqlTexts : JoinOn → List String
  | .relation _ | .always => []
  | .condition c => c.sqlTexts

def Distinct.sqlTexts : Distinct → List String
  | .off | .rows => []
  | .on exprs => Expr.listSqlTexts exprs

end

/-! ## Every part of a query -/

variable {d : Dialect}

mutual

theorem Expr.balanced (hd : d.Legible) (codec : Option Field) : (e : Expr) →
    (∀ s ∈ e.sqlTexts, SelfContained d.quoteChar s) → Operand d (e.fragments d codec)
  | .column q name => fun _ => by
    rw [Expr.fragments]
    exact .ofColumn hd q name
  | .literal v => fun _ => by
    rw [Expr.fragments]
    exact .ofLiteral hd codec v
  | .raw sql => fun h => by
    rw [Expr.fragments]
    exact .sqlText (h sql (List.mem_singleton.2 rfl))
  | .call function arguments distinct => fun h => by
    rw [Expr.sqlTexts, List.forall_mem_cons] at h
    rw [Expr.fragments]
    exact .call hd distinct (.sqlText h.1) (Expr.listBalanced hd none arguments h.2)
  | .windowed function window => fun h => by
    rw [Expr.sqlTexts, List.forall_mem_append] at h
    rw [Expr.fragments]
    exact .between hd .window (by decide) (Expr.balanced hd none function h.1)
      (WindowRef.balanced hd window h.2)
  | .binary left op right => fun h => by
    rw [Expr.sqlTexts, List.forall_mem_append] at h
    rw [Expr.fragments]
    exact .ofBinary hd op (Expr.balanced hd none left h.1) (Expr.balanced hd none right h.2)
  | .list items => fun h => by
    rw [Expr.sqlTexts] at h
    rw [Expr.fragments]
    exact (Operand.commas hd (Expr.listBalanced hd codec items h)).enclosable.parenthesized hd
  | .subquery query => fun h => by
    rw [Expr.sqlTexts] at h
    rw [Expr.fragments]
    exact (Query.balanced hd query h).parenthesized hd
  | .nonEmpty query => fun h => by
    rw [Expr.sqlTexts] at h
    rw [Expr.fragments]
    refine ((Lexed.nonEmpty hd (Query.balanced hd query h)).mono ?_).done
    rintro _ ⟨ks, hks, rfl⟩
    exact NoClause.append (by decide) (noClause_grouping hks)
  | .condition c => fun h => by
    rw [Expr.sqlTexts] at h
    rw [Expr.fragments]
    exact Condition.balanced hd c h
  | .cast operand type => fun h => by
    rw [Expr.sqlTexts, List.forall_mem_append] at h
    rw [Expr.fragments]
    refine ((Lexed.cast hd (Expr.balanced hd none operand h.1)
      (Operand.sqlText (h.2 type (List.mem_singleton.2 rfl)))).mono ?_).done
    rintro _ ⟨ks, hks, rfl⟩
    exact NoClause.append (by decide) (noClause_grouping hks)
  | .named operand _ => fun h => by
    rw [Expr.sqlTexts] at h
    rw [Expr.fragments]
    exact Expr.balanced hd codec operand h
  | .excluded field => fun _ => by
    rw [Expr.fragments]
    exact .ofExcluded hd field
  | .star q => fun _ => by
    rw [Expr.fragments]
    exact .ofStar hd q

theorem Expr.listBalanced (hd : d.Legible) (codec : Option Field) : (es : List Expr) →
    (∀ s ∈ Expr.listSqlTexts es, SelfContained d.quoteChar s) →
    ∀ fs ∈ Expr.listFragments d codec es, Operand d fs
  | [] => fun _ fs hfs => nomatch hfs
  | e :: es => fun h => by
    rw [Expr.listSqlTexts, List.forall_mem_append] at h
    rw [Expr.listFragments, List.forall_mem_cons]
    exact ⟨Expr.balanced hd codec e h.1, Expr.listBalanced hd codec es h.2⟩

theorem Expr.itemBalanced (hd : d.Legible) (codec : Option Field) : (e : Expr) →
    (∀ s ∈ e.sqlTexts, SelfContained d.quoteChar s) →
    ∀ items ∈ e.itemFragments? d codec, ∀ fs ∈ items, Operand d fs
  | .list items => fun h => by
    rw [Expr.sqlTexts] at h
    rintro _ ⟨⟩
    exact Expr.listBalanced hd codec items h
  | .column _ _ | .literal _ | .raw _ | .call _ _ _ | .windowed _ _ | .binary _ _ _
  | .subquery _ | .nonEmpty _ | .condition _ | .cast _ _ | .named _ _ | .excluded _
  | .star _ => fun _ _ hitems => nomatch hitems

theorem WindowRef.balanced (hd : d.Legible) : (w : WindowRef) →
    (∀ s ∈ w.sqlTexts, SelfContained d.quoteChar s) → Operand d (w.fragments d)
  | .inline window => fun h => by
    rw [WindowRef.sqlTexts] at h
    rw [WindowRef.fragments]
    exact (Window.balanced hd window h).parenthesized hd
  | .named n => fun _ => by
    rw [WindowRef.fragments]
    exact .identifier hd n

theorem Window.balanced (hd : d.Legible) : (w : Window) →
    (∀ s ∈ w.sqlTexts, SelfContained d.quoteChar s) → Enclosable d (w.fragments d)
  | ⟨_, partitionBy, orderBy, frame⟩ => fun h => by
    rw [Window.sqlTexts, List.forall_mem_append] at h
    rw [Window.fragments]
    exact .ofWindow hd frame (Expr.listBalanced hd none partitionBy h.1)
      (OrderTerm.listBalanced hd orderBy h.2)

theorem Window.listBalanced (hd : d.Legible) : (ws : List Window) →
    (∀ s ∈ Window.listSqlTexts ws, SelfContained d.quoteChar s) →
    ∀ fs ∈ Window.listFragments d ws, Operand d fs
  | [] => fun _ fs hfs => nomatch hfs
  | w :: ws => fun h => by
    rw [Window.listSqlTexts, List.forall_mem_append] at h
    rw [Window.listFragments, List.forall_mem_cons]
    exact ⟨.ofDeclaredWindow hd w.name (Window.balanced hd w h.1), Window.listBalanced hd ws h.2⟩

theorem OrderTerm.balanced (hd : d.Legible) : (t : OrderTerm) →
    (∀ s ∈ t.sqlTexts, SelfContained d.quoteChar s) → Operand d (t.fragments d)
  | ⟨operand, direction, nulls⟩ => fun h => by
    rw [OrderTerm.sqlTexts] at h
    rw [OrderTerm.fragments]
    exact .ofOrderTerm hd operand direction nulls (Expr.balanced hd none operand h)

theorem OrderTerm.listBalanced (hd : d.Legible) : (ts : List OrderTerm) →
    (∀ s ∈ OrderTerm.listSqlTexts ts, SelfContained d.quoteChar s) →
    ∀ fs ∈ OrderTerm.listFragments d ts, Operand d fs
  | [] => fun _ fs hfs => nomatch hfs
  | t :: ts => fun h => by
    rw [OrderTerm.listSqlTexts, List.forall_mem_append] at h
    rw [OrderTerm.listFragments, List.forall_mem_cons]
    exact ⟨OrderTerm.balanced hd t h.1, OrderTerm.listBalanced hd ts h.2⟩

theorem Condition.balanced (hd : d.Legible) : (c : Condition) →
    (∀ s ∈ c.sqlTexts, SelfContained d.quoteChar s) → Operand d (c.fragments d)
  | .compare left op right negated escaped => fun h => by
    rw [Condition.sqlTexts, List.forall_mem_append] at h
    have hleft := Expr.balanced hd none left h.1
    have hright := Expr.balanced hd left.field? right h.2
    have hitems := Expr.itemBalanced hd left.field? right h.2
    have hnull {s : String} {ls : List Lexeme} (hs : Spells s ls .word) : Operand d
        (if right.isNullLiteral then ofSaid (left.fragments d none) s
          else ofComparison d op escaped (left.fragments d none)
            (right.fragments d left.field?)) := by
      split
      · exact .ofSaid hd hs hleft
      · exact .ofComparison hd op escaped hleft hright
    have hmember : Operand d (ofMember d left.field? op (left.fragments d none) right) := by
      unfold ofMember
      split
      · rename_i items h
        exact .ofMembership hd hleft (hitems items h)
      · split
        · refine .ofMembership hd hleft fun fs hfs => ?_
          obtain ⟨v, -, rfl⟩ := List.mem_map.1 hfs
          exact .ofLiteral hd _ v
        · exact .ofSigned hd (.spelled hd op.spells) hleft hright
    rw [Condition.fragments.eq_def]
    refine .negation hd negated ?_
    cases op with
    | eq => exact hnull spells_isNull
    | is => exact hnull spells_isNull
    | ne => exact hnull spells_isNotNull
    | isNot => exact hnull spells_isNotNull
    | like => exact .ofComparison hd _ escaped hleft (Expr.balanced hd none right h.2)
    | notLike => exact .ofComparison hd _ escaped hleft (Expr.balanced hd none right h.2)
    | ilike => exact .ofComparison hd _ escaped hleft (Expr.balanced hd none right h.2)
    | isIn => exact hmember
    | notIn => exact hmember
    | between =>
      refine .ofBetween hd hleft ?_
      cases hlist : right.itemFragments? d left.field? with
      | some items => exact hitems items hlist
      | none => exact fun fs hfs => nomatch hfs
    | lt => exact .ofComparison hd _ escaped hleft hright
    | le => exact .ofComparison hd _ escaped hleft hright
    | gt => exact .ofComparison hd _ escaped hleft hright
    | ge => exact .ofComparison hd _ escaped hleft hright
  | .group connective members negated => fun h => by
    rw [Condition.sqlTexts] at h
    rw [Condition.fragments]
    exact .negation hd negated (.ofGroup hd connective (Condition.listBalanced hd members h))
  | .operand e => fun h => by
    rw [Condition.sqlTexts] at h
    rw [Condition.fragments]
    exact Expr.balanced hd none e h

theorem Condition.listBalanced (hd : d.Legible) : (cs : List Condition) →
    (∀ s ∈ Condition.listSqlTexts cs, SelfContained d.quoteChar s) →
    ∀ fs ∈ Condition.listFragments d cs, Operand d fs
  | [] => fun _ fs hfs => nomatch hfs
  | c :: cs => fun h => by
    rw [Condition.listSqlTexts, List.forall_mem_append] at h
    rw [Condition.listFragments, List.forall_mem_cons]
    exact ⟨Condition.balanced hd c h.1, Condition.listBalanced hd cs h.2⟩

theorem Condition.clauseBalanced (hd : d.Legible) {s : String} {ls : List Lexeme} (hs : Phrase s ls)
    (hls : NoClause ls) : (c : Option Condition) →
    (∀ s ∈ Condition.clauseSqlTexts c, SelfContained d.quoteChar s) →
    Suffix d (Condition.clauseFragments d s c)
  | none => fun _ => .nil
  | some c => fun h => by
    rw [Condition.clauseSqlTexts] at h
    exact .clause hd hs hls (Condition.balanced hd c h)

theorem Expr.projectionBalanced (hd : d.Legible) : (es : List Expr) →
    (∀ s ∈ Expr.listSqlTexts es, SelfContained d.quoteChar s) →
    ∀ fs ∈ Expr.projectionFragments d es, Operand d fs
  | [] => fun _ fs hfs => nomatch hfs
  | e :: es => fun h => by
    rw [Expr.listSqlTexts, List.forall_mem_append] at h
    rw [Expr.projectionFragments, List.forall_mem_cons]
    exact ⟨.ofProjected hd e (Expr.balanced hd none e h.1), Expr.projectionBalanced hd es h.2⟩

theorem Query.balanced (hd : d.Legible) : (q : Query) →
    (∀ s ∈ q.sqlTexts, SelfContained d.quoteChar s) → Enclosable d (q.fragments d)
  | .simple s => fun h => by
    rw [Query.sqlTexts] at h
    rw [Query.fragments]
    exact .ofSelect hd (Select.balanced hd s h)
  | .compound c => fun h => by
    rw [Query.sqlTexts] at h
    rw [Query.fragments]
    exact Compound.balanced hd c h

theorem Select.balanced (hd : d.Legible) : (s : Select) →
    (∀ t ∈ s.sqlTexts, SelfContained d.quoteChar t) → s.Balanced d
  | ⟨ctes, source, _, joins, columns, distinct, filter, groupBy, having, windows, orderBy, _, _, _⟩ =>
    fun h => by
    simp only [Select.sqlTexts, List.forall_mem_append] at h
    obtain ⟨hctes, hsource, hjoins, hcolumns, hdistinct, hfilter, hgroup, hhaving, hwindows, horder⟩ := h
    exact {
      ctes := Cte.listBalanced hd ctes hctes
      body := .ofBody hd (Source.clauseBalanced hd .source (by decide) source hsource)
        (Join.listBalanced hd joins hjoins) (Expr.projectionBalanced hd columns hcolumns)
        (Distinct.balanced hd distinct hdistinct)
        (Condition.clauseBalanced hd .filter (by decide) filter hfilter)
        (Expr.listBalanced hd none groupBy hgroup)
        (Condition.clauseBalanced hd .having (by decide) having hhaving)
        (Window.listBalanced hd windows hwindows)
      orderBy := OrderTerm.listBalanced hd orderBy horder }

theorem Compound.balanced (hd : d.Legible) : (c : Compound) →
    (∀ s ∈ c.sqlTexts, SelfContained d.quoteChar s) → Enclosable d (c.fragments d)
  | ⟨ctes, left, _, right, orderBy, _, _⟩ => fun h => by
    simp only [Compound.sqlTexts, List.forall_mem_append] at h
    obtain ⟨hctes, hleft, hright, horder⟩ := h
    exact .ofCompound hd (Cte.listBalanced hd ctes hctes) (Query.balanced hd left hleft)
      (Query.balanced hd right hright) (OrderTerm.listBalanced hd orderBy horder)

theorem Cte.listBalanced (hd : d.Legible) : (cs : List Cte) →
    (∀ s ∈ Cte.listSqlTexts cs, SelfContained d.quoteChar s) →
    ∀ fs ∈ Cte.listFragments d cs, Enclosable d fs
  | [] => fun _ fs hfs => nomatch hfs
  | ⟨_, _, _, query⟩ :: cs => fun h => by
    rw [Cte.listSqlTexts, List.forall_mem_append, Cte.sqlTexts] at h
    rw [Cte.listFragments, List.forall_mem_cons, Cte.fragments]
    exact ⟨Query.balanced hd query h.1, Cte.listBalanced hd cs h.2⟩

theorem Source.balanced (hd : d.Legible) : (s : Source) →
    (∀ t ∈ s.sqlTexts, SelfContained d.quoteChar t) → Operand d (s.fragments d)
  | .model m => fun _ => by
    rw [Source.fragments]
    exact Lexed.modelTable hd m
  | .table n => fun _ => by
    rw [Source.fragments]
    exact .identifier hd n
  | .derived query name => fun h => by
    rw [Source.sqlTexts] at h
    rw [Source.fragments]
    exact .ofSource hd _ (Query.balanced hd query h)

theorem Source.clauseBalanced (hd : d.Legible) {s : String} {ls : List Lexeme} (hs : Phrase s ls)
    (hls : NoClause ls) : (source : Option Source) →
    (∀ s ∈ Source.clauseSqlTexts source, SelfContained d.quoteChar s) →
    Suffix d (Source.clauseFragments d s source)
  | none => fun _ => .nil
  | some source => fun h => by
    rw [Source.clauseSqlTexts] at h
    exact .clause hd hs hls (Source.balanced hd source h)

theorem Join.balanced (hd : d.Legible) : (j : Join) →
    (∀ s ∈ j.sqlTexts, SelfContained d.quoteChar s) → Suffix d (j.fragments d).content.2
  | ⟨context, target, kind, on, _⟩ => fun h => by
    rw [Join.sqlTexts, List.forall_mem_append] at h
    rw [Join.fragments]
    exact ((Source.balanced hd target h.1).after hd kind.phrase kind.noClause_lexemes).andThen
      (JoinOn.balanced hd context target.key on h.2)

theorem Join.listBalanced (hd : d.Legible) : (js : List Join) →
    (∀ s ∈ Join.listSqlTexts js, SelfContained d.quoteChar s) →
    ∀ j ∈ js, Suffix d (j.fragments d).content.2
  | [] => fun _ j hj => nomatch hj
  | j :: js => fun h => by
    rw [Join.listSqlTexts, List.forall_mem_append] at h
    rw [List.forall_mem_cons]
    exact ⟨Join.balanced hd j h.1, Join.listBalanced hd js h.2⟩

theorem JoinOn.balanced (hd : d.Legible) (context target : String) : (on : JoinOn) →
    (∀ s ∈ on.sqlTexts, SelfContained d.quoteChar s) → Suffix d (on.fragments d context target)
  | .relation r => fun _ => by
    rw [JoinOn.fragments]
    exact .ofRelation hd r context target
  | .condition c => fun h => by
    rw [JoinOn.sqlTexts] at h
    rw [JoinOn.fragments]
    exact .clause hd .on (by decide) (Condition.balanced hd c h)
  | .always => fun _ => .nil

theorem Distinct.balanced (hd : d.Legible) : (x : Distinct) →
    (∀ s ∈ x.sqlTexts, SelfContained d.quoteChar s) →
    Lexed d Mode.Between NoClause Mode.Between (x.fragments d)
  | .off => fun _ => Lexed.nil (by decide)
  | .rows => fun _ => by
    have hrows : Spells "DISTINCT " [Reserved.distinct.lexeme] .between :=
      ⟨by decide, fun _ _ => by cbv⟩
    exact (Lexed.phrase hd hrows).mono fun _ h => h ▸ by decide
  | .on exprs => fun h => by
    rw [Distinct.sqlTexts] at h
    have hopens : Opens "DISTINCT ON (" [Reserved.distinct.lexeme, .word "ON".toList] [] :=
      ⟨by decide, fun _ _ => by cbv⟩
    have hcloses : Closes ") " [] := ⟨by decide, by decide, fun _ _ _ => by cbv⟩
    rw [Distinct.fragments, requiring]
    split
    · exact (Operand.commas hd (Expr.listBalanced hd none exprs h)).enclosable.enclosed hd hopens hcloses
        (by decide) (by decide)
    · exact Lexed.refuse _

end

end SqlMapper
