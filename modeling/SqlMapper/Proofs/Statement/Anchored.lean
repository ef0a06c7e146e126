import SqlMapper.Proofs.Fragment.Anchored
import SqlMapper.Proofs.Join.Preorder
import SqlMapper.Proofs.Join.Text
import SqlMapper.Proofs.Statement.Laid
import SqlMapper.Proofs.Statement.Masked

/-!
# SqlMapper.Proofs.Statement.Anchored

Queries can be run anywhere.

A query draws no defaults, and each of its joins starts at its root or at the source of a join
before it, all of which are visible in the scope of their select. So the fragments of every part of
the syntax are anchored (`Query.anchored`), and what surrounds a query does not decide whether it
is rendered.
-/

namespace SqlMapper

open Fragment

/-! ## Joins -/

namespace Join

/-- A walk comes to a join after it has come to the source that the join starts at. -/
theorem context_mem_below {joins : List Join} {steps : Nat} {key : String} {j : Join}
    (h : j ∈ walkBelow joins steps key) :
    j.context ∈ key :: targets (walkBelow joins steps key) := by
  induction steps generalizing key with
  | zero => cases h
  | succ steps ih =>
    rw [walkBelow_succ] at h ⊢
    obtain ⟨i, hi, hj⟩ := List.mem_flatMap.1 h
    rcases List.mem_cons.1 hj with rfl | hj
    · rw [(mem_startingAt.1 hi).2]
      exact List.mem_cons_self ..
    · refine List.mem_cons_of_mem _ ?_
      have hsub : targets (i :: walkBelow joins steps i.target.key) ⊆
          targets ((startingAt joins key).flatMap fun j =>
            j :: walkBelow joins steps j.target.key) :=
        List.map_subset _ fun k hk => List.mem_flatMap.2 ⟨i, hi, hk⟩
      exact hsub (ih hj)

theorem context_mem_walk {joins : List Join} {root : String} {j : Join} (h : j ∈ walk joins root) :
    j.context ∈ root :: targets (walk joins root) := context_mem_below h

end Join

namespace Select

/-- Both sides of a join in the text are sources of its select. -/
theorem sides_mem_origins {s : Select} {j : Join} (h : j ∈ s.walk) :
    j.context ∈ s.origins.map Origin.key ∧ j.target.key ∈ s.origins.map Origin.key := by
  unfold walk at h
  split at h
  · rename_i root hroot
    have hkeys :
        s.origins.map Origin.key = root.key :: Join.targets (Join.walk s.joins root.key) := by
      simp [origins, walk, hroot, Join.targets, Function.comp_def]
    rw [hkeys]
    exact ⟨Join.context_mem_walk h, List.mem_cons_of_mem _ (List.mem_map_of_mem h)⟩
  · cases h

end Select

/-! ## Clauses -/

namespace Fragment.Anchored

variable {d : Dialect} {keys : List String} {left right : List Fragment}
  {fss gss : List (List Fragment)}

theorem ofLiteral (codec : Option Field) (v : Value) : Anchored keys (ofLiteral codec v) := by
  unfold Fragment.ofLiteral
  split
  · exact .free _ rfl
  · split
    · exact .free _ rfl
    · split <;> exact .free _ rfl

theorem ofColumn (q : Option Qualifier) (column : String) : Anchored keys (ofColumn q column) := by
  unfold Fragment.ofColumn
  split
  · exact .free _ rfl
  · exact (Anchored.free _ rfl).cons rfl
  · split
    · exact (Anchored.free _ rfl).cons rfl
    · exact .free _ rfl

theorem ofStar (q : Option Qualifier) : Anchored keys (ofStar q) := by
  cases q with
  | none => exact .free _ rfl
  | some q => exact (Anchored.free _ rfl).cons rfl

theorem ofExcluded (field : String) : Anchored keys (ofExcluded d field) := by
  unfold Fragment.ofExcluded
  split
  · exact (Anchored.free _ rfl).enclosed _ _
  · exact (Anchored.free _ rfl).lead _
  · exact (Anchored.free _ rfl).lead _

/-- Words between two operands. -/
theorem between (hl : Anchored keys left) {words : List Fragment}
    (hwords : ∀ f ∈ words, f.isFree = true) (hr : Anchored keys right) :
    Anchored keys (left ++ words ++ right) :=
  (hl.append (.of_free hwords)).append hr

theorem ofSigned (sign : String) (hl : Anchored keys left) (hr : Anchored keys right) :
    Anchored keys (ofSigned left sign right) :=
  (hl.between (by simp [isFree]) hr).parenthesized

theorem ofBinary (op : Operator) (hl : Anchored keys left) (hr : Anchored keys right) :
    Anchored keys (ofBinary d left op right) := by
  unfold Fragment.ofBinary
  split
  · split
    · exact ofSigned _ hl hr
    · exact .free _ rfl
  · split
    · exact (hl.between (by simp [isFree]) hr).enclosed _ _
    · exact ofSigned _ hl hr
  · exact ofSigned _ hl hr

theorem ofSaid (keyword : String) (hl : Anchored keys left) : Anchored keys (ofSaid left keyword) :=
  (hl.append (.of_free (by simp [isFree]))).parenthesized

theorem ofComparison (op : Comparison) (escaped : Bool) (hl : Anchored keys left)
    (hr : Anchored keys right) : Anchored keys (ofComparison d op escaped left right) := by
  refine ((hl.between (by simp [isFree]) hr).append (.of_free ?_)).parenthesized
  split <;> simp [isFree]

theorem ofMembership (op : Comparison) (hl : Anchored keys left)
    (h : ∀ fs ∈ fss, Anchored keys fs) : Anchored keys (ofMembership op left fss) := by
  cases fss with
  | nil => exact .free _ rfl
  | cons fs fss => exact ofSigned _ hl (commas h).parenthesized

theorem ofBetween (hl : Anchored keys left) (h : ∀ fs ∈ fss, Anchored keys fs) :
    Anchored keys (ofBetween left fss) := by
  unfold Fragment.ofBetween
  split
  · simp only [List.mem_cons, List.not_mem_nil, or_false, forall_eq_or_imp, forall_eq] at h
    exact ((hl.between (by simp [isFree]) h.1).between (by simp [isFree]) h.2).parenthesized
  · exact .free _ rfl

theorem ofGroup (connective : Connective) (h : ∀ fs ∈ fss, Anchored keys fs) :
    Anchored keys (ofGroup connective fss) := by
  cases fss with
  | nil => exact .free _ rfl
  | cons fs fss => exact (separated _ h).parenthesized

theorem negated (negated : Bool) (h : Anchored keys left) :
    Anchored keys (negation negated ++ left) := by
  cases negated with
  | false => exact h
  | true => exact h.lead _

theorem ofLimit (limit offset : Option Nat) : Anchored keys (ofLimit d limit offset) := by
  unfold Fragment.ofLimit
  refine Anchored.append (.of_free ?_) (.of_free ?_)
  · split <;> simp [isFree]
  · split <;> simp [isFree]

theorem ofProjected (e : Expr) (hl : Anchored keys left) : Anchored keys (ofProjected e left) := by
  unfold Fragment.ofProjected
  split
  · exact hl.append (.of_free (by simp [isFree]))
  · exact hl

theorem ofFields (m : ModelSource) : Anchored keys (ofFields m) :=
  commas fun fs hfs => by
    obtain ⟨n, -, rfl⟩ := List.mem_map.1 hfs
    exact ofColumn _ n

theorem ofOrderTerm (e : Expr) (direction : Direction) (nulls : Option Nulls)
    (hl : Anchored keys left) : Anchored keys (ofOrderTerm d e left direction nulls) := by
  unfold Fragment.ofOrderTerm
  refine (Anchored.ending ?_ _).append ?_
  · split
    · exact .free _ rfl
    · exact hl
  · split
    · exact .nil
    · exact (Anchored.free _ rfl).requiring _ _

theorem ofWindow (frame : Option Frame) (hp : ∀ fs ∈ fss, Anchored keys fs)
    (ho : ∀ fs ∈ gss, Anchored keys fs) : Anchored keys (ofWindow fss gss frame) := by
  unfold Fragment.ofWindow
  refine separated " " fun fs hfs => ?_
  rcases List.mem_append.1 hfs with hfs | hfs
  · rcases List.mem_append.1 hfs with hfs | hfs
    · cases fss with
      | nil => cases hfs
      | cons gs fss => exact List.mem_singleton.1 hfs ▸ (commas hp).lead _
    · cases gss with
      | nil => cases hfs
      | cons gs gss => exact List.mem_singleton.1 hfs ▸ (commas ho).lead _
  · cases frame with
    | none => cases hfs
    | some f => exact List.mem_singleton.1 hfs ▸ .free _ rfl

theorem ofDeclaredWindow (windowName : Option String) (hl : Anchored keys left) :
    Anchored keys (ofDeclaredWindow windowName left) := by
  unfold Fragment.ofDeclaredWindow
  split
  · exact (((hl.lead _).cons rfl)).ending _
  · exact .free _ rfl

theorem ofSource (s : Source) (hl : Anchored keys left) : Anchored keys (ofSource s left) := by
  unfold Fragment.ofSource
  split
  · exact .free _ rfl
  · exact .free _ rfl
  · exact hl.parenthesized.append (.of_free (by simp [isFree]))

theorem ofRelation (r : Relation) {context target : String} (hcontext : context ∈ keys)
    (htarget : target ∈ keys) : Anchored keys [ofRelation r context target] := by
  unfold Fragment.ofRelation
  dsimp only
  split
  · exact .equated _ _ hcontext htarget
  · exact .equated _ _ htarget hcontext

theorem ofCtes (ctes : List Cte) (h : ∀ fs ∈ fss, Anchored keys fs) :
    Anchored keys (ofCtes ctes fss) := by
  have hentry (c : Cte) {fs : List Fragment} (hfs : Anchored keys fs) :
      Anchored keys (ofCte c fs) := by
    refine Anchored.append (Anchored.cons rfl ?_) (hfs.enclosed _ _)
    split
    · exact .nil
    · exact (names _).enclosed _ _
  cases ctes with
  | nil => exact .nil
  | cons c cs =>
    rw [ofCtes_cons]
    refine ((commas fun fs hfs => ?_).lead _).ending _
    rw [← List.map_uncurry_zip_eq_zipWith] at hfs
    obtain ⟨p, hp, rfl⟩ := List.mem_map.1 hfs
    exact hentry p.1 (h p.2 (List.of_mem_zip hp).2)

theorem ofOperand (isRight isCompound ordered : Bool) (hl : Anchored keys left) :
    Anchored keys (ofOperand d isRight isCompound ordered left) := by
  unfold Fragment.ofOperand
  split
  · exact hl.parenthesized
  · split
    · exact (hl.enclosed _ _).append (.free _ rfl)
    · exact hl.requiring _ _

/-! ## Selects and compounds from their parts -/

theorem ofSelect {s : Select}
    (hctes : ∀ fs ∈ Cte.listFragments d s.ctes, Anchored keys fs)
    (hdistinct : ∀ keys, Anchored keys (s.distinct.fragments d))
    (hcolumns : ∀ keys, ∀ fs ∈ Expr.projectionFragments d s.columns, Anchored keys fs)
    (hsource : ∀ keys, Anchored keys (Source.clauseFragments d " FROM " s.source))
    (hjoins : ∀ keys, ∀ j ∈ s.joins, j.context ∈ keys → j.target.key ∈ keys →
      Anchored keys (j.fragments d).content.2)
    (hfilter : ∀ keys, Anchored keys (Condition.clauseFragments d " WHERE " s.filter))
    (hgroup : ∀ keys, ∀ fs ∈ Expr.listFragments d none s.groupBy, Anchored keys fs)
    (hhaving : ∀ keys, Anchored keys (Condition.clauseFragments d " HAVING " s.having))
    (hwindows : ∀ keys, ∀ fs ∈ Window.listFragments d s.windows, Anchored keys fs)
    (horder : ∀ keys, ∀ fs ∈ OrderTerm.listFragments d s.orderBy, Anchored keys fs) :
    Anchored keys (s.fragments d) := by
  rw [Select.fragments_eq]
  refine (ofCtes s.ctes hctes).append (.nested _ _ ?_)
  have hprojection (keys : List String) : Anchored keys (s.projectionFragments d) := by
    unfold Select.projectionFragments
    split
    · exact ofFields _
    · exact .free _ rfl
    · exact .free _ rfl
    · exact commas (hcolumns keys)
  have hlock (keys : List String) : Anchored keys
      (if s.forUpdate then
        Fragment.requiring d.forUpdate (.unsupported d.name .forUpdate) [text " FOR UPDATE"]
      else []) := by
    split
    · exact (Anchored.free _ rfl).requiring _ _
    · exact .nil
  have hhead (keys : List String) : Anchored keys (s.headFragments d) :=
    (((hdistinct keys).lead _).append (hprojection keys)).append (hsource keys)
  have htail (keys : List String) : Anchored keys (s.tailFragments d) :=
    ((((((hfilter keys).append (listClause _ (hgroup keys))).append (hhaving keys)).append
      (listClause _ (hwindows keys))).append (listClause _ (horder keys))).append
        (ofLimit _ _)).append (hlock keys)
  refine (hhead _).append ((flatMap fun j hj => ?_).append (htail _))
  obtain ⟨hcontext, htarget⟩ := Select.sides_mem_origins hj
  exact hjoins _ j (Select.mem_of_mem_walk hj) (List.mem_append_left _ hcontext)
    (List.mem_append_left _ htarget)

theorem ofCompound {c : Compound}
    (hctes : ∀ fs ∈ Cte.listFragments d c.ctes, Anchored keys fs)
    (hleft : Anchored keys (c.left.fragments d)) (hright : Anchored keys (c.right.fragments d))
    (horder : ∀ fs ∈ OrderTerm.listFragments d c.orderBy, Anchored keys fs) :
    Anchored keys (c.fragments d) := by
  have hordering : Anchored keys (Compound.orderingFragments d c.orderBy) := by
    unfold Compound.orderingFragments
    split
    · exact .nil
    · exact (Anchored.nested { bare := true } [] (commas horder)).lead _
  rw [Compound.fragments_eq]
  exact (((((ofCtes c.ctes hctes).append (ofOperand _ _ _ hleft)).ending _).append
    (ofOperand _ _ _ hright)).append hordering).append (ofLimit _ _)

end Fragment.Anchored

/-! ## Queries -/

section

variable (d : Dialect)

mutual

theorem Expr.anchored (keys : List String) (codec : Option Field) : (e : Expr) →
    Anchored keys (e.fragments d codec)
  | .column q name => by
    rw [Expr.fragments]
    exact .ofColumn q name
  | .literal v => by
    rw [Expr.fragments]
    exact .ofLiteral codec v
  | .raw sql => by
    rw [Expr.fragments]
    exact .free _ rfl
  | .call function arguments distinct => by
    rw [Expr.fragments]
    exact ((Anchored.commas (Expr.listAnchored keys none arguments)).enclosed _ _).lead _
  | .windowed function window => by
    rw [Expr.fragments]
    exact ((Expr.anchored keys none function).ending _).append (WindowRef.anchored keys window)
  | .binary left op right => by
    rw [Expr.fragments]
    exact .ofBinary op (Expr.anchored keys none left) (Expr.anchored keys none right)
  | .list items => by
    rw [Expr.fragments]
    exact (Anchored.commas (Expr.listAnchored keys codec items)).parenthesized
  | .subquery query => by
    rw [Expr.fragments]
    exact (Query.anchored keys query).parenthesized
  | .nonEmpty query => by
    rw [Expr.fragments]
    exact (Query.anchored keys query).enclosed _ _
  | .condition c => by
    rw [Expr.fragments]
    exact Condition.anchored keys c
  | .cast operand type => by
    rw [Expr.fragments]
    exact ((Expr.anchored keys none operand).append (.of_free (by simp [isFree]))).enclosed _ _
  | .named operand _ => by
    rw [Expr.fragments]
    exact Expr.anchored keys codec operand
  | .excluded field => by
    rw [Expr.fragments]
    exact .ofExcluded field
  | .star q => by
    rw [Expr.fragments]
    exact .ofStar q

theorem Expr.listAnchored (keys : List String) (codec : Option Field) : (es : List Expr) →
    ∀ fs ∈ Expr.listFragments d codec es, Anchored keys fs
  | [] => List.forall_mem_nil _
  | e :: es => List.forall_mem_cons.2 ⟨Expr.anchored keys codec e, Expr.listAnchored keys codec es⟩

theorem Expr.itemsAnchored (keys : List String) (codec : Option Field) : (e : Expr) →
    ∀ fs ∈ (e.itemFragments? d codec).getD [], Anchored keys fs
  | .list items => Expr.listAnchored keys codec items
  | .column _ _ | .literal _ | .raw _ | .call _ _ _ | .windowed _ _ | .binary _ _ _
  | .subquery _ | .nonEmpty _ | .condition _ | .cast _ _ | .named _ _ | .excluded _
  | .star _ => List.forall_mem_nil _

theorem WindowRef.anchored (keys : List String) : (w : WindowRef) → Anchored keys (w.fragments d)
  | .inline window => by
    rw [WindowRef.fragments]
    exact (Window.anchored keys window).parenthesized
  | .named n => by
    rw [WindowRef.fragments]
    exact .free _ rfl

theorem Window.anchored (keys : List String) : (w : Window) → Anchored keys (w.fragments d)
  | ⟨_, partitionBy, orderBy, frame⟩ => by
    rw [Window.fragments]
    exact .ofWindow frame (Expr.listAnchored keys none partitionBy)
      (OrderTerm.listAnchored keys orderBy)

theorem Window.listAnchored (keys : List String) : (ws : List Window) →
    ∀ fs ∈ Window.listFragments d ws, Anchored keys fs
  | [] => List.forall_mem_nil _
  | w :: ws => List.forall_mem_cons.2
    ⟨.ofDeclaredWindow w.name (Window.anchored keys w), Window.listAnchored keys ws⟩

theorem OrderTerm.anchored (keys : List String) : (t : OrderTerm) → Anchored keys (t.fragments d)
  | ⟨operand, direction, nulls⟩ => by
    rw [OrderTerm.fragments]
    exact .ofOrderTerm operand direction nulls (Expr.anchored keys none operand)

theorem OrderTerm.listAnchored (keys : List String) : (ts : List OrderTerm) →
    ∀ fs ∈ OrderTerm.listFragments d ts, Anchored keys fs
  | [] => List.forall_mem_nil _
  | t :: ts => List.forall_mem_cons.2
    ⟨OrderTerm.anchored keys t, OrderTerm.listAnchored keys ts⟩

theorem Condition.anchored (keys : List String) : (c : Condition) → Anchored keys (c.fragments d)
  | .compare left op right negated escaped => by
    have hleft := Expr.anchored keys none left
    have hright := Expr.anchored keys left.field? right
    have hitems := Expr.itemsAnchored keys left.field? right
    have hnull (keyword : String) : Anchored keys
        (if right.isNullLiteral then ofSaid (left.fragments d none) keyword
          else ofComparison d op escaped (left.fragments d none)
            (right.fragments d left.field?)) := by
      split
      · exact .ofSaid keyword hleft
      · exact .ofComparison op escaped hleft hright
    have hmember : Anchored keys (ofMember d left.field? op (left.fragments d none) right) := by
      unfold ofMember
      split
      · rename_i items hsome
        rw [hsome] at hitems
        exact .ofMembership op hleft hitems
      · split
        · refine .ofMembership op hleft fun fs hfs => ?_
          obtain ⟨v, -, rfl⟩ := List.mem_map.1 hfs
          exact .ofLiteral _ v
        · exact .ofSigned op.sign hleft hright
    rw [Condition.fragments.eq_def]
    refine .negated negated ?_
    cases op with
    | eq => exact hnull _
    | is => exact hnull _
    | ne => exact hnull _
    | isNot => exact hnull _
    | like => exact .ofComparison _ escaped hleft (Expr.anchored keys none right)
    | notLike => exact .ofComparison _ escaped hleft (Expr.anchored keys none right)
    | ilike => exact .ofComparison _ escaped hleft (Expr.anchored keys none right)
    | isIn => exact hmember
    | notIn => exact hmember
    | between => exact .ofBetween hleft hitems
    | lt => exact .ofComparison _ escaped hleft hright
    | le => exact .ofComparison _ escaped hleft hright
    | gt => exact .ofComparison _ escaped hleft hright
    | ge => exact .ofComparison _ escaped hleft hright
  | .group connective members negated => by
    rw [Condition.fragments]
    exact .negated negated (.ofGroup connective (Condition.listAnchored keys members))
  | .operand e => by
    rw [Condition.fragments]
    exact Expr.anchored keys none e

theorem Condition.listAnchored (keys : List String) : (cs : List Condition) →
    ∀ fs ∈ Condition.listFragments d cs, Anchored keys fs
  | [] => List.forall_mem_nil _
  | c :: cs => List.forall_mem_cons.2
    ⟨Condition.anchored keys c, Condition.listAnchored keys cs⟩

theorem Condition.clauseAnchored (keys : List String) (lead : String) : (c : Option Condition) →
    Anchored keys (Condition.clauseFragments d lead c)
  | none => .nil
  | some c => (Condition.anchored keys c).lead lead

theorem Expr.projectionAnchored (keys : List String) : (es : List Expr) →
    ∀ fs ∈ Expr.projectionFragments d es, Anchored keys fs
  | [] => List.forall_mem_nil _
  | e :: es => List.forall_mem_cons.2
    ⟨.ofProjected e (Expr.anchored keys none e), Expr.projectionAnchored keys es⟩

theorem Query.anchored (keys : List String) : (q : Query) → Anchored keys (q.fragments d)
  | .simple s => by
    rw [Query.fragments]
    exact Select.anchored keys s
  | .compound c => by
    rw [Query.fragments]
    exact Compound.anchored keys c

theorem Select.anchored (keys : List String) : (s : Select) → Anchored keys (s.fragments d)
  | ⟨ctes, source, _, joins, columns, distinct, filter, groupBy, having, windows, orderBy, _, _,
      _⟩ =>
    .ofSelect (Cte.listAnchored keys ctes) (fun keys => Distinct.anchored keys distinct)
      (fun keys => Expr.projectionAnchored keys columns)
      (fun keys => Source.clauseAnchored keys " FROM " source)
      (fun keys => Join.listAnchored keys joins)
      (fun keys => Condition.clauseAnchored keys " WHERE " filter)
      (fun keys => Expr.listAnchored keys none groupBy)
      (fun keys => Condition.clauseAnchored keys " HAVING " having)
      (fun keys => Window.listAnchored keys windows)
      (fun keys => OrderTerm.listAnchored keys orderBy)

theorem Compound.anchored (keys : List String) : (c : Compound) → Anchored keys (c.fragments d)
  | ⟨ctes, left, _, right, orderBy, _, _⟩ =>
    .ofCompound (Cte.listAnchored keys ctes) (Query.anchored keys left) (Query.anchored keys right)
      (OrderTerm.listAnchored keys orderBy)

theorem Cte.anchored (keys : List String) : (c : Cte) → Anchored keys (c.fragments d)
  | ⟨_, _, _, query⟩ => by
    rw [Cte.fragments]
    exact Query.anchored keys query

theorem Cte.listAnchored (keys : List String) : (cs : List Cte) →
    ∀ fs ∈ Cte.listFragments d cs, Anchored keys fs
  | [] => List.forall_mem_nil _
  | c :: cs => List.forall_mem_cons.2 ⟨Cte.anchored keys c, Cte.listAnchored keys cs⟩

theorem Source.anchored (keys : List String) : (s : Source) → Anchored keys (s.fragments d)
  | .model m => by
    rw [Source.fragments]
    exact .ofSource (.model m) .nil
  | .table n => by
    rw [Source.fragments]
    exact .ofSource (.table n) .nil
  | .derived query name => by
    rw [Source.fragments]
    exact .ofSource (.derived query name) (Query.anchored keys query)

theorem Source.clauseAnchored (keys : List String) (lead : String) : (source : Option Source) →
    Anchored keys (Source.clauseFragments d lead source)
  | none => .nil
  | some source => (Source.anchored keys source).lead lead

theorem Join.anchored (keys : List String) : (j : Join) → j.context ∈ keys → j.target.key ∈ keys →
    Anchored keys (j.fragments d).content.2
  | ⟨context, target, _, on, _⟩, hcontext, htarget => by
    rw [Join.fragments]
    exact ((Source.anchored keys target).lead _).append
      (JoinOn.anchored keys hcontext htarget on)

theorem Join.listAnchored (keys : List String) : (js : List Join) →
    ∀ j ∈ js, j.context ∈ keys → j.target.key ∈ keys → Anchored keys (j.fragments d).content.2
  | [] => List.forall_mem_nil _
  | j :: js => List.forall_mem_cons.2 ⟨Join.anchored keys j, Join.listAnchored keys js⟩

theorem JoinOn.anchored (keys : List String) {context target : String} (hcontext : context ∈ keys)
    (htarget : target ∈ keys) : (on : JoinOn) → Anchored keys (on.fragments d context target)
  | .relation r => by
    rw [JoinOn.fragments]
    exact .ofRelation r hcontext htarget
  | .condition c => by
    rw [JoinOn.fragments]
    exact (Condition.anchored keys c).lead _
  | .always => .nil

theorem Distinct.anchored (keys : List String) : (x : Distinct) → Anchored keys (x.fragments d)
  | .off => .nil
  | .rows => .free _ rfl
  | .on exprs => by
    rw [Distinct.fragments]
    exact ((Anchored.commas (Expr.listAnchored keys none exprs)).enclosed _ _).requiring _ _

end

end

/-! ## What surrounds the rows of an insert -/

namespace Fragment.Anchored

variable {d : Dialect} {keys : List String}

theorem assignment (m : Model) (a : Assignment) : Anchored keys (a.fragments d m) := by
  unfold Assignment.fragments
  split
  · exact (((Expr.anchored d keys _ a.value).lead _).cons rfl)
  · exact .free _ rfl

theorem returning (es : List Expr) : Anchored keys (returningFragments d es) := by
  unfold returningFragments
  split
  · exact .nil
  · exact ((commas (Expr.projectionAnchored d keys _)).unqualified.lead _).requiring _ _

theorem columnsOf (m : Model) (fields : List String) (opening closing : String) :
    Anchored keys (columnsOf m fields fun columns => Fragment.enclosed opening
      (Fragment.names columns) closing) := by
  unfold SqlMapper.columnsOf
  split
  · exact (names _).enclosed _ _
  · exact .free _ rfl

theorem conflictAssignments (m : Model) (c : OnConflict) :
    Anchored keys (conflictAssignments d m c) := by
  unfold SqlMapper.conflictAssignments
  dsimp only
  split
  · exact .free _ rfl
  · refine commas fun fs hfs => ?_
    rcases List.mem_append.1 hfs with hfs | hfs
    · obtain ⟨field, -, rfl⟩ := List.mem_map.1 hfs
      split
      · exact ((ofExcluded field).lead _).cons rfl
      · exact .free _ rfl
    · obtain ⟨a, -, rfl⟩ := List.mem_map.1 hfs
      exact assignment m a

theorem duplicateKeyClause (m : Model) (c : OnConflict) :
    Anchored keys (duplicateKeyClause d m c) := by
  refine Anchored.requiring _ _ ?_
  split
  · exact (conflictAssignments m c).lead _
  · exact .nil

theorem conflictTarget (m : Model) (c : OnConflict) : Anchored keys (conflictTarget d m c) := by
  unfold SqlMapper.conflictTarget
  split
  · refine (columnsOf m _ _ _).append ?_
    split
    · exact ((Condition.anchored d keys _).unqualified).lead _
    · exact .nil
  · exact ((Anchored.free _ rfl).lead _).requiring _ _
  · exact Anchored.nil.requiring _ _

theorem onConflictClause (m : Model) (c : OnConflict) : Anchored keys (onConflictClause d m c) := by
  refine ((conflictTarget m c).lead _).append ?_
  split
  · exact ((conflictAssignments m c).append (Condition.clauseAnchored d keys _ _)).lead _
  · exact .free _ rfl

theorem conflictClause (m : Model) (c : Option OnConflict) :
    Anchored keys ((c.map (OnConflict.fragments d m)).getD []) := by
  cases c with
  | none => exact .nil
  | some c =>
    rw [Option.map_some, Option.getD_some]
    unfold OnConflict.fragments
    split
    · exact duplicateKeyClause m c
    · exact .nil
    · split
      · exact .nil
      · exact onConflictClause m c
    · exact onConflictClause m c

end Fragment.Anchored

end SqlMapper
