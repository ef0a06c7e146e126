import SqlMapper.Proofs.Statement.Given

/-!
# SqlMapper.Proofs.Statement.Encoded

Which literals go through the encoder of a field.

* `Binding`: what a run of fragments binds, or the error that it ends in, from any state.
* `Condition.Compares`: a comparison between columns with a field and literals, on either side.
* `Statement.literals_encoded_iff`: a literal that is given to a field is bound as the field encodes
  it, and so is one to the right of a column. To the left of a column it is bound as it is.
-/

namespace SqlMapper

open Fragment

/-! ## What a run binds -/

namespace Fragment

/-- From any state a run of the fragments binds the values, or ends in the error. -/
def Binding (fs : List Fragment) : Except Error (List Value) → Prop
  | .ok vs => ∀ r, ∃ ps r', Puts fs r ps r' ∧ ps.filterMap Piece.param? = vs
  | .error e => ∀ r, (runAll fs r).1 = .error e

/-- One outcome after the other. -/
def andThen (o o' : Except Error (List Value)) : Except Error (List Value) :=
  o.bind fun vs => o'.map (vs ++ ·)

/-- Values as the encoder of a field makes them, if there is one. -/
def encoded (codec : Option Field) (vs : List Value) : Except Error (List Value) :=
  match codec with
  | none => .ok vs
  | some f => vs.mapM f.encode

@[simp] theorem ok_andThen (o : Except Error (List Value)) : andThen (.ok []) o = o := by
  cases o <;> rfl

@[simp] theorem andThen_ok (o : Except Error (List Value)) : andThen o (.ok []) = o := by
  cases o with
  | error e => rfl
  | ok vs => exact congrArg Except.ok (List.append_nil vs)

@[simp] theorem encoded_nil (codec : Option Field) : encoded codec [] = .ok [] := by
  cases codec <;> rfl

theorem encoded_append (codec : Option Field) (vs ws : List Value) :
    encoded codec (vs ++ ws) = andThen (encoded codec vs) (encoded codec ws) := by
  cases codec with
  | none => rfl
  | some f =>
    unfold encoded andThen
    dsimp only
    rw [List.mapM_append]
    cases vs.mapM f.encode with
    | error e => rfl
    | ok vs => cases ws.mapM f.encode <;> rfl

/-- Encoding leaves values alone if it does so with each of them. -/
theorem mapM_encode_eq_iff {f : Field} {vs : List Value} :
    vs.mapM f.encode = .ok vs ↔ ∀ v ∈ vs, f.encode v = .ok v := by
  induction vs with
  | nil => exact iff_of_true rfl fun _ h => nomatch h
  | cons v vs ih =>
    rw [List.mapM_cons, List.forall_mem_cons, ← ih]
    cases f.encode v with
    | error e => exact iff_of_false (fun h => nomatch h) fun h => nomatch h.1
    | ok w =>
      cases vs.mapM f.encode with
      | error e => exact iff_of_false (fun h => nomatch h) fun h => nomatch h.2
      | ok ws =>
        constructor
        · intro h
          obtain ⟨rfl, rfl⟩ := List.cons.inj (Except.ok.inj h)
          exact ⟨rfl, rfl⟩
        · rintro ⟨h, h'⟩
          cases h
          cases h'
          rfl

namespace Binding

variable {fs gs : List Fragment} {o o' : Except Error (List Value)}

theorem nil : Binding [] (.ok []) := fun r => ⟨[], r, puts_nil.2 ⟨rfl, rfl⟩, rfl⟩

theorem text (s : String) : Binding [text s] (.ok []) := fun _ =>
  ⟨_, _, puts_text.2 ⟨rfl, rfl⟩, rfl⟩

theorem identifier (s : String) : Binding [identifier s] (.ok []) := fun _ =>
  ⟨_, _, puts_identifier.2 ⟨rfl, rfl⟩, rfl⟩

theorem param (v : Value) : Binding [param v] (.ok [v]) := fun _ =>
  ⟨_, _, puts_param.2 ⟨rfl, rfl⟩, rfl⟩

theorem refuse (e : Error) : Binding [refuse e] (.error e) := fun r => by
  rw [runAll_singleton, run]

theorem qualifier (q : Qualifier) : Binding [qualifier q] (.ok []) := fun r => by
  cases h : r.scope.bare with
  | true => exact ⟨_, _, (puts_qualifier_bare h).2 ⟨rfl, rfl⟩, rfl⟩
  | false => exact ⟨_, _, (puts_qualifier h).2 ⟨rfl, rfl⟩, rfl⟩

theorem append (h : Binding fs o) (h' : Binding gs o') : Binding (fs ++ gs) (andThen o o') := by
  cases o with
  | error e =>
    intro r
    have he := h r
    rcases hrun : runAll fs r with ⟨e' | ⟨⟩, m⟩
    · rw [hrun] at he
      rw [runAll_append_of_error hrun]
      exact he
    · rw [hrun] at he
      cases he
  | ok vs =>
    cases o' with
    | error e =>
      intro r
      obtain ⟨ps, m, hps, -⟩ := h r
      rw [runAll_append_of_ok hps.1]
      exact h' m
    | ok ws =>
      intro r
      obtain ⟨ps, m, hps, rfl⟩ := h r
      obtain ⟨qs, r', hqs, rfl⟩ := h' m
      exact ⟨ps ++ qs, r', puts_append.2 ⟨m, ps, qs, hps, hqs, rfl⟩, List.filterMap_append⟩

theorem lead (s : String) (h : Binding fs o) : Binding (.text s :: fs) o := by
  simpa using (text s).append h

theorem ending (h : Binding fs o) (s : String) : Binding (fs ++ [Fragment.text s]) o := by
  simpa using h.append (text s)

theorem parenthesized (h : Binding fs o) : Binding (parenthesized fs) o := (h.lead "(").ending ")"

/-- A run has only one outcome. -/
theorem unique (h : Binding fs o) (h' : Binding fs o') : o = o' := by
  let r : Rendering := .start ⟨0⟩
  cases o with
  | error e =>
    have he := h r
    cases o' with
    | error e' => exact congrArg _ (Except.error.inj (he.symm.trans (h' r)))
    | ok ws =>
      obtain ⟨_, _, hps, -⟩ := h' r
      cases he.symm.trans (congrArg Prod.fst hps.1)
  | ok vs =>
    obtain ⟨ps, m, hps, rfl⟩ := h r
    cases o' with
    | error e' => cases (h' r).symm.trans (congrArg Prod.fst hps.1)
    | ok ws =>
      obtain ⟨qs, m', hqs, rfl⟩ := h' r
      rw [(hps.unique hqs).1]

end Binding

end Fragment

/-! ## Columns and literals -/

namespace Expr

/-- A column of a model with the field, perhaps under an output name. -/
inductive IsColumn (f : Field) : Expr → Prop
  | column {m : ModelSource} {name : String} :
      m.model.field? name = some f → IsColumn f (.column (some (.model m)) name)
  | named {e : Expr} (name : String) : IsColumn f e → IsColumn f (.named e name)

/-- A side of a comparison between columns with the field and literals, and its literals. -/
inductive Side (f : Field) : Expr → List Value → Prop
  | column {e : Expr} : e.IsColumn f → Side f e []
  | literal {v : Value} : v.isNull = false → Side f (.literal v) [v]

variable {f : Field} {e : Expr} {vs : List Value} {d : Dialect}

theorem IsColumn.field?_eq (h : e.IsColumn f) : e.field? = some f := by
  induction h with
  | column h => exact h
  | named _ _ ih => exact ih

theorem IsColumn.binding (h : e.IsColumn f) (codec : Option Field) :
    Binding (e.fragments d codec) (.ok []) := by
  induction h with
  | @column m name h =>
    rw [fragments, ofColumn, Model.field, h]
    simpa using (Binding.qualifier (.model m)).append (.identifier f.column)
  | named _ _ ih =>
    rw [fragments]
    exact ih

theorem binding_ofLiteral (codec : Option Field) {v : Value} (h : v.isNull = false) :
    Binding (ofLiteral codec v) (encoded codec [v]) := by
  cases codec with
  | none => exact .param v
  | some f =>
    simp only [ofLiteral, encoded, h, Bool.false_eq_true, if_false, List.mapM_cons, List.mapM_nil]
    cases f.encode v with
    | error e => exact .refuse e
    | ok w => exact .param w

theorem Side.binding (h : e.Side f vs) (codec : Option Field) :
    Binding (e.fragments d codec) (encoded codec vs) := by
  cases h with
  | column h =>
    rw [encoded_nil]
    exact h.binding codec
  | literal h =>
    rw [fragments]
    exact binding_ofLiteral codec h

/-- What stands on the left is bound as it is, whether it has literals or a field. -/
theorem Side.binding_left (h : e.Side f vs) :
    Binding (e.fragments d none) (encoded e.field? vs) := by
  cases h with
  | column h =>
    rw [encoded_nil]
    exact h.binding none
  | literal h =>
    rw [fragments]
    exact binding_ofLiteral none h

theorem Side.isNullLiteral_eq (h : e.Side f vs) : e.isNullLiteral = false := by
  cases h with
  | column h => cases h <;> rfl
  | literal h => exact h

/-- The sides of a list are bound one after another. -/
theorem binding_sides {es : List Expr} {vss : List (List Value)} (h : List.Forall₂ (Side f) es vss)
    (codec : Option Field) :
    Binding (commas (listFragments d codec es)) (encoded codec vss.flatten) := by
  induction h with
  | nil =>
    rw [List.flatten_nil, encoded_nil]
    exact .nil
  | @cons e vs es vss he hes ih =>
    rw [List.flatten_cons, encoded_append, listFragments]
    cases hes with
    | nil =>
      simpa [listFragments, commas, separated] using he.binding codec
    | cons he' hes =>
      rw [listFragments] at ih ⊢
      have h := (he.binding (d := d) codec).append (ih.lead ", ")
      simpa [commas, separated, List.intercalate_cons_cons] using h

end Expr

/-! ## Comparisons -/

namespace Condition

/-- A comparison of the left side with columns with the field or with literals. It has a column with
the field, and these literals in the order of the text. -/
inductive Compares (f : Field) (left : Expr) : Condition → List Value → Prop
  | signed {op : Comparison} {right : Expr} {vs ws : List Value} (negated escaped : Bool) :
      op ∈ [.eq, .ne, .lt, .le, .gt, .ge] → left.Side f vs → right.Side f ws →
        left.IsColumn f ∨ right.IsColumn f →
          Compares f left (.compare left op right negated escaped) (vs ++ ws)
  | member {op : Comparison} {right : Expr} {vs ws : List Value} (negated escaped : Bool) :
      op ∈ [.isIn, .notIn] → left.Side f vs → right.Side f ws → right.arrayItems? = none →
        left.IsColumn f ∨ right.IsColumn f →
          Compares f left (.compare left op right negated escaped) (vs ++ ws)
  | list {op : Comparison} {items : List Expr} {vs : List Value} {vss : List (List Value)}
      (negated escaped : Bool) :
      op ∈ [.isIn, .notIn] → left.Side f vs → List.Forall₂ (Expr.Side f) items vss →
        (left.IsColumn f ∨ ∃ e ∈ items, e.IsColumn f) →
          Compares f left (.compare left op (.list items) negated escaped) (vs ++ vss.flatten)
  | array {op : Comparison} {vs : List Value} (negated escaped : Bool) :
      op ∈ [.isIn, .notIn] → left.IsColumn f → (∀ v ∈ vs, v.isNull = false) →
        Compares f left (.compare left op (.literal (.array vs)) negated escaped) vs
  | between {low high : Expr} {us vs ws : List Value} (negated escaped : Bool) :
      left.Side f us → low.Side f vs → high.Side f ws →
        left.IsColumn f ∨ low.IsColumn f ∨ high.IsColumn f →
          Compares f left (.compare left .between (.list [low, high]) negated escaped)
            (us ++ (vs ++ ws))

variable {f : Field} {left : Expr} {c : Condition} {vs : List Value} {d : Dialect}

theorem Compares.side (h : c.Compares f left vs) : ∃ us, left.Side f us := by
  cases h with
  | signed _ _ _ h | member _ _ _ h | list _ _ _ h | between _ _ h => exact ⟨_, h⟩
  | array _ _ _ h => exact ⟨_, .column h⟩

/-- A side, a sign and what stands on the right of it. -/
theorem binding_signed (sign : String) {right : List Fragment} {ws : List Value}
    (hl : left.Side f vs) (hr : Binding right (encoded left.field? ws)) :
    Binding (left.fragments d none ++ [Fragment.text " ", .text sign, .text " "] ++ right)
      (encoded left.field? (vs ++ ws)) := by
  rw [encoded_append]
  simpa using hl.binding_left.append (((hr.lead " ").lead sign).lead " ")

/-- Nothing is bound for an empty list, for then the left side has no place either. -/
theorem binding_members {op : Comparison} {right : Expr} {items : List Expr}
    {vss : List (List Value)} (escaped : Bool) (hop : op ∈ [.isIn, .notIn])
    (hright : right.members? = some items) (hl : left.Side f vs)
    (hitems : List.Forall₂ (Expr.Side f) items vss)
    (hcolumn : left.IsColumn f ∨ ∃ e ∈ items, e.IsColumn f) :
    Binding (comparisonBlock d left op right escaped).fragments
      (encoded left.field? (vs ++ vss.flatten)) := by
  simp only [List.mem_cons, List.not_mem_nil, or_false] at hop
  cases hitems with
  | nil =>
    have hleft : left.IsColumn f := hcolumn.resolve_right fun ⟨_, he, _⟩ => nomatch he
    have hvs : vs = [] := by
      cases hl with
      | column _ => rfl
      | literal _ => cases hleft
    have hempty : (comparisonBlock d left op right escaped).fragments = ofMembership op [] [] := by
      rcases hop with rfl | rfl <;> simp [comparisonBlock, hright]
    rw [hempty, hvs, List.nil_append, List.flatten_nil, encoded_nil]
    exact .text _
  | @cons e ws es wss he hes =>
    have hsides : (comparisonBlock d left op right escaped).fragments =
        ofSigned (left.fragments d none) op.sign
          (parenthesized (commas (Expr.listFragments d left.field? (e :: es)))) := by
      rcases hop with rfl | rfl <;> simp [comparisonBlock, hright, Part.fragments]
    rw [hsides]
    exact (binding_signed op.sign hl (Expr.binding_sides (.cons he hes) _).parenthesized).parenthesized

/-- Literals go through the encoder of the left side, if that has a field. -/
theorem Compares.binding (h : c.Compares f left vs) :
    Binding (c.fragments d) (encoded left.field? vs) := by
  -- A negated comparison is the same comparison behind a word.
  have hcomparison {op : Comparison} {right : Expr} {negated escaped : Bool} {vs : List Value}
      (h : Binding (comparisonBlock d left op right escaped).fragments (encoded left.field? vs)) :
      Binding ((compare left op right negated escaped).fragments d) (encoded left.field? vs) := by
    rw [← fragments_comparisonBlock]
    cases negated with
    | false => exact h
    | true => exact h.lead "NOT "
  cases h with
  | @signed op right vs ws negated escaped hop hl hr _ =>
    have hsides : (comparisonBlock d left op right escaped).fragments =
        ofComparison d op escaped (left.fragments d none) (right.fragments d left.field?) := by
      simp only [List.mem_cons, List.not_mem_nil, or_false] at hop
      rcases hop with rfl | rfl | rfl | rfl | rfl | rfl <;>
        simp [comparisonBlock, hr.isNullLiteral_eq, Part.fragments]
    refine hcomparison ?_
    rw [hsides]
    refine Binding.parenthesized ?_
    have h := binding_signed (d := d) (comparisonSign d op) hl (hr.binding (d := d) left.field?)
    cases escaped with
    | false => simpa using h
    | true => simpa using (h.ending " ESCAPE ").ending d.likeEscape
  | @member op right vs ws negated escaped hop hl hr harray _ =>
    have hmembers : right.members? = none := by
      cases hr with
      | column h => cases h <;> rfl
      | literal _ => rw [Expr.members?, harray, Option.map_none]; rintro _ ⟨⟩
    have hsides : (comparisonBlock d left op right escaped).fragments =
        ofSigned (left.fragments d none) op.sign (right.fragments d left.field?) := by
      simp only [List.mem_cons, List.not_mem_nil, or_false] at hop
      rcases hop with rfl | rfl <;> simp [comparisonBlock, hmembers, Part.fragments]
    refine hcomparison ?_
    rw [hsides]
    exact (binding_signed op.sign hl (hr.binding left.field?)).parenthesized
  | list negated escaped hop hl hitems hcolumn =>
    exact hcomparison (binding_members escaped hop rfl hl hitems hcolumn)
  | array negated escaped hop hl hvs =>
    -- An array is the list of its members.
    have hitems : List.Forall₂ (Expr.Side f) (vs.map .literal) (vs.map fun v => [v]) := by
      rw [List.forall₂_map_left_iff, List.forall₂_map_right_iff, List.forall₂_same]
      exact fun v hv => .literal (hvs v hv)
    have hflat : (vs.map fun v => [v]).flatten = vs := by
      rw [← List.flatMap_def, List.flatMap_singleton']
    have hmembers : (Expr.literal (.array vs)).members? = some (vs.map .literal) := rfl
    have h := binding_members (d := d) escaped hop hmembers (.column hl) hitems (.inl hl)
    rw [hflat, List.nil_append] at h
    exact hcomparison h
  | @between low high us vs ws negated escaped hl hlow hhigh _ =>
    refine hcomparison ?_
    have hsides : (comparisonBlock d left .between (.list [low, high]) escaped).fragments =
        parenthesized (left.fragments d none ++ [Fragment.text " BETWEEN "] ++
          low.fragments d left.field? ++ [Fragment.text " AND "] ++ high.fragments d left.field?) := by
      simp [comparisonBlock, Part.fragments]
    rw [hsides, encoded_append, encoded_append]
    refine Binding.parenthesized ?_
    have hright := (hlow.binding (d := d) left.field?).append
      ((hhigh.binding (d := d) left.field?).lead " AND ")
    simpa using hl.binding_left.append (hright.lead " BETWEEN ")

/-- Every literal is bound as the field encodes it if the left side is a column, or if encoding
changes none of them. -/
theorem Compares.binding_iff (h : c.Compares f left vs) :
    Binding (c.fragments d) (vs.mapM f.encode) ↔
      left.IsColumn f ∨ ∀ v ∈ vs, f.encode v = .ok v := by
  have hbinding := h.binding (d := d)
  obtain ⟨us, hleft⟩ := h.side
  cases hleft with
  | column hcolumn =>
    rw [hcolumn.field?_eq] at hbinding
    exact iff_of_true hbinding (.inl hcolumn)
  | literal hliteral =>
    rw [or_iff_right (fun h => nomatch h), ← mapM_encode_eq_iff]
    exact ⟨fun h => h.unique hbinding, fun h => by rwa [h]⟩

end Condition

/-! ## Literals in a compilation -/

namespace Statement

variable {st : Statement} {d : Dialect} {s : Supply}

/-- The part comes to something that binds the values, or to the error. -/
def Binds (st : Statement) (d : Dialect) (s : Supply) (t : Part) (m : Rendering)
    (o : Except Error (List Value)) : Prop :=
  ∃ x, st.Renders d s t m x ∧ x.map (List.filterMap Piece.param?) = o

variable {region : Region} {C : Setting} {t : Part} {m : Rendering}
  {o o' : Except Error (List Value)}

theorem Reaches.binds (h : st.Reaches d s region C t m) (ho : Binding (t.fragments d) o) :
    st.Binds d s t m o := by
  cases o with
  | error e => exact ⟨.error e, h.renders_error (ho m), rfl⟩
  | ok vs =>
    obtain ⟨ps, m', hps, rfl⟩ := ho m
    exact ⟨.ok ps, h.renders_ok hps, rfl⟩

theorem Binds.unique (h : st.Binds d s t m o) (h' : st.Binds d s t m o') : o = o' := by
  obtain ⟨x, hx, rfl⟩ := h
  obtain ⟨x', hx', rfl⟩ := h'
  rw [hx.unique hx']

theorem Reaches.binds_compared_iff {f : Field} {left : Expr} {c : Condition} {vs : List Value}
    (h : st.Reaches d s region C (.condition c) m) (hc : c.Compares f left vs) :
    st.Binds d s (.condition c) m (vs.mapM f.encode) ↔
      left.IsColumn f ∨ ∀ v ∈ vs, f.encode v = .ok v := by
  rw [← hc.binding_iff (d := d)]
  exact ⟨fun hb => hb.unique (h.binds hc.binding) ▸ hc.binding, h.binds⟩

/-- Where the compilation gets to a comparison between columns with a field and literals, every
literal is bound as the field encodes it, or is refused, exactly if the left side is a column or
encoding changes nothing. A literal that is given to a field is always encoded. In a compiled
statement all parts are reached, and every literal that is given and counts is one of them. -/
theorem literals_encoded_iff (st : Statement) (d : Dialect) (s : Supply) :
    (∀ region C f left c vs m, st.Reaches d s region C (.condition c) m → c.Compares f left vs →
      (st.Binds d s (.condition c) m (vs.mapM f.encode) ↔
        left.IsColumn f ∨ ∀ v ∈ vs, f.encode v = .ok v)) ∧
    (∀ region C f v m, st.Reaches d s region C (.operand (some f) (.literal v)) m →
      v.isNull = false → st.Binds d s (.operand (some f) (.literal v)) m ([v].mapM f.encode)) ∧
    ∀ r, (st.compile d s).1 = .ok r →
      (∀ region C t, st.Holds d region C t → ∃ m, st.Reaches d s region C t m) ∧
      ∀ region a v, st.Gives region a → a.value = .literal v → v.isNull = false →
        ∃ C f, (∃ m ∈ st.target?, m.model.field? a.field = some f) ∧
          st.Holds d region C (.operand (some f) (.literal v)) := by
  refine ⟨fun region C f left c vs m => Reaches.binds_compared_iff, ?_, fun r hr => ⟨?_, ?_⟩⟩
  · intro region C f v m h hv
    refine h.binds ?_
    rw [Part.fragments, Expr.fragments]
    exact Expr.binding_ofLiteral (some f) hv
  · exact fun region C t h => h.reaches_of_compile hr
  · intro region a v h hv hnull
    have hholds := h.holds (by rwa [hv]) hr
    rwa [hv] at hholds

end Statement

/-- The condition of a select is a part of it. -/
theorem Select.holds_filter {s : Select} {c : Condition} (h : s.filter = some c) (d : Dialect) :
    ∃ C, (Statement.query (.simple s)).Holds d .outside C (.condition c) := by
  have hmem : .condition c ∈ (s.block d).labels := by
    simp [Select.block, h, Condition.clauseBlock, Part.alone]
  obtain ⟨C, hC⟩ := Block.mem_labels.1 hmem
  exact ⟨_, _, _, _, List.mem_singleton_self _, .inner hC (.self _), rfl⟩

namespace Sample

/-- Stores twice the number. -/
def doubling : Codec
  | .bigInt n => .ok (.bigInt (n + n))
  | v => .ok v

def halfLength : Field := ⟨0, "half", "Rope", { name := "half", type := .bigInt, encode := doubling }⟩

def rope : ModelSource where
  model := {
    name := "Rope", table := "ropes", fields := [halfLength], primaryKey := .absent,
    foreignKeys := [], indexes := [], reverse := [] }
  givenName := none

def ropes (c : Condition) : Statement := .query (.simple ((Select.ofModel rope).filtered c))

/-- The ropes of a length, the column on the left. -/
def longEnough : Condition := Expr.compare .ge (rope.column "half") (.literal (.bigInt 3))

/-- The same ropes, the column on the right. -/
def enough : Condition := Expr.compare .le (.literal (.bigInt 3)) (rope.column "half")

theorem half_isColumn : (rope.column "half").IsColumn halfLength := .column rfl

theorem ropes_holds (c : Condition) : ∃ C, (ropes c).Holds .sqlite .outside C (.condition c) :=
  Select.holds_filter rfl .sqlite

theorem longEnough_encoded : ∃ C m,
    (ropes longEnough).Reaches .sqlite ⟨0⟩ .outside C (.condition longEnough) m ∧
      (ropes longEnough).Binds .sqlite ⟨0⟩ (.condition longEnough) m (.ok [.bigInt 6]) := by
  have hcompares : longEnough.Compares halfLength (rope.column "half") ([] ++ [Value.bigInt 3]) :=
    .signed false false (by decide) (.column half_isColumn) (.literal rfl) (.inl half_isColumn)
  obtain ⟨C, hholds⟩ := ropes_holds longEnough
  have hcompile : ((ropes longEnough).compile .sqlite ⟨0⟩).1 = .ok
      ⟨"SELECT \"t1\".\"half\" FROM \"ropes\" AS \"t1\" WHERE (\"t1\".\"half\" >= ?)", [.bigInt 6]⟩ := by
    with_unfolding_all rfl
  obtain ⟨hcompared, -, hcompiled⟩ := Statement.literals_encoded_iff (ropes longEnough) .sqlite ⟨0⟩
  obtain ⟨m, hm⟩ := (hcompiled _ hcompile).1 _ _ _ hholds
  exact ⟨C, m, hm, (hcompared _ _ _ _ _ _ _ hm hcompares).2 (.inl half_isColumn)⟩

/-- With the column on the right the number is bound as it is. -/
theorem enough_raw :
    (ropes enough).compile .sqlite ⟨0⟩ =
      (.ok ⟨"SELECT \"t1\".\"half\" FROM \"ropes\" AS \"t1\" WHERE (? <= \"t1\".\"half\")",
        [.bigInt 3]⟩, ⟨0⟩) ∧
    enough.Compares halfLength (.literal (.bigInt 3)) [.bigInt 3] ∧
    ∃ C m, (ropes enough).Reaches .sqlite ⟨0⟩ .outside C (.condition enough) m ∧
      ¬ (ropes enough).Binds .sqlite ⟨0⟩ (.condition enough) m ([.bigInt 3].mapM halfLength.encode) := by
  have hcompile : (ropes enough).compile .sqlite ⟨0⟩ = (.ok
      ⟨"SELECT \"t1\".\"half\" FROM \"ropes\" AS \"t1\" WHERE (? <= \"t1\".\"half\")", [.bigInt 3]⟩,
      ⟨0⟩) := by
    with_unfolding_all rfl
  have hcompares : enough.Compares halfLength (.literal (.bigInt 3)) ([Value.bigInt 3] ++ []) :=
    .signed false false (by decide) (.literal rfl) (.column half_isColumn) (.inr half_isColumn)
  obtain ⟨C, hholds⟩ := ropes_holds enough
  obtain ⟨e, he⟩ | ⟨m, hm⟩ := hholds.reaches ⟨0⟩
  · cases (congrArg Prod.fst hcompile).symm.trans he
  · refine ⟨hcompile, hcompares, C, m, hm, fun hbinds => ?_⟩
    rcases (hm.binds_compared_iff hcompares).1 hbinds with h | h
    · cases h
    · have h := Except.ok.inj (h _ (List.mem_singleton_self _))
      exact absurd (Value.bigInt.inj h) (by decide)

end Sample

end SqlMapper
