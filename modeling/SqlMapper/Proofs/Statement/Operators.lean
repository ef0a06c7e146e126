import SqlMapper.Proofs.Statement.Balanced
import SqlMapper.Proofs.Text.Kept

/-!
# SqlMapper.Proofs.Statement.Operators

The operators of expressions and conditions, as their text has them.

* `Expr.tree`, `Condition.tree`: the tree of operators that an operand or a condition is.
* `Expr.exposed`: whether the text starts with a `NOT` outside of parentheses.
* `Expr.settled`: nothing that takes no `NOT` for an operand has an exposed one.
-/

namespace SqlMapper

open Fragment Lexer OpTree

/-! ## The tree of an operand -/

def OpTree.constant (holds : Bool) : OpTree :=
  .node (.sign ['=']) [.node (.word (if holds then ['1'] else ['0'])) [], .node (.word ['1']) []]

def Operator.label (d : Dialect) : Operator → Label
  | .bitXor => .sign (d.bitwiseXor.getD "").toList
  | .concat =>
    match d.concat with
    | .operator => .sign Operator.concat.sign.toList
    | .function => .call "CONCAT".toList false
  | op => .sign op.sign.toList

def Comparison.label (d : Dialect) : Comparison → Label
  | .isIn => .reserved .member false
  | .notIn => .reserved .member true
  | .is => .reserved .is false
  | .isNot => .reserved .is true
  | .like => .reserved .like false
  | .notLike => .reserved .like true
  | .ilike => .reserved (if d.ilike then .ilike else .like) false
  | .between => .reserved .between false
  | op => .sign op.sign.toList

/-- A list that has no members. -/
def Expr.isEmptyList : Expr → Bool
  | .list [] | .literal (.array []) => true
  | _ => false

/-- What a comparison makes of its operands. An array on the right of `IN` is a list. -/
def Comparison.tree (d : Dialect) (op : Comparison) (right : Expr) (escaped : Bool) (l r : OpTree) :
    OpTree :=
  let compared : OpTree := .escaped escaped (.node (op.label d) [l, r])
  match op with
  | .eq | .is => if right.isNullLiteral then .node (.null false) [l] else compared
  | .ne | .isNot => if right.isNullLiteral then .node (.null true) [l] else compared
  | .isIn | .notIn =>
    if right.isEmptyList then .constant (op != .isIn)
    else .node (op.label d) [l, right.arrayItems?.elim r fun vs => .row (vs.map fun _ => .node .param [])]
  | .between => .node (op.label d) [l, r]
  | _ => compared

def Connective.tree (c : Connective) : List OpTree → OpTree
  | [] => .constant (c = .all)
  | ts => .chain (.reserved c.reserved false) ts

/-- The last part of the name of a function, as the dialect quotes names. -/
def Dialect.functionName? (d : Dialect) (f : String) : Option (List Char) :=
  (lexemes? d.quoteChar f.toList).bind OpTree.functionName?

mutual

def Expr.tree (d : Dialect) : Expr → OpTree
  | .column q name => .node (.column (lastPart ((Expr.columnName? q name).getD "").toList)) []
  | .literal _ => .node .param []
  | .raw sql => .node (.word sql.toList) []
  | .call function arguments distinct =>
    .node (.call ((d.functionName? function).getD []) distinct) (Expr.trees d arguments)
  | .windowed function _ => .node .window [function.tree d]
  | .binary left op right => .node (op.label d) [left.tree d, right.tree d]
  | .list items => .row (Expr.trees d items)
  | .subquery _ => .node .query []
  | .nonEmpty _ => .node .nonEmpty []
  | .condition c => c.tree d
  | .cast operand _ => .node .cast [operand.tree d]
  | .named operand _ => operand.tree d
  | .excluded _ => .node .proposed []
  | .star _ => .node .star []

def Expr.trees (d : Dialect) : List Expr → List OpTree
  | [] => []
  | e :: es => e.tree d :: Expr.trees d es

def Condition.tree (d : Dialect) : Condition → OpTree
  | .compare left op right negated escaped =>
    .negated negated (op.tree d right escaped (left.tree d) (right.tree d))
  | .group connective members negated =>
    .negated negated (connective.tree (Condition.trees d members))
  | .operand e => e.tree d

def Condition.trees (d : Dialect) : List Condition → List OpTree
  | [] => []
  | c :: cs => c.tree d :: Condition.trees d cs

end

/-! ## Where the text starts with `NOT` -/

mutual

/-- The text starts with a `NOT` that stands outside of parentheses. -/
def Expr.exposed : Expr → Bool
  | .windowed function _ => function.exposed
  | .condition c => c.exposed
  | .named operand _ => operand.exposed
  | _ => false

def Condition.exposed : Condition → Bool
  | .compare _ _ _ negated _ => negated
  | .group _ _ negated => negated
  | .operand e => e.exposed

end

def Expr.items : Expr → List Expr
  | .list items => items
  | _ => []

/-- A function in place of the sign. -/
def Operator.isCall (d : Dialect) (op : Operator) : Bool := op = .concat && d.concat = .function

mutual

/-- No operand of an arithmetic or comparing operator, nor the function of a window, is exposed. -/
def Expr.settled (d : Dialect) : Expr → Bool
  | .column _ _ | .literal _ | .raw _ | .subquery _ | .nonEmpty _ | .excluded _ | .star _ => true
  | .call _ arguments _ => Expr.listSettled d arguments
  | .windowed function _ => !function.exposed && function.settled d
  | .binary left op right =>
    if op.isCall d then left.settled d && right.settled d
    else (!left.exposed && left.settled d) && (!right.exposed && right.settled d)
  | .list items => Expr.listSettled d items
  | .condition c => c.settled d
  | .cast operand _ => operand.settled d
  | .named operand _ => operand.settled d

def Expr.listSettled (d : Dialect) : List Expr → Bool
  | [] => true
  | e :: es => e.settled d && Expr.listSettled d es

def Condition.settled (d : Dialect) : Condition → Bool
  | .compare left op right _ _ =>
    let operands := (!left.exposed && left.settled d) && (!right.exposed && right.settled d)
    match op with
    | .isIn | .notIn => right.isEmptyList || operands
    | .between => operands && right.items.all fun e => !e.exposed
    | _ => operands
  | .group _ members _ => Condition.listSettled d members
  | .operand e => e.settled d

def Condition.listSettled (d : Dialect) : List Condition → Bool
  | [] => true
  | c :: cs => c.settled d && Condition.listSettled d cs

end

/-! ## Operands without SQL of the caller -/

/-- The text is the name of a function. -/
def Callable (d : Dialect) (f : String) : Prop :=
  ∃ ls, (functionName? ls).isSome ∧ Scans d.quoteChar Mode.Between f.toList ls (Mode.Done d.quoteChar)

/-- The text is a type. -/
def Castable (d : Dialect) (s : String) : Prop :=
  ∃ ls, NoQuery ls ∧ Scans d.quoteChar Mode.Between s.toList ls (Mode.Done d.quoteChar)

mutual

/-- There is no raw SQL but in windows and queries, where it is delimited. -/
def Expr.Plain (d : Dialect) : Expr → Prop
  | .column _ _ | .literal _ | .excluded _ | .star _ => True
  | .raw _ => False
  | .call function arguments _ => Callable d function ∧ Expr.ListPlain d arguments
  | .windowed function window =>
    function.Plain d ∧ ∀ s ∈ window.sqlTexts, SelfContained d.quoteChar s
  | .binary left _ right => left.Plain d ∧ right.Plain d
  | .list items => Expr.ListPlain d items
  | .subquery query => ∀ s ∈ query.sqlTexts, SelfContained d.quoteChar s
  | .nonEmpty query => ∀ s ∈ query.sqlTexts, SelfContained d.quoteChar s
  | .condition c => c.Plain d
  | .cast operand type => operand.Plain d ∧ Castable d type
  | .named operand _ => operand.Plain d

def Expr.ListPlain (d : Dialect) : List Expr → Prop
  | [] => True
  | e :: es => e.Plain d ∧ Expr.ListPlain d es

def Condition.Plain (d : Dialect) : Condition → Prop
  | .compare left _ right _ _ => left.Plain d ∧ right.Plain d
  | .group _ members _ => Condition.ListPlain d members
  | .operand e => e.Plain d

def Condition.ListPlain (d : Dialect) : List Condition → Prop
  | [] => True
  | c :: cs => c.Plain d ∧ Condition.ListPlain d cs

end

/-- A dialect that has one sign for XOR and one literal for `ESCAPE`. -/
structure Dialect.Standard (d : Dialect) : Prop extends Dialect.Legible d where
  xorSign : ∀ s ∈ d.bitwiseXor, s.toList ≠ [] ∧ s.toList.all isPlain = true ∧
    Reserved.of? s.toList = none
  escapeLiteral : ∃ s, Scans d.quoteChar Mode.Between d.likeEscape.toList [.string s]
    (Mode.Done d.quoteChar)

namespace Dialect

theorem standard_of_named? {n : String} {d : Dialect} (h : named? n = some d) : d.Standard := by
  have hlegible := legible_of_named? h
  have hmem := List.mem_of_find?_eq_some h
  simp only [List.mem_cons, List.not_mem_nil, or_false] at hmem
  rcases hmem with rfl | rfl | rfl
  · exact {
      hlegible with
      xorSign := by rintro _ ⟨⟩
      escapeLiteral := ⟨['\\'], scans_escape _ fun _ _ => by cbv⟩ }
  · exact {
      hlegible with
      xorSign := by rintro _ ⟨⟩; decide
      escapeLiteral := ⟨['\\'], scans_escape _ fun _ _ => by cbv⟩ }
  · exact {
      hlegible with
      xorSign := by rintro _ ⟨⟩; decide
      escapeLiteral := ⟨['\\', '\\'], scans_escape _ fun _ _ => by cbv⟩ }

end Dialect

/-! ## Texts that keep a tree -/

theorem Expr.trees_eq (d : Dialect) (es : List Expr) : Expr.trees d es = es.map (Expr.tree d) := by
  induction es with
  | nil => rfl
  | cons e es ih => rw [Expr.trees, ih, List.map_cons]

theorem Condition.trees_eq (d : Dialect) (cs : List Condition) :
    Condition.trees d cs = cs.map (Condition.tree d) := by
  induction cs with
  | nil => rfl
  | cons c cs ih => rw [Condition.trees, ih, List.map_cons]

theorem Expr.listSettled_eq (d : Dialect) (es : List Expr) :
    Expr.listSettled d es = es.all (Expr.settled d) := by
  induction es with
  | nil => rfl
  | cons e es ih => rw [Expr.listSettled, ih, List.all_cons]

theorem Condition.listSettled_eq (d : Dialect) (cs : List Condition) :
    Condition.listSettled d cs = cs.all (Condition.settled d) := by
  induction cs with
  | nil => rfl
  | cons c cs ih => rw [Condition.listSettled, ih, List.all_cons]

theorem kept_constant (holds : Bool) :
    Kept false (OpTree.constant holds) true (SqlMapper.constant holds) := by
  refine Kept.of_level (by simp [OpTree.constant]) (by simp [OpTree.constant]) ?_
  cases holds <;> exact iff_of_true rfl rfl

theorem kept_placeholder (d : Dialect) (n : Nat) :
    Kept false (.node .param []) true [.word (d.placeholder n).toList] := by
  obtain ⟨c, ds, hp, hc, -⟩ := Placeholder.toList_placeholder d n
  have hstar : (d.placeholder n).toList ≠ ['*'] := by
    rw [hp]
    rintro h
    cases h
    cases hc
  have hword : OpTree.ofWord (d.placeholder n).toList = .node .param [] := by
    rw [OpTree.ofWord, hp, List.head?_cons, Option.any_some, hc, if_pos rfl]
  exact .of_denotes (hword ▸ denotes_word (of?_placeholder d n) hstar)

theorem Operator.signs {d : Dialect} {op : Operator} (hxor : op ≠ .bitXor) (hconcat : op ≠ .concat) :
    Signs [op.lexeme] (Reader.signLevel op.sign.toList) (op.label d) := by
  cases op <;> first | exact signs_word (by decide) | contradiction

theorem Comparison.signs (d : Dialect) {op : Comparison} (hop : op ≠ .between) :
    ∃ ss, Spells (comparisonSign d op) ss .word ∧ Signs ss 4 (op.label d) := by
  cases op with
  | eq => exact ⟨_, Comparison.spells .eq, signs_word (by decide)⟩
  | ne => exact ⟨_, Comparison.spells .ne, signs_word (by decide)⟩
  | lt => exact ⟨_, Comparison.spells .lt, signs_word (by decide)⟩
  | le => exact ⟨_, Comparison.spells .le, signs_word (by decide)⟩
  | gt => exact ⟨_, Comparison.spells .gt, signs_word (by decide)⟩
  | ge => exact ⟨_, Comparison.spells .ge, signs_word (by decide)⟩
  | isIn => exact ⟨_, Comparison.spells .isIn, signs_member⟩
  | notIn => exact ⟨_, Comparison.spells .notIn, signs_notMember⟩
  | is => exact ⟨_, Comparison.spells .is, signs_is⟩
  | isNot => exact ⟨_, Comparison.spells .isNot, signs_isNot⟩
  | like => exact ⟨_, Comparison.spells .like, signs_like⟩
  | notLike => exact ⟨_, Comparison.spells .notLike, signs_notLike⟩
  | ilike =>
    unfold comparisonSign Comparison.label
    cases d.ilike with
    | true => exact ⟨_, Comparison.spells .ilike, signs_ilike⟩
    | false => exact ⟨_, Comparison.spells .like, signs_like⟩
  | between => contradiction

namespace Fragment.Lexed

variable {α : Type} {d : Dialect} {b b' s s' : Bool} {t u : OpTree} {left right : List Fragment}

section

variable (hd : d.Legible)

include hd

theorem keptSigned {sign : String} {ss : List Lexeme} {label : Label} {n : Nat}
    (htext : Lexed d Mode.Between (· = ss) (Mode.Done d.quoteChar) [Fragment.text sign])
    (hs : Signs ss n label) (hrow : label ≠ .row) (hquery : label ≠ .query)
    (hl : Lexed d Mode.Between (Kept b t s) (Mode.Done d.quoteChar) left)
    (hr : Lexed d Mode.Between (Kept b' u s') (Mode.Done d.quoteChar) right) :
    Lexed d Mode.Between (Kept false (.node label [t, u]) ((!b && s) && (!b' && s')))
      (Mode.Done d.quoteChar) (Fragment.ofSigned left sign right) := by
  refine ((ofSigned hd htext hl hr).mono ?_).done
  rintro _ ⟨_, ⟨ks, js, hks, hjs, rfl⟩, rfl⟩
  have hsigned := Kept.signed (e := none) hs hrow hquery (.inl rfl) hks hjs
  rwa [escape, Option.elim_none, List.append_nil] at hsigned

theorem keptSaid {keyword : String} {ss : List Lexeme} {negative : Bool}
    (hspells : Spells keyword (ss ++ [Reserved.null.lexeme]) .word)
    (hs : Signs ss 4 (.reserved .is negative))
    (hl : Lexed d Mode.Between (Kept b t s) (Mode.Done d.quoteChar) left) :
    Lexed d Mode.Between (Kept false (.node (.null negative) [t]) (!b && s))
      (Mode.Done d.quoteChar) (Fragment.ofSaid left keyword) := by
  refine ((ofSaid hd hspells hl).mono ?_).done
  rintro _ ⟨_, ⟨ks, hks, rfl⟩, rfl⟩
  exact hks.said hs

theorem keptRow {b s : α → Bool} {t : α → OpTree} {es : List α} {fss : List (List Fragment)}
    (h : List.Forall₂ (fun e fs => Lexed d Mode.Between (Kept (b e) (t e) (s e))
      (Mode.Done d.quoteChar) fs) es fss) :
    Lexed d Mode.Between (Kept false (.row (es.map t)) (es.all s)) (Mode.Done d.quoteChar)
      (Fragment.parenthesized (Fragment.commas fss)) := by
  refine ((parenthesized hd (listing hd .comma h)).mono ?_).done
  rintro _ ⟨_, ⟨lss, hlss, rfl⟩, rfl⟩
  exact .ofRow hlss

theorem keptMembership {op : Comparison} {ss : List Lexeme} {label : Label}
    {b' s' : α → Bool} {t' : α → OpTree} {es : List α} {fss : List (List Fragment)}
    (hspells : Spells op.sign ss .word) (hs : Signs ss 4 label) (hrow : label ≠ .row)
    (hquery : label ≠ .query)
    (hl : Lexed d Mode.Between (Kept b t s) (Mode.Done d.quoteChar) left)
    (h : List.Forall₂ (fun e fs => Lexed d Mode.Between (Kept (b' e) (t' e) (s' e))
      (Mode.Done d.quoteChar) fs) es fss) :
    Lexed d Mode.Between
      (if es.isEmpty then Kept false (OpTree.constant (op != .isIn)) true
        else Kept false (.node label [t, .row (es.map t')]) ((!b && s) && es.all s'))
      (Mode.Done d.quoteChar) (Fragment.ofMembership op left fss) := by
  refine (ofMembership hd hspells hl h).mono ?_
  rintro _ (⟨rfl, rfl⟩ | ⟨hne, _, ⟨ks, _, hks, ⟨_, ⟨lss, hlss, rfl⟩, rfl⟩, rfl⟩, rfl⟩)
  · exact kept_constant _
  · rw [if_neg (by simpa using hne)]
    have hsigned := Kept.signed (e := none) hs hrow hquery (.inl rfl) hks (Kept.ofRow hlss)
    rwa [escape, Option.elim_none, List.append_nil] at hsigned

theorem keptGroup (connective : Connective) {b s : α → Bool} {t : α → OpTree} {es : List α}
    {fss : List (List Fragment)}
    (h : List.Forall₂ (fun e fs => Lexed d Mode.Between (Kept (b e) (t e) (s e))
      (Mode.Done d.quoteChar) fs) es fss) :
    Lexed d Mode.Between (Kept false (connective.tree (es.map t)) (es.all s))
      (Mode.Done d.quoteChar) (Fragment.ofGroup connective fss) := by
  refine (ofGroup hd connective h).mono ?_
  rintro _ (⟨rfl, rfl⟩ | ⟨hne, _, ⟨lss, hlss, rfl⟩, rfl⟩)
  · exact kept_constant _
  · have hk : ∃ n, Connects connective.reserved n := by
      cases connective with
      | all => exact ⟨2, .inl ⟨rfl, rfl⟩⟩
      | any => exact ⟨1, .inr ⟨rfl, rfl⟩⟩
    obtain ⟨n, hk⟩ := hk
    have htree : connective.tree (es.map t) = .chain (.reserved connective.reserved false) (es.map t) := by
      cases es with
      | nil => exact absurd rfl hne
      | cons e es => rfl
    rw [htree]
    exact .chain hlss hk hne

end

theorem keptCompared (hd : d.Standard) (op : Comparison) (hop : op ≠ .between) (escaped : Bool)
    (hl : Lexed d Mode.Between (Kept b t s) (Mode.Done d.quoteChar) left)
    (hr : Lexed d Mode.Between (Kept b' u s') (Mode.Done d.quoteChar) right) :
    Lexed d Mode.Between
      (Kept false (.escaped escaped (.node (op.label d) [t, u])) ((!b && s) && (!b' && s')))
      (Mode.Done d.quoteChar) (Fragment.ofComparison d op escaped left right) := by
  obtain ⟨ss, hspells, hs⟩ := op.signs d hop
  obtain ⟨n, hscans⟩ := hd.escapeLiteral
  have hrow : op.label d ≠ .row := by cases op <;> simp [Comparison.label]
  have hquery : op.label d ≠ .query := by cases op <;> simp [Comparison.label]
  refine ((ofComparison hd.toLegible escaped hspells hl hr (.text hscans rfl)).mono ?_).done
  rintro _ ⟨ls, hls, rfl⟩
  cases escaped with
  | false =>
    obtain ⟨ks, js, hks, hjs, rfl⟩ := hls
    have hsigned := Kept.signed (e := none) hs hrow hquery (.inl rfl) hks hjs
    rwa [escape, Option.elim_none, List.append_nil] at hsigned
  | true =>
    obtain ⟨_, _, ⟨ks, js, hks, hjs, rfl⟩, rfl, rfl⟩ := hls
    have hsigned := Kept.signed (e := some n) hs hrow hquery (.inr rfl) hks hjs
    simpa [escape] using hsigned

theorem keptBinary (hd : d.Standard) (op : Operator)
    (hl : Lexed d Mode.Between (Kept b t s) (Mode.Done d.quoteChar) left)
    (hr : Lexed d Mode.Between (Kept b' u s') (Mode.Done d.quoteChar) right) :
    Lexed d Mode.Between (Kept false (.node (op.label d) [t, u])
        (if op.isCall d then s && s' else (!b && s) && (!b' && s')))
      (Mode.Done d.quoteChar) (Fragment.ofBinary d left op right) := by
  have hsign (hxor : op ≠ .bitXor) (hconcat : op ≠ .concat) : Lexed d Mode.Between
      (Kept false (.node (op.label d) [t, u]) ((!b && s) && (!b' && s')))
      (Mode.Done d.quoteChar) (Fragment.ofSigned left op.sign right) := by
    have hrow : op.label d ≠ .row := by cases op <;> first | contradiction | simp [Operator.label]
    have hquery : op.label d ≠ .query := by cases op <;> first | contradiction | simp [Operator.label]
    exact keptSigned hd.toLegible (spelled hd.toLegible op.spells) (Operator.signs hxor hconcat) hrow
      hquery hl hr
  cases op with
  | bitXor =>
    unfold Fragment.ofBinary Operator.label
    cases hxor : d.bitwiseXor with
    | none => exact refuse _
    | some sign =>
      obtain ⟨hne, hplain, hword⟩ := hd.xorSign sign hxor
      exact keptSigned hd.toLegible (.text (scans_word hd.quoteChar hne
        (List.all_eq_true.1 hplain)) rfl) (signs_word hword)
        (by simp) (by simp) hl hr
  | concat =>
    unfold Fragment.ofBinary Operator.label Operator.isCall
    cases d.concat with
    | operator =>
      exact keptSigned hd.toLegible (spelled hd.toLegible (Operator.spells .concat))
        (signs_word (by decide)) (by simp) (by simp) hl hr
    | function =>
      have hname : functionName? [.word "CONCAT".toList] = some "CONCAT".toList := by decide
      refine ((enclosed hd.toLegible opens_concat closes_parenthesis
        (joining hd.toLegible .comma hl hr)).mono ?_).done
      rintro _ ⟨_, ⟨ks, js, hks, hjs, rfl⟩, rfl⟩
      have harguments : List.Forall₂ (fun e : Bool × OpTree × Bool => Kept e.1 e.2.1 e.2.2)
          [(b, t, s), (b', u, s')] [ks, js] := .cons hks (.cons hjs .nil)
      simpa using Kept.call harguments hname false
  | add => exact hsign (by simp) (by simp)
  | sub => exact hsign (by simp) (by simp)
  | mul => exact hsign (by simp) (by simp)
  | div => exact hsign (by simp) (by simp)
  | mod => exact hsign (by simp) (by simp)
  | bitAnd => exact hsign (by simp) (by simp)
  | bitOr => exact hsign (by simp) (by simp)

end Fragment.Lexed

/-! ## Every operand -/

theorem Query.querying {d : Dialect} (hd : d.Legible) (q : Query)
    (h : ∀ s ∈ q.sqlTexts, SelfContained d.quoteChar s) :
    Lexed d Mode.Between Querying (Mode.Done d.quoteChar) (q.fragments d) := by
  cases q with
  | simple s =>
    rw [Query.sqlTexts] at h
    rw [Query.fragments]
    exact .queryingSelect hd (Select.balanced hd s h)
  | compound c =>
    obtain ⟨ctes, left, op, right, orderBy, limit, offset⟩ := c
    simp only [Query.sqlTexts, Compound.sqlTexts, List.forall_mem_append] at h
    obtain ⟨hctes, hleft, hright, horder⟩ := h
    rw [Query.fragments]
    exact .queryingCompound hd (Cte.listBalanced hd ctes hctes) (Query.balanced hd left hleft)
      (Query.balanced hd right hright) (OrderTerm.listBalanced hd orderBy horder)

/-- A window is a group or a name. -/
theorem WindowRef.lexed {d : Dialect} (hd : d.Legible) (w : WindowRef)
    (h : ∀ s ∈ w.sqlTexts, SelfContained d.quoteChar s) :
    Lexed d Mode.Between (fun ls => (∃ ks, ls = [.group ks]) ∨ ∃ n, ls = ofName n)
      (Mode.Done d.quoteChar) (w.fragments d) := by
  cases w with
  | inline window =>
    rw [WindowRef.sqlTexts] at h
    rw [WindowRef.fragments]
    refine ((Lexed.parenthesized hd (Window.balanced hd window h)).mono ?_).done
    rintro _ ⟨ks, -, rfl⟩
    exact .inl ⟨ks, rfl⟩
  | named n =>
    rw [WindowRef.fragments]
    exact (Lexed.identifier hd n).mono fun ls hls => .inr ⟨_, hls⟩

/-- The text of an operand is read as its tree exactly if the operand is settled. -/
def Expr.Keeps (d : Dialect) (e : Expr) : List Lexeme → Prop :=
  Kept e.exposed (e.tree d) (e.settled d)

def Condition.Keeps (d : Dialect) (c : Condition) : List Lexeme → Prop :=
  Kept c.exposed (c.tree d) (c.settled d)

theorem Expr.isNullLiteral_kept {d : Dialect} {e : Expr} (h : e.isNullLiteral = true) :
    e.exposed = false ∧ e.settled d = true := by
  cases e with
  | literal v => exact ⟨rfl, rfl⟩
  | _ => cases h

namespace Fragment.Lexed

variable {d : Dialect} {b s : Bool} {t : OpTree} {left : List Fragment} (hd : d.Standard)
  (hl : Lexed d Mode.Between (Kept b t s) (Mode.Done d.quoteChar) left)

include hd hl

/-- A comparison that is another one with NULL. -/
theorem keptNull (op : Comparison) (hop : op ≠ .between) {keyword : String} {ss : List Lexeme}
    {negative : Bool} (hspells : Spells keyword (ss ++ [Reserved.null.lexeme]) .word)
    (hs : Signs ss 4 (.reserved .is negative)) (escaped : Bool) {e : Expr} {right : List Fragment}
    (hr : Lexed d Mode.Between (e.Keeps d) (Mode.Done d.quoteChar) right) :
    Lexed d Mode.Between
      (Kept false (if e.isNullLiteral then .node (.null negative) [t]
          else .escaped escaped (.node (op.label d) [t, e.tree d]))
        ((!b && s) && (!e.exposed && e.settled d)))
      (Mode.Done d.quoteChar)
      (if e.isNullLiteral then Fragment.ofSaid left keyword
        else Fragment.ofComparison d op escaped left right) := by
  cases hnull : e.isNullLiteral with
  | true =>
    obtain ⟨hexposed, hsettled⟩ := e.isNullLiteral_kept (d := d) hnull
    rw [hexposed, hsettled, Bool.not_false, Bool.and_self, Bool.and_true]
    exact keptSaid hd.toLegible hspells hs hl
  | false => exact keptCompared hd op hop escaped hl hr

theorem keptMember {op : Comparison} (hop : op = .isIn ∨ op = .notIn) (codec : Option Field)
    (escaped : Bool) {e : Expr}
    (hr : Lexed d Mode.Between (e.Keeps d) (Mode.Done d.quoteChar) (e.fragments d codec))
    (hitems : ∀ items, e = .list items → List.Forall₂ (fun e fs =>
      Lexed d Mode.Between (Expr.Keeps d e) (Mode.Done d.quoteChar) fs) items
        (Expr.listFragments d codec items)) :
    Lexed d Mode.Between
      (Kept false (op.tree d e escaped t (e.tree d))
        (e.isEmptyList || ((!b && s) && (!e.exposed && e.settled d))))
      (Mode.Done d.quoteChar) (ofMember d codec op left e) := by
  have hsigns : Signs op.lexemes 4 (op.label d) := by
    obtain rfl | rfl := hop
    · exact signs_member
    · exact signs_notMember
  have hrow : op.label d ≠ .row := by obtain rfl | rfl := hop <;> simp [Comparison.label]
  have hquery : op.label d ≠ .query := by obtain rfl | rfl := hop <;> simp [Comparison.label]
  have htree : op.tree d e escaped t (e.tree d) = if e.isEmptyList then .constant (op != .isIn)
      else .node (op.label d) [t, e.arrayItems?.elim (e.tree d) fun vs =>
        .row (vs.map fun _ => .node .param [])] := by
    obtain rfl | rfl := hop <;> rfl
  have hsigned := keptSigned hd.toLegible (spelled hd.toLegible op.spells) hsigns hrow hquery hl hr
  rw [htree]
  cases e with
  | list items =>
    refine (keptMembership hd.toLegible op.spells hsigns hrow hquery hl (hitems items rfl)).mono ?_
    intro ls hls
    cases items with
    | nil => exact hls
    | cons e es =>
      rw [Expr.tree, Expr.trees_eq, Expr.settled, Expr.listSettled_eq]
      exact hls
  | literal v =>
    cases v with
    | array vs =>
      have hparams : List.Forall₂ (fun _ fs => Lexed d Mode.Between (Kept false (.node .param []) true)
          (Mode.Done d.quoteChar) fs) vs
          (vs.map (Fragment.ofLiteral codec)) := by
        refine List.forall₂_map_right_iff.2 (List.forall₂_same.2 fun v _ => ?_)
        refine (ofLiteral hd.toLegible codec v).mono ?_
        rintro _ ⟨n, rfl⟩
        exact kept_placeholder d n
      refine (keptMembership hd.toLegible op.spells hsigns hrow hquery hl hparams).mono ?_
      intro ls hls
      cases vs with
      | nil => exact hls
      | cons v vs =>
        have hall : (v :: vs).all (fun _ => true) = true := List.all_eq_true.2 fun _ _ => rfl
        rw [List.isEmpty_cons, if_neg Bool.false_ne_true, hall] at hls
        exact hls
    | _ => exact hsigned
  | _ => exact hsigned

theorem keptInterval (codec : Option Field) (escaped : Bool) {e : Expr}
    (hitems : ∀ items, e = .list items → List.Forall₂ (fun e fs =>
      Lexed d Mode.Between (Expr.Keeps d e) (Mode.Done d.quoteChar) fs) items
        (Expr.listFragments d codec items)) :
    Lexed d Mode.Between
      (Kept false (Comparison.between.tree d e escaped t (e.tree d))
        ((!b && s) && (!e.exposed && e.settled d) && e.items.all fun e => !e.exposed))
      (Mode.Done d.quoteChar) (Fragment.ofBetween left ((e.itemFragments? d codec).getD [])) := by
  cases e with
  | list items =>
    refine (ofBetween hd.toLegible hl (hitems items rfl)).mono ?_
    rintro _ ⟨low, high, rfl, _, ⟨_, js, ⟨ls, ks, hls, hks, rfl⟩, hjs, rfl⟩, rfl⟩
    have hkept := Kept.between hls hks hjs
    have hsettled : ((!b && s) && (!Expr.exposed (.list [low, high]) &&
        Expr.settled d (.list [low, high])) && [low, high].all fun e => !e.exposed) =
        ((!b && s) && ((!low.exposed && low.settled d) && (!high.exposed && high.settled d))) := by
      simp only [Expr.exposed, Expr.settled, Expr.listSettled, List.all_cons, List.all_nil]
      cases low.exposed <;> cases high.exposed <;> simp
    rw [Expr.items, hsettled]
    exact hkept
  | _ => exact refuse _

end Fragment.Lexed

variable {d : Dialect}

mutual

theorem Expr.lexed_keeps (hd : d.Standard) (codec : Option Field) : (e : Expr) → e.Plain d →
    Lexed d Mode.Between (e.Keeps d) (Mode.Done d.quoteChar) (e.fragments d codec)
  | .column q name => fun _ => by
    rw [Expr.fragments]
    refine (Lexed.ofColumn hd.toLegible q name).mono ?_
    rintro ls ⟨c, hc, hls⟩
    rw [Expr.Keeps, Expr.tree, hc, Option.getD_some]
    obtain rfl | ⟨s, rfl⟩ := hls
    · exact .of_denotes (denotes_name _)
    · exact .of_denotes (denotes_qualified _ _)
  | .literal v => fun _ => by
    rw [Expr.fragments]
    refine (Lexed.ofLiteral hd.toLegible codec v).mono ?_
    rintro _ ⟨n, rfl⟩
    exact kept_placeholder d n
  | .raw sql => fun h => h.elim
  | .call function arguments distinct => fun ⟨⟨ls, hname, hscans⟩, h⟩ => by
    obtain ⟨f, hf⟩ := Option.isSome_iff_exists.1 hname
    have hlabel : (d.functionName? function).getD [] = f := by
      rw [Dialect.functionName?, hscans.lexemes?, Option.bind_some, hf, Option.getD_some]
    rw [Expr.fragments]
    refine ((Lexed.call hd.toLegible distinct (.text hscans rfl)
      (Expr.listLexed_keeps hd none arguments h)).mono ?_).done
    rintro _ ⟨_, _, rfl, ⟨lss, hlss, rfl⟩, rfl⟩
    rw [Expr.Keeps, Expr.tree, Expr.settled, Expr.trees_eq, Expr.listSettled_eq, hlabel]
    exact .call hlss hf distinct
  | .windowed function window => fun ⟨h, htexts⟩ => by
    rw [Expr.fragments]
    refine (Lexed.joining hd.toLegible .window (Expr.lexed_keeps hd none function h)
      (window.lexed hd.toLegible htexts)).mono ?_
    rintro _ ⟨ks, js, hks, hjs, rfl⟩
    rw [List.append_assoc]
    exact Kept.windowed hks hjs
  | .binary left op right => fun ⟨hl, hr⟩ => by
    rw [Expr.fragments]
    refine (Lexed.keptBinary hd op (Expr.lexed_keeps hd none left hl)
      (Expr.lexed_keeps hd none right hr)).mono ?_
    intro ls hls
    rw [Expr.Keeps, Expr.tree, Expr.settled]
    exact hls
  | .list items => fun h => by
    rw [Expr.fragments]
    refine (Lexed.keptRow hd.toLegible (Expr.listLexed_keeps hd codec items h)).mono ?_
    intro ls hls
    rw [Expr.Keeps, Expr.tree, Expr.settled, Expr.trees_eq, Expr.listSettled_eq]
    exact hls
  | .subquery query => fun h => by
    rw [Expr.fragments]
    refine ((Lexed.parenthesized hd.toLegible (Query.querying hd.toLegible query h)).mono ?_).done
    rintro _ ⟨ks, hks, rfl⟩
    exact .query hks
  | .nonEmpty query => fun h => by
    rw [Expr.fragments]
    refine ((Lexed.nonEmpty hd.toLegible (Query.querying hd.toLegible query h)).mono ?_).done
    rintro _ ⟨_, ⟨ks, hks, rfl⟩, rfl⟩
    exact .of_denotes (denotes_nonEmpty hks)
  | .condition c => fun h => by
    rw [Expr.fragments]
    exact Condition.lexed_keeps hd c h
  | .cast operand type => fun ⟨h, ks, hks, hscans⟩ => by
    rw [Expr.fragments]
    refine ((Lexed.cast hd.toLegible (Expr.lexed_keeps hd none operand h) (.text hscans rfl)).mono
      ?_).done
    rintro _ ⟨_, ⟨_, ⟨ls, _, hls, rfl, rfl⟩, rfl⟩, rfl⟩
    have hcast := Kept.cast hls hks
    rw [← List.append_assoc] at hcast
    exact hcast
  | .named operand _ => fun h => by
    rw [Expr.fragments]
    exact Expr.lexed_keeps hd codec operand h
  | .excluded field => fun _ => by
    rw [Expr.fragments]
    refine (Lexed.ofExcluded hd.toLegible field).mono ?_
    rintro _ ⟨s, rfl | rfl⟩
    · exact .of_denotes (denotes_values s)
    · exact .of_denotes (denotes_excluded s)
  | .star q => fun _ => by
    rw [Expr.fragments]
    refine (Lexed.ofStar hd.toLegible q).mono ?_
    rintro _ (rfl | ⟨s, rfl⟩)
    · exact .of_denotes denotes_star
    · exact .of_denotes (denotes_qualifiedStar s)

theorem Expr.listLexed_keeps (hd : d.Standard) (codec : Option Field) : (es : List Expr) →
    Expr.ListPlain d es →
    List.Forall₂ (fun e fs => Lexed d Mode.Between (Expr.Keeps d e) (Mode.Done d.quoteChar) fs) es
      (Expr.listFragments d codec es)
  | [] => fun _ => .nil
  | e :: es => fun ⟨h, hs⟩ =>
    .cons (Expr.lexed_keeps hd codec e h) (Expr.listLexed_keeps hd codec es hs)

theorem Expr.itemsLexed_keeps (hd : d.Standard) (codec : Option Field) : (e : Expr) → e.Plain d →
    ∀ items, e = .list items → List.Forall₂ (fun e fs =>
      Lexed d Mode.Between (Expr.Keeps d e) (Mode.Done d.quoteChar) fs) items
        (Expr.listFragments d codec items)
  | .list items => fun h _ heq => by
    cases heq
    exact Expr.listLexed_keeps hd codec items h
  | .column _ _ | .literal _ | .raw _ | .call _ _ _ | .windowed _ _ | .binary _ _ _
  | .subquery _ | .nonEmpty _ | .condition _ | .cast _ _ | .named _ _ | .excluded _
  | .star _ => fun _ _ heq => nomatch heq

theorem Condition.lexed_keeps (hd : d.Standard) : (c : Condition) → c.Plain d →
    Lexed d Mode.Between (c.Keeps d) (Mode.Done d.quoteChar) (c.fragments d)
  | .compare left op right negated escaped => fun ⟨hl, hr⟩ => by
    have hleft := Expr.lexed_keeps hd none left hl
    have hright := Expr.lexed_keeps hd left.field? right hr
    have hpattern := Expr.lexed_keeps hd none right hr
    have hitems := Expr.itemsLexed_keeps hd left.field? right hr
    have hisNull : Spells "IS NULL" ([Reserved.is.lexeme] ++ [Reserved.null.lexeme]) .word :=
      spells_isNull
    have hisNotNull : Spells "IS NOT NULL"
        ([Reserved.is.lexeme, Reserved.not.lexeme] ++ [Reserved.null.lexeme]) .word :=
      spells_isNotNull
    rw [Condition.fragments.eq_def]
    refine (Lexed.negation hd.toLegible negated (P := Kept false
      (op.tree d right escaped (left.tree d) (right.tree d))
      (Condition.settled d (.compare left op right negated escaped))) ?_).mono ?_
    · rw [Condition.settled.eq_def]
      cases op with
      | eq => exact .keptNull hd hleft _ (by simp) hisNull signs_is escaped hright
      | is => exact .keptNull hd hleft _ (by simp) hisNull signs_is escaped hright
      | ne => exact .keptNull hd hleft _ (by simp) hisNotNull signs_isNot escaped hright
      | isNot => exact .keptNull hd hleft _ (by simp) hisNotNull signs_isNot escaped hright
      | isIn => exact .keptMember hd hleft (.inl rfl) left.field? escaped hright hitems
      | notIn => exact .keptMember hd hleft (.inr rfl) left.field? escaped hright hitems
      | between => exact .keptInterval hd hleft left.field? escaped hitems
      | like => exact .keptCompared hd _ (by simp) escaped hleft hpattern
      | notLike => exact .keptCompared hd _ (by simp) escaped hleft hpattern
      | ilike => exact .keptCompared hd _ (by simp) escaped hleft hpattern
      | lt => exact .keptCompared hd _ (by simp) escaped hleft hright
      | le => exact .keptCompared hd _ (by simp) escaped hleft hright
      | gt => exact .keptCompared hd _ (by simp) escaped hleft hright
      | ge => exact .keptCompared hd _ (by simp) escaped hleft hright
    · rintro _ ⟨ks, hks, rfl⟩
      exact hks.negated negated
  | .group connective members negated => fun h => by
    rw [Condition.fragments]
    refine (Lexed.negation hd.toLegible negated (Lexed.keptGroup hd.toLegible connective
      (Condition.listLexed_keeps hd members h))).mono ?_
    rintro _ ⟨ks, hks, rfl⟩
    rw [Condition.Keeps, Condition.tree, Condition.settled, Condition.trees_eq, Condition.listSettled_eq]
    exact hks.negated negated
  | .operand e => fun h => by
    rw [Condition.fragments]
    exact Expr.lexed_keeps hd none e h

theorem Condition.listLexed_keeps (hd : d.Standard) : (cs : List Condition) →
    Condition.ListPlain d cs →
    List.Forall₂ (fun c fs => Lexed d Mode.Between (Condition.Keeps d c) (Mode.Done d.quoteChar) fs) cs
      (Condition.listFragments d cs)
  | [] => fun _ => .nil
  | c :: cs => fun ⟨h, hs⟩ =>
    .cons (Condition.lexed_keeps hd c h) (Condition.listLexed_keeps hd cs hs)

end

/-- In every place, the text of an operand is read as the tree of the operand exactly if no operator
that is stronger than `NOT` has an operand whose text starts with one. -/
theorem Expr.operators_kept_iff (hd : d.Standard) (codec : Option Field) (e : Expr) (he : e.Plain d)
    {r r' : Rendering} {ps : List Piece} (h : Puts (e.fragments d codec) r ps r') (n : Nat) :
    (lexemes? d.quoteChar (Piece.chars d n ps)).bind OpTree.read = some (e.tree d) ↔
      e.settled d = true := by
  obtain ⟨ls, hkept, hscans⟩ := Expr.lexed_keeps hd codec e he r ps r' h n
  rw [hscans.lexemes?, Option.bind_some]
  exact hkept.read_iff

namespace Sample

/-- Not both another body than the sum of two columns and a title of the given form. -/
def unmatched : Expr :=
  .condition (.group .all [
    .compare (.column none "body") .eq (.binary (.column none "head") .add (.column none "tail")) true
      false,
    .compare (.column none "title") .like (.literal (.text "a%")) false true] true)

def unmatchedPieces : List Piece :=
  [.text "NOT ", .text "(", .text "NOT ", .text "(", .name "body", .text " ", .text "=", .text " ",
    .text "(", .name "head", .text " ", .text "+", .text " ", .name "tail", .text ")", .text ")",
    .text " AND ", .text "(", .name "title", .text " ", .text "LIKE", .text " ",
    .param (.text "a%"), .text " ESCAPE ", .text "'\\'", .text ")", .text ")"]

theorem unmatched_kept :
    (∃ r, Puts (unmatched.fragments .sqlite none) (.start ⟨0⟩) unmatchedPieces r) ∧
      (lexemes? '"' (Piece.chars .sqlite 0 unmatchedPieces)).bind OpTree.read =
        some (unmatched.tree .sqlite) := by
  have hputs : ∃ r, Puts (unmatched.fragments .sqlite none) (.start ⟨0⟩) unmatchedPieces r :=
    ⟨_, by with_unfolding_all rfl, by with_unfolding_all rfl⟩
  have hplain : unmatched.Plain .sqlite := ⟨⟨trivial, trivial, trivial⟩, ⟨trivial, trivial⟩, trivial⟩
  obtain ⟨r, hr⟩ := hputs
  have hstandard : Dialect.sqlite.Standard := Dialect.standard_of_named? (n := "sqlite") rfl
  exact ⟨⟨r, hr⟩, (Expr.operators_kept_iff hstandard none unmatched hplain hr 0).2 rfl⟩

/-- A sum whose left operand is a negated condition. -/
def shifted : Expr :=
  .binary (.condition (.compare (.column none "a") .eq (.literal (.int 1)) true false)) .add
    (.literal (.int 2))

/-- The sum is read as a negation. -/
theorem shifted_lost : shifted.Plain .sqlite ∧ ∃ ps r t,
    Puts (shifted.fragments .sqlite none) (.start ⟨0⟩) ps r ∧
      (lexemes? '"' (Piece.chars .sqlite 0 ps)).bind OpTree.read = some (.negated true t) ∧
        shifted.tree .sqlite ≠ .negated true t := by
  have hputs : Puts (shifted.fragments .sqlite none) (.start ⟨0⟩)
      [.text "(", .text "NOT ", .text "(", .name "a", .text " ", .text "=", .text " ",
        .param (.int 1), .text ")", .text " ", .text "+", .text " ", .param (.int 2), .text ")"] _ :=
    ⟨by with_unfolding_all rfl, by with_unfolding_all rfl⟩
  have hlexemes : lexemes? '"' "(NOT (\"a\" = ?) + ?)".toList =
      some [.group [.word "NOT".toList, .group [.name ['a'], .word ['='], .word ['?']],
        .word ['+'], .word ['?']]] := by cbv
  have htext : Piece.chars .sqlite 0 [.text "(", .text "NOT ", .text "(", .name "a", .text " ",
      .text "=", .text " ", .param (.int 1), .text ")", .text " ", .text "+", .text " ",
      .param (.int 2), .text ")"] = "(NOT (\"a\" = ?) + ?)".toList := by decide
  refine ⟨⟨⟨trivial, trivial⟩, trivial⟩, _, _, .node (.sign ['+']) [.node (.sign ['='])
    [.node (.column ['a']) [], .node .param []], .node .param []], hputs, ?_, ?_⟩
  · rw [htext, hlexemes]
    rfl
  · intro h
    injection h with h
    cases h

end Sample

end SqlMapper
