import SqlMapper.Proofs.Fragment.Lexed
import SqlMapper.Query.Fragment.OfQuery

/-!
# SqlMapper.Proofs.Statement.Operands

The lexemes of signs and keywords, and those of operands, given the ones of their parts: one lemma
for each function of `SqlMapper.Query.Fragment.OfQuery` that puts operands together.
-/

namespace SqlMapper

open Lexer

/-! ## Signs -/

def Operator.lexeme (op : Operator) : Lexeme := .word op.sign.toList

def Comparison.lexemes : Comparison → List Lexeme
  | .isIn => [Reserved.member.lexeme]
  | .notIn => [Reserved.not.lexeme, Reserved.member.lexeme]
  | .is => [Reserved.is.lexeme]
  | .isNot => [Reserved.is.lexeme, Reserved.not.lexeme]
  | .like => [Reserved.like.lexeme]
  | .notLike => [Reserved.not.lexeme, Reserved.like.lexeme]
  | .ilike => [Reserved.ilike.lexeme]
  | .between => [Reserved.between.lexeme]
  | op => [.word op.sign.toList]

def Connective.reserved : Connective → Reserved
  | .all => .and
  | .any => .or

def SetOperator.lexemes : SetOperator → List Lexeme
  | .union => [Reserved.union.lexeme]
  | .unionAll => [Reserved.union.lexeme, Reserved.all.lexeme]
  | .intersect => [Reserved.intersect.lexeme]
  | .except => [Reserved.except.lexeme]

theorem Operator.spells (op : Operator) : Spells op.sign [op.lexeme] .word := by
  cases op <;> exact ⟨by decide, fun _ _ => rfl⟩

theorem Comparison.spells (op : Comparison) : Spells op.sign op.lexemes .word := by
  cases op <;> exact ⟨by decide, fun _ _ => rfl⟩

theorem Connective.phrase (c : Connective) :
    Phrase (" " ++ c.keyword ++ " ") [c.reserved.lexeme] := by
  cases c <;> exact ⟨⟨by decide, fun _ _ => rfl⟩, by decide⟩

theorem SetOperator.phrase (op : SetOperator) : Phrase (" " ++ op.keyword ++ " ") op.lexemes := by
  cases op <;> exact ⟨⟨by decide, fun _ _ => by cbv⟩, by decide⟩

theorem opens_concat : Opens "CONCAT(" [.word "CONCAT".toList] [] := ⟨by decide, fun _ _ => rfl⟩

/-! ## Keywords -/

namespace Phrase

theorem between : Phrase " BETWEEN " [Reserved.between.lexeme] :=
  ⟨⟨by decide, fun _ _ => rfl⟩, by decide⟩

theorem and : Phrase " AND " [Reserved.and.lexeme] := ⟨⟨by decide, fun _ _ => rfl⟩, by decide⟩

theorem window : Phrase " OVER " [Reserved.window.lexeme] :=
  ⟨⟨by decide, fun _ _ => rfl⟩, by decide⟩

theorem source : Phrase " FROM " [Reserved.source.lexeme] :=
  ⟨⟨by decide, fun _ _ => rfl⟩, by decide⟩

theorem filter : Phrase " WHERE " [.word "WHERE".toList] := ⟨⟨by decide, fun _ _ => rfl⟩, by decide⟩

theorem having : Phrase " HAVING " [.word "HAVING".toList] :=
  ⟨⟨by decide, fun _ _ => rfl⟩, by decide⟩

theorem on : Phrase " ON " [.word "ON".toList] := ⟨⟨by decide, fun _ _ => rfl⟩, by decide⟩

end Phrase

theorem spells_isNull : Spells "IS NULL" [Reserved.is.lexeme, Reserved.null.lexeme] .word :=
  ⟨by decide, fun _ _ => by cbv⟩

theorem spells_isNotNull :
    Spells "IS NOT NULL" [Reserved.is.lexeme, Reserved.not.lexeme, Reserved.null.lexeme] .word :=
  ⟨by decide, fun _ _ => by cbv⟩

theorem opens_naming : Opens " AS (" [Reserved.type.lexeme] [] := ⟨by decide, fun _ _ => rfl⟩

/-- What stands before a query that is read as a source of another. -/
theorem opens_derived :
    Opens "SELECT * FROM (" [Reserved.select.lexeme, .word ['*'], Reserved.source.lexeme] [] :=
  ⟨by decide, fun _ _ => by cbv⟩

theorem closes_derived : Closes ") AS " [Reserved.type.lexeme] :=
  ⟨by decide, by decide, fun _ _ _ => by cbv⟩

def JoinKind.lexemes : JoinKind → List Lexeme
  | .inner => [.word "INNER".toList, .word "JOIN".toList]
  | .leftOuter => [.word "LEFT".toList, .word "OUTER".toList, .word "JOIN".toList]
  | .rightOuter => [.word "RIGHT".toList, .word "OUTER".toList, .word "JOIN".toList]
  | .fullOuter => [.word "FULL".toList, .word "OUTER".toList, .word "JOIN".toList]
  | .cross => [.word "CROSS".toList, .word "JOIN".toList]

theorem JoinKind.phrase (k : JoinKind) : Phrase (" " ++ k.keyword ++ " ") k.lexemes := by
  cases k <;> exact ⟨⟨by decide, fun _ _ => by cbv⟩, by decide⟩

theorem JoinKind.noClause_lexemes (k : JoinKind) : NoClause k.lexemes := by cases k <;> decide

/-- Whether a comparison of two constants holds: what stands for a condition that has no members. -/
def constant (holds : Bool) : List Lexeme :=
  [.group [.word (if holds then ['1'] else ['0']), .word ['='], .word ['1']]]

namespace Fragment.Lexed

variable {d : Dialect} {A B C : Mode → Prop} {P Q R : List Lexeme → Prop}
  {left right : List Fragment}

theorem spelled (hd : d.Legible) {s : String} {ls : List Lexeme} (hs : Spells s ls .word) :
    Lexed d Mode.Between (· = ls) (Mode.Done d.quoteChar) [Fragment.text s] := by
  refine .text ((hs.scans hd.quoteChar).mono (fun _ => id) ?_) rfl
  rintro _ rfl
  trivial

/-! ## Names and parameters -/

theorem ofLiteral (hd : d.Legible) (codec : Option Field) (v : Value) :
    Lexed d Mode.Between (fun ls => ∃ n, ls = [.word (d.placeholder n).toList])
      (Mode.Done d.quoteChar) (Fragment.ofLiteral codec v) := by
  unfold Fragment.ofLiteral
  split
  · exact param hd v
  · split
    · exact param hd v
    · split
      · exact param hd _
      · exact refuse _

/-- What may stand before a name, or before a star. -/
def Qualified (ks ls : List Lexeme) : Prop := ls = ks ∨ ∃ s, ls = ofName s ++ .dot :: ks

theorem qualified (hd : d.Legible) (q : Qualifier) {ks : List Lexeme}
    (h : Lexed d Mode.Between (· = ks) B right) :
    Lexed d Mode.Between (Qualified ks) B ([Fragment.qualifier q] ++ right) := by
  refine (qualifier hd q).append h ?_
  rintro _ _ (rfl | ⟨t, rfl⟩) rfl
  · exact .inl rfl
  · exact .inr ⟨t, by rw [List.append_assoc]; rfl⟩

end Fragment.Lexed

/-- The column that a reference to a field names. -/
def Expr.columnName? (q : Option Qualifier) (column : String) : Option String :=
  match q with
  | none | some (.table _) => some column
  | some (.model m) => (m.model.field? column).map Field.column

namespace Fragment.Lexed

variable {d : Dialect} {A B C : Mode → Prop} {P Q R : List Lexeme → Prop}
  {left right : List Fragment}

theorem ofColumn (hd : d.Legible) (q : Option Qualifier) (column : String) :
    Lexed d Mode.Between
      (fun ls => ∃ c ∈ Expr.columnName? q column, Qualified (ofName c.toList) ls)
      (Mode.Done d.quoteChar) (Fragment.ofColumn q column) := by
  match q with
  | none => exact (identifier hd column).mono fun ls hls => ⟨column, rfl, .inl hls⟩
  | some (.table t) =>
    exact (qualified hd (.table t) (identifier hd column)).mono fun ls hls => ⟨column, rfl, hls⟩
  | some (.model m) =>
    rw [Fragment.ofColumn, Model.field, Expr.columnName?]
    cases m.model.field? column with
    | none => exact refuse _
    | some f =>
      exact (qualified hd (.model m) (identifier hd f.column)).mono fun ls hls => ⟨_, rfl, hls⟩

theorem ofStar (hd : d.Legible) (q : Option Qualifier) :
    Lexed d Mode.Between (Qualified [.word ['*']]) (Mode.Done d.quoteChar) (Fragment.ofStar q) := by
  have hspells : Spells "*" [.word ['*']] .word := ⟨by decide, fun _ _ => rfl⟩
  have hstar := spelled hd hspells
  cases q with
  | none => exact hstar.mono fun ls => .inl
  | some q => exact qualified hd q hstar

theorem ofExcluded (hd : d.Legible) (field : String) :
    Lexed d Mode.Between
      (fun ls => ∃ s, ls = [Reserved.values.lexeme, .group (ofName s)] ∨
        ls = Reserved.excluded.lexeme :: .dot :: ofName s)
      (Mode.Done d.quoteChar) (Fragment.ofExcluded d field) := by
  have hlead : Lexed d Mode.Between
      (fun ls => ∃ s, ls = [Reserved.values.lexeme, .group (ofName s)] ∨
        ls = Reserved.excluded.lexeme :: .dot :: ofName s)
      (Mode.Done d.quoteChar) [Fragment.text "EXCLUDED.", Fragment.proposed field] := by
    have hspells : Spells "EXCLUDED." [Reserved.excluded.lexeme, .dot] .between :=
      ⟨by decide, fun _ _ => rfl⟩
    refine (lead hd hspells (proposed hd field)).mono ?_
    rintro _ ⟨_, ⟨s, rfl⟩, rfl⟩
    exact ⟨s, .inr rfl⟩
  unfold Fragment.ofExcluded
  split
  · have hopens : Opens "VALUES(" [Reserved.values.lexeme] [] := ⟨by decide, fun _ _ => rfl⟩
    refine ((enclosed hd hopens closes_parenthesis (proposed hd field)).mono ?_).done
    rintro _ ⟨_, ⟨s, rfl⟩, rfl⟩
    exact ⟨s, .inl rfl⟩
  · exact hlead
  · exact hlead

/-! ## Operands of operands -/

section

variable (hd : d.Legible)

include hd

theorem ofSigned {s : String} {ss : List Lexeme}
    (hs : Lexed d Mode.Between (· = ss) (Mode.Done d.quoteChar) [Fragment.text s])
    (hl : Lexed d Mode.Between P (Mode.Done d.quoteChar) left)
    (hr : Lexed d Mode.Between Q (Mode.Done d.quoteChar) right) :
    Lexed d Mode.Between (Grouping (Joining P ss Q)) Mode.Between
      (Fragment.ofSigned left s right) :=
  parenthesized hd (signed hd hs hl hr)

theorem ofSaid {s : String} {ss : List Lexeme} (hs : Spells s ss .word)
    (hl : Lexed d Mode.Between P (Mode.Done d.quoteChar) left) :
    Lexed d Mode.Between (Grouping (Trailing P ss)) Mode.Between (Fragment.ofSaid left s) := by
  have h := joining hd .blank hl (spelled hd hs)
  rw [List.append_assoc] at h
  refine parenthesized hd (h.mono ?_)
  rintro _ ⟨ks, _, hks, rfl, rfl⟩
  exact ⟨ks, hks, by simp⟩

theorem ofComparison {op : Comparison} {ss : List Lexeme} (escaped : Bool)
    (hs : Spells (comparisonSign d op) ss .word)
    (hl : Lexed d Mode.Between P (Mode.Done d.quoteChar) left)
    (hr : Lexed d Mode.Between Q (Mode.Done d.quoteChar) right)
    (he : Lexed d Mode.Between R (Mode.Done d.quoteChar) [Fragment.text d.likeEscape]) :
    Lexed d Mode.Between
      (Grouping fun ls => if escaped then Joining (Joining P ss Q) [Reserved.escape.lexeme] R ls
        else Joining P ss Q ls)
      Mode.Between (Fragment.ofComparison d op escaped left right) := by
  have hcompared := signed hd (spelled hd hs) hl hr
  refine parenthesized hd ?_
  cases escaped with
  | false =>
    rw [if_neg Bool.false_ne_true, List.append_nil]
    exact hcompared
  | true =>
    have hescape : Phrase " ESCAPE " [Reserved.escape.lexeme] :=
      ⟨⟨by decide, fun _ _ => by cbv⟩, by decide⟩
    have hjoined := joining hd hescape hcompared he
    rw [List.append_assoc] at hjoined
    exact hjoined

theorem ofMembership {α : Type} {op : Comparison} {ss : List Lexeme} {R : α → List Lexeme → Prop}
    {xs : List α} {fss : List (List Fragment)} (hs : Spells op.sign ss .word)
    (hl : Lexed d Mode.Between P (Mode.Done d.quoteChar) left)
    (h : List.Forall₂ (fun x fs => Lexed d Mode.Between (R x) (Mode.Done d.quoteChar) fs) xs fss) :
    Lexed d Mode.Between
      (fun ls => xs = [] ∧ ls = constant (op != .isIn) ∨
        xs ≠ [] ∧ Grouping (Joining P ss (Grouping (Listing R xs [.comma]))) ls)
      (Mode.Done d.quoteChar) (Fragment.ofMembership op left fss) := by
  cases h with
  | nil =>
    have hconstant : Lexed d Mode.Between (· = constant (op != .isIn)) Mode.Between
        [Fragment.text (if op = .isIn then "(0 = 1)" else "(1 = 1)")] := by
      by_cases hop : op = .isIn
      · rw [if_pos hop, hop]
        exact phrase hd ⟨by decide, fun _ _ => rfl⟩
      · rw [if_neg hop, bne_iff_ne.2 hop]
        exact phrase hd ⟨by decide, fun _ _ => rfl⟩
    exact (hconstant.mono fun ls hls => .inl ⟨rfl, hls⟩).done
  | cons hx hrest =>
    have hlist := (parenthesized hd (listing hd .comma (.cons hx hrest))).done
    exact ((ofSigned hd (spelled hd hs) hl hlist).mono fun ls hls =>
      .inr ⟨List.cons_ne_nil _ _, hls⟩).done

/-- An interval has two bounds. -/
theorem ofBetween {α : Type} {R : α → List Lexeme → Prop} {xs : List α}
    {fss : List (List Fragment)} (hl : Lexed d Mode.Between P (Mode.Done d.quoteChar) left)
    (h : List.Forall₂ (fun x fs => Lexed d Mode.Between (R x) (Mode.Done d.quoteChar) fs) xs fss) :
    Lexed d Mode.Between
      (fun ls => ∃ low high, xs = [low, high] ∧ Grouping (Joining
        (Joining P [Reserved.between.lexeme] (R low)) [Reserved.and.lexeme] (R high)) ls)
      (Mode.Done d.quoteChar) (Fragment.ofBetween left fss) := by
  unfold Fragment.ofBetween
  split
  · obtain ⟨low, xs, hlow, hrest, rfl⟩ := List.forall₂_cons_right_iff.1 h
    obtain ⟨high, xs, hhigh, hnil, rfl⟩ := List.forall₂_cons_right_iff.1 hrest
    cases hnil
    have hall := joining hd .and (joining hd .between hl hlow) hhigh
    exact ((parenthesized hd hall).mono fun ls hls => ⟨low, high, rfl, hls⟩).done
  · exact refuse _

theorem ofGroup {α : Type} (connective : Connective) {R : α → List Lexeme → Prop} {xs : List α}
    {fss : List (List Fragment)}
    (h : List.Forall₂ (fun x fs => Lexed d Mode.Between (R x) (Mode.Done d.quoteChar) fs) xs fss) :
    Lexed d Mode.Between
      (fun ls => xs = [] ∧ ls = constant (connective = .all) ∨
        xs ≠ [] ∧ Grouping (Listing R xs [connective.reserved.lexeme]) ls)
      (Mode.Done d.quoteChar) (Fragment.ofGroup connective fss) := by
  cases h with
  | nil =>
    have hconstant : Lexed d Mode.Between (· = constant (connective = .all)) Mode.Between
        [Fragment.text connective.ofNothing] := by
      cases connective <;> exact phrase hd ⟨by decide, fun _ _ => rfl⟩
    exact (hconstant.mono fun ls hls => .inl ⟨rfl, hls⟩).done
  | cons hx hrest =>
    exact ((parenthesized hd (listing hd connective.phrase (.cons hx hrest))).mono fun ls hls =>
      .inr ⟨List.cons_ne_nil _ _, hls⟩).done

theorem negation (negated : Bool) (h : Lexed d Mode.Between P B left) :
    Lexed d Mode.Between (Leading (if negated then [Reserved.not.lexeme] else []) P) B
      (Fragment.negation negated ++ left) := by
  cases negated with
  | true => exact lead hd ⟨by decide, fun _ _ => rfl⟩ h
  | false => exact h.mono fun ls hls => ⟨ls, hls, rfl⟩

/-- A function is followed at once by its arguments. -/
theorem call {α : Type} {function : String} (distinct : Bool) {R : α → List Lexeme → Prop}
    {xs : List α} {fss : List (List Fragment)}
    (hf : Lexed d Mode.Between P (Mode.Done d.quoteChar) [Fragment.text function])
    (h : List.Forall₂ (fun x fs => Lexed d Mode.Between (R x) (Mode.Done d.quoteChar) fs) xs fss) :
    Lexed d Mode.Between
      (fun ls => ∃ fs ks, P fs ∧ Listing R xs [.comma] ks ∧
        ls = fs ++ [Lexeme.group ((if distinct then [Reserved.distinct.lexeme] else []) ++ ks)])
      Mode.Between
      (Fragment.text function ::
        Fragment.enclosed (if distinct then "(DISTINCT " else "(") (commas fss) ")") := by
  have hopens : Opens (if distinct then "(DISTINCT " else "(") []
      (if distinct then [Reserved.distinct.lexeme] else []) := by
    cases distinct <;> exact ⟨by decide, fun _ _ => rfl⟩
  have harguments := after hd (by cases distinct <;> decide)
    (enclosed hd hopens closes_parenthesis (listing hd .comma h))
  refine hf.append harguments ?_
  rintro fs _ hfs ⟨ks, hks, rfl⟩
  exact ⟨fs, ks, hfs, hks, rfl⟩

theorem nonEmpty (h : Lexed d Mode.Between P (Mode.Done d.quoteChar) left) :
    Lexed d Mode.Between (Leading [Reserved.nonEmpty.lexeme] (Grouping P)) Mode.Between
      (Fragment.enclosed "EXISTS (" left ")") := by
  have hopens : Opens "EXISTS (" [Reserved.nonEmpty.lexeme] [] := ⟨by decide, fun _ _ => rfl⟩
  refine (enclosed hd hopens closes_parenthesis h).mono ?_
  rintro _ ⟨ks, hks, rfl⟩
  exact ⟨_, ⟨ks, hks, rfl⟩, rfl⟩

theorem cast {type : String} (h : Lexed d Mode.Between P (Mode.Done d.quoteChar) left)
    (htype : Lexed d Mode.Between Q (Mode.Done d.quoteChar) [Fragment.text type]) :
    Lexed d Mode.Between
      (Leading [Reserved.cast.lexeme] (Grouping (Joining P [Reserved.type.lexeme] Q))) Mode.Between
      (Fragment.enclosed "CAST(" (left ++ [Fragment.text " AS ", Fragment.text type]) ")") := by
  have hopens : Opens "CAST(" [Reserved.cast.lexeme] [] := ⟨by decide, fun _ _ => rfl⟩
  have htyped := joining hd .naming h htype
  rw [List.append_assoc] at htyped
  refine (enclosed hd hopens closes_parenthesis htyped).mono ?_
  rintro _ ⟨ks, hks, rfl⟩
  exact ⟨_, ⟨ks, hks, rfl⟩, rfl⟩

end

end Fragment.Lexed

end SqlMapper
