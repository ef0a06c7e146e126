import SqlMapper.Proofs.Statement.Layout

/-!
# SqlMapper.Proofs.Statement.Clauses

The layout of operands and clauses, given that of their parts: one lemma for each function of
`SqlMapper.Query.Fragment.OfQuery` that takes fragments apart from syntax.
-/

namespace SqlMapper

open Placeholder

/-! ## The words of SQL hold no marks -/

/-- SQL of the language or of the dialect. -/
def Dialect.Provides (d : Dialect) (s : String) : Prop := NoMark s.toList ∨ s ∈ d.words

theorem Operator.noMark_sign (op : Operator) : NoMark op.sign.toList := by
  cases op <;> decide

theorem Comparison.noMark_sign (op : Comparison) : NoMark op.sign.toList := by
  cases op <;> decide

theorem FrameBound.noMark_sql (b : FrameBound) : NoMark b.sql.toList := by
  cases b with
  | preceding n =>
    simpa [FrameBound.sql] using (noMark_toString n).append (by decide : NoMark " PRECEDING".toList)
  | following n =>
    simpa [FrameBound.sql] using (noMark_toString n).append (by decide : NoMark " FOLLOWING".toList)
  | unboundedPreceding => decide
  | currentRow => decide
  | unboundedFollowing => decide

theorem Frame.noMark_sql (f : Frame) : NoMark f.sql.toList := by
  have hunit : NoMark f.unit.keyword.toList := by cases f.unit <;> decide
  simp only [Frame.sql, String.toList_append]
  exact (((hunit.append (by decide)).append f.start.noMark_sql).append (by decide)).append
    f.stop.noMark_sql

/-- A blank before a text, or between it and another, makes a keyword of it. -/
theorem Fragment.Keyword.blank {s : String} (h : NoMark s.toList) :
    Fragment.Keyword (" " ++ s) where
  noMark := by
    rw [String.toList_append]
    exact NoMark.append (by decide) h
  apart := by simp [Fragment.isSeparator]

namespace Fragment

variable {d : Dialect} {as bs : List Atom} {left right : List Fragment}

namespace Laid

theorem provided {s : String} (h : d.Provides s) : Laid d [] [text s] := by
  rcases h with h | h
  · exact .sql s h
  · exact .dialectWord s h

/-! ## Operands -/

theorem ofLiteral (codec : Option Field) (v : Value) :
    Laid d [.literal codec v] (Fragment.ofLiteral codec v) := by
  unfold Fragment.ofLiteral
  split
  · exact .literal none v v rfl
  · rename_i f
    split
    · rename_i hnull
      exact .literal (some f) v v (by simp [Atom.encoded, hnull])
    · rename_i hnull
      split
      · rename_i w hw
        exact .literal (some f) v w (by simp [Atom.encoded, hnull, hw])
      · exact .refuse _ _

theorem ofColumn (q : Option Qualifier) (column : String) :
    Laid d (Atom.ofColumn q column) (Fragment.ofColumn q column) := by
  cases q with
  | none => exact .identifier column
  | some q =>
    cases q with
    | table table => exact .column (.table table) column
    | model m =>
      simp only [Fragment.ofColumn, Atom.ofColumn, Model.field]
      cases m.model.field? column with
      | some f => exact .column (.model m) f.column
      | none => exact .refuse _ _

theorem ofStar (q : Option Qualifier) :
    Laid d (q.toList.map .reference) (Fragment.ofStar q) := by
  cases q with
  | none => exact .sql "*" (by decide)
  | some q => exact .star q

theorem ofExcluded (field : String) : Laid d [] (Fragment.ofExcluded d field) := by
  unfold Fragment.ofExcluded
  split
  · exact (Laid.proposed field).enclosed (by decide) (by decide)
  · exact (Laid.proposed field).lead (by decide)
  · exact (Laid.proposed field).lead (by decide)

/-- Two operands with SQL between them, set off by blanks. -/
theorem signed {s : String} (hs : d.Provides s) (hl : Laid d as left) (hr : Laid d bs right) :
    Laid d (as ++ bs) (left ++ [text " ", text s, text " "] ++ right) := by
  have hsign : Laid d bs (text s :: text " " :: right) :=
    (provided hs).append (hr.lead (by decide)) (.inl (by simp [isClosing]))
  rw [List.append_assoc]
  exact hl.between (s := " ") (by decide) hsign

theorem ofSigned {s : String} (hs : d.Provides s) (hl : Laid d as left) (hr : Laid d bs right) :
    Laid d (as ++ bs) (Fragment.ofSigned left s right) :=
  (signed hs hl hr).parenthesized

theorem ofBinary (op : Operator) (hl : Laid d as left) (hr : Laid d bs right) :
    Laid d (as ++ bs) (Fragment.ofBinary d left op right) := by
  have hsign : Laid d (as ++ bs) (Fragment.ofSigned left op.sign right) :=
    ofSigned (.inl op.noMark_sign) hl hr
  unfold Fragment.ofBinary
  split
  · split
    · rename_i s hs
      exact ofSigned (.inr (by simp [Dialect.words, hs])) hl hr
    · exact .refuse _ _
  · split
    · rw [List.append_assoc]
      exact (hl.between (s := ", ") (by decide) hr).enclosed (by decide) (by decide)
    · exact hsign
  · exact hsign

theorem ofSaid {s : String} (hs : Keyword s) (hl : Laid d as left) :
    Laid d as (Fragment.ofSaid left s) := by
  have := (hl.snoc (s := " ") (by decide)).snoc hs
  rw [List.append_assoc] at this
  exact this.parenthesized

theorem ofComparison (op : Comparison) (escaped : Bool) (hl : Laid d as left)
    (hr : Laid d bs right) : Laid d (as ++ bs) (Fragment.ofComparison d op escaped left right) := by
  have hsign : d.Provides (comparisonSign d op) := by
    unfold comparisonSign
    split
    · exact .inl (by decide)
    · exact .inl op.noMark_sign
  have h := signed hsign hl hr
  unfold Fragment.ofComparison
  refine Laid.parenthesized ?_
  split
  · have hescape : Laid d [] [text " ESCAPE ", text d.likeEscape] :=
      (Laid.dialectWord d.likeEscape (by simp [Dialect.words])).lead (by decide)
    exact h.ending hescape (.inr (by simp [isSeparator]))
  · rwa [List.append_nil]

theorem ofMembership {op : Comparison} {ass : List (List Atom)} {fss : List (List Fragment)}
    (hl : Laid d as left) (h : List.Forall₂ (Laid d) ass fss) :
    Laid d (Atom.ofMembership as ass) (Fragment.ofMembership op left fss) := by
  cases h with
  | nil =>
    unfold Fragment.ofMembership
    dsimp only
    split
    · exact .sql _ (by decide)
    · exact .sql _ (by decide)
  | cons ha hrest =>
    exact ofSigned (.inl op.noMark_sign) hl (commas (.cons ha hrest)).parenthesized

theorem ofBetween {ass : List (List Atom)} {fss : List (List Fragment)} (hl : Laid d as left)
    (h : List.Forall₂ (Laid d) ass fss) :
    Laid d (as ++ ass.flatten) (Fragment.ofBetween left fss) := by
  unfold Fragment.ofBetween
  split
  · obtain ⟨low, ass, hlow, hrest, rfl⟩ := List.forall₂_cons_right_iff.1 h
    obtain ⟨high, ass, hhigh, hnil, rfl⟩ := List.forall₂_cons_right_iff.1 hrest
    cases hnil
    have h := (hl.between (s := " BETWEEN ") (by decide) hlow).between (s := " AND ") (by decide) hhigh
    simpa using h.parenthesized
  · exact .refuse _ _

theorem ofGroup (connective : Connective) {ass : List (List Atom)} {fss : List (List Fragment)}
    (h : List.Forall₂ (Laid d) ass fss) :
    Laid d ass.flatten (Fragment.ofGroup connective fss) := by
  cases h with
  | nil => cases connective <;> exact .sql _ (by decide)
  | cons ha hrest =>
    have hs : Keyword (" " ++ connective.keyword ++ " ") := by cases connective <;> decide
    exact (separated hs (.cons ha hrest)).parenthesized

theorem negated (b : Bool) (h : Laid d as left) : Laid d as (negation b ++ left) := by
  cases b
  · exact h
  · exact h.lead (by decide)

/-! ## Clauses -/

theorem ofLimit (limit offset : Option Nat) : Laid d [] (Fragment.ofLimit d limit offset) := by
  have htext (lead : String) (n : Nat) (h : NoMark lead.toList) :
      Laid d [] [text (lead ++ toString n)] :=
    .sql _ (by rw [String.toList_append]; exact h.append (noMark_toString n))
  unfold Fragment.ofLimit
  refine Laid.ending ?_ ?_ (.inl ?_)
  · split
    · exact htext _ _ (by decide)
    · rename_i s hs
      exact (Laid.dialectWord s (by simp [Dialect.words, hs])).lead (by decide)
    · exact .nil
  · cases offset with
    | none => exact .nil
    | some n => exact htext _ n (by decide)
  · split
    · simp [isClosing]
    · simp [EndsApart, isClosing]
    · simp

theorem ofProjected (e : Expr) (h : Laid d as left) :
    Laid d (as ++ Atom.words e.outputName?.toList) (Fragment.ofProjected e left) := by
  unfold Fragment.ofProjected
  cases e.outputName? with
  | none => simpa [Atom.words] using h
  | some n => exact h.between (s := " AS ") (by decide) (.identifier n)

theorem ofFields (m : ModelSource) : Laid d (Atom.ofFields m) (Fragment.ofFields m) := by
  unfold Atom.ofFields Fragment.ofFields
  rw [List.flatMap_def]
  refine commas ?_
  rw [List.forall₂_map_left_iff, List.forall₂_map_right_iff, List.forall₂_same]
  exact fun n _ => ofColumn (some (.model m)) n

theorem ofOrderTerm (e : Expr) (direction : Direction) (nulls : Option Nulls)
    (h : Laid d as left) :
    Laid d (match e.outputName? with | some n => [.word n] | none => as)
      (Fragment.ofOrderTerm d e left direction nulls) := by
  unfold Fragment.ofOrderTerm
  have hkey : Laid d (match e.outputName? with | some n => [Atom.word n] | none => as)
      (match e.outputName? with | some n => [Fragment.identifier n] | none => left) := by
    cases e.outputName? with
    | none => exact h
    | some n => exact .identifier n
  have hdirection := hkey.snoc (s := " " ++ direction.keyword)
    (.blank (by cases direction <;> decide))
  cases nulls with
  | none =>
    rw [List.append_nil]
    exact hdirection
  | some n =>
    have hnulls : Laid d [] (Fragment.requiring d.nullsOrdering
        (.unsupported d.name .nullsOrdering) [text (" " ++ n.keyword)]) :=
      (Laid.sql _ (by cases n <;> decide)).requiring
    exact hdirection.ending hnulls (.inl (endsApart_concat.2 rfl))

/-- The clauses of a window that are there, with a blank between each two. -/
theorem ofWindow (frame : Option Frame) {pas oas : List (List Atom)}
    {pfs ofs : List (List Fragment)} (hp : List.Forall₂ (Laid d) pas pfs)
    (ho : List.Forall₂ (Laid d) oas ofs) :
    Laid d (pas.flatten ++ oas.flatten) (Fragment.ofWindow pfs ofs frame) := by
  have hframe : List.Forall₂ (Laid d) (frame.map fun _ => []).toList
      (frame.map fun f => [text f.sql]).toList := by
    cases frame with
    | none => exact .nil
    | some f => exact .cons (.sql _ f.noMark_sql) .nil
  have hframeAtoms : (frame.map fun _ => ([] : List Atom)).toList.flatten = [] := by
    cases frame <;> rfl
  unfold Fragment.ofWindow
  cases hp with
  | nil =>
    cases ho with
    | nil => simpa [hframeAtoms] using separated (s := " ") (by decide) hframe
    | cons ho hos =>
      have h := (commas (.cons ho hos)).lead (s := "ORDER BY ") (by decide)
      simpa [hframeAtoms] using separated (s := " ") (by decide) (.cons h hframe)
  | cons hp hps =>
    have h := (commas (.cons hp hps)).lead (s := "PARTITION BY ") (by decide)
    cases ho with
    | nil => simpa [hframeAtoms] using separated (s := " ") (by decide) (.cons h hframe)
    | cons ho hos =>
      have h' := (commas (.cons ho hos)).lead (s := "ORDER BY ") (by decide)
      simpa [hframeAtoms] using separated (s := " ") (by decide) (.cons h (.cons h' hframe))

theorem ofDeclaredWindow (n : Option String) (h : Laid d as left) :
    Laid d (Atom.words n.toList ++ as) (Fragment.ofDeclaredWindow n left) := by
  cases n with
  | none => exact .refuse _ _
  | some n =>
    have hname : Laid d [.word n] [Fragment.identifier n, text " AS ("] :=
      (Laid.identifier n).snoc (s := " AS (") (by decide)
    exact (hname.append h (.inl (by simp [EndsApart, isClosing]))).snoc (by decide)

theorem ofSource (s : Source) (h : Laid d as left) :
    Laid d (Atom.ofSource s as) (Fragment.ofSource s left) := by
  cases s with
  | model m => exact .modelTable m
  | table n => exact .identifier n
  | derived q n => exact h.parenthesized.between (s := " AS ") (by decide) (.identifier n)

theorem ofRelation (r : Relation) (context target : String) :
    Laid d (Atom.words [r.foreignKey.column, r.foreignKey.targetColumn])
      [Fragment.ofRelation r context target] := by
  unfold Fragment.ofRelation
  cases r.kind with
  | manyToOne => exact .equated ..
  | oneToMany => exact .equated ..

end Laid

end Fragment

end SqlMapper
