import SqlMapper.Proofs.Statement.Masked
import SqlMapper.Proofs.Statement.Operands

/-!
# SqlMapper.Proofs.Statement.Delimited

Operands and clauses that close the quotes and parentheses that they open, and hold no set operator,
ordering, limit or offset outside of parentheses: one lemma for each function of
`SqlMapper.Query.Fragment.OfQuery`, given the same of its parts. Queries and windows are only asked
to close what they open (`Enclosable`).
-/

namespace SqlMapper

open Fragment Lexer

/-! ## Texts that can be read -/

section

variable {q : Char} (hq : isOrdinary q = false)

include hq

theorem Lexer.Spells.selfContained {s : String} {ls : List Lexeme} (h : Spells s ls .word)
    (hls : NoClause ls) : SelfContained q s := by
  refine ⟨ls, hls, (h.scans hq).mono (fun _ => id) ?_⟩
  rintro _ rfl
  trivial

theorem SelfContained.append {s t : String} {ls : List Lexeme} (hs : SelfContained q s)
    (ht : Spells t ls .word) (hls : NoClause ls) (hdelimited : t.toList.head?.any isDelimiter = true) :
    SelfContained q (s ++ t) := by
  obtain ⟨ks, hks, hscans⟩ := hs
  refine ⟨ks ++ ls, hks.append hls, ?_⟩
  rw [String.toList_append]
  refine hscans.append (((ht.scans hq).after hq hdelimited).mono (fun _ => id) ?_)
  rintro _ rfl
  trivial

theorem SelfContained.joining {s t u : String} {ls : List Lexeme} (hs : SelfContained q s)
    (ht : Phrase t ls) (hls : NoClause ls) (hu : SelfContained q u) :
    SelfContained q (s ++ t ++ u) := by
  obtain ⟨ks, hks, hscans⟩ := hs
  obtain ⟨js, hjs, hscans'⟩ := hu
  refine ⟨ks ++ ls ++ js, (hks.append hls).append hjs, ?_⟩
  rw [String.toList_append, String.toList_append]
  exact (hscans.append ((ht.spells.scans hq).after hq ht.delimited)).append hscans'

theorem SelfContained.numeral (n : Nat) : SelfContained q (toString n) := by
  refine ⟨_, noClause_word (Reserved.of?_eq_none ?_), scans_numeral hq n⟩
  cases hds : (toString n).toList with
  | nil => rfl
  | cons c cs =>
    have hc : c.isDigit = true := Placeholder.isDigit_of_mem_toString (by rw [hds]; simp)
    rw [List.head?_cons, Option.any_some]
    refine Bool.eq_false_iff.2 fun halpha => ?_
    have hdigit : (decide (c.val ≥ 48) && decide (c.val ≤ 57)) = true := hc
    have hletter : (decide (c.val ≥ 65 ∧ c.val ≤ 90) ||
        (decide (c.val ≥ 97) && decide (c.val ≤ 122))) = true := halpha
    simp only [Bool.or_eq_true, Bool.and_eq_true, decide_eq_true_eq, ge_iff_le,
      UInt32.le_iff_toNat_le] at hdigit hletter
    simp at hdigit hletter
    omega

theorem FrameBound.selfContained (b : FrameBound) : SelfContained q b.sql := by
  cases b with
  | unboundedPreceding =>
    have h : Spells "UNBOUNDED PRECEDING" [.word "UNBOUNDED".toList, .word "PRECEDING".toList]
        .word := ⟨by decide, fun _ _ => by cbv⟩
    exact h.selfContained hq (by decide)
  | preceding n =>
    have h : Spells " PRECEDING" [.word "PRECEDING".toList] .word := ⟨by decide, fun _ _ => by cbv⟩
    exact (SelfContained.numeral hq n).append hq h (by decide) (by decide)
  | currentRow =>
    have h : Spells "CURRENT ROW" [.word "CURRENT".toList, .word "ROW".toList] .word :=
      ⟨by decide, fun _ _ => by cbv⟩
    exact h.selfContained hq (by decide)
  | following n =>
    have h : Spells " FOLLOWING" [.word "FOLLOWING".toList] .word := ⟨by decide, fun _ _ => by cbv⟩
    exact (SelfContained.numeral hq n).append hq h (by decide) (by decide)
  | unboundedFollowing =>
    have h : Spells "UNBOUNDED FOLLOWING" [.word "UNBOUNDED".toList, .word "FOLLOWING".toList]
        .word := ⟨by decide, fun _ _ => by cbv⟩
    exact h.selfContained hq (by decide)

theorem Frame.selfContained (f : Frame) : SelfContained q f.sql := by
  have hunit : SelfContained q f.unit.keyword := by
    have h : Spells f.unit.keyword [.word f.unit.keyword.toList] .word := by
      cases f.unit <;> exact ⟨by decide, fun _ _ => by cbv⟩
    exact h.selfContained hq (by cases f.unit <;> decide)
  exact (hunit.joining hq .between (by decide) (f.start.selfContained hq)).joining hq .and
    (by decide) (f.stop.selfContained hq)

end

/-! ## The presets -/

namespace Dialect

theorem scans_escape {q : Char} {s : String} (n : List Char)
    (h : ∀ before enclosing, Lexer.read q ⟨before, enclosing, .between⟩ s.toList =
      ⟨.string n :: before, enclosing, .closed '\''⟩) :
    Scans q Mode.Between s.toList [.string n] (Mode.Done q) := by
  rintro before enclosing _ rfl
  exact ⟨.closed '\'', .inr rfl, h before enclosing⟩

theorem selfContained_escape {q : Char} {s : String} (n : List Char)
    (h : ∀ before enclosing, Lexer.read q ⟨before, enclosing, .between⟩ s.toList =
      ⟨.string n :: before, enclosing, .closed '\''⟩) : SelfContained q s := by
  refine ⟨[.string n], fun l hl => ?_, scans_escape n h⟩
  rw [List.mem_singleton.1 hl]
  rfl

theorem legible_sqlite : Dialect.sqlite.Legible where
  quoteChar := by decide
  bitwiseXor := by rintro _ ⟨⟩
  limitForOffset := by
    have h : Spells "-1" [.word "-1".toList] .word := ⟨by decide, fun _ _ => by cbv⟩
    rintro _ ⟨⟩
    exact h.selfContained (by decide) (by decide)
  likeEscape := selfContained_escape ['\\'] fun _ _ => by cbv

theorem legible_postgres : Dialect.postgres.Legible where
  quoteChar := by decide
  bitwiseXor := by
    have h : Spells "#" [.word "#".toList] .word := ⟨by decide, fun _ _ => by cbv⟩
    rintro _ ⟨⟩
    exact h.selfContained (by decide) (by decide)
  limitForOffset := by rintro _ ⟨⟩
  likeEscape := selfContained_escape ['\\'] fun _ _ => by cbv

theorem legible_mysql : Dialect.mysql.Legible where
  quoteChar := by decide
  bitwiseXor := by
    have h : Spells "^" [.word "^".toList] .word := ⟨by decide, fun _ _ => by cbv⟩
    rintro _ ⟨⟩
    exact h.selfContained (by decide) (by decide)
  limitForOffset := by
    have h : Spells "18446744073709551615" [.word "18446744073709551615".toList] .word :=
      ⟨by decide, fun _ _ => by cbv⟩
    rintro _ ⟨⟩
    exact h.selfContained (by decide) (by decide)
  likeEscape := selfContained_escape ['\\', '\\'] fun _ _ => by cbv

theorem legible_of_named? {n : String} {d : Dialect} (h : named? n = some d) : d.Legible := by
  have hmem := List.mem_of_find?_eq_some h
  simp only [List.mem_cons, List.not_mem_nil, or_false] at hmem
  rcases hmem with rfl | rfl | rfl
  · exact legible_sqlite
  · exact legible_postgres
  · exact legible_mysql

end Dialect

/-! ## Operands -/

namespace Fragment

/-- What the fragments put out can stand after a blank or a parenthesis. -/
def Operand (d : Dialect) (fs : List Fragment) : Prop :=
  Lexed d Mode.Between NoClause (Mode.Done d.quoteChar) fs

/-- What the fragments put out can follow anything. -/
def Suffix (d : Dialect) (fs : List Fragment) : Prop :=
  Lexed d (Mode.Done d.quoteChar) NoClause (Mode.Done d.quoteChar) fs

/-- What the fragments put out can stand between parentheses. -/
def Enclosable (d : Dialect) (fs : List Fragment) : Prop :=
  Lexed d Mode.Between (fun _ => True) (Mode.Done d.quoteChar) fs

variable {d : Dialect} {P : List Lexeme → Prop} {fs gs left right : List Fragment}
  {fss : List (List Fragment)}

theorem noClause_group (ls : List Lexeme) : NoClause [.group ls] := by
  intro l hl
  rw [List.mem_singleton.1 hl]
  rfl

theorem noClause_grouping {ls : List Lexeme} (h : Grouping P ls) : NoClause ls := by
  obtain ⟨ks, -, rfl⟩ := h
  exact noClause_group ks

theorem noClause_constant (holds : Bool) : NoClause (constant holds) := noClause_group _

theorem noClause_qualified {ks ls : List Lexeme} (hks : NoClause ks) (h : Lexed.Qualified ks ls) :
    NoClause ls := by
  rcases h with rfl | ⟨t, rfl⟩
  · exact hks
  · exact (noClause_ofName t).append (hks.cons rfl)

theorem of?_placeholder (d : Dialect) (n : Nat) :
    Reserved.of? (d.placeholder n).toList = none := by
  obtain ⟨c, ds, hp, hc, -⟩ := Placeholder.toList_placeholder d n
  rw [hp]
  refine Reserved.of?_eq_none ?_
  simp only [Placeholder.isMark, Bool.or_eq_true, beq_iff_eq] at hc
  rcases hc with rfl | rfl <;> rfl

theorem Operand.enclosable (h : Operand d fs) : Enclosable d fs := h.mono fun _ _ => trivial

theorem Suffix.nil : Suffix d [] := Lexed.nil (by decide)

theorem Suffix.andThen (hf : Suffix d fs) (hg : Suffix d gs) : Suffix d (fs ++ gs) :=
  Lexed.andThen hf hg

theorem Operand.andThen (hf : Operand d fs) (hg : Suffix d gs) : Operand d (fs ++ gs) :=
  Lexed.andThen hf hg

theorem Operand.sqlText {s : String} (h : SelfContained d.quoteChar s) : Operand d [text s] := by
  obtain ⟨ls, hls, hscans⟩ := h
  exact Lexed.text hscans hls

theorem Enclosable.forall₂ (h : ∀ fs ∈ fss, Enclosable d fs) :
    List.Forall₂ (fun _ fs => Lexed d Mode.Between (fun _ => True) (Mode.Done d.quoteChar) fs)
      fss fss := List.forall₂_same.2 h

theorem Operand.forall₂ (h : ∀ fs ∈ fss, Operand d fs) :
    List.Forall₂ (fun _ fs => Lexed d Mode.Between NoClause (Mode.Done d.quoteChar) fs)
      fss fss := List.forall₂_same.2 h

section

variable (hd : d.Legible)

include hd

theorem Operand.after {s : String} {ls : List Lexeme} (hs : Phrase s ls) (hls : NoClause ls)
    (h : Operand d fs) : Suffix d (text s :: fs) :=
  Lexed.after hd hs.delimited ((Lexed.lead hd hs.spells h).mono fun _ ⟨_, hjs, hks⟩ =>
    hks ▸ hls.append hjs)

theorem Operand.lead {s : String} {ls : List Lexeme} (hs : Spells s ls .between) (hls : NoClause ls)
    (h : Operand d fs) : Operand d (text s :: fs) :=
  (Lexed.lead hd hs h).mono fun _ ⟨_, hjs, hks⟩ => hks ▸ hls.append hjs

theorem Operand.between {s : String} {ls : List Lexeme} (hs : Phrase s ls) (hls : NoClause ls)
    (hl : Operand d left) (hr : Operand d right) : Operand d (left ++ [text s] ++ right) :=
  (Lexed.joining hd hs hl hr).mono fun _ ⟨_, _, hks, hjs, h⟩ => h ▸ (hks.append hls).append hjs

theorem Enclosable.parenthesized (h : Enclosable d fs) : Operand d (parenthesized fs) :=
  ((Lexed.parenthesized hd h).mono fun _ => noClause_grouping).done

theorem Enclosable.enclosed {o c : String} {before inside after : List Lexeme}
    (ho : Opens o before inside) (hc : Closes c after) (hbefore : NoClause before)
    (hafter : NoClause after) (h : Enclosable d fs) :
    Lexed d Mode.Between NoClause Mode.Between (enclosed o fs c) := by
  refine (Lexed.enclosed hd ho hc h).mono ?_
  rintro _ ⟨ks, -, rfl⟩
  exact hbefore.append (NoClause.append (noClause_group _) hafter)

theorem Operand.listing {s : String} {ls : List Lexeme} (hs : Phrase s ls) (hls : NoClause ls)
    (h : ∀ fs ∈ fss, Operand d fs) : Operand d (separated s fss) :=
  (Lexed.listing hd hs (Operand.forall₂ h)).mono fun _ => NoClause.listing hls fun _ _ => id

theorem Operand.commas (h : ∀ fs ∈ fss, Operand d fs) : Operand d (commas fss) :=
  .listing hd .comma (by decide) h

theorem Operand.identifier (s : String) : Operand d [identifier s] := by
  refine (Lexed.identifier hd s).mono ?_
  rintro _ rfl
  exact noClause_ofName _

theorem Operand.ofLiteral (codec : Option Field) (v : Value) : Operand d (ofLiteral codec v) := by
  refine (Lexed.ofLiteral hd codec v).mono ?_
  rintro _ ⟨n, rfl⟩
  exact noClause_word (of?_placeholder d n)

theorem Operand.ofColumn (q : Option Qualifier) (column : String) :
    Operand d (ofColumn q column) := by
  refine (Lexed.ofColumn hd q column).mono ?_
  rintro ls ⟨c, -, hls⟩
  exact noClause_qualified (noClause_ofName _) hls

theorem Operand.ofStar (q : Option Qualifier) : Operand d (ofStar q) :=
  (Lexed.ofStar hd q).mono fun _ => noClause_qualified (by decide)

theorem Operand.ofExcluded (field : String) : Operand d (ofExcluded d field) := by
  refine (Lexed.ofExcluded hd field).mono ?_
  rintro _ ⟨s, rfl | rfl⟩
  · exact (noClause_group _).cons (by decide)
  · exact ((noClause_ofName s).cons rfl).cons (by decide)

theorem Operand.call {function : String} (distinct : Bool) (hf : Operand d [text function])
    (h : ∀ fs ∈ fss, Operand d fs) :
    Operand d (text function ::
      Fragment.enclosed (if distinct then "(DISTINCT " else "(") (Fragment.commas fss) ")") := by
  refine ((Lexed.call hd distinct hf (Operand.forall₂ h)).mono ?_).done
  rintro _ ⟨ls, ks, hls, -, rfl⟩
  exact hls.append (noClause_group _)

theorem Operand.ofSigned {s : String} {ss : List Lexeme}
    (hs : Lexed d Mode.Between (· = ss) (Mode.Done d.quoteChar) [text s]) (hl : Operand d left)
    (hr : Operand d right) : Operand d (ofSigned left s right) :=
  ((Lexed.ofSigned hd hs hl hr).mono fun _ => noClause_grouping).done

theorem Operand.ofBinary (op : Operator) (hl : Operand d left) (hr : Operand d right) :
    Operand d (ofBinary d left op right) := by
  unfold Fragment.ofBinary
  split
  · split
    · rename_i s hs
      obtain ⟨ls, -, hscans⟩ := hd.bitwiseXor s hs
      exact .ofSigned hd (.text hscans rfl) hl hr
    · exact Lexed.refuse _
  · split
    · exact ((Operand.between hd .comma (by decide) hl hr).enclosable.enclosed hd opens_concat
        closes_parenthesis (by decide) (by decide)).done
    · exact .ofSigned hd (.spelled hd (Operator.spells _)) hl hr
  · exact .ofSigned hd (.spelled hd (Operator.spells _)) hl hr

theorem Operand.ofSaid {s : String} {ss : List Lexeme} (hs : Spells s ss .word)
    (hl : Operand d left) : Operand d (ofSaid left s) :=
  ((Lexed.ofSaid hd hs hl).mono fun _ => noClause_grouping).done

theorem Operand.ofComparison (op : Comparison) (escaped : Bool) (hl : Operand d left)
    (hr : Operand d right) : Operand d (ofComparison d op escaped left right) := by
  obtain ⟨ss, hsign⟩ : ∃ ss, Spells (comparisonSign d op) ss .word := by
    unfold comparisonSign
    split
    · exact ⟨_, Comparison.spells .like⟩
    · exact ⟨_, op.spells⟩
  exact ((Lexed.ofComparison hd escaped hsign hl hr (Operand.sqlText hd.likeEscape)).mono
    fun _ => noClause_grouping).done

theorem Operand.ofMembership {op : Comparison} (hl : Operand d left)
    (h : ∀ fs ∈ fss, Operand d fs) : Operand d (ofMembership op left fss) := by
  refine (Lexed.ofMembership hd op.spells hl (Operand.forall₂ h)).mono ?_
  rintro _ (⟨-, rfl⟩ | ⟨-, h⟩)
  · exact noClause_constant _
  · exact noClause_grouping h

theorem Operand.ofBetween (hl : Operand d left) (h : ∀ fs ∈ fss, Operand d fs) :
    Operand d (ofBetween left fss) := by
  refine (Lexed.ofBetween hd hl (Operand.forall₂ h)).mono ?_
  rintro _ ⟨_, _, -, h⟩
  exact noClause_grouping h

theorem Operand.ofGroup (connective : Connective) (h : ∀ fs ∈ fss, Operand d fs) :
    Operand d (ofGroup connective fss) := by
  refine (Lexed.ofGroup hd connective (Operand.forall₂ h)).mono ?_
  rintro _ (⟨-, rfl⟩ | ⟨-, h⟩)
  · exact noClause_constant _
  · exact noClause_grouping h

theorem Operand.negation (negated : Bool) (h : Operand d left) :
    Operand d (negation negated ++ left) := by
  refine (Lexed.negation hd negated h).mono ?_
  rintro _ ⟨ks, hks, rfl⟩
  exact NoClause.append (by cases negated <;> decide) hks

/-! ## Clauses -/

theorem Operand.ofProjected (e : Expr) (h : Operand d left) : Operand d (ofProjected e left) := by
  unfold Fragment.ofProjected
  split
  · rename_i n _
    have := Operand.between hd .naming (by decide) h (.identifier hd n)
    rwa [List.append_assoc] at this
  · exact h

theorem Operand.ofFields (m : ModelSource) : Operand d (ofFields m) := by
  refine .commas hd fun fs hfs => ?_
  obtain ⟨n, -, rfl⟩ := List.mem_map.1 hfs
  exact .ofColumn hd _ n

/-- Words after a blank. -/
theorem Suffix.words {s : String} {ls : List Lexeme} (hs : Spells s ls .word) (hls : NoClause ls)
    (hdelimited : s.toList.head?.any isDelimiter = true) : Suffix d [text s] :=
  Lexed.after hd hdelimited ((Lexed.spelled hd hs).mono fun _ h => h ▸ hls)

theorem Operand.ofOrderTerm (e : Expr) (direction : Direction) (nulls : Option Nulls)
    (h : Operand d left) : Operand d (ofOrderTerm d e left direction nulls) := by
  have hdirection : Spells (" " ++ direction.keyword) [.word direction.keyword.toList] .word := by
    cases direction <;> exact ⟨by decide, fun _ _ => by cbv⟩
  unfold Fragment.ofOrderTerm
  have hword := Suffix.words hd hdirection (by cases direction <;> decide)
    (by cases direction <;> decide)
  refine Operand.andThen (Operand.andThen ?_ hword) ?_
  · split
    · exact .identifier hd _
    · exact h
  split
  · exact .nil
  · rename_i n
    have hnulls : ∃ ls, Spells (" " ++ n.keyword) ls .word ∧ NoClause ls := by
      cases n with
      | first =>
        exact ⟨[.word "NULLS".toList, .word "FIRST".toList], ⟨by decide, fun _ _ => by cbv⟩, by decide⟩
      | last =>
        exact ⟨[.word "NULLS".toList, .word "LAST".toList], ⟨by decide, fun _ _ => by cbv⟩, by decide⟩
    obtain ⟨ls, hspells, hls⟩ := hnulls
    unfold requiring
    split
    · exact .words hd hspells hls (by cases n <;> decide)
    · exact Lexed.refuse _

theorem Enclosable.ofWindow {pfs ofs : List (List Fragment)} (frame : Option Frame)
    (hp : ∀ fs ∈ pfs, Operand d fs) (ho : ∀ fs ∈ ofs, Operand d fs) :
    Enclosable d (ofWindow pfs ofs frame) := by
  have hclause {s : String} {ls : List Lexeme} (hs : Spells s ls .between)
      {items : List (List Fragment)} (h : ∀ fs ∈ items, Operand d fs) :
      Enclosable d (text s :: Fragment.commas items) :=
    (Lexed.lead hd hs (Operand.commas hd h)).mono fun _ _ => trivial
  have hpartition : Spells "PARTITION BY " [.word "PARTITION".toList, .word "BY".toList] .between :=
    ⟨by decide, fun _ _ => by cbv⟩
  have horder : Spells "ORDER BY " [Reserved.order.lexeme, .word "BY".toList] .between :=
    ⟨by decide, fun _ _ => by cbv⟩
  refine (Lexed.listing hd .blank (Enclosable.forall₂ fun fs hfs => ?_)).mono fun _ _ => trivial
  rcases List.mem_append.1 hfs with hfs | hframe
  · rcases List.mem_append.1 hfs with hfs | hfs
    · cases pfs with
      | nil => cases hfs
      | cons item items =>
        rw [List.mem_singleton.1 hfs]
        exact hclause hpartition hp
    · cases ofs with
      | nil => cases hfs
      | cons item items =>
        rw [List.mem_singleton.1 hfs]
        exact hclause horder ho
  · cases frame with
    | none => cases hframe
    | some f =>
      rw [List.mem_singleton.1 hframe]
      exact (Operand.sqlText (f.selfContained hd.quoteChar)).enclosable

theorem Operand.ofDeclaredWindow (n : Option String) (h : Enclosable d left) :
    Operand d (ofDeclaredWindow n left) := by
  cases n with
  | none => exact Lexed.refuse _
  | some n =>
    have hspec := Lexed.after hd (by decide)
      (h.enclosed hd opens_naming closes_parenthesis (by decide) (by decide))
    exact (Lexed.andThen (Operand.identifier hd n) hspec).done

theorem Operand.ofSource (s : Source) (h : Enclosable d left) : Operand d (ofSource s left) := by
  cases s with
  | model m => exact Lexed.modelTable hd m
  | table n => exact .identifier hd n
  | derived q n =>
    have := Operand.between hd .naming (by decide) (h.parenthesized hd) (.identifier hd n)
    rwa [List.append_assoc] at this

theorem Operand.names (ns : List String) : Operand d (names ns) := by
  refine .commas hd fun fs hfs => ?_
  obtain ⟨n, -, rfl⟩ := List.mem_map.1 hfs
  exact .identifier hd n

theorem Operand.ofCte (c : Cte) (h : Enclosable d left) : Operand d (ofCte c left) := by
  have hquery := Lexed.after hd (by decide)
    (h.enclosed hd opens_naming closes_parenthesis (by decide) (by decide))
  refine Operand.andThen (Operand.andThen (Operand.identifier hd c.name) ?_) hquery.done
  split
  · exact .nil
  · have hopens : Opens " (" [] [] := ⟨by decide, fun _ _ => by cbv⟩
    exact (Lexed.after hd (by decide) ((Operand.names hd _).enclosable.enclosed hd hopens
      closes_parenthesis (by decide) (by decide))).done

/-- A `WITH` clause is nothing, or closed by a blank. -/
theorem Lexed.ofCtes {ctes : List Cte} {queries : List (List Fragment)}
    (h : ∀ query ∈ queries, Enclosable d query) :
    Lexed d Mode.Between NoClause Mode.Between (Fragment.ofCtes ctes queries) := by
  cases ctes with
  | nil => exact Lexed.nil (by decide)
  | cons c cs =>
    have hone : ∀ fs ∈ (c :: cs).zipWith ofCte queries, Operand d fs := by
      intro fs hfs
      obtain ⟨n, hn, rfl⟩ := List.mem_iff_getElem.1 hfs
      rw [List.getElem_zipWith]
      exact .ofCte hd _ (h _ (List.getElem_mem _))
    rw [ofCtes_cons]
    refine Lexed.andThen ?_ ((Lexed.suffix hd .blank).mono fun _ h => h ▸ by decide)
    split
    · have hlead : Spells "WITH RECURSIVE " [Reserved.ctes.lexeme, .word "RECURSIVE".toList]
          .between := ⟨by decide, fun _ _ => by cbv⟩
      exact (Operand.commas hd hone).lead hd hlead (by decide)
    · have hlead : Spells "WITH " [Reserved.ctes.lexeme] .between :=
        ⟨by decide, fun _ _ => by cbv⟩
      exact (Operand.commas hd hone).lead hd hlead (by decide)

theorem Suffix.ofRelation (r : Relation) (context target : String) :
    Suffix d [ofRelation r context target] := by
  unfold Fragment.ofRelation
  cases r.kind with
  | manyToOne => exact Lexed.done (Lexed.equated hd _ _ _ _)
  | oneToMany => exact Lexed.done (Lexed.equated hd _ _ _ _)

theorem Suffix.clause {s : String} {ls : List Lexeme} (hs : Phrase s ls) (hls : NoClause ls)
    (h : Operand d left) : Suffix d (clause s left) := h.after hd hs hls

theorem Suffix.listClause {s : String} {ls : List Lexeme} (hs : Phrase s ls) (hls : NoClause ls)
    (h : ∀ fs ∈ fss, Operand d fs) : Suffix d (listClause s fss) := by
  cases fss with
  | nil => exact .nil
  | cons fs fss => exact .clause hd hs hls (.commas hd h)

end

/-! ## Selects and compounds -/

/-- Lexemes that are told to be a query. -/
def Querying (ls : List Lexeme) : Prop := ls.any Lexeme.isQueryWord = true

instance (ls : List Lexeme) : Decidable (Querying ls) :=
  inferInstanceAs (Decidable (ls.any Lexeme.isQueryWord = true))

theorem Querying.inside {ls : List Lexeme} (h : Querying ls) (js ks : List Lexeme) :
    Querying (js ++ ls ++ ks) := by
  unfold Querying at h ⊢
  rw [List.any_append, List.any_append, h, Bool.or_true, Bool.true_or]

/-- The lexemes of SQL that closes its quotes and parentheses. -/
def Written (q : Char) (s : String) (ls : List Lexeme) : Prop :=
  NoClause ls ∧ Scans q Mode.Between s.toList ls (Mode.Done q)

end Fragment

/-- What stands after `LIMIT`: the limit, or what stands for none before an offset. -/
def Dialect.limitText? (d : Dialect) (limit offset : Option Nat) : Option String :=
  match limit, offset with
  | some n, _ => some (toString n)
  | none, some _ => d.limitForOffset
  | none, none => none

/-- The fragments of a select in its scope, but for its ordering, limit, offset and lock. -/
def Select.bodyFragments (d : Dialect) (s : Select) : List Fragment :=
  s.headFragments d ++ (s.walk.flatMap (fun j => (j.fragments d).content.2) ++
    (Condition.clauseFragments d " WHERE " s.filter ++
      listClause " GROUP BY " (Expr.listFragments d none s.groupBy) ++
      Condition.clauseFragments d " HAVING " s.having ++
      listClause " WINDOW " (Window.listFragments d s.windows)))

def Select.lockFragments (d : Dialect) (s : Select) : List Fragment :=
  if s.forUpdate then requiring d.forUpdate (.unsupported d.name .forUpdate) [text " FOR UPDATE"]
  else []

theorem Select.fragments_body (d : Dialect) (s : Select) :
    s.fragments d = ofCtes s.ctes (Cte.listFragments d s.ctes) ++
      [nested (selectScope s.origins) (s.origins.map enlist ++ (s.bodyFragments d ++
        (listClause " ORDER BY " (OrderTerm.listFragments d s.orderBy) ++
          (ofLimit d s.limit s.offset ++ s.lockFragments d))))] := by
  rw [Select.fragments_eq, Select.bodyFragments, Select.tailFragments, Select.lockFragments]
  simp only [List.append_assoc]

namespace Fragment

section

variable {d : Dialect} {left right : List Fragment} {fss : List (List Fragment)} (hd : d.Legible)

include hd

theorem Lexed.ofLimit (limit offset : Option Nat) :
    Lexed d (Mode.Done d.quoteChar)
      (fun ls => ∃ l o, Option.Rel (Written d.quoteChar) (d.limitText? limit offset) l ∧
        Option.Rel (Written d.quoteChar) (offset.map toString) o ∧
        ls = Reserved.limit.clause l ++ Reserved.offset.clause o)
      (Mode.Done d.quoteChar) (Fragment.ofLimit d limit offset) := by
  have hclause {lead s : String} {k : Reserved} (hlead : Phrase lead [k.lexeme])
      (h : SelfContained d.quoteChar s) :
      Lexed d (Mode.Done d.quoteChar)
        (fun ls => ∃ l, Option.Rel (Written d.quoteChar) (some s) l ∧ ls = k.clause l)
        (Mode.Done d.quoteChar) [Fragment.text lead, Fragment.text s] := by
    obtain ⟨ks, hks, hscans⟩ := h
    refine Lexed.after hd hlead.delimited ((Lexed.lead hd hlead.spells (.text hscans rfl)).mono ?_)
    rintro _ ⟨_, rfl, rfl⟩
    exact ⟨some ks, .some ⟨hks, hscans⟩, rfl⟩
  have hnone (k : Reserved) : Lexed d (Mode.Done d.quoteChar)
      (fun ls => ∃ l, Option.Rel (Written d.quoteChar) none l ∧ ls = k.clause l)
      (Mode.Done d.quoteChar) [] := Lexed.nil ⟨none, .none, rfl⟩
  have hlimit : Phrase " LIMIT " [Reserved.limit.lexeme] :=
    ⟨⟨by decide, fun _ _ => by cbv⟩, by decide⟩
  have hoffset : Phrase " OFFSET " [Reserved.offset.lexeme] :=
    ⟨⟨by decide, fun _ _ => by cbv⟩, by decide⟩
  have hnumeral (n : Nat) := SelfContained.numeral hd.quoteChar n
  refine Lexed.append (B := Mode.Done d.quoteChar) (P := fun ls => ∃ l,
      Option.Rel (Written d.quoteChar) (d.limitText? limit offset) l ∧ ls = Reserved.limit.clause l)
    (Q := fun ls => ∃ o, Option.Rel (Written d.quoteChar) (offset.map toString) o ∧
      ls = Reserved.offset.clause o) ?_ ?_ ?_
  · cases limit with
    | some n => exact (hclause hlimit (hnumeral n)).merge
    | none =>
      cases offset with
      | none => exact hnone .limit
      | some n =>
        unfold Dialect.limitText?
        cases h : d.limitForOffset with
        | none => exact hnone .limit
        | some s => exact hclause hlimit (hd.limitForOffset s h)
  · cases offset with
    | some n => exact (hclause hoffset (hnumeral n)).merge
    | none => exact hnone .offset
  · rintro _ _ ⟨l, hl, rfl⟩ ⟨o, ho, rfl⟩
    exact ⟨l, o, hl, ho, rfl⟩

theorem Enclosable.ofOperand (isRight isCompound ordered : Bool) (h : Enclosable d left) :
    Enclosable d (ofOperand d isRight isCompound ordered left) := by
  unfold Fragment.ofOperand
  split
  · exact (h.parenthesized hd).enclosable
  · split
    · exact (Lexed.andThen (h.enclosed hd opens_derived closes_derived (by decide) (by decide))
        (Operand.identifier hd "_compound")).mono fun _ _ => trivial
    · unfold requiring
      split
      · exact h
      · exact Lexed.refuse _

theorem Lexed.ofBody {s : Select}
    (hsource : Suffix d (Source.clauseFragments d " FROM " s.source))
    (hjoins : ∀ j ∈ s.joins, Suffix d (j.fragments d).content.2)
    (hcolumns : ∀ fs ∈ Expr.projectionFragments d s.columns, Operand d fs)
    (hdistinct : Lexed d Mode.Between NoClause Mode.Between (s.distinct.fragments d))
    (hfilter : Suffix d (Condition.clauseFragments d " WHERE " s.filter))
    (hgroup : ∀ fs ∈ Expr.listFragments d none s.groupBy, Operand d fs)
    (hhaving : Suffix d (Condition.clauseFragments d " HAVING " s.having))
    (hwindows : ∀ fs ∈ Window.listFragments d s.windows, Operand d fs) :
    Lexed d Mode.Between (Leading [Reserved.select.lexeme] NoClause) (Mode.Done d.quoteChar)
      (s.bodyFragments d) := by
  have hselect : Spells "SELECT " [Reserved.select.lexeme] .between :=
    ⟨by decide, fun _ _ => by cbv⟩
  have hgroupBy : Phrase " GROUP BY " [.word "GROUP".toList, .word "BY".toList] :=
    ⟨⟨by decide, fun _ _ => by cbv⟩, by decide⟩
  have hwindow : Phrase " WINDOW " [.word "WINDOW".toList] :=
    ⟨⟨by decide, fun _ _ => by cbv⟩, by decide⟩
  have hprojection : Operand d (s.projectionFragments d) := by
    unfold Select.projectionFragments
    generalize s.columns = columns at hcolumns
    cases columns with
    | nil =>
      cases s.source with
      | none => exact Lexed.refuse _
      | some root =>
        cases root with
        | model m => exact .ofFields hd m
        | table n => exact .ofStar hd none
        | derived q n => exact .ofStar hd none
    | cons e es => exact .commas hd hcolumns
  have hwalk : Suffix d (s.walk.flatMap fun j => (j.fragments d).content.2) := by
    have hmem := fun j => Select.mem_of_mem_walk (s := s) (j := j)
    generalize s.walk = js at hmem
    induction js with
    | nil => exact .nil
    | cons j js ih =>
      rw [List.flatMap_cons]
      exact (hjoins j (hmem j (List.mem_cons_self ..))).andThen
        (ih fun k hk => hmem k (List.mem_cons_of_mem _ hk))
  have hrest := hwalk.andThen (((hfilter.andThen (.listClause hd hgroupBy (by decide)
    hgroup)).andThen hhaving).andThen (.listClause hd hwindow (by decide) hwindows))
  have hbody := Lexed.lead hd hselect
    (Lexed.andThen hdistinct ((hprojection.andThen hsource).andThen hrest))
  rw [Select.bodyFragments, Select.headFragments]
  simpa only [List.append_assoc, List.cons_append, List.nil_append] using hbody

theorem Lexed.orderBy {P : List Lexeme → Prop}
    (h : Lexed d Mode.Between P (Mode.Done d.quoteChar) left) :
    Lexed d (Mode.Done d.quoteChar) (Leading [Reserved.order.lexeme, .word "BY".toList] P)
      (Mode.Done d.quoteChar) (Fragment.text " ORDER BY " :: left) := by
  have horder : Phrase " ORDER BY " [Reserved.order.lexeme, .word "BY".toList] :=
    ⟨⟨by decide, fun _ _ => by cbv⟩, by decide⟩
  exact Lexed.after hd horder.delimited (Lexed.lead hd horder.spells h)

end

end Fragment

/-- The parts of a select can be read. -/
structure Select.Balanced (d : Dialect) (s : Select) : Prop where
  ctes : ∀ query ∈ Cte.listFragments d s.ctes, Enclosable d query
  body : Lexed d Mode.Between (Leading [Reserved.select.lexeme] NoClause) (Mode.Done d.quoteChar)
    (s.bodyFragments d)
  orderBy : ∀ fs ∈ OrderTerm.listFragments d s.orderBy, Operand d fs

namespace Fragment

section

variable {d : Dialect} (hd : d.Legible)

include hd

theorem Lexed.queryingSelect {s : Select} (h : s.Balanced d) :
    Lexed d Mode.Between Querying (Mode.Done d.quoteChar) (s.fragments d) := by
  have hlock : Suffix d (s.lockFragments d) := by
    unfold Select.lockFragments
    split
    · unfold requiring
      split
      · have hspells : Spells " FOR UPDATE" [.word "FOR".toList, .word "UPDATE".toList] .word :=
          ⟨by decide, fun _ _ => by cbv⟩
        exact .words hd hspells (by decide) (by decide)
      · exact Lexed.refuse _
    · exact .nil
  have horder : Lexed d (Mode.Done d.quoteChar) (fun _ => True) (Mode.Done d.quoteChar)
      (listClause " ORDER BY " (OrderTerm.listFragments d s.orderBy)) := by
    have hterms := Operand.commas hd h.orderBy
    generalize OrderTerm.listFragments d s.orderBy = fss at hterms
    cases fss with
    | nil => exact Lexed.nil trivial
    | cons fs fss => exact (Lexed.orderBy hd hterms).anything
  have htail := horder.beside ((Lexed.ofLimit hd s.limit s.offset).beside hlock)
  have hselect : Querying [Reserved.select.lexeme] := by decide
  rw [Select.fragments_body]
  refine (Lexed.ofCtes hd h.ctes).append (Lexed.nested (.enlisting _
    (h.body.append htail (R := Querying) ?_))) fun ls ks _ hks => ?_
  · rintro _ ks ⟨ls, -, rfl⟩ -
    rw [List.append_assoc]
    exact hselect.inside [] _
  · simpa using hks.inside ls []

theorem Enclosable.ofSelect {s : Select} (h : s.Balanced d) : Enclosable d (s.fragments d) :=
  (Lexed.queryingSelect hd h).anything

theorem Lexed.queryingCompound {c : Compound}
    (hctes : ∀ query ∈ Cte.listFragments d c.ctes, Enclosable d query)
    (hleft : Enclosable d (c.left.fragments d)) (hright : Enclosable d (c.right.fragments d))
    (horder : ∀ fs ∈ OrderTerm.listFragments d c.orderBy, Operand d fs) :
    Lexed d Mode.Between Querying (Mode.Done d.quoteChar) (c.fragments d) := by
  have horder : Lexed d (Mode.Done d.quoteChar) (fun _ => True) (Mode.Done d.quoteChar)
      (Compound.orderingFragments d c.orderBy) := by
    unfold Compound.orderingFragments
    split
    · exact Lexed.nil trivial
    · exact (Lexed.orderBy hd (.nested (Operand.commas hd horder))).anything
  have hleft := hleft.ofOperand hd false c.left.isCompound c.left.isOrdered
  have hright := hright.ofOperand hd true c.right.isCompound c.right.isOrdered
  have hoperator : Querying c.op.lexemes := by cases c.op <;> decide
  have hctes : Lexed d Mode.Between NoClause Mode.Between
      (Fragment.ofCtes c.ctes (Cte.listFragments d c.ctes)) := Lexed.ofCtes hd hctes
  have hleading := (hctes.beside hleft).append (R := Querying) (Lexed.suffix hd c.op.phrase) fun ls ks _ hks => by
      rw [hks, ← List.append_nil (ls ++ _)]
      exact hoperator.inside ls []
  have hfollowed {B C : Mode → Prop} {P : List Lexeme → Prop} {fs gs : List Fragment}
      (hf : Lexed d Mode.Between Querying B fs) (hg : Lexed d B P C gs) :
      Lexed d Mode.Between Querying C (fs ++ gs) :=
    hf.append hg fun ls ks hls _ => by simpa using hls.inside [] ks
  rw [Compound.fragments_eq]
  exact hfollowed (hfollowed (hfollowed hleading hright) horder) (Lexed.ofLimit hd c.limit c.offset)

theorem Enclosable.ofCompound {c : Compound}
    (hctes : ∀ query ∈ Cte.listFragments d c.ctes, Enclosable d query)
    (hleft : Enclosable d (c.left.fragments d)) (hright : Enclosable d (c.right.fragments d))
    (horder : ∀ fs ∈ OrderTerm.listFragments d c.orderBy, Operand d fs) :
    Enclosable d (c.fragments d) :=
  (Lexed.queryingCompound hd hctes hleft hright horder).anything

end

end Fragment

end SqlMapper
