import SqlMapper.Proofs.Condition.Truth
import SqlMapper.Proofs.Join.Walk
import SqlMapper.Proofs.Statement.Written
import SqlMapper.Proofs.Text.Pieces

/-!
# SqlMapper.Proofs.Condition.Chain

Chains of one connective, as trees and as texts.

* `Fragment.Writes`: what fragments add to the text and to the parameters of a statement that is
  being written.
* `Condition.Chained`: conditions that are written one after another, with a word between them.
* `Condition.writes_group_iff`: a group is written as its members between one pair of parentheses.
* `Condition.chain_flat`: however leaves are chained, they become the members of one group.
-/

namespace SqlMapper

open Fragment Rendering

/-! ## What is written -/

/-- Text after text, and the parameters of both. -/
instance : Append Rendered := ⟨fun q q' => ⟨q.sql ++ q'.sql, q.params ++ q'.params⟩⟩

namespace Rendered

/-- A text without parameters. -/
def plain (s : String) : Rendered := ⟨s, []⟩

theorem append_def (q q' : Rendered) : q ++ q' = ⟨q.sql ++ q'.sql, q.params ++ q'.params⟩ := rfl

theorem append_assoc (q₁ q₂ q₃ : Rendered) : q₁ ++ q₂ ++ q₃ = q₁ ++ (q₂ ++ q₃) := by
  simp only [append_def, String.append_assoc, List.append_assoc]

theorem append_cancel_left {q q₁ q₂ : Rendered} (h : q ++ q₁ = q ++ q₂) : q₁ = q₂ := by
  obtain ⟨sql₁, params₁⟩ := q₁
  obtain ⟨sql₂, params₂⟩ := q₂
  simp only [append_def, mk.injEq] at h
  obtain ⟨hsql, hparams⟩ := h
  rw [String.append_right_inj] at hsql
  rw [hsql, List.append_cancel_left hparams]

end Rendered

namespace Rendering

/-- The text and the parameters that a run has put out so far. -/
def written (d : Dialect) (r : Rendering) : Rendered := .ofPieces d r.output.toList

theorem written_of_output {d : Dialect} {r r' : Rendering} (h : r'.output = r.output) :
    r'.written d = r.written d := by
  rw [written, h, written]

theorem written_append {d : Dialect} {r r' : Rendering} {ps : List Piece}
    (h : r'.output.toList = r.output.toList ++ ps) :
    r'.written d = r.written d ++
      ⟨String.join (Piece.texts d (Piece.count r.output.toList) ps),
        ps.filterMap Piece.param?⟩ := by
  rw [written, h, written, Rendered.ofPieces, Piece.texts_append, String.join_append,
    List.filterMap_append, Nat.zero_add]
  rfl

theorem written_put_text (d : Dialect) (r : Rendering) (s : String) :
    (r.put (.text s)).written d = r.written d ++ .plain s := by
  have hparams : [Piece.text s].filterMap Piece.param? = [] := rfl
  rw [written_append (put_output r _), hparams]
  simp [Piece.texts, Rendered.plain]

end Rendering

namespace Fragment

/-- The fragments take a statement that is being written from `r` to `r'`, and this is what they
add to it. -/
def Writes (d : Dialect) (fs : List Fragment) (r : Rendering) (q : Rendered) (r' : Rendering) :
    Prop :=
  Runs fs r r' ∧ r'.written d = r.written d ++ q

variable {d : Dialect} {fs gs : List Fragment} {r r' : Rendering} {q : Rendered}

theorem Runs.writes (d : Dialect) (h : Runs fs r r') : ∃ q, Writes d fs r q r' := by
  obtain ⟨ps, hps⟩ := h.puts
  exact ⟨_, h, written_append hps.2⟩

theorem writes_append :
    Writes d (fs ++ gs) r q r' ↔
      ∃ m q₁ q₂, Writes d fs r q₁ m ∧ Writes d gs m q₂ r' ∧ q = q₁ ++ q₂ := by
  constructor
  · rintro ⟨h, hq⟩
    obtain ⟨m, hf, hg⟩ := runs_append.1 h
    obtain ⟨q₁, hq₁⟩ := hf.writes d
    obtain ⟨q₂, hq₂⟩ := hg.writes d
    refine ⟨m, q₁, q₂, hq₁, hq₂, ?_⟩
    rw [hq₂.2, hq₁.2, Rendered.append_assoc] at hq
    exact (Rendered.append_cancel_left hq).symm
  · rintro ⟨m, q₁, q₂, ⟨hf, hq₁⟩, ⟨hg, hq₂⟩, rfl⟩
    exact ⟨runs_append.2 ⟨m, hf, hg⟩, by rw [hq₂, hq₁, Rendered.append_assoc]⟩

theorem writes_text {s : String} :
    Writes d [text s] r q r' ↔ r' = r.put (.text s) ∧ q = .plain s := by
  unfold Writes
  rw [runs_text]
  refine and_congr_right fun hr => ?_
  rw [hr, written_put_text]
  exact ⟨fun h => (Rendered.append_cancel_left h).symm, fun h => by rw [h]⟩

theorem writes_parenthesized :
    Writes d (parenthesized fs) r q r' ↔
      ∃ m q₁, Writes d fs (r.put (.text "(")) q₁ m ∧ r' = m.put (.text ")") ∧
        q = .plain "(" ++ q₁ ++ .plain ")" := by
  have hfs : parenthesized fs = [text "("] ++ (fs ++ [text ")"]) := rfl
  rw [hfs, writes_append]
  constructor
  · rintro ⟨_, _, _, hopening, hrest, rfl⟩
    obtain ⟨rfl, rfl⟩ := writes_text.1 hopening
    obtain ⟨m, q₁, _, hbody, hclosing, rfl⟩ := writes_append.1 hrest
    obtain ⟨rfl, rfl⟩ := writes_text.1 hclosing
    exact ⟨m, q₁, hbody, rfl, (Rendered.append_assoc ..).symm⟩
  · rintro ⟨m, q₁, hbody, rfl, rfl⟩
    exact ⟨_, _, _, writes_text.2 ⟨rfl, rfl⟩,
      writes_append.2 ⟨m, q₁, _, hbody, writes_text.2 ⟨rfl, rfl⟩, rfl⟩, Rendered.append_assoc ..⟩

end Fragment

/-! ## Chains in the text -/

namespace Condition

/-- The conditions are written one after another, each from where the one before it has stopped,
with the word between each two. -/
inductive Chained (d : Dialect) (word : String) :
    List Condition → Rendering → List Rendered → Rendering → Prop
  | last {c : Condition} {r r' : Rendering} {q : Rendered} :
      Writes d (c.fragments d) r q r' → Chained d word [c] r [q] r'
  | more {c c' : Condition} {cs : List Condition} {r m r' : Rendering} {q : Rendered}
      {qs : List Rendered} :
      Writes d (c.fragments d) r q m → Chained d word (c' :: cs) (m.put (.text word)) qs r' →
        Chained d word (c :: c' :: cs) r (q :: qs) r'

/-- The texts with the word between each two, and all their parameters. -/
def chainText (word : String) (qs : List Rendered) : Rendered :=
  ⟨word.intercalate (qs.map Rendered.sql), (qs.map Rendered.params).flatten⟩

theorem chainText_singleton (word : String) (q : Rendered) : chainText word [q] = q := by
  simp [chainText]

theorem chainText_cons (word : String) (q q' : Rendered) (qs : List Rendered) :
    chainText word (q :: q' :: qs) = q ++ (.plain word ++ chainText word (q' :: qs)) := by
  simp [chainText, Rendered.append_def, Rendered.plain, String.intercalate_cons_cons,
    String.append_assoc]

/-- What stands between two members of a group. -/
def between : Connective → String
  | .all => " AND "
  | .any => " OR "

theorem between_eq (k : Connective) : between k = " " ++ k.keyword ++ " " := by cases k <;> rfl

/-- The texts in one pair of parentheses, with the connective between each two, and all their
parameters. -/
def groupText (k : Connective) (qs : List Rendered) : Rendered :=
  ⟨"(" ++ (between k).intercalate (qs.map Rendered.sql) ++ ")", (qs.map Rendered.params).flatten⟩

theorem groupText_eq (k : Connective) (qs : List Rendered) :
    groupText k qs = .plain "(" ++ chainText (between k) qs ++ .plain ")" := by
  simp [groupText, chainText, Rendered.append_def, Rendered.plain]

theorem Chained.exists_cons {d : Dialect} {word : String} {c : Condition} {cs : List Condition}
    {r r' : Rendering} {qs : List Rendered} (h : Chained d word (c :: cs) r qs r') :
    ∃ q qs', qs = q :: qs' := by
  cases h with
  | last _ => exact ⟨_, _, rfl⟩
  | more _ _ => exact ⟨_, _, rfl⟩

variable {d : Dialect} {r r' : Rendering} {q : Rendered}

theorem separated_cons (d : Dialect) (word : String) (c c' : Condition) (cs : List Condition) :
    separated word (listFragments d (c :: c' :: cs)) =
      c.fragments d ++ ([text word] ++ separated word (listFragments d (c' :: cs))) := by
  simp [separated, listFragments, List.intercalate_cons_cons]

theorem fragments_group (d : Dialect) (k : Connective) (c : Condition) (cs : List Condition)
    (negated : Bool) :
    (group k (c :: cs) negated).fragments d = negation negated ++
      parenthesized (separated (between k) (listFragments d (c :: cs))) := by
  rw [between_eq]
  rfl

theorem writes_separated_iff {word : String} {c : Condition} {cs : List Condition} :
    Writes d (separated word (listFragments d (c :: cs))) r q r' ↔
      ∃ qs, Chained d word (c :: cs) r qs r' ∧ q = chainText word qs := by
  induction cs generalizing c r q with
  | nil =>
    have hone : separated word (listFragments d [c]) = c.fragments d :=
      List.intercalate_singleton
    rw [hone]
    constructor
    · intro h
      exact ⟨[q], .last h, (chainText_singleton ..).symm⟩
    · rintro ⟨_, h, rfl⟩
      cases h with
      | last h => rwa [chainText_singleton]
  | cons c' cs ih =>
    rw [separated_cons, writes_append]
    constructor
    · rintro ⟨m, q₁, _, hc, hrest, rfl⟩
      obtain ⟨_, _, q₂, hword, hcs, rfl⟩ := writes_append.1 hrest
      obtain ⟨rfl, rfl⟩ := writes_text.1 hword
      obtain ⟨qs, hqs, rfl⟩ := ih.1 hcs
      obtain ⟨q', qs', rfl⟩ := hqs.exists_cons
      exact ⟨q₁ :: q' :: qs', .more hc hqs, (chainText_cons ..).symm⟩
    · rintro ⟨_, h, rfl⟩
      cases h with
      | @more _ _ _ _ m _ q₁ qs hc hqs =>
        obtain ⟨q', qs', rfl⟩ := hqs.exists_cons
        exact ⟨m, q₁, _, hc, writes_append.2
          ⟨_, _, _, writes_text.2 ⟨rfl, rfl⟩, ih.2 ⟨_, hqs, rfl⟩, rfl⟩, chainText_cons ..⟩

/-- A group that is not negated is its members between one pair of parentheses. -/
theorem writes_group_iff {k : Connective} {c : Condition} {cs : List Condition} :
    Writes d ((group k (c :: cs) false).fragments d) r q r' ↔
      ∃ qs m, Chained d (between k) (c :: cs) (r.put (.text "(")) qs m ∧
        r' = m.put (.text ")") ∧ q = groupText k qs := by
  have hnegation : negation false = [] := rfl
  rw [fragments_group, hnegation, List.nil_append, writes_parenthesized]
  constructor
  · rintro ⟨m, _, h, rfl, rfl⟩
    obtain ⟨qs, hqs, rfl⟩ := writes_separated_iff.1 h
    exact ⟨qs, m, hqs, rfl, (groupText_eq k qs).symm⟩
  · rintro ⟨qs, m, hqs, rfl, rfl⟩
    exact ⟨m, _, writes_separated_iff.2 ⟨qs, hqs, rfl⟩, rfl, groupText_eq k qs⟩

/-! ## Chains as trees -/

theorem combine_leaf {k : Connective} {members : List Condition} {c : Condition}
    (hc : c.isLeaf = true) :
    combine k (group k members false) c = group k (members ++ [c]) false := by
  simp [combine, hc]

theorem combine_of_isLeaf {k : Connective} {c : Condition} (hc : c.isLeaf = true) (b : Condition) :
    combine k c b = group k [c, b] false := by
  cases c with
  | group _ _ _ => cases hc
  | compare _ _ _ _ _ => rfl
  | operand _ => rfl

theorem foldl_combine_group {k : Connective} {members cs : List Condition}
    (hcs : ∀ c ∈ cs, c.isLeaf = true) :
    cs.foldl (combine k) (group k members false) = group k (members ++ cs) false := by
  induction cs generalizing members with
  | nil => rw [List.append_nil]; rfl
  | cons c cs ih =>
    obtain ⟨hc, hcs⟩ := List.forall_mem_cons.1 hcs
    rw [List.foldl_cons, combine_leaf hc, ih hcs, List.append_assoc]
    rfl

theorem foldl_combine_leaf {k : Connective} {c c' : Condition} {cs : List Condition}
    (hleaf : ∀ l ∈ c :: c' :: cs, l.isLeaf = true) :
    (c' :: cs).foldl (combine k) c = group k (c :: c' :: cs) false := by
  obtain ⟨hc, hrest⟩ := List.forall_mem_cons.1 hleaf
  rw [List.foldl_cons, combine_of_isLeaf hc, foldl_combine_group (List.forall_mem_cons.1 hrest).2]
  rfl

end Condition

namespace Connective

/-- `and` or `or`. -/
def both : Connective → Condition → Condition → Condition
  | all => Condition.and
  | any => Condition.or

/-- `all` or `any` of a list. -/
def each : Connective → List Condition → Option Condition
  | all => Condition.all
  | any => Condition.any

theorem both_eq (k : Connective) : k.both = Condition.combine k := by cases k <;> rfl

theorem each_eq (k : Connective) : k.each = Condition.combineAll k := by cases k <;> rfl

end Connective

namespace Select

theorem filteredBy_eq (s : Select) (k : Connective) (c : Condition) :
    s.filteredBy k c = { s with filter := some (Condition.extend k s.filter c) } := by
  cases k <;> rfl

theorem filteredByAll_of_some {s : Select} {c : Condition} (hs : s.filter = some c) (k : Connective)
    (cs : List Condition) :
    s.filteredByAll (cs.map (k, ·)) =
      { s with filter := some (cs.foldl (Condition.combine k) c) } := by
  induction cs generalizing s c with
  | nil =>
    cases s
    cases hs
    rfl
  | cons c' cs ih =>
    have hnext : s.filteredBy k c' = { s with filter := some (Condition.combine k c c') } := by
      rw [filteredBy_eq, hs]
      rfl
    have hstep : s.filteredByAll ((c' :: cs).map (k, ·)) =
        (s.filteredBy k c').filteredByAll (cs.map (k, ·)) := rfl
    rw [hstep, hnext, ih rfl, List.foldl_cons]

theorem filteredByAll_of_none {s : Select} (hs : s.filter = none) (k : Connective) (c : Condition)
    (cs : List Condition) :
    s.filteredByAll ((c :: cs).map (k, ·)) =
      { s with filter := some (cs.foldl (Condition.combine k) c) } := by
  have hfirst : s.filteredBy k c = { s with filter := some c } := by
    rw [filteredBy_eq, hs]
    rfl
  have hstep : s.filteredByAll ((c :: cs).map (k, ·)) =
      (s.filteredBy k c).filteredByAll (cs.map (k, ·)) := rfl
  rw [hstep, hfirst, filteredByAll_of_some rfl]

/-! ## The filter of a compiled select -/

/-- The state in which the filter of a select is written: its `WITH` clause, its sources and all
before the keyword `WHERE` are done. -/
def ReachesFilter (d : Dialect) (s : Select) (supply : Supply) (r : Rendering) : Prop :=
  ∃ r₁, Runs (ofCtes s.ctes (Cte.listFragments d s.ctes)) (.start supply) r₁ ∧
    Runs (s.headFragments d ++ s.walk.flatMap (fun j => (j.fragments d).content.2) ++
      [text " WHERE "]) ((r₁.enter (selectScope s.origins)).enlistAll s.origins) r

/-- What stands after the filter of a select. -/
def afterFilter (d : Dialect) (s : Select) : List Fragment :=
  listClause " GROUP BY " (Expr.listFragments d none s.groupBy) ++
    Condition.clauseFragments d " HAVING " s.having ++
    listClause " WINDOW " (Window.listFragments d s.windows) ++
    listClause " ORDER BY " (OrderTerm.listFragments d s.orderBy) ++
    ofLimit d s.limit s.offset ++
    if s.forUpdate then
      requiring d.forUpdate (.unsupported d.name .forUpdate) [text " FOR UPDATE"]
    else []

theorem tailFragments_eq (d : Dialect) (s : Select) :
    s.tailFragments d = Condition.clauseFragments d " WHERE " s.filter ++ s.afterFilter d := by
  simp only [tailFragments, afterFilter, List.append_assoc]

theorem filter_of_compile {d : Dialect} {s : Select} {c : Condition} (hc : s.filter = some c)
    {supply supply' : Supply} {q : Rendered}
    (h : (Statement.query (.simple s)).compile d supply = (.ok q, supply')) :
    ∃ r clause r' rest m, s.ReachesFilter d supply r ∧ Writes d (c.fragments d) r clause r' ∧
      Writes d (s.afterFilter d) r' rest m ∧ q = r.written d ++ clause ++ rest := by
  obtain ⟨ps, m, ⟨hruns, hps⟩, rfl, -⟩ := Statement.pieces_of_compile h
  have hwritten : m.written d = .ofPieces d ps := by
    rw [written, hps]
    rfl
  rw [Statement.fragments, Query.fragments, fragments_eq] at hruns
  obtain ⟨r₁, hctes, hnested⟩ := runs_append.1 hruns
  obtain ⟨m₁, hbody, rfl⟩ := runs_nested.1 hnested
  obtain ⟨_, henlist, hbody⟩ := runs_append.1 hbody
  cases congrArg Prod.snd ((runs_enlist s.origins _).symm.trans henlist)
  obtain ⟨r₂, hhead, hbody⟩ := runs_append.1 hbody
  obtain ⟨r₃, hjoins, htail⟩ := runs_append.1 hbody
  rw [tailFragments_eq, hc, Condition.clauseFragments, clause] at htail
  obtain ⟨r', hfilter, hrest⟩ := runs_append.1 htail
  obtain ⟨r, hword, hclause⟩ := runs_cons.1 hfilter
  obtain ⟨clause, hclause⟩ := hclause.writes d
  obtain ⟨rest, hrest⟩ := hrest.writes d
  refine ⟨r, clause, r', rest, m₁, ⟨r₁, hctes, ?_⟩, hclause, hrest, ?_⟩
  · exact runs_append.2 ⟨r₃, runs_append.2 ⟨r₂, hhead, hjoins⟩, runs_singleton.2 hword⟩
  · rw [← hwritten, written_of_output (leave_output m₁), hrest.2, hclause.2]

end Select

/-- Leaves that are chained by one connective are the members of one group, in their order: call
after call, as a list, or in the filter of a select that had none. The group is written as one pair
of parentheses around what is written for each leaf in its place, with the connective between each
two, and so is the filter of every compiled select, before the clauses that come after it. -/
theorem Condition.chain_flat (k : Connective) (c c' : Condition) (cs : List Condition)
    (hleaf : ∀ l ∈ c :: c' :: cs, l.isLeaf = true) (s : Select) (hs : s.filter = none) :
    (c' :: cs).foldl k.both c = group k (c :: c' :: cs) false ∧
    k.each (c :: c' :: cs) = some (group k (c :: c' :: cs) false) ∧
    s.filteredByAll ((c :: c' :: cs).map (k, ·)) =
      { s with filter := some (group k (c :: c' :: cs) false) } ∧
    (∀ d r q r', Writes d ((group k (c :: c' :: cs) false).fragments d) r q r' ↔
      ∃ qs m, Chained d (between k) (c :: c' :: cs) (r.put (.text "(")) qs m ∧
        r' = m.put (.text ")") ∧ q = groupText k qs) ∧
    ∀ d supply supply' q,
      (Statement.query (.simple (s.filteredByAll ((c :: c' :: cs).map (k, ·))))).compile d supply =
        (.ok q, supply') →
      ∃ r qs m rest m', s.ReachesFilter d supply r ∧
        Chained d (between k) (c :: c' :: cs) (r.put (.text "(")) qs m ∧
          Writes d (s.afterFilter d) (m.put (.text ")")) rest m' ∧
            q = r.written d ++ groupText k qs ++ rest := by
  have hselect : s.filteredByAll ((c :: c' :: cs).map (k, ·)) =
      { s with filter := some (group k (c :: c' :: cs) false) } := by
    rw [Select.filteredByAll_of_none hs, foldl_combine_leaf hleaf]
  refine ⟨?_, ?_, hselect, fun d r q r' => writes_group_iff, fun d supply supply' q h => ?_⟩
  · rw [k.both_eq, foldl_combine_leaf hleaf]
  · rw [k.each_eq, combineAll, foldl_combine_leaf hleaf]
  · rw [hselect] at h
    obtain ⟨r, clause, r', rest, m', hr, hclause, hrest, rfl⟩ := Select.filter_of_compile rfl h
    obtain ⟨qs, m, hqs, rfl, rfl⟩ := writes_group_iff.1 hclause
    exact ⟨r, qs, m, rest, m', hr, hqs, hrest, rfl⟩

namespace Sample

def firstLeaf : Condition := Expr.compare .eq (.bare "a") (.literal (.int 1))

def secondLeaf : Condition := (Expr.compare .eq (.bare "b") (.literal (.int 2))).not

def thirdLeaf : Condition := .raw "c"

theorem threeLeaves : ∀ l ∈ [firstLeaf, secondLeaf, thirdLeaf], l.isLeaf = true := by
  simp [firstLeaf, secondLeaf, thirdLeaf, Expr.compare, Condition.not, Condition.raw,
    Condition.isLeaf]

/-- A select of the rows for which any of three leaves is true. -/
def anyLeaf : Select :=
  (((Select.ofTable "t").orFiltered firstLeaf).orFiltered secondLeaf).orFiltered thirdLeaf

def anyLeafText : Rendered :=
  ⟨"SELECT * FROM \"t\" WHERE ((\"a\" = $1) OR NOT (\"b\" = $2) OR c)", [.int 1, .int 2]⟩

/-- A select of the rows for which all three are. -/
def allLeaves : Select :=
  (((Select.ofTable "t").filtered firstLeaf).filtered secondLeaf).filtered thirdLeaf

def allLeavesText : Rendered :=
  ⟨"SELECT * FROM \"t\" WHERE ((\"a\" = $1) AND NOT (\"b\" = $2) AND c)", [.int 1, .int 2]⟩

/-- The text of a select that has the three leaves in its filter. -/
def WritesLeaves (k : Connective) (word : String) (q : Rendered) : Prop :=
  ∃ (r : Rendering) (qs : List Rendered) (m : Rendering) (rest : Rendered),
    Condition.Chained .postgres word [firstLeaf, secondLeaf, thirdLeaf] (r.put (.text "(")) qs m ∧
      q = r.written .postgres ++ Condition.groupText k qs ++ rest

theorem threeLeaves_flat :
    (∀ l ∈ [firstLeaf, secondLeaf, thirdLeaf], l.isLeaf = true) ∧
    (firstLeaf.or secondLeaf).or thirdLeaf =
      .group .any [firstLeaf, secondLeaf, thirdLeaf] false ∧
    (firstLeaf.and secondLeaf).and thirdLeaf =
      .group .all [firstLeaf, secondLeaf, thirdLeaf] false ∧
    anyLeaf.filter = some (.group .any [firstLeaf, secondLeaf, thirdLeaf] false) ∧
    allLeaves.filter = some (.group .all [firstLeaf, secondLeaf, thirdLeaf] false) ∧
    (Statement.query (.simple anyLeaf)).compile .postgres ⟨0⟩ = (.ok anyLeafText, ⟨0⟩) ∧
    (Statement.query (.simple allLeaves)).compile .postgres ⟨0⟩ = (.ok allLeavesText, ⟨0⟩) ∧
    WritesLeaves .any " OR " anyLeafText ∧ WritesLeaves .all " AND " allLeavesText := by
  have hany : (Statement.query (.simple anyLeaf)).compile .postgres ⟨0⟩ =
      (.ok anyLeafText, ⟨0⟩) := by with_unfolding_all rfl
  have hall : (Statement.query (.simple allLeaves)).compile .postgres ⟨0⟩ =
      (.ok allLeavesText, ⟨0⟩) := by with_unfolding_all rfl
  obtain ⟨hor, -, horFilter, -, horText⟩ :=
    Condition.chain_flat .any firstLeaf secondLeaf [thirdLeaf] threeLeaves (.ofTable "t") rfl
  obtain ⟨hand, -, handFilter, -, handText⟩ :=
    Condition.chain_flat .all firstLeaf secondLeaf [thirdLeaf] threeLeaves (.ofTable "t") rfl
  obtain ⟨r, qs, m, rest, -, -, hqs, -, htext⟩ := horText .postgres ⟨0⟩ ⟨0⟩ _ hany
  obtain ⟨r', qs', m', rest', -, -, hqs', -, htext'⟩ := handText .postgres ⟨0⟩ ⟨0⟩ _ hall
  exact ⟨threeLeaves, hor, hand, congrArg Select.filter horFilter,
    congrArg Select.filter handFilter, hany, hall, ⟨r, qs, m, rest, hqs, htext⟩,
    ⟨r', qs', m', rest', hqs', htext'⟩⟩

end Sample

end SqlMapper
