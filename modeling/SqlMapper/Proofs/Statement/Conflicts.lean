import SqlMapper.Proofs.Statement.Rows

/-!
# SqlMapper.Proofs.Statement.Conflicts

What an insert was told about conflicts, in its text.

* `OnConflict.Component`: the parts that a clause may have, and the text of each.
* `OnConflict.Conveys`: a text has the words of a conflict clause and the texts of some components,
  in their order.
* `OnConflict.rendered`: the components that have a place in the text.
* `Insert.conflict_conveyed_iff`: the text of a compiled insert conveys these, and it conveys all
  components exactly if the clause asks for nothing that its action has no place for.

Components without a place are dropped without a word, though a dialect that cannot express a clause
at all refuses it.
-/

namespace SqlMapper

open Fragment

namespace Fragment

variable {fs : List Fragment} {r r' : Rendering} {ps : List Piece}

theorem puts_requiring {available : Bool} {e : CompilationError} :
    Puts (requiring available e fs) r ps r' ↔ available = true ∧ Puts fs r ps r' := by
  unfold requiring
  split
  · rename_i h
    exact ⟨fun hfs => ⟨h, hfs⟩, fun hfs => hfs.2⟩
  · rename_i h
    exact ⟨fun hfs => absurd hfs.1 not_runs_refuse, fun hfs => absurd hfs.1 h⟩

end Fragment

namespace OnConflict

/-! ## Components -/

/-- A part that a clause has if it was given. -/
inductive Component
  | target (t : ConflictTarget)
  /-- The predicate of a partial index. -/
  | indexFilter (c : Condition)
  | preserved (field : String)
  | assigned (a : Assignment)
  /-- Which rows are updated. -/
  | filter (c : Condition)

/-- What a conflicting row is updated with. -/
def entries (c : OnConflict) : List Component :=
  c.preserve.map .preserved ++ c.assignments.map .assigned

def components (c : OnConflict) : List Component :=
  c.target.toList.map .target ++ c.targetFilter.toList.map .indexFilter ++ c.entries ++
    c.filter.toList.map .filter

/-- The components before those of an update. Only fields have a predicate. -/
def placed (c : OnConflict) : List Component :=
  if c.action = .replace then []
  else
    match c.target with
    | none => []
    | some (.fields fields) => .target (.fields fields) :: c.targetFilter.toList.map .indexFilter
    | some (.constraint name) => [.target (.constraint name)]

/-- The components that have a place in the text. -/
def rendered (c : OnConflict) : List Component :=
  c.placed ++ if c.action = .update then c.entries ++ c.filter.toList.map .filter else []

/-- The clause says what to update only if it updates, has a predicate only for fields, and names no
target if it replaces. -/
structure Sayable (c : OnConflict) : Prop where
  update : c.action ≠ .update → c.preserve = [] ∧ c.assignments = [] ∧ c.filter = none
  predicate : c.targetFilter ≠ none → ∃ fields, c.target = some (.fields fields)
  target : c.action = .replace → c.target = none

namespace Component

def fragments (d : Dialect) (m : Model) : Component → List Fragment
  | target (.fields fields) =>
    columnsOf m fields fun columns => enclosed " (" (names columns) ")"
  | target (.constraint name) => [text " ON CONSTRAINT ", identifier name]
  | indexFilter c => [text " WHERE ", unqualified (c.fragments d)]
  | preserved field =>
    match m.field field with
    | .ok f => [identifier f.column, text " = "] ++ ofExcluded d field
    | .error e => [refuse e]
  | assigned a => a.fragments d m
  | filter c => clause " WHERE " (c.fragments d)

end Component

/-! ## Texts that convey components -/

/-- The words of conflict clauses. -/
def words : List String :=
  [" ON CONFLICT", " DO UPDATE SET ", ", ", " DO NOTHING", " ON DUPLICATE KEY UPDATE "]

/-- The pieces are words of conflict clauses and the texts of the components, which come in their
order. -/
inductive Conveys (d : Dialect) (m : Model) :
    List Component → Rendering → List Piece → Rendering → Prop
  | nil (r : Rendering) : Conveys d m [] r [] r
  | word {w : String} {ks : List Component} {r r' : Rendering} {ps : List Piece} :
      w ∈ words → Conveys d m ks (r.put (.text w)) ps r' → Conveys d m ks r (.text w :: ps) r'
  | component {k : Component} {ks : List Component} {r r₁ r' : Rendering} {ps qs : List Piece} :
      Puts (k.fragments d m) r ps r₁ → Conveys d m ks r₁ qs r' →
        Conveys d m (k :: ks) r (ps ++ qs) r'

namespace Component

/-- How the text of a component begins: an entry with a column, any other with SQL of its own. -/
def Opens : Component → Piece → Prop
  | preserved _, p | assigned _, p => ∃ n, p = .name n
  | target _, p | indexFilter _, p | filter _, p => ∃ w, w ∉ words ∧ p = .text w

variable {d : Dialect} {m : Model} {k : Component} {r r' : Rendering} {ps : List Piece}

theorem opens_of_lead {w : String} {fs : List Fragment} (hw : w ∉ words)
    (h : Puts (text w :: fs) r ps r') : ∃ p qs, ps = p :: qs ∧ ∃ w, w ∉ words ∧ p = .text w := by
  obtain ⟨_, _, qs, hlead, -, rfl⟩ := puts_cons.1 h
  obtain ⟨-, rfl⟩ := puts_text.1 hlead
  exact ⟨.text w, qs, rfl, w, hw, rfl⟩

theorem opens_of_column {n : String} {fs : List Fragment}
    (h : Puts (identifier n :: fs) r ps r') : ∃ p qs, ps = p :: qs ∧ ∃ n, p = .name n := by
  obtain ⟨_, _, qs, hname, -, rfl⟩ := puts_cons.1 h
  obtain ⟨-, rfl⟩ := puts_identifier.1 hname
  exact ⟨.name n, qs, rfl, n, rfl⟩

theorem opens_of_puts (h : Puts (k.fragments d m) r ps r') : ∃ p qs, ps = p :: qs ∧ k.Opens p := by
  cases k with
  | target t =>
    cases t with
    | fields fields =>
      rw [fragments, columnsOf] at h
      split at h
      · exact opens_of_lead (by decide) h
      · exact absurd h.1 not_runs_refuse
    | constraint name => exact opens_of_lead (by decide) h
  | indexFilter c => exact opens_of_lead (by decide) h
  | preserved field =>
    rw [fragments] at h
    split at h
    · exact opens_of_column h
    · exact absurd h.1 not_runs_refuse
  | assigned a =>
    rw [fragments, Assignment.fragments] at h
    split at h
    · exact opens_of_column h
    · exact absurd h.1 not_runs_refuse
  | filter c => exact opens_of_lead (by decide) h

theorem Opens.not_word {p : Piece} (h : k.Opens p) {w : String} (hw : w ∈ words) :
    p ≠ .text w := by
  rintro rfl
  cases k with
  | preserved field | assigned a =>
    obtain ⟨n, hn⟩ := h
    cases hn
  | target t | indexFilter c | filter c =>
    obtain ⟨v, hv, hvw⟩ := h
    cases hvw
    exact hv hw

end Component

namespace Conveys

variable {d : Dialect} {m : Model} {k : Component} {ks ls : List Component}
  {r r₁ r' : Rendering} {ps qs : List Piece}

theorem append (h : Conveys d m ks r ps r₁) (h' : Conveys d m ls r₁ qs r') :
    Conveys d m (ks ++ ls) r (ps ++ qs) r' := by
  induction h with
  | nil => exact h'
  | word hw _ ih => exact .word hw (ih h')
  | component hk _ ih =>
    rw [List.append_assoc]
    exact .component hk (ih h')

theorem single (h : Puts (k.fragments d m) r ps r') : Conveys d m [k] r ps r' := by
  have hconveys := Conveys.component h (.nil r')
  rwa [List.append_nil] at hconveys

theorem listed {pss : List (List Piece)}
    (h : InTurn (fun k => Puts (Component.fragments d m k)) ks r pss r') :
    Conveys d m ks r (Fragment.listed pss) r' := by
  induction h with
  | nil => exact .nil _
  | last hk =>
    rw [listed_singleton]
    exact single hk
  | more hk hrest ih =>
    rw [listed_cons hrest.pieces_ne_nil]
    exact .component hk (.word (by decide) ih)

/-- A text that begins with a word says nothing of components with it. -/
theorem of_word {w : String} (hw : w ∈ words) (h : Conveys d m ks r (.text w :: ps) r') :
    Conveys d m ks (r.put (.text w)) ps r' := by
  generalize hall : Piece.text w :: ps = all at h
  cases h with
  | nil => cases hall
  | word _ h =>
    cases hall
    exact h
  | component hk _ =>
    obtain ⟨p, qs, rfl, hp⟩ := Component.opens_of_puts hk
    cases hall
    exact absurd rfl (hp.not_word hw)

/-- The text of a component has to stand where the component is next. -/
theorem of_component (hk : Puts (k.fragments d m) r ps r₁)
    (h : Conveys d m (k :: ks) r (ps ++ qs) r') : Conveys d m ks r₁ qs r' := by
  obtain ⟨p, rest, hps, hp⟩ := Component.opens_of_puts hk
  generalize hall : ps ++ qs = all at h
  cases h with
  | word hw _ =>
    rw [hps] at hall
    cases hall
    exact absurd rfl (hp.not_word hw)
  | component hk' h =>
    obtain ⟨rfl, rfl⟩ := hk.unique hk'
    cases List.append_cancel_left hall
    exact h

/-- Where a text conveys components, nothing but the rest of the text is left for others. -/
theorem cancel (h : Conveys d m ks r ps r₁) (h' : Conveys d m (ks ++ ls) r (ps ++ qs) r') :
    Conveys d m ls r₁ qs r' := by
  induction h with
  | nil => exact h'
  | word hw _ ih => exact ih (of_word hw h')
  | component hk _ ih =>
    rw [List.append_assoc] at h'
    exact ih (of_component hk h')

theorem eq_nil (h : Conveys d m ks r [] r') : ks = [] := by
  generalize hall : ([] : List Piece) = all at h
  cases h with
  | nil => rfl
  | word _ _ => cases hall
  | component hk _ =>
    obtain ⟨p, qs, rfl, -⟩ := Component.opens_of_puts hk
    cases hall

/-- A column cannot be the beginning of a component that is no entry. -/
theorem not_column {n : String} {t : Condition} :
    ¬ Conveys d m (.indexFilter t :: ks) r (.name n :: ps) r' := by
  intro h
  generalize hall : Piece.name n :: ps = all at h
  cases h with
  | word _ _ => cases hall
  | component hk _ =>
    obtain ⟨p, qs, rfl, v, -, rfl⟩ := Component.opens_of_puts hk
    cases hall

end Conveys

/-! ## The text of a clause -/

variable {d : Dialect} {m : Model} {c : OnConflict} {r r' : Rendering} {ps : List Piece}

/-- The text of entries begins with a column. -/
theorem column_of_inTurn {ks : List Component} {pss : List (List Piece)}
    (hks : ∀ k ∈ ks, ∀ p, k.Opens p → ∃ n, p = .name n) (hne : ks ≠ [])
    (h : InTurn (fun k => Puts (Component.fragments d m k)) ks r pss r') :
    ∃ n qs, Fragment.listed pss = .name n :: qs := by
  cases h with
  | nil => exact absurd rfl hne
  | last hk =>
    obtain ⟨p, qs, rfl, hp⟩ := Component.opens_of_puts hk
    obtain ⟨n, rfl⟩ := hks _ (List.mem_cons_self ..) p hp
    exact ⟨n, qs, listed_singleton _⟩
  | more hk hrest =>
    obtain ⟨p, qs, rfl, hp⟩ := Component.opens_of_puts hk
    obtain ⟨n, rfl⟩ := hks _ (List.mem_cons_self ..) p hp
    exact ⟨n, _, listed_cons hrest.pieces_ne_nil⟩

theorem entries_of_puts (h : Puts (conflictAssignments d m c) r ps r') :
    Conveys d m c.entries r ps r' ∧ ∃ n qs, ps = .name n :: qs := by
  unfold conflictAssignments at h
  dsimp only at h
  generalize hall : List.map _ c.preserve ++ List.map _ c.assignments = all at h
  have hentries : all = c.entries.map (Component.fragments d m) := by
    rw [← hall, entries, List.map_append, List.map_map, List.map_map]
    rfl
  rw [hentries] at h
  have hopens : ∀ k ∈ c.entries, ∀ p, k.Opens p → ∃ n, p = .name n := by
    intro k hk p hp
    rcases List.mem_append.1 hk with hk | hk <;>
    · obtain ⟨_, -, rfl⟩ := List.mem_map.1 hk
      exact hp
  split at h
  · exact absurd h.1 not_runs_refuse
  · rename_i hne
    obtain ⟨pss, hturn, rfl⟩ := puts_commas h
    refine ⟨.listed hturn, column_of_inTurn hopens ?_ hturn⟩
    rintro hnil
    exact hne (by rw [hnil]; rfl)

theorem placed_of_puts (hreplace : c.action ≠ .replace)
    (h : Puts (conflictTarget d m c) r ps r') : Conveys d m c.placed r ps r' := by
  unfold conflictTarget at h
  unfold placed
  rw [if_neg hreplace]
  cases htarget : c.target with
  | none =>
    rw [htarget] at h
    obtain ⟨rfl, rfl⟩ := puts_nil.1 (puts_requiring.1 h).2
    exact .nil _
  | some t =>
    rw [htarget] at h
    cases t with
    | fields fields =>
      obtain ⟨r₁, _, _, hfields, hfilter, rfl⟩ := puts_append.1 h
      refine .component (k := .target (.fields fields)) hfields ?_
      cases hpredicate : c.targetFilter with
      | none =>
        rw [hpredicate] at hfilter
        obtain ⟨rfl, rfl⟩ := puts_nil.1 hfilter
        exact .nil _
      | some t =>
        rw [hpredicate] at hfilter
        exact .single (k := .indexFilter t) hfilter
    | constraint name => exact .single (k := .target (.constraint name)) (puts_requiring.1 h).2

theorem Conveys.concat_word {ks : List Component} (h : Conveys d m ks r ps r') {w : String}
    (hw : w ∈ words) : Conveys d m ks r (ps ++ [Piece.text w]) (r'.put (.text w)) := by
  have hword := h.append (.word hw (.nil (r'.put (.text w))))
  rwa [List.append_nil] at hword

/-- The text of a clause: words and the components in their places, and then, if it updates, what is
updated and where. -/
def Spelled (d : Dialect) (m : Model) (c : OnConflict) (r : Rendering) (ps : List Piece)
    (r' : Rendering) : Prop :=
  c.action ≠ .update ∧ Conveys d m c.placed r ps r' ∨
    c.action = .update ∧ ∃ front back r₁, ps = front ++ back ∧ Conveys d m c.placed r front r₁ ∧
      (∃ n qs, back = .name n :: qs) ∧
        Conveys d m (c.entries ++ c.filter.toList.map .filter) r₁ back r'

theorem spelled_duplicateKey (h : Puts (duplicateKeyClause d m c) r ps r') :
    c.Spelled d m r ps r' := by
  obtain ⟨hnone, hbody⟩ := puts_requiring.1 h
  simp only [Bool.and_eq_true, Option.isNone_iff_eq_none] at hnone
  obtain ⟨⟨htarget, -⟩, hfilter⟩ := hnone
  have hplaced : c.placed = [] := by
    unfold placed
    rw [htarget]
    split <;> rfl
  unfold Spelled
  rw [hplaced, hfilter]
  by_cases haction : c.action = .update
  · rw [if_pos haction] at hbody
    obtain ⟨_, _, back, hword, hentries, rfl⟩ := puts_cons.1 hbody
    obtain ⟨rfl, rfl⟩ := puts_text.1 hword
    obtain ⟨hconveys, hcolumn⟩ := entries_of_puts hentries
    refine .inr ⟨haction, _, back, _, rfl, .word (by decide) (.nil _), hcolumn, ?_⟩
    rwa [Option.toList_none, List.map_nil, List.append_nil]
  · rw [if_neg haction] at hbody
    obtain ⟨rfl, rfl⟩ := puts_nil.1 hbody
    exact .inl ⟨haction, .nil _⟩

theorem spelled_onConflict (hreplace : c.action ≠ .replace)
    (h : Puts (onConflictClause d m c) r ps r') : c.Spelled d m r ps r' := by
  obtain ⟨r₁, front, rest, hfront, hrest, rfl⟩ := puts_append.1 h
  obtain ⟨_, _, target, hword, htarget, rfl⟩ := puts_cons.1 hfront
  obtain ⟨rfl, rfl⟩ := puts_text.1 hword
  have hplaced : Conveys d m c.placed r ([Piece.text " ON CONFLICT"] ++ target) r₁ :=
    .word (by decide) (placed_of_puts hreplace htarget)
  by_cases haction : c.action = .update
  · rw [if_pos haction] at hrest
    obtain ⟨r₂, _, filter, hupdate, hfilter, rfl⟩ := puts_append.1 hrest
    obtain ⟨_, _, entries, hword, hentries, rfl⟩ := puts_cons.1 hupdate
    obtain ⟨rfl, rfl⟩ := puts_text.1 hword
    obtain ⟨hconveys, n, qs, rfl⟩ := entries_of_puts hentries
    have hwhere : Conveys d m (c.filter.toList.map .filter) r₂ filter r' := by
      cases hc : c.filter with
      | none =>
        rw [hc] at hfilter
        obtain ⟨rfl, rfl⟩ := puts_nil.1 hfilter
        exact .nil _
      | some t =>
        rw [hc] at hfilter
        exact .single (k := .filter t) hfilter
    refine .inr ⟨haction, _, .name n :: qs ++ filter, _, ?_,
      hplaced.concat_word (w := " DO UPDATE SET ") (by decide), ⟨n, _, rfl⟩, hconveys.append hwhere⟩
    simp
  · rw [if_neg haction] at hrest
    obtain ⟨rfl, rfl⟩ := puts_text.1 hrest
    exact .inl ⟨haction, hplaced.concat_word (by decide)⟩

theorem spelled_of_puts (h : Puts (c.fragments d m) r ps r') : c.Spelled d m r ps r' := by
  unfold OnConflict.fragments at h
  split at h
  · exact spelled_duplicateKey h
  · rename_i haction _
    obtain ⟨rfl, rfl⟩ := puts_nil.1 h
    refine .inl ⟨by rw [haction]; decide, ?_⟩
    rw [placed, if_pos haction]
    exact .nil _
  · rename_i haction
    have hreplace : c.action ≠ .replace := by rw [haction]; decide
    split at h
    · rename_i htarget
      obtain ⟨rfl, rfl⟩ := puts_nil.1 h
      refine .inl ⟨by rw [haction]; decide, ?_⟩
      rw [placed, if_neg hreplace, Option.isNone_iff_eq_none.1 htarget]
      exact .nil _
    · exact spelled_onConflict hreplace h
  · rename_i hreplace _
    exact spelled_onConflict hreplace h

/-- Components in their places are the first of all, and the others are left. -/
theorem exists_components_eq (c : OnConflict) : ∃ ls, c.components = c.placed ++ ls := by
  unfold components placed
  split
  · exact ⟨_, rfl⟩
  · cases c.target with
    | none => exact ⟨_, rfl⟩
    | some t =>
      cases t with
      | fields fields => exact ⟨_, List.append_assoc ..⟩
      | constraint name => exact ⟨_, rfl⟩

/-- A predicate is left where its target is not given by fields. -/
theorem exists_components_eq_predicate (haction : c.action ≠ .replace) {t : Condition}
    (hpredicate : c.targetFilter = some t) (htarget : ∀ fields, c.target ≠ some (.fields fields)) :
    ∃ ls, c.components = c.placed ++ Component.indexFilter t :: ls := by
  unfold components placed
  rw [if_neg haction, hpredicate]
  cases h : c.target with
  | none => exact ⟨_, rfl⟩
  | some t =>
    cases t with
    | fields fields => exact absurd h (htarget fields)
    | constraint name => exact ⟨_, rfl⟩

theorem Sayable.components_eq (h : c.Sayable) : c.components = c.rendered := by
  have hplaced :
      c.placed = c.target.toList.map .target ++ c.targetFilter.toList.map .indexFilter := by
    have hnone (hno : ∀ fields, c.target ≠ some (.fields fields)) : c.targetFilter = none := by
      by_contra hsome
      obtain ⟨fields, hfields⟩ := h.predicate hsome
      exact hno fields hfields
    unfold placed
    split
    · rename_i hreplace
      have htarget := h.target hreplace
      rw [htarget, hnone (by rw [htarget]; exact fun _ => nofun)]
      rfl
    · cases htarget : c.target with
      | none =>
        rw [hnone (by rw [htarget]; exact fun _ => nofun)]
        rfl
      | some t =>
        cases t with
        | fields fields => rfl
        | constraint name =>
          rw [hnone (by rw [htarget]; exact fun _ => nofun)]
          rfl
  unfold components rendered
  rw [hplaced]
  split
  · rw [List.append_assoc]
  · rename_i haction
    obtain ⟨hpreserve, hassignments, hfilter⟩ := h.update haction
    rw [entries, hpreserve, hassignments, hfilter]
    simp

/-- Where there is no update, a clause whose components all have a place asks for no more. -/
theorem sayable_of_components_eq (haction : c.action ≠ .update) (h : c.components = c.placed) :
    c.Sayable := by
  obtain ⟨action, target, predicate, preserve, assignments, filter⟩ := c
  cases action with
  | update => exact absurd rfl haction
  | replace =>
    have hnone : target = none ∧ predicate = none ∧ preserve = [] ∧ assignments = [] ∧
        filter = none := by
      simpa [components, placed, entries, and_assoc] using h
    obtain ⟨rfl, rfl, hupdate⟩ := hnone
    exact ⟨fun _ => hupdate, fun hsome => absurd rfl hsome, fun _ => rfl⟩
  | ignore =>
    refine ⟨fun _ => ?_, fun hsome => ?_, fun hreplace => nomatch hreplace⟩
    · cases target with
      | none =>
        have hnone : predicate = none ∧ preserve = [] ∧ assignments = [] ∧ filter = none := by
          simpa [components, placed, entries, and_assoc] using h
        exact hnone.2
      | some t =>
        cases t with
        | fields fields => simpa [components, placed, entries, and_assoc] using h
        | constraint name =>
          have hnone : predicate = none ∧ preserve = [] ∧ assignments = [] ∧ filter = none := by
            simpa [components, placed, entries, and_assoc] using h
          exact hnone.2
    · cases target with
      | none => simp_all [components, placed, entries]
      | some t =>
        cases t with
        | fields fields => exact ⟨fields, rfl⟩
        | constraint name => simp_all [components, placed, entries]

theorem conveys_rendered (h : Puts (c.fragments d m) r ps r') :
    Conveys d m c.rendered r ps r' := by
  unfold rendered
  rcases spelled_of_puts h with ⟨haction, hplaced⟩ |
    ⟨haction, front, back, r₁, rfl, hplaced, -, hrest⟩
  · rw [if_neg haction, List.append_nil]
    exact hplaced
  · rw [if_pos haction]
    exact hplaced.append hrest

theorem conveys_components_iff (h : Puts (c.fragments d m) r ps r') :
    Conveys d m c.components r ps r' ↔ c.Sayable := by
  constructor
  · intro hall
    rcases spelled_of_puts h with ⟨haction, hplaced⟩ |
      ⟨haction, front, back, r₁, rfl, hplaced, ⟨n, qs, rfl⟩, -⟩
    · -- The whole text is used up by the components in their places.
      obtain ⟨ls, hls⟩ := c.exists_components_eq
      rw [hls, ← List.append_nil ps] at hall
      rw [(hplaced.cancel hall).eq_nil, List.append_nil] at hls
      exact sayable_of_components_eq haction hls
    · refine ⟨fun hnot => absurd haction hnot, fun hpredicate => ?_, fun hreplace => ?_⟩
      · by_contra hno
        obtain ⟨t, ht⟩ := Option.ne_none_iff_exists'.1 hpredicate
        obtain ⟨ls, hls⟩ := exists_components_eq_predicate (by rw [haction]; decide) ht
          fun fields hfields => hno ⟨fields, hfields⟩
        rw [hls] at hall
        exact Conveys.not_column (hplaced.cancel hall)
      · rw [haction] at hreplace
        cases hreplace
  · intro hsayable
    rw [hsayable.components_eq]
    exact conveys_rendered h

end OnConflict

/-! ## Compiled inserts -/

namespace Insert

/-- The text of an insert with its conflict clause, which is put out in state `r` and leads to `r'`:
the queries of the `WITH` clause, the verb and the table, what is inserted, the clause, and what is
returned. -/
def Says (d : Dialect) (i : Insert) (c : OnConflict) (s : Supply) (ps : List Piece) (r : Rendering)
    (clause : List Piece) (r' : Rendering) : Prop :=
  ∃ ctes verb rows returned r₁ r₂,
    Puts (ofCtes i.ctes (Cte.listFragments d i.ctes)) (.start s) ctes r₁ ∧
      insertVerb d (some c) = .text verb ∧
        Puts (i.source.fragments d i.into.model)
          ((r₁.enter (targetScope i.into (some i.into))).putAll
            [.text verb, .text " ", .name i.into.model.table]) rows r ∧
          Puts (c.fragments d i.into.model) r clause r' ∧
            Puts (returningFragments d i.returning) r' returned r₂ ∧
              ps = ctes ++ [.text verb, .text " ", .name i.into.model.table] ++ rows ++ clause ++
                returned

variable {d : Dialect} {i : Insert} {c : OnConflict} {s : Supply} {r : Rendering} {ps : List Piece}

theorem says_of_puts (hc : i.onConflict = some c) (h : Puts (i.fragments d) (.start s) ps r) :
    ∃ r₁ clause r₂, i.Says d c s ps r₁ clause r₂ := by
  obtain ⟨ctes, verb, rows, clause, returned, r₁, r₂, r₃, r₄, hctes, hverb, hrows, hclause,
    hreturned, rfl, -⟩ := parts_of_puts h
  rw [hc] at hverb hclause
  exact ⟨r₂, clause, r₃, ctes, verb, rows, returned, r₁, r₄, hctes, hverb, hrows, hclause,
    hreturned, rfl⟩

/-- The conflict clause of a compiled insert has the texts of the components that have a place. It
has those of all components exactly if the clause asks for nothing that its action has no place
for. -/
theorem conflict_conveyed_iff (i : Insert) (c : OnConflict) (hc : i.onConflict = some c)
    (d : Dialect) (s s' : Supply) (r : Rendered)
    (h : (Statement.insert i).compile d s = (.ok r, s')) :
    ∃ ps r₁ clause r₂, r = .ofPieces d ps ∧ i.Says d c s ps r₁ clause r₂ ∧
      OnConflict.Conveys d i.into.model c.rendered r₁ clause r₂ ∧
      (OnConflict.Conveys d i.into.model c.components r₁ clause r₂ ↔ c.Sayable) := by
  obtain ⟨ps, _, hps, rfl, -⟩ := Statement.pieces_of_compile h
  obtain ⟨r₁, clause, r₂, hsays⟩ := says_of_puts hc hps
  have hparts := hsays
  obtain ⟨_, _, _, _, _, _, -, -, -, hclause, -, -⟩ := hparts
  exact ⟨ps, r₁, clause, r₂, rfl, hsays, OnConflict.conveys_rendered hclause,
    OnConflict.conveys_components_iff hclause⟩

end Insert

namespace Sample

/-- A ticket that may be there already. -/
def filed (c : OnConflict) : Insert :=
  ((Insert.of ⟨ticket, none⟩).valueRows [[("body", .text "a")]]).onConflictDo c

/-- An update with every component. -/
def renewal : OnConflict :=
  ((((OnConflict.update.onFields ["id"]).targeting (.raw "id > 0")).preserving ["body"]).set "id"
    (.excluded "id")).filtered (.raw "TRUE")

def renewalPieces : List Piece :=
  [.text "INSERT INTO", .text " ", .name "tickets", .text " (", .name "body", .text ") VALUES ",
    .text "(", .param (.text "a"), .text ")", .text " ON CONFLICT", .text " (", .name "id",
    .text ")", .text " WHERE ", .text "id > 0", .text " DO UPDATE SET ", .name "body", .text " = ",
    .text "EXCLUDED.", .name "body", .text ", ", .name "id", .text " = ", .text "EXCLUDED.",
    .name "id", .text " WHERE ", .text "TRUE"]

theorem renewal_conveyed : ∃ ps r₁ clause r₂,
    Rendered.ofPieces .postgres renewalPieces = .ofPieces .postgres ps ∧
      (filed renewal).Says .postgres renewal ⟨0⟩ ps r₁ clause r₂ ∧
        OnConflict.Conveys .postgres ticket renewal.components r₁ clause r₂ := by
  have hcompile : (Statement.insert (filed renewal)).compile .postgres ⟨0⟩ =
      (.ok (.ofPieces .postgres renewalPieces), ⟨0⟩) := by with_unfolding_all rfl
  have hsayable : renewal.Sayable :=
    ⟨fun h => absurd rfl h, fun _ => ⟨["id"], rfl⟩, fun h => nomatch h⟩
  obtain ⟨ps, r₁, clause, r₂, hps, hsays, -, hiff⟩ :=
    Insert.conflict_conveyed_iff (filed renewal) renewal rfl .postgres ⟨0⟩ ⟨0⟩ _ hcompile
  exact ⟨ps, r₁, clause, r₂, hps, hsays, hiff.2 hsayable⟩

/-- Asks for a replacement only where the key conflicts. -/
def substitution : OnConflict := OnConflict.replace.onFields ["id"]

/-- The rows that conflict in anything else are replaced as well. -/
theorem substitution_lost :
    (Statement.insert (filed substitution)).compile .sqlite ⟨0⟩ =
        (.ok (.ofPieces .sqlite [.text "INSERT OR REPLACE INTO", .text " ", .name "tickets",
          .text " (", .name "body", .text ") VALUES ", .text "(", .param (.text "a"),
          .text ")"]), ⟨0⟩) ∧
      ∀ ps r₁ clause r₂, (filed substitution).Says .sqlite substitution ⟨0⟩ ps r₁ clause r₂ →
        ¬ OnConflict.Conveys .sqlite ticket substitution.components r₁ clause r₂ := by
  refine ⟨by with_unfolding_all rfl, ?_⟩
  rintro ps r₁ clause r₂ ⟨_, _, _, _, _, _, -, -, -, hclause, -, -⟩ hconveys
  have hsayable := (OnConflict.conveys_components_iff hclause).1 hconveys
  exact absurd (hsayable.target rfl) (Option.some_ne_none _)

end Sample

end SqlMapper
