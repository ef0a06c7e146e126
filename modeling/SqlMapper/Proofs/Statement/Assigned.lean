import SqlMapper.Proofs.Schema.Integrity
import SqlMapper.Proofs.Statement.Conflicts

/-!
# SqlMapper.Proofs.Statement.Assigned

What an update, or an insert that updates rows on a conflict, sets.

* `Update.Assigned`, `OnConflict.Told`: the calls that gave fields their values, in their order.
* `SetList`: the text of a list of columns with their values.
* `Latest`: an update keeps one value for a field, which is the last one.
* `Statement.assigned_once_iff`: which columns a compiled statement sets, and when each of them
  stands there once, with its last value.

A conflict clause keeps what it is told, so a field that it is told twice is set twice.
-/

namespace SqlMapper

open Fragment

/-! ## Calls -/

/-- The call of `preserve` for a field, as the value that it stands for: the one that was to be
inserted. -/
def Assignment.preserved (field : String) : Assignment := ⟨field, .excluded field⟩

/-- How an update came by its assignments. -/
inductive Update.Assigned (m : ModelSource) : Update → List Assignment → Prop
  | of : Update.Assigned m (.of m) []
  | set {u : Update} {calls : List Assignment} (field : String) (value : Expr) :
      Update.Assigned m u calls → Update.Assigned m (u.set field value) (calls ++ [⟨field, value⟩])
  | reading {u : Update} {calls : List Assignment} (s : Source) :
      Update.Assigned m u calls → Update.Assigned m (u.reading s) calls
  | filtered {u : Update} {calls : List Assignment} (c : Condition) :
      Update.Assigned m u calls → Update.Assigned m (u.filtered c) calls
  | returning {u : Update} {calls : List Assignment} (es : List Expr) :
      Update.Assigned m u calls → Update.Assigned m (u.returningAll es) calls
  | cte {u : Update} {calls : List Assignment} (c : Cte) :
      Update.Assigned m u calls → Update.Assigned m (u.withCte c) calls

/-- How a conflict clause that updates came by what it sets. -/
inductive OnConflict.Told : OnConflict → List Assignment → Prop
  | update : OnConflict.Told .update []
  | preserving {c : OnConflict} {calls : List Assignment} (fields : List String) :
      OnConflict.Told c calls →
        OnConflict.Told (c.preserving fields) (calls ++ fields.map Assignment.preserved)
  | set {c : OnConflict} {calls : List Assignment} (field : String) (value : Expr) :
      OnConflict.Told c calls → OnConflict.Told (c.set field value) (calls ++ [⟨field, value⟩])
  | onFields {c : OnConflict} {calls : List Assignment} (fields : List String) :
      OnConflict.Told c calls → OnConflict.Told (c.onFields fields) calls
  | onConstraint {c : OnConflict} {calls : List Assignment} (name : String) :
      OnConflict.Told c calls → OnConflict.Told (c.onConstraint name) calls
  | targeting {c : OnConflict} {calls : List Assignment} (cond : Condition) :
      OnConflict.Told c calls → OnConflict.Told (c.targeting cond) calls
  | filtered {c : OnConflict} {calls : List Assignment} (cond : Condition) :
      OnConflict.Told c calls → OnConflict.Told (c.filtered cond) calls

/-- The statement sets fields of `m` by the calls. -/
inductive Statement.Assigns (m : ModelSource) : Statement → List Assignment → Prop
  | update {u : Update} {calls : List Assignment} :
      u.Assigned m calls → Statement.Assigns m (.update u) calls
  | conflict {i : Insert} {c : OnConflict} {calls : List Assignment} :
      i.into = m → i.onConflict = some c → c.Told calls → Statement.Assigns m (.insert i) calls

/-! ## Last values -/

/-- No call after this one is for its field. -/
def Assignment.IsLast (a : Assignment) (calls : List Assignment) : Prop :=
  ∃ before after, calls = before ++ a :: after ∧ ∀ b ∈ after, b.field ≠ a.field

/-- The assignments are those that count after the calls: one for each field, with its last
value. -/
structure Latest (calls as : List Assignment) : Prop where
  once : (as.map Assignment.field).Nodup
  all : ∀ a ∈ calls, a.field ∈ as.map Assignment.field
  last : ∀ a ∈ as, a.IsLast calls

namespace Assignment

variable {a b : Assignment} {calls : List Assignment}

theorem isLast_concat (a : Assignment) (calls : List Assignment) : a.IsLast (calls ++ [a]) :=
  ⟨calls, [], rfl, fun _ hb => nomatch hb⟩

theorem IsLast.concat (h : a.IsLast calls) (hne : b.field ≠ a.field) :
    a.IsLast (calls ++ [b]) := by
  obtain ⟨before, after, rfl, hafter⟩ := h
  refine ⟨before, after ++ [b], by simp, fun b' hb' => ?_⟩
  rcases List.mem_append.1 hb' with hb' | hb'
  · exact hafter b' hb'
  · rwa [List.mem_singleton.1 hb']

/-- Where no two calls are for one field, each of them is the last one. -/
theorem isLast_of_nodup (h : (calls.map field).Nodup) (ha : a ∈ calls) : a.IsLast calls := by
  obtain ⟨before, after, rfl⟩ := List.append_of_mem ha
  refine ⟨before, after, rfl, fun b hb hfield => ?_⟩
  rw [List.map_append, List.map_cons] at h
  have hnot := (List.nodup_cons.1 (List.nodup_append.1 h).2.1).1
  exact hnot (hfield ▸ List.mem_map_of_mem hb)

end Assignment

namespace Update

variable {field : String} {value : Expr} {as calls : List Assignment} {m : ModelSource} {u : Update}

theorem map_field_assign (field : String) (value : Expr) (as : List Assignment) :
    (assign field value as).map Assignment.field =
      if field ∈ as.map Assignment.field then as.map Assignment.field
      else as.map Assignment.field ++ [field] := by
  induction as with
  | nil => rfl
  | cons a as ih =>
    unfold assign
    by_cases ha : a.field = field
    · simp [ha]
    · have ha' : field ≠ a.field := Ne.symm ha
      simp only [ha, if_false, List.map_cons, ih, List.mem_cons, ha', false_or]
      split <;> rfl

theorem mem_assign {a : Assignment} (has : (as.map Assignment.field).Nodup)
    (ha : a ∈ assign field value as) : a = ⟨field, value⟩ ∨ a ∈ as ∧ field ≠ a.field := by
  induction as with
  | nil => exact .inl (List.mem_singleton.1 ha)
  | cons b as ih =>
    obtain ⟨hb, has⟩ := List.nodup_cons.1 has
    unfold assign at ha
    split at ha
    · rename_i hfield
      rcases List.mem_cons.1 ha with rfl | ha
      · exact .inl rfl
      · refine .inr ⟨List.mem_cons_of_mem _ ha, fun hsame => hb ?_⟩
        rw [hfield, hsame]
        exact List.mem_map_of_mem ha
    · rename_i hfield
      rcases List.mem_cons.1 ha with rfl | ha
      · exact .inr ⟨List.mem_cons_self .., Ne.symm hfield⟩
      · exact (ih has ha).imp_right fun h => ⟨List.mem_cons_of_mem _ h.1, h.2⟩

/-- One more call. -/
theorem latest_assign (h : Latest calls as) (field : String) (value : Expr) :
    Latest (calls ++ [⟨field, value⟩]) (assign field value as) where
  once := by
    rw [map_field_assign]
    split
    · exact h.once
    · rename_i hnew
      rw [← List.concat_eq_append]
      exact h.once.concat hnew
  all a ha := by
    rw [map_field_assign]
    rcases List.mem_append.1 ha with ha | ha
    · split
      · exact h.all a ha
      · exact List.mem_append_left _ (h.all a ha)
    · rw [List.mem_singleton.1 ha]
      split
      · assumption
      · exact List.mem_append_right _ (List.mem_singleton_self _)
  last a ha := by
    rcases mem_assign h.once ha with rfl | ⟨ha, hne⟩
    · exact Assignment.isLast_concat _ calls
    · exact (h.last a ha).concat hne

namespace Assigned

theorem table_eq (h : u.Assigned m calls) : u.table = m := by
  induction h with
  | of => rfl
  | set _ _ _ ih | reading _ _ ih | filtered _ _ ih | returning _ _ ih | cte _ _ ih => exact ih

theorem latest (h : u.Assigned m calls) : Latest calls u.assignments := by
  induction h with
  | of => exact ⟨List.nodup_nil, fun _ ha => (nomatch ha), fun _ ha => (nomatch ha)⟩
  | set field value _ ih => exact latest_assign ih field value
  | reading _ _ ih | filtered _ _ ih | returning _ _ ih | cte _ _ ih => exact ih

end Assigned

end Update

namespace OnConflict

/-- What a conflicting row is updated with, in the order of the text. -/
def written (c : OnConflict) : List Assignment :=
  c.preserve.map Assignment.preserved ++ c.assignments

namespace Told

variable {c : OnConflict} {calls : List Assignment}

theorem action_eq (h : c.Told calls) : c.action = .update := by
  induction h with
  | update => rfl
  | preserving _ _ ih | set _ _ _ ih | onFields _ _ ih | onConstraint _ _ ih | targeting _ _ ih
  | filtered _ _ ih => exact ih

/-- The calls are all kept, those of `preserve` before the others. -/
theorem perm_written (h : c.Told calls) : calls.Perm c.written := by
  induction h with
  | update => exact .refl _
  | @preserving c calls fields _ ih =>
    have hwritten : (c.preserving fields).written = c.preserve.map Assignment.preserved ++
        (fields.map Assignment.preserved ++ c.assignments) := by
      simp [written, OnConflict.preserving]
    have hall := ih.append_right (fields.map Assignment.preserved)
    rw [written, List.append_assoc] at hall
    rw [hwritten]
    exact hall.trans (List.perm_append_comm.append_left _)
  | @set c calls field value _ ih =>
    have hwritten : (c.set field value).written = c.written ++ [⟨field, value⟩] :=
      (List.append_assoc ..).symm
    rw [hwritten]
    exact ih.append_right _
  | onFields _ _ ih | onConstraint _ _ ih | targeting _ _ ih | filtered _ _ ih => exact ih

end Told

end OnConflict

/-! ## The text -/

/-- The text of an entry of a list: the column of the field that is meant, and its value. -/
def SetEntry (d : Dialect) (m : Model) (e : Assignment × Field) (r : Rendering) (ps : List Piece)
    (r' : Rendering) : Prop :=
  m.field? e.1.field = some e.2 ∧
    ∃ value, ps = .name e.2.column :: .text " = " :: value ∧
      Puts (e.1.value.fragments d (some e.2)) (r.putAll [.name e.2.column, .text " = "]) value r'

/-- The text of a list of columns with their values. -/
def SetList (d : Dialect) (m : Model) (entries : List (Assignment × Field)) (r : Rendering)
    (ps : List Piece) (r' : Rendering) : Prop :=
  ∃ pss, InTurn (SetEntry d m) entries r pss r' ∧ ps = listed pss

/-- The text of a conflict clause that updates, in which entries are listed. -/
inductive OnConflict.Sets (d : Dialect) (m : Model) (c : OnConflict)
    (entries : List (Assignment × Field)) : Rendering → List Piece → Rendering → Prop
  | duplicateKey {r r' : Rendering} {list : List Piece} :
      SetList d m entries (r.put (.text " ON DUPLICATE KEY UPDATE ")) list r' →
        OnConflict.Sets d m c entries r (.text " ON DUPLICATE KEY UPDATE " :: list) r'
  | onConflict {r r₁ r₂ r' : Rendering} {target list filter : List Piece} :
      Puts (conflictTarget d m c) (r.put (.text " ON CONFLICT")) target r₁ →
        SetList d m entries (r₁.put (.text " DO UPDATE SET ")) list r₂ →
          Puts (Condition.clauseFragments d " WHERE " c.filter) r₂ filter r' →
            OnConflict.Sets d m c entries r
              (.text " ON CONFLICT" :: target ++ .text " DO UPDATE SET " :: list ++ filter) r'

/-- The text of a statement in which entries are listed: an update, or the conflict clause of an
insert. -/
inductive Statement.Sets (d : Dialect) (s : Supply) :
    Statement → List (Assignment × Field) → List Piece → Prop
  | update {u : Update} {entries : List (Assignment × Field)} {ctes list back : List Piece}
      {r r₁ r₂ : Rendering} :
      entries.map Prod.fst = u.assignments →
        Puts (ofCtes u.ctes (Cte.listFragments d u.ctes)) (.start s) ctes r →
          SetList d u.table.model entries
            (((r.enter (mutationScope u.table)).enlistAll (u.sources.map Source.origin)).putAll
              [.text "UPDATE ", .name u.table.model.table, .text " SET "]) list r₁ →
            Puts (sourcesFragments d " FROM " u.sources ++
              Condition.clauseFragments d " WHERE " u.filter ++ returningFragments d u.returning)
              r₁ back r₂ →
              Statement.Sets d s (.update u) entries (ctes ++
                [.text "UPDATE ", .name u.table.model.table, .text " SET "] ++ list ++ back)
  | conflict {i : Insert} {c : OnConflict} {entries : List (Assignment × Field)}
      {ps clause : List Piece} {r r' : Rendering} :
      i.onConflict = some c → entries.map Prod.fst = c.written →
        i.Says d c s ps r clause r' → c.Sets d i.into.model entries r clause r' →
          Statement.Sets d s (.insert i) entries ps

namespace Fragment

theorem InTurn.exists_of_mem {α : Type} {R : α → Rendering → List Piece → Rendering → Prop}
    {xs : List α} {r r' : Rendering} {pss : List (List Piece)} (h : InTurn R xs r pss r') {x : α}
    (hx : x ∈ xs) : ∃ r ps r', R x r ps r' := by
  induction h with
  | nil _ => cases hx
  | last hR =>
    cases List.mem_singleton.1 hx
    exact ⟨_, _, _, hR⟩
  | more hR _ ih =>
    rcases List.mem_cons.1 hx with rfl | hx
    · exact ⟨_, _, _, hR⟩
    · exact ih hx

variable {d : Dialect} {m : Model} {r r' : Rendering} {ps : List Piece}

theorem setEntry_of_puts {a : Assignment} (h : Puts (a.fragments d m) r ps r') :
    ∃ f, SetEntry d m (a, f) r ps r' := by
  unfold Assignment.fragments at h
  split at h
  · rename_i f hf
    obtain ⟨_, _, _, hcolumn, hrest, rfl⟩ := puts_cons.1 h
    obtain ⟨_, _, value, hequals, hvalue, rfl⟩ := puts_cons.1 hrest
    obtain ⟨rfl, rfl⟩ := puts_identifier.1 hcolumn
    obtain ⟨rfl, rfl⟩ := puts_text.1 hequals
    exact ⟨f, Model.field_eq_ok hf, value, rfl, hvalue⟩
  · exact absurd h.1 not_runs_refuse

theorem setList_of_puts {as : List Assignment}
    (h : Puts (commas (as.map (Assignment.fragments d m))) r ps r') :
    ∃ entries, entries.map Prod.fst = as ∧ SetList d m entries r ps r' := by
  obtain ⟨pss, hturn, rfl⟩ := puts_commas h
  obtain ⟨entries, has, hentries⟩ := hturn.exists_paired fun a r ps r' => setEntry_of_puts
  exact ⟨entries, has, pss, hentries, rfl⟩

end Fragment

theorem SetList.field? {d : Dialect} {m : Model} {entries : List (Assignment × Field)}
    {r r' : Rendering} {ps : List Piece} (h : SetList d m entries r ps r') :
    ∀ e ∈ entries, m.field? e.1.field = some e.2 := by
  obtain ⟨pss, hturn, -⟩ := h
  intro e he
  obtain ⟨_, _, _, hentry⟩ := hturn.exists_of_mem he
  exact hentry.1

namespace Update

theorem sets_of_puts {d : Dialect} {u : Update} {s : Supply} {ps : List Piece} {r : Rendering}
    (h : Puts (u.fragments d) (.start s) ps r) :
    ∃ entries, (Statement.update u).Sets d s entries ps := by
  unfold Update.fragments at h
  obtain ⟨r₁, ctes, _, hctes, hnested, rfl⟩ := puts_append.1 h
  obtain ⟨r₄, hbody, rfl⟩ := puts_nested.1 hnested
  split at hbody
  · exact absurd hbody.1 not_runs_refuse
  · obtain ⟨-, hbody⟩ := puts_requiring.1 hbody
    have henlisted : u.sources.map (fun s => enlist s.origin) =
        (u.sources.map Source.origin).map enlist := by
      rw [List.map_map]
      rfl
    rw [henlisted] at hbody
    simp only [List.append_assoc] at hbody
    obtain ⟨_, _, _, hlead, hrest, rfl⟩ := puts_append.1 (puts_enlist_append.1 hbody)
    obtain ⟨_, _, _, hupdate, hinto, rfl⟩ := puts_cons.1 hlead
    obtain ⟨_, _, _, htable, hset, rfl⟩ := puts_cons.1 hinto
    obtain ⟨rfl, rfl⟩ := puts_text.1 hupdate
    obtain ⟨rfl, rfl⟩ := puts_identifier.1 htable
    obtain ⟨rfl, rfl⟩ := puts_text.1 hset
    obtain ⟨r₃, list, back, hlist, hback, rfl⟩ := puts_append.1 hrest
    obtain ⟨entries, hassignments, hlist⟩ := setList_of_puts hlist
    have hsets := Statement.Sets.update hassignments hctes hlist
      (by simpa only [List.append_assoc] using hback)
    exact ⟨entries, by simpa using hsets⟩

end Update

namespace OnConflict

variable {d : Dialect} {m : Model} {c : OnConflict} {r r' : Rendering} {ps : List Piece}

theorem conflictAssignments_eq (d : Dialect) (m : Model) (c : OnConflict) :
    conflictAssignments d m c =
      match c.written.map (Assignment.fragments d m) with
      | [] => [refuse (.query .emptyConflictUpdate)]
      | entries => commas entries := by
  unfold conflictAssignments
  dsimp only
  generalize hall : List.map _ c.preserve ++ List.map _ c.assignments = all
  have hwritten : all = c.written.map (Assignment.fragments d m) := by
    rw [← hall, written, List.map_append, List.map_map]
    rfl
  subst hwritten
  rfl

theorem setList_of_conflictAssignments (h : Puts (conflictAssignments d m c) r ps r') :
    ∃ entries, entries.map Prod.fst = c.written ∧ SetList d m entries r ps r' := by
  rw [conflictAssignments_eq] at h
  split at h
  · exact absurd h.1 not_runs_refuse
  · exact setList_of_puts h

theorem sets_of_puts (haction : c.action = .update) (h : Puts (c.fragments d m) r ps r') :
    ∃ entries, entries.map Prod.fst = c.written ∧ c.Sets d m entries r ps r' := by
  have hclause : Puts (duplicateKeyClause d m c) r ps r' ∨
      Puts (onConflictClause d m c) r ps r' := by
    unfold OnConflict.fragments at h
    split at h
    · exact .inl h
    · rename_i hreplace _
      cases haction.symm.trans hreplace
    · rename_i hignore
      cases haction.symm.trans hignore
    · exact .inr h
  rcases hclause with hclause | hclause
  · obtain ⟨-, hclause⟩ := puts_requiring.1 hclause
    rw [if_pos haction] at hclause
    obtain ⟨_, _, list, hword, hlist, rfl⟩ := puts_cons.1 hclause
    obtain ⟨rfl, rfl⟩ := puts_text.1 hword
    obtain ⟨entries, hwritten, hlist⟩ := setList_of_conflictAssignments hlist
    exact ⟨entries, hwritten, .duplicateKey hlist⟩
  · obtain ⟨r₁, _, _, hfront, hback, rfl⟩ := puts_append.1 hclause
    obtain ⟨_, _, target, hword, htarget, rfl⟩ := puts_cons.1 hfront
    obtain ⟨rfl, rfl⟩ := puts_text.1 hword
    rw [if_pos haction] at hback
    obtain ⟨r₂, _, filter, hupdate, hfilter, rfl⟩ := puts_append.1 hback
    obtain ⟨_, _, list, hword, hlist, rfl⟩ := puts_cons.1 hupdate
    obtain ⟨rfl, rfl⟩ := puts_text.1 hword
    obtain ⟨entries, hwritten, hlist⟩ := setList_of_conflictAssignments hlist
    refine ⟨entries, hwritten, ?_⟩
    simpa using Sets.onConflict htarget hlist hfilter

end OnConflict

/-! ## What is set once -/

/-- No column stands in the list twice, and each has the last value that its field was given. -/
structure AssignedOnce (calls : List Assignment) (entries : List (Assignment × Field)) : Prop where
  columns : (entries.map fun e => e.2.column).Nodup
  last : ∀ e ∈ entries, e.1.IsLast calls

/-- Fields of one model have different columns, so columns repeat where fields do. -/
theorem nodup_columns_iff {m : Model} (hm : (m.fields.map Field.column).Nodup)
    {entries : List (Assignment × Field)} (hfields : ∀ e ∈ entries, m.field? e.1.field = some e.2) :
    (entries.map fun e => e.2.column).Nodup ↔
      ((entries.map Prod.fst).map Assignment.field).Nodup := by
  unfold List.Nodup
  rw [List.map_map, List.pairwise_map, List.pairwise_map]
  refine List.Pairwise.iff_of_mem fun {e e'} he he' => not_congr ?_
  obtain ⟨hmem, hname⟩ := Model.field?_eq_some (hfields e he)
  obtain ⟨hmem', hname'⟩ := Model.field?_eq_some (hfields e' he')
  constructor
  · intro hcolumn
    have hsame : e.2 = e'.2 := List.inj_on_of_nodup_map hm hmem hmem' hcolumn
    rw [Function.comp_apply, Function.comp_apply, ← hname, ← hname', hsame]
  · intro hfield
    have hsame : m.field? e.1.field = m.field? e'.1.field := congrArg m.field? hfield
    rw [hfields e he, hfields e' he', Option.some.injEq] at hsame
    rw [hsame]

namespace Statement

variable {d : Dialect} {s : Supply} {st : Statement} {m : ModelSource} {calls : List Assignment}
  {entries : List (Assignment × Field)} {ps : List Piece}

theorem sets_of_compile (hst : st.Assigns m calls) {s' : Supply} {r : Rendered}
    (h : st.compile d s = (.ok r, s')) :
    ∃ ps entries, r = .ofPieces d ps ∧ st.Sets d s entries ps := by
  obtain ⟨ps, _, hps, rfl, -⟩ := pieces_of_compile h
  cases hst with
  | update hu =>
    obtain ⟨entries, hsets⟩ := Update.sets_of_puts hps
    exact ⟨ps, entries, rfl, hsets⟩
  | conflict hinto hc htold =>
    obtain ⟨r₁, clause, r₂, hsays⟩ := Insert.says_of_puts hc hps
    have hparts := hsays
    obtain ⟨_, _, _, _, _, _, -, -, -, hclause, -, -⟩ := hparts
    obtain ⟨entries, hwritten, hsets⟩ := OnConflict.sets_of_puts htold.action_eq hclause
    exact ⟨ps, entries, rfl, .conflict hc hwritten hsays hsets⟩

namespace Sets

theorem field?_eq (hst : st.Assigns m calls) (h : st.Sets d s entries ps) :
    ∀ e ∈ entries, m.model.field? e.1.field = some e.2 := by
  cases h with
  | update _ _ hlist _ =>
    cases hst with
    | update hu =>
      rw [hu.table_eq] at hlist
      exact hlist.field?
  | conflict _ _ _ hclause =>
    cases hst with
    | conflict hinto _ _ =>
      rw [hinto] at hclause
      cases hclause with
      | duplicateKey hlist => exact hlist.field?
      | onConflict _ hlist _ => exact hlist.field?

/-- Every field of a call is set. -/
theorem exists_entry (hst : st.Assigns m calls) (h : st.Sets d s entries ps) {a : Assignment}
    (ha : a ∈ calls) : ∃ e ∈ entries, m.model.field? a.field = some e.2 := by
  have hfield : a.field ∈ (entries.map Prod.fst).map Assignment.field := by
    cases hst with
    | update hu =>
      cases h with
      | update hassignments _ _ _ =>
        rw [hassignments]
        exact hu.latest.all a ha
    | conflict _ hc htold =>
      cases h with
      | conflict hc' hwritten _ _ =>
        cases hc.symm.trans hc'
        rw [hwritten]
        exact List.mem_map_of_mem (htold.perm_written.subset ha)
  obtain ⟨_, hmem, hname⟩ := List.mem_map.1 hfield
  obtain ⟨e, he, rfl⟩ := List.mem_map.1 hmem
  exact ⟨e, he, by rw [← hname]; exact field?_eq hst h e he⟩

theorem assignedOnce_iff (hm : (m.model.fields.map Field.column).Nodup) (hst : st.Assigns m calls)
    (h : st.Sets d s entries ps) :
    AssignedOnce calls entries ↔
      (∃ u, st = .update u) ∨ (calls.map Assignment.field).Nodup := by
  have hcolumns := nodup_columns_iff hm (field?_eq hst h)
  cases hst with
  | @update u _ hu =>
    refine iff_of_true ?_ (.inl ⟨u, rfl⟩)
    cases h with
    | update hassignments _ _ _ =>
      rw [hassignments] at hcolumns
      refine ⟨hcolumns.2 hu.latest.once, fun e he => hu.latest.last e.1 ?_⟩
      rw [← hassignments]
      exact List.mem_map_of_mem he
  | conflict _ hc htold =>
    rw [or_iff_right (fun ⟨u, hu⟩ => nomatch hu)]
    cases h with
    | conflict hc' hwritten _ _ =>
      cases hc.symm.trans hc'
      have hperm := htold.perm_written
      rw [hwritten, ← (hperm.map Assignment.field).nodup_iff] at hcolumns
      refine ⟨fun honce => hcolumns.1 honce.columns, fun hnodup => ⟨hcolumns.2 hnodup, ?_⟩⟩
      intro e he
      refine Assignment.isLast_of_nodup hnodup (hperm.symm.subset ?_)
      rw [← hwritten]
      exact List.mem_map_of_mem he

end Sets

/-- What a compiled statement sets has a column for every field that it was told. No column stands
there twice, and each has the last value that was given, if the statement is an update; a conflict
clause has this only if no two calls are for one field. -/
theorem assigned_once_iff (registrations : List Registration) (m : ModelSource)
    (hm : m.model ∈ (Registry.after registrations).models) (st : Statement)
    (calls : List Assignment) (hst : st.Assigns m calls) (d : Dialect) (s s' : Supply)
    (r : Rendered) (h : st.compile d s = (.ok r, s')) :
    ∃ ps entries, r = .ofPieces d ps ∧ st.Sets d s entries ps ∧
      (∀ a ∈ calls, ∃ e ∈ entries, m.model.field? a.field = some e.2) ∧
      (AssignedOnce calls entries ↔
        (∃ u, st = .update u) ∨ (calls.map Assignment.field).Nodup) := by
  obtain ⟨ps, entries, rfl, hsets⟩ := sets_of_compile hst h
  have hcolumns := ((Registry.sound_after registrations).models m.model hm).fields.columns
  exact ⟨ps, entries, rfl, hsets, fun a ha => hsets.exists_entry hst ha,
    hsets.assignedOnce_iff hcolumns hst⟩

end Statement

namespace Sample

def ticketDecl : ModelDecl where
  name := "Ticket"
  table := some "tickets"
  fields := [{ name := "body", type := .text, nullable := true }]

theorem ticket_mem : ticket ∈ (Registry.after [.declaration ticketDecl]).models :=
  List.mem_of_getElem? (i := 0) (by with_unfolding_all rfl)

/-- A ticket that is given two bodies. -/
def rewording : Update :=
  (((Update.of ⟨ticket, none⟩).set "body" (.literal (.text "a"))).filtered (.raw "id = 1")).set
    "body" (.literal (.text "b"))

def rewordingCalls : List Assignment :=
  [⟨"body", .literal (.text "a")⟩, ⟨"body", .literal (.text "b")⟩]

def rewordingText : Rendered :=
  ⟨"UPDATE \"tickets\" SET \"body\" = ? WHERE id = 1", [.text "b"]⟩

theorem rewording_once :
    (Statement.update rewording).compile .sqlite ⟨0⟩ = (.ok rewordingText, ⟨0⟩) ∧
    ∃ ps entries, rewordingText = .ofPieces .sqlite ps ∧
      (Statement.update rewording).Sets .sqlite ⟨0⟩ entries ps ∧
        AssignedOnce rewordingCalls entries := by
  have hcompile : (Statement.update rewording).compile .sqlite ⟨0⟩ = (.ok rewordingText, ⟨0⟩) := by
    with_unfolding_all rfl
  have hassigned : rewording.Assigned ⟨ticket, none⟩ rewordingCalls :=
    (((Update.Assigned.of.set "body" _).filtered _).set "body" _)
  obtain ⟨ps, entries, htext, hsets, -, hiff⟩ :=
    Statement.assigned_once_iff [.declaration ticketDecl] ⟨ticket, none⟩ ticket_mem _ _
      (.update hassigned) .sqlite ⟨0⟩ ⟨0⟩ _ hcompile
  exact ⟨hcompile, ps, entries, htext, hsets, hiff.2 (.inl ⟨rewording, rfl⟩)⟩

/-- A conflict clause that is given two bodies. -/
def amendment : OnConflict :=
  ((OnConflict.update.onFields ["id"]).set "body" (.literal (.text "b"))).preserving ["body"]

def amendmentCalls : List Assignment := [⟨"body", .literal (.text "b")⟩, .preserved "body"]

def amendmentPieces : List Piece :=
  [.text "INSERT INTO", .text " ", .name "tickets", .text " (", .name "body", .text ") VALUES ",
    .text "(", .param (.text "a"), .text ")", .text " ON CONFLICT", .text " (", .name "id",
    .text ")", .text " DO UPDATE SET ", .name "body", .text " = ", .text "EXCLUDED.", .name "body",
    .text ", ", .name "body", .text " = ", .param (.text "b")]

/-- Both stand in the text, and the one that was given last comes first. -/
theorem amendment_twice :
    amendment.Told amendmentCalls ∧
    (Statement.insert (filed amendment)).compile .sqlite ⟨0⟩ =
      (.ok (.ofPieces .sqlite amendmentPieces), ⟨0⟩) ∧
    ∀ entries ps, (Statement.insert (filed amendment)).Sets .sqlite ⟨0⟩ entries ps →
      ¬ AssignedOnce amendmentCalls entries := by
  have htold : amendment.Told amendmentCalls :=
    ((OnConflict.Told.update.onFields ["id"]).set "body" _).preserving ["body"]
  refine ⟨htold, by with_unfolding_all rfl, fun entries ps hsets honce => ?_⟩
  have hcolumns : (ticket.fields.map Field.column).Nodup := by decide
  rcases (hsets.assignedOnce_iff hcolumns (.conflict rfl rfl htold)).1 honce with ⟨u, hu⟩ | hnodup
  · cases hu
  · exact absurd hnodup (by decide)

end Sample

end SqlMapper
