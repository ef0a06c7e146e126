import SqlMapper.Proofs.Statement.Written
import SqlMapper.Proofs.Text.Pieces

/-!
# SqlMapper.Proofs.Statement.Parameters

Where the text of a statement has placeholders for the values it binds.

* `Laid.readable`: the pieces of a run have no marks but those of their parameters, if no name and
  no SQL that went into the statement has any.
* `Statement.parameters_in_order`: text and parameters of a compiled statement agree.
-/

namespace SqlMapper

open Fragment Placeholder Rendering

/-! ## Statements without marks -/

/-- Neither the table nor the alias holds a mark. -/
structure ModelSource.Plain (m : ModelSource) : Prop where
  table : NoMark m.model.table.toList
  given : ∀ n ∈ m.givenName, NoMark n.toList

def Qualifier.Plain : Qualifier → Prop
  | model m => m.Plain
  | table n => NoMark n.toList

def Origin.Plain : Origin → Prop
  | model m => m.Plain
  | table n => NoMark n.toList
  | derived n => NoMark n.toList

def ModelSource.PlainColumns (m : ModelSource) : Prop :=
  ∀ f ∈ m.model.fields, NoMark f.column.toList

instance (m : ModelSource) : Decidable m.PlainColumns := List.decidableBAll _ _

/-- An atom in which no name and no SQL holds a mark. Values may hold anything. -/
def Atom.Plain : Atom → Prop
  | word s => NoMark s.toList
  | source o => o.Plain
  | reference q => q.Plain
  | target m => m.Plain ∧ m.PlainColumns
  | literal _ _ | null | default _ => True

structure Scope.Plain (s : Scope) : Prop where
  sources : ∀ p ∈ s.sources, NoMark p.2.toList
  proposal : ∀ m ∈ s.proposal, m.PlainColumns

/-- Every name that is visible is without marks. -/
def Rendering.Plain (r : Rendering) : Prop := ∀ s ∈ r.scopes, s.Plain

namespace Rendering

theorem noMark_generatedName (n : Nat) : NoMark (generatedName n).toList := by
  rw [generatedName, String.toList_append]
  exact NoMark.append (by decide) (noMark_toString n)

variable {r : Rendering}

theorem plain_start (s : Supply) : (start s).Plain := by
  intro t ht
  rw [scopes, start, List.mem_singleton] at ht
  exact ht ▸ ⟨by simp, by simp⟩

theorem Plain.putAll (h : r.Plain) (ps : List Piece) : (r.putAll ps).Plain := by
  unfold Plain
  rwa [scopes_putAll]

theorem Plain.lookup (h : r.Plain) {key name : String} (hl : r.lookup? key = some name) :
    NoMark name.toList := by
  obtain ⟨s, hs, hname⟩ := List.exists_of_findSome?_eq_some hl
  exact (h s hs).sources _ (mem_of_lookup hname)

theorem Plain.proposal (h : r.Plain) {m : ModelSource} (hm : r.proposal? = some m) :
    m.PlainColumns := by
  obtain ⟨s, hs, hm⟩ := List.exists_of_findSome?_eq_some hm
  exact (h s hs).proposal m hm

theorem Plain.record (h : r.Plain) {key name : String} (hname : NoMark name.toList) :
    (r.record key name).Plain := by
  intro s hs
  rcases List.mem_cons.1 hs with rfl | hs
  · have hscope := h r.scope (List.mem_cons_self ..)
    refine ⟨fun p hp => ?_, hscope.proposal⟩
    rcases List.mem_append.1 hp with hp | hp
    · exact hscope.sources p hp
    · rw [List.mem_singleton.1 hp]
      exact hname
  · exact h s (List.mem_cons_of_mem _ hs)

theorem Plain.nameModel (h : r.Plain) {m : ModelSource} (hm : m.Plain) :
    NoMark (r.nameModel m).1.toList ∧ (r.nameModel m).2.Plain := by
  unfold Rendering.nameModel
  split
  · rename_i name hname
    exact ⟨hm.given name hname, h⟩
  · split
    · exact ⟨hm.table, h⟩
    · exact ⟨noMark_generatedName _, h⟩

theorem Plain.modelName (h : r.Plain) {m : ModelSource} (hm : m.Plain) :
    NoMark (r.modelName m).1.toList ∧ (r.modelName m).2.Plain := by
  unfold Rendering.modelName
  split
  · rename_i name hname
    exact ⟨h.lookup hname, h⟩
  · obtain ⟨hname, h'⟩ := h.nameModel hm
    exact ⟨hname, h'.record hname⟩

theorem Plain.qualifierName (h : r.Plain) {q : Qualifier} (hq : q.Plain) :
    NoMark (r.qualifierName q).1.toList ∧ (r.qualifierName q).2.Plain := by
  cases q with
  | model m => exact h.modelName hq
  | table n =>
    refine ⟨?_, h⟩
    rw [Rendering.qualifierName]
    cases hl : r.lookup? n with
    | none => exact hq
    | some name => exact h.lookup hl

theorem Plain.enlist (h : r.Plain) {o : Origin} (ho : o.Plain) : (r.enlist o).Plain := by
  cases o with
  | model m =>
    obtain ⟨hname, h'⟩ := h.nameModel ho
    exact h'.record hname
  | table n => exact h.record ho
  | derived n => exact h.record ho

theorem Plain.enlistAll (h : r.Plain) {os : List Origin} (hos : ∀ o ∈ os, o.Plain) :
    (r.enlistAll os).Plain := by
  induction os generalizing r with
  | nil => exact h
  | cons o os ih =>
    exact ih (h.enlist (hos o (List.mem_cons_self ..))) fun o ho => hos o (List.mem_cons_of_mem _ ho)

theorem Plain.enter (h : r.Plain) {s : Scope} (hs : s.Plain) : (r.enter s).Plain := by
  intro t ht
  rcases List.mem_cons.1 ht with rfl | ht
  · exact hs
  · exact h t ht

theorem Plain.leave (h : r.Plain) : r.leave.Plain := by
  unfold Rendering.leave
  split
  · rename_i s rest hs
    intro t ht
    refine h t (List.mem_cons_of_mem _ ?_)
    rwa [hs]
  · exact h

theorem Plain.setBare (h : r.Plain) (bare : Bool) : (r.setBare bare).Plain := by
  intro s hs
  rcases List.mem_cons.1 hs with rfl | hs
  · have hscope := h r.scope (List.mem_cons_self ..)
    exact ⟨hscope.sources, hscope.proposal⟩
  · exact h s (List.mem_cons_of_mem _ hs)

end Rendering

theorem Dialect.Plain.noMark_word {d : Dialect} (hd : d.Plain) {s : String} (h : s ∈ d.words) :
    NoMark s.toList := by
  simp only [Dialect.words, List.mem_append, Option.mem_toList, List.mem_singleton] at h
  rcases h with (h | h) | rfl
  · exact hd.bitwiseXor s h
  · exact hd.limitForOffset s h
  · exact hd.likeEscape

namespace Fragment

variable {d : Dialect} {fs : List Fragment} {r r' : Rendering} {ps : List Piece}

theorem StartsApart.head_isSeparator (h : StartsApart fs) (hp : Puts fs r ps r') :
    ∀ q ∈ ps.head?, q.isSeparator = true := by
  cases fs with
  | nil =>
    obtain ⟨-, rfl⟩ := puts_nil.1 hp
    simp
  | cons f fs =>
    obtain ⟨m, qs, qs', hf, -, rfl⟩ := puts_cons.1 hp
    have hsep := startsApart_cons.1 h
    cases f with
    | text s =>
      obtain ⟨-, rfl⟩ := puts_text.1 hf
      intro q hq
      cases hq
      exact hsep
    | equated child childColumn parent parentColumn =>
      obtain ⟨c, p, -, -, rfl, -⟩ := puts_equated.1 hf
      intro q hq
      cases hq
      rfl
    | refuse e => exact absurd hf.1 not_runs_refuse
    | _ => cases hsep

theorem last_of_isClosing {f : Fragment} (h : f.isClosing = true) (hp : Puts [f] r ps r') :
    ∃ p ∈ ps.getLast?, p.isParam = false := by
  cases f with
  | text s =>
    obtain ⟨-, rfl⟩ := puts_text.1 hp
    exact ⟨_, rfl, rfl⟩
  | identifier s =>
    obtain ⟨-, rfl⟩ := puts_identifier.1 hp
    exact ⟨_, rfl, rfl⟩
  | modelTable m =>
    obtain ⟨-, rfl⟩ := puts_modelTable.1 hp
    split
    · exact ⟨_, rfl, rfl⟩
    · exact ⟨_, rfl, rfl⟩
  | equated child childColumn parent parentColumn =>
    obtain ⟨c, p, -, -, rfl, -⟩ := puts_equated.1 hp
    exact ⟨_, rfl, rfl⟩
  | proposed field =>
    obtain ⟨m, f, -, -, rfl, -⟩ := puts_proposed.1 hp
    exact ⟨_, rfl, rfl⟩
  | refuse e => exact absurd hp.1 not_runs_refuse
  | _ => cases h

theorem EndsApart.last_not_isParam (h : EndsApart fs) (hp : Puts fs r ps r') :
    ∀ p ∈ ps.getLast?, p.isParam = false := by
  rcases List.eq_nil_or_concat fs with rfl | ⟨front, f, rfl⟩
  · obtain ⟨-, rfl⟩ := puts_nil.1 hp
    simp
  · rw [List.concat_eq_append] at h hp
    obtain ⟨m, qs, qs', -, hf, rfl⟩ := puts_append.1 hp
    obtain ⟨p, hlast, hparam⟩ := last_of_isClosing (endsApart_concat.1 h) hf
    rw [List.getLast?_append, hlast]
    intro q hq
    cases hq
    exact hparam

theorem readable_qualifier {q : Qualifier} (hq : q.Plain) (hr : r.Plain)
    (h : Puts [qualifier q] r ps r') :
    r'.Plain ∧ ∀ qs, Piece.Readable qs → Piece.Readable (ps ++ qs) := by
  cases hbare : r.scope.bare with
  | true =>
    obtain ⟨rfl, rfl⟩ := (puts_qualifier_bare hbare).1 h
    exact ⟨hr, fun qs h => h⟩
  | false =>
    obtain ⟨rfl, rfl⟩ := (puts_qualifier hbare).1 h
    obtain ⟨hname, hr'⟩ := hr.qualifierName hq
    exact ⟨hr'.putAll _, fun qs h => .name hname (.text (by decide) h)⟩

theorem Laid.readable {as : List Atom} (h : Laid d as fs) (hd : d.Plain) (ha : ∀ a ∈ as, a.Plain)
    (hr : r.Plain) (hp : Puts fs r ps r') : r'.Plain ∧ Piece.Readable ps := by
  induction h generalizing r r' ps with
  | nil =>
    obtain ⟨rfl, rfl⟩ := puts_nil.1 hp
    exact ⟨hr, .nil⟩
  | append _ _ hapart ihf ihg =>
    obtain ⟨m, qs, qs', hf, hg, rfl⟩ := puts_append.1 hp
    obtain ⟨hm, hqs⟩ := ihf (fun a h => ha a (List.mem_append_left _ h)) hr hf
    obtain ⟨hr', hqs'⟩ := ihg (fun a h => ha a (List.mem_append_right _ h)) hm hg
    refine ⟨hr', hqs.append hqs' ?_⟩
    -- What ends one part and what starts the next must not read as one placeholder.
    rcases hapart with hapart | hapart
    · exact .inl (hapart.last_not_isParam hf)
    · exact .inr (hapart.head_isSeparator hg)
  | sql s hs =>
    obtain ⟨rfl, rfl⟩ := puts_text.1 hp
    exact ⟨hr, .text hs .nil⟩
  | dialectWord s hs =>
    obtain ⟨rfl, rfl⟩ := puts_text.1 hp
    exact ⟨hr, .text (hd.noMark_word hs) .nil⟩
  | name s hs =>
    obtain ⟨rfl, rfl⟩ := puts_identifier.1 hp
    exact ⟨hr, .name hs .nil⟩
  | word s =>
    obtain ⟨rfl, rfl⟩ := puts_text.1 hp
    exact ⟨hr, .text (ha (.word s) (List.mem_cons_self ..)) .nil⟩
  | identifier s =>
    obtain ⟨rfl, rfl⟩ := puts_identifier.1 hp
    exact ⟨hr, .name (ha (.word s) (List.mem_cons_self ..)) .nil⟩
  | literal codec v w _ =>
    obtain ⟨rfl, rfl⟩ := puts_param.1 hp
    exact ⟨hr, .singleton trivial⟩
  | null =>
    obtain ⟨rfl, rfl⟩ := puts_param.1 hp
    exact ⟨hr, .singleton trivial⟩
  | drawn f =>
    obtain ⟨v, s, -, rfl, rfl⟩ := puts_drawn hp
    exact ⟨hr, .singleton trivial⟩
  | column q s =>
    obtain ⟨m, qs, qs', hq, hs, rfl⟩ := puts_cons.1 hp
    obtain ⟨rfl, rfl⟩ := puts_identifier.1 hs
    obtain ⟨hm, hqs⟩ := readable_qualifier (ha (.reference q) (List.mem_cons_self ..)) hr hq
    have hcolumn : NoMark s.toList := ha (.word s) (by simp)
    exact ⟨hm, hqs _ (.name hcolumn .nil)⟩
  | star q =>
    obtain ⟨m, qs, qs', hq, hs, rfl⟩ := puts_cons.1 hp
    obtain ⟨rfl, rfl⟩ := puts_text.1 hs
    obtain ⟨hm, hqs⟩ := readable_qualifier (ha (.reference q) (List.mem_cons_self ..)) hr hq
    exact ⟨hm, hqs _ (.text (by decide) .nil)⟩
  | modelTable m =>
    obtain ⟨rfl, rfl⟩ := puts_modelTable.1 hp
    have hm : m.Plain := ha (.reference (.model m)) (by simp)
    obtain ⟨hname, hr'⟩ := hr.modelName hm
    refine ⟨hr'.putAll _, .name hm.table ?_⟩
    split
    · exact .nil
    · exact .text (by decide) (.name hname .nil)
  | equated child childColumn parent parentColumn =>
    obtain ⟨c, p, hc, hparent, rfl, rfl⟩ := puts_equated.1 hp
    have hchild : NoMark childColumn.toList := ha (.word childColumn) (by simp)
    have hparentColumn : NoMark parentColumn.toList := ha (.word parentColumn) (by simp)
    exact ⟨hr.putAll _, .text (by decide) (.name (hr.lookup hc) (.text (by decide) (.name hchild
      (.text (by decide) (.name (hr.lookup hparent) (.text (by decide) (.name hparentColumn
        (.text (by decide) .nil))))))))⟩
  | proposed field =>
    obtain ⟨m, f, hm, hf, rfl, rfl⟩ := puts_proposed.1 hp
    exact ⟨hr, .name (hr.proposal hm f (List.mem_of_find?_eq_some hf)) .nil⟩
  | refuse _ e => exact absurd hp.1 not_runs_refuse
  | unqualified _ ih =>
    obtain ⟨m, hm, rfl⟩ := puts_unqualified.1 hp
    obtain ⟨hm, hps⟩ := ih ha (hr.setBare true) hm
    exact ⟨hm.setBare _, hps⟩
  | bare _ ih =>
    obtain ⟨m, hm, rfl⟩ := puts_nested.1 hp
    obtain ⟨hm, hps⟩ := ih ha (hr.enter ⟨by simp, by simp⟩) hm
    exact ⟨hm.leave, hps⟩
  | select os _ ih =>
    obtain ⟨m, hm, rfl⟩ := puts_nested.1 hp
    have hos : ∀ o ∈ os, o.Plain := fun o ho =>
      ha (.source o) (List.mem_append_left _ (List.mem_map_of_mem ho))
    have hscope : (selectScope os).Plain := ⟨by simp [selectScope], by simp [selectScope]⟩
    obtain ⟨hm, hps⟩ := ih (fun a h => ha a (List.mem_append_right _ h))
      ((hr.enter hscope).enlistAll hos) (puts_enlist_append.1 hm)
    exact ⟨hm.leave, hps⟩

theorem LaidOut.readable {target : Option ModelSource} {as : List Atom}
    (h : LaidOut d target as fs) (hd : d.Plain) (ha : ∀ a ∈ as, a.Plain)
    (hr : r.Plain) (hp : Puts fs r ps r') : Piece.Readable ps := by
  cases h with
  | query h => exact (h.readable hd ha hr hp).2
  | @mutation target proposal os as bs ctes body hctes hend hproposal hbody =>
    obtain ⟨m, qs, qs', hc, hnested, rfl⟩ := puts_append.1 hp
    obtain ⟨n, hn, rfl⟩ := puts_nested.1 hnested
    obtain ⟨hm, hqs⟩ := hctes.readable hd (fun a h => ha a (List.mem_append_left _ h)) hr hc
    have ha : ∀ a ∈ Atom.target target :: os.map Atom.source ++ bs, a.Plain := fun a h =>
      ha a (List.mem_append_right _ h)
    have htarget : target.Plain ∧ target.PlainColumns := ha (.target target) (by simp)
    have hos : ∀ o ∈ os, o.Plain := fun o ho => ha (.source o) (by simp [ho])
    have hscope : (targetScope target proposal).Plain := by
      refine ⟨by simp [targetScope, mutationScope, htarget.1.table], fun p hp => ?_⟩
      rw [hproposal p hp]
      exact htarget.2
    have hps := hbody.readable hd (fun a h => ha a (List.mem_append_right _ h))
      ((hm.enter hscope).enlistAll hos) (puts_enlist_append.1 hn)
    exact hqs.append hps.2 (.inl (hend.last_not_isParam hc))

end Fragment

/-! ## Compiled statements -/

/-- The parameters of a compiled statement are the values that it was made with, as their fields
encode them, in the order of its text, and its placeholders are in step with them. -/
theorem Statement.parameters_in_order (st : Statement) (d : Dialect) (s s' : Supply) (r : Rendered)
    (hd : d.Plain) (ha : ∀ a ∈ st.atoms, a.Plain) (h : st.compile d s = (.ok r, s')) :
    ∃ ps, Atom.Written st.atoms s ps s' ∧ r.InStep d ps := by
  obtain ⟨ps, m, hps, rfl, rfl⟩ := pieces_of_compile h
  have hread := (Statement.laid d st).readable hd ha (plain_start s) hps
  exact ⟨ps, (Statement.laid d st).written hps, Rendered.inStep hd hread⟩

namespace Sample

/-- A default that counts the rows. -/
def stamp (s : Supply) : Value × Supply := (.bigInt (.ofNat s.drawn), ⟨s.drawn + 1⟩)

def note : Model where
  name := "Note"
  table := "notes"
  fields := [⟨0, "body", "Note", { name := "body", type := .text }⟩,
    ⟨1, "stamp", "Note", { name := "stamp", type := .bigInt, default := some (.computed stamp) }⟩]
  primaryKey := .absent
  foreignKeys := []
  indexes := []
  reverse := []

def twoNotes : Statement :=
  .insert ((Insert.of ⟨note, none⟩).valueRows [[("body", .text "a?")], [("body", .text "b")]])

def twoNotesPieces : List Piece :=
  [.text "INSERT INTO", .text " ", .name "notes", .text " (", .name "body", .text ", ",
    .name "stamp", .text ") VALUES ", .text "(", .param (.text "a?"), .text ", ",
    .param (.bigInt 7), .text ")", .text ", ", .text "(", .param (.text "b"), .text ", ",
    .param (.bigInt 8), .text ")"]

theorem plain_postgres : Dialect.postgres.Plain :=
  ⟨by decide, by decide, by decide, by decide⟩

theorem plain_twoNotes : ∀ a ∈ twoNotes.atoms, a.Plain := by
  have hatoms : twoNotes.atoms = [.target ⟨note, none⟩, .word "notes", .word "body", .word "stamp",
      .literal (note.field? "body") (.text "a?"), .default (note.fields[1]),
      .literal (note.field? "body") (.text "b"), .default (note.fields[1])] := by
    with_unfolding_all rfl
  have htarget : Atom.Plain (.target ⟨note, none⟩) := ⟨⟨by decide, by decide⟩, by decide⟩
  have hnotes : NoMark "notes".toList := by decide
  have hbody : NoMark "body".toList := by decide
  have hstamp : NoMark "stamp".toList := by decide
  rw [hatoms]
  simp only [List.forall_mem_cons]
  exact ⟨htarget, hnotes, hbody, hstamp, trivial, trivial, trivial, trivial, by simp⟩

theorem twoNotes_parameters :
    ∃ ps, Atom.Written twoNotes.atoms ⟨7⟩ ps ⟨9⟩ ∧
      (Rendered.ofPieces .postgres twoNotesPieces).InStep .postgres ps :=
  Statement.parameters_in_order twoNotes .postgres ⟨7⟩ ⟨9⟩ _ plain_postgres plain_twoNotes
    (by with_unfolding_all rfl)

end Sample

end SqlMapper
