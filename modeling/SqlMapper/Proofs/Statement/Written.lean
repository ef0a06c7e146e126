import SqlMapper.Proofs.Fragment.Run
import SqlMapper.Proofs.Statement.Mutation

/-!
# SqlMapper.Proofs.Statement.Written

Which values a statement binds.

`Atom.Written` relates the atoms of a statement to pieces: they are in the same order, with one
parameter for each value. Every run of a layout puts out such pieces (`Laid.written`).
-/

namespace SqlMapper

open Fragment Rendering

/-! ## Atoms in the output -/

namespace Atom

/-- Whether the atom says only which sources there are. -/
def isSilent : Atom → Bool
  | source _ | reference _ | target _ => true
  | _ => false

/-- The pieces are the atoms in their order, with other SQL and names around them. The supply goes
through the defaults among the atoms. -/
inductive Written : List Atom → Supply → List Piece → Supply → Prop
  | nil (s : Supply) : Written [] s [] s
  | sql (p : String) {as : List Atom} {s s' : Supply} {ps : List Piece} :
      Written as s ps s' → Written as s (.text p :: ps) s'
  | name (p : String) {as : List Atom} {s s' : Supply} {ps : List Piece} :
      Written as s ps s' → Written as s (.name p :: ps) s'
  | word (w : String) {as : List Atom} {s s' : Supply} {ps : List Piece} :
      Written as s ps s' → Written (word w :: as) s (.text w :: ps) s'
  | identifier (w : String) {as : List Atom} {s s' : Supply} {ps : List Piece} :
      Written as s ps s' → Written (Atom.word w :: as) s (.name w :: ps) s'
  | bound {a : Atom} {v : Value} {as : List Atom} {s s₁ s' : Supply} {ps : List Piece} :
      a.bound? s = some (.ok v, s₁) → Written as s₁ ps s' →
        Written (a :: as) s (.param v :: ps) s'
  | silent {a : Atom} {as : List Atom} {s s' : Supply} {ps : List Piece} :
      a.isSilent = true → Written as s ps s' → Written (a :: as) s ps s'

namespace Written

variable {as bs : List Atom} {s s₁ s' : Supply} {ps qs : List Piece}

theorem append (h : Written as s ps s₁) (h' : Written bs s₁ qs s') :
    Written (as ++ bs) s (ps ++ qs) s' := by
  induction h with
  | nil => exact h'
  | sql p _ ih => exact (ih h').sql p
  | name p _ ih => exact (ih h').name p
  | word w _ ih => exact (ih h').word w
  | identifier w _ ih => exact (ih h').identifier w
  | bound hv _ ih => exact .bound hv (ih h')
  | silent ha _ ih => exact .silent ha (ih h')

theorem silents (ha : ∀ a ∈ as, a.isSilent = true) (h : Written bs s ps s') :
    Written (as ++ bs) s ps s' := by
  induction as with
  | nil => exact h
  | cons a as ih =>
    exact .silent (ha a (List.mem_cons_self ..)) (ih fun b hb => ha b (List.mem_cons_of_mem _ hb))

end Written

end Atom

namespace Fragment

theorem bound?_default (f : Field) (s : Supply) :
    (Atom.default f).bound? s =
      some (Atom.encoded (some f) ((f.drawDefault s).1.getD .null), (f.drawDefault s).2) := by
  unfold Atom.bound? Field.drawDefault
  dsimp only
  cases f.decl.default with
  | none => rfl
  | some d => cases d <;> rfl

theorem puts_drawn {f : Field} {r r' : Rendering} {ps : List Piece} (h : Puts [drawn f] r ps r') :
    ∃ v s, (Atom.default f).bound? r.supply = some (.ok v, s) ∧ ps = [.param v] ∧
      r' = { r with supply := s }.put (.param v) := by
  obtain ⟨h, hout⟩ := h
  rw [runs_singleton, run, runDrawn] at h
  dsimp only at h
  rw [bound?_default]
  generalize f.drawDefault r.supply = drawn at h ⊢
  split at h
  · rename_i v hv
    cases h
    rw [put_output] at hout
    exact ⟨v, drawn.2, by rw [← hv]; rfl, (List.append_cancel_left hout).symm, rfl⟩
  · cases h

theorem written_qualifier {q : Qualifier} {r r' : Rendering} {ps : List Piece}
    (h : Puts [qualifier q] r ps r') : Atom.Written [.reference q] r.supply ps r'.supply := by
  cases hbare : r.scope.bare with
  | true =>
    obtain ⟨rfl, rfl⟩ := (puts_qualifier_bare hbare).1 h
    exact .silent rfl (.nil _)
  | false =>
    obtain ⟨rfl, rfl⟩ := (puts_qualifier hbare).1 h
    rw [putAll_supply, qualifierName_supply]
    exact .silent rfl (.name _ (.sql _ (.nil _)))

namespace Laid

variable {d : Dialect}

/-- A run puts out the atoms of what it lays out. -/
theorem written {as : List Atom} {fs : List Fragment} (h : Laid d as fs) {r r' : Rendering}
    {ps : List Piece} (hp : Puts fs r ps r') : Atom.Written as r.supply ps r'.supply := by
  induction h generalizing r r' ps with
  | nil =>
    obtain ⟨rfl, rfl⟩ := puts_nil.1 hp
    exact .nil _
  | append _ _ _ ihf ihg =>
    obtain ⟨m, qs, qs', hf, hg, rfl⟩ := puts_append.1 hp
    exact (ihf hf).append (ihg hg)
  | sql s _ =>
    obtain ⟨rfl, rfl⟩ := puts_text.1 hp
    exact .sql s (.nil _)
  | dialectWord s _ =>
    obtain ⟨rfl, rfl⟩ := puts_text.1 hp
    exact .sql s (.nil _)
  | name s _ =>
    obtain ⟨rfl, rfl⟩ := puts_identifier.1 hp
    exact .name s (.nil _)
  | word s =>
    obtain ⟨rfl, rfl⟩ := puts_text.1 hp
    exact .word s (.nil _)
  | identifier s =>
    obtain ⟨rfl, rfl⟩ := puts_identifier.1 hp
    exact .identifier s (.nil _)
  | literal codec v w hw =>
    obtain ⟨rfl, rfl⟩ := puts_param.1 hp
    exact .bound (by rw [Atom.bound?, hw]; rfl) (.nil _)
  | null =>
    obtain ⟨rfl, rfl⟩ := puts_param.1 hp
    exact .bound rfl (.nil _)
  | drawn f =>
    obtain ⟨v, s, hv, rfl, rfl⟩ := puts_drawn hp
    exact .bound hv (.nil _)
  | column q s =>
    obtain ⟨m, qs, qs', hq, hs, rfl⟩ := puts_cons.1 hp
    obtain ⟨rfl, rfl⟩ := puts_identifier.1 hs
    exact (written_qualifier hq).append (.identifier s (.nil _))
  | star q =>
    obtain ⟨m, qs, qs', hq, hs, rfl⟩ := puts_cons.1 hp
    obtain ⟨rfl, rfl⟩ := puts_text.1 hs
    exact (written_qualifier hq).append (.sql "*" (.nil _))
  | modelTable m =>
    obtain ⟨rfl, rfl⟩ := puts_modelTable.1 hp
    rw [putAll_supply, modelName_supply]
    refine .identifier _ (.silent rfl ?_)
    split
    · exact .nil _
    · exact .sql _ (.name _ (.nil _))
  | equated child childColumn parent parentColumn =>
    obtain ⟨c, p, _, _, rfl, rfl⟩ := puts_equated.1 hp
    rw [putAll_supply]
    exact .sql _ (.name _ (.sql _ (.identifier _ (.sql _ (.name _ (.sql _ (.identifier _
      (.sql _ (.nil _)))))))))
  | proposed field =>
    obtain ⟨m, f, _, _, rfl, rfl⟩ := puts_proposed.1 hp
    exact .name _ (.nil _)
  | refuse _ e => exact absurd hp.1 not_runs_refuse
  | unqualified _ ih =>
    obtain ⟨m, hm, rfl⟩ := puts_unqualified.1 hp
    have h := ih hm
    exact h
  | bare _ ih =>
    obtain ⟨m, hm, rfl⟩ := puts_nested.1 hp
    rw [leave_supply]
    have h := ih hm
    exact h
  | select os _ ih =>
    -- Sources become visible without text or value, so what the body puts out is all there is.
    obtain ⟨m, hm, rfl⟩ := puts_nested.1 hp
    have h := ih (puts_enlist_append.1 hm)
    rw [enlistAll_supply] at h
    rw [leave_supply]
    exact h.silents (by simp [Atom.isSilent])

end Laid

theorem LaidOut.written {d : Dialect} {target : Option ModelSource} {as : List Atom}
    {fs : List Fragment} (h : LaidOut d target as fs) {r r' : Rendering} {ps : List Piece}
    (hp : Puts fs r ps r') : Atom.Written as r.supply ps r'.supply := by
  cases h with
  | query h => exact h.written hp
  | mutation m proposal os hctes _ _ hbody =>
    obtain ⟨m, qs, qs', hc, hnested, rfl⟩ := puts_append.1 hp
    obtain ⟨n, hn, rfl⟩ := puts_nested.1 hnested
    have h := hbody.written (puts_enlist_append.1 hn)
    rw [enlistAll_supply] at h
    rw [leave_supply]
    exact (hctes.written hc).append (.silent rfl (h.silents (by simp [Atom.isSilent])))

end Fragment

/-! ## Compiled statements -/

namespace Statement

/-- A compiled statement is the text of the pieces of a run. -/
theorem pieces_of_compile {st : Statement} {d : Dialect} {s s' : Supply} {r : Rendered}
    (h : st.compile d s = (.ok r, s')) :
    ∃ ps m, Puts (st.fragments d) (.start s) ps m ∧ r = .ofPieces d ps ∧ s' = m.supply := by
  unfold compile render at h
  cases hrun : runAll (st.fragments d) (.start s) with
  | mk outcome m =>
    rw [hrun] at h
    cases outcome with
    | error e => cases h
    | ok _ =>
      have hruns : Runs (st.fragments d) (.start s) m := hrun
      obtain ⟨ps, hps⟩ := hruns.puts
      have hout : m.output.toList = ps := hps.2
      cases h
      exact ⟨ps, m, hps, by rw [hout], rfl⟩

/-- A statement whose fragments run is compiled to the pieces of the run. -/
theorem compile_of_puts {st : Statement} {d : Dialect} {s : Supply} {ps : List Piece}
    {m : Rendering} (h : Puts (st.fragments d) (.start s) ps m) :
    st.compile d s = (.ok (.ofPieces d ps), m.supply) := by
  obtain ⟨hruns, hout⟩ := h
  unfold compile render
  rw [hruns]
  have hout' : m.output.toList = ps := hout
  rw [← hout']
  rfl

end Statement

end SqlMapper
