import SqlMapper.Proofs.Fragment.Anchored

/-!
# SqlMapper.Proofs.Fragment.Repeats

Fragments that can take the place of others.

`Repeats fs gs` says that wherever `fs` runs, `gs` runs in every state with the same supply and the
same proposal, and leaves the supply as `fs` does. So the same defaults are drawn, and what else
surrounds the two may differ. Items of a list can be left out that draw nothing (`Repeats.filter`).
-/

namespace SqlMapper

namespace Fragment

open Rendering

variable {fs gs fs' gs' : List Fragment} {fss : List (List Fragment)}

theorem Anchored.supply (h : Anchored [] fs) {r r' : Rendering} (hr : Runs fs r r') :
    r'.supply = r.supply := by
  obtain ⟨ρ', hρ', hs⟩ := h.runs hr rfl (.nil r)
  cases hr.symm.trans hρ'
  exact hs

/-- Words of the statement itself, which always run. -/
def isWord : Fragment → Bool
  | text _ | identifier _ => true
  | _ => false

theorem runs_words (h : ∀ f ∈ fs, f.isWord = true) (r : Rendering) :
    ∃ r', Runs fs r r' ∧ r'.supply = r.supply := by
  induction fs generalizing r with
  | nil => exact ⟨r, runs_nil.2 rfl, rfl⟩
  | cons f fs ih =>
    have hword := h f (List.mem_cons_self ..)
    have hrest := fun r => ih (fun g hg => h g (List.mem_cons_of_mem _ hg)) r
    cases f with
    | text s =>
      obtain ⟨r', hr', hs⟩ := hrest (r.put (.text s))
      exact ⟨r', runs_cons.2 ⟨_, rfl, hr'⟩, hs⟩
    | identifier s =>
      obtain ⟨r', hr', hs⟩ := hrest (r.put (.name s))
      exact ⟨r', runs_cons.2 ⟨_, rfl, hr'⟩, hs⟩
    | _ => cases hword

def Repeats (fs gs : List Fragment) : Prop :=
  ∀ ⦃r r' ρ : Rendering⦄, Runs fs r r' → ρ.supply = r.supply → ρ.proposal? = r.proposal? →
    ∃ ρ', Runs gs ρ ρ' ∧ ρ'.supply = r'.supply

namespace Repeats

theorem nil : Repeats [] [] := by
  intro r r' ρ hr hsupply _
  rw [runs_nil.1 hr]
  exact ⟨ρ, runs_nil.2 rfl, hsupply⟩

theorem trans {hs : List Fragment} (h : Repeats fs gs) (h' : Repeats gs hs) : Repeats fs hs := by
  intro r r' ρ hr hsupply hproposal
  obtain ⟨μ, hμ, hs⟩ := h hr hsupply hproposal
  obtain ⟨ρ', hρ', hs'⟩ := h' hμ rfl rfl
  exact ⟨ρ', hρ', hs'.trans hs⟩

theorem append (h : Repeats fs gs) (h' : Repeats fs' gs') : Repeats (fs ++ fs') (gs ++ gs') := by
  intro r r' ρ hr hsupply hproposal
  obtain ⟨m, hf, hf'⟩ := runs_append.1 hr
  obtain ⟨μ, hμ, hs⟩ := h hf hsupply hproposal
  have hproposal' : μ.proposal? = m.proposal? := by
    rw [hμ.extends.proposal?_eq, hf.extends.proposal?_eq, hproposal]
  obtain ⟨ρ', hρ', hs'⟩ := h' hf' hs hproposal'
  exact ⟨ρ', runs_append.2 ⟨μ, hμ, hρ'⟩, hs'⟩

theorem anchored (h : Anchored [] fs) : Repeats fs fs := by
  intro r r' ρ hr hsupply hproposal
  obtain ⟨ρ', hρ', hs⟩ := h.runs hr hproposal (.nil ρ)
  exact ⟨ρ', hρ', by rw [hs, hsupply, h.supply hr]⟩

/-- Words can stand in the place of anything that draws nothing. -/
theorem words (h : Anchored [] fs) (hwords : ∀ g ∈ gs, g.isWord = true) : Repeats fs gs := by
  intro r r' ρ hr hsupply _
  obtain ⟨ρ', hρ', hs⟩ := runs_words hwords ρ
  exact ⟨ρ', hρ', by rw [hs, hsupply, h.supply hr]⟩

theorem refused (e : Error) (gs : List Fragment) : Repeats [refuse e] gs :=
  fun _ _ _ hr => absurd hr not_runs_refuse

theorem drawn (f : Field) : Repeats [drawn f] [drawn f] := by
  intro r r' ρ hr hsupply _
  rw [runs_singleton, run, runDrawn] at hr
  simp only [runs_singleton, run, runDrawn, hsupply]
  dsimp only at hr ⊢
  split at hr
  · cases hr
    exact ⟨_, rfl, rfl⟩
  · cases hr

/-! ## Lists -/

/-- The commas of a list make no difference. -/
theorem commas (h : ∀ fs ∈ fss, Repeats fs fs) :
    Repeats (commas fss) fss.flatten ∧ Repeats fss.flatten (commas fss) := by
  induction fss with
  | nil => exact ⟨nil, nil⟩
  | cons fs fss ih =>
    have hfs := h fs (List.mem_cons_self ..)
    obtain ⟨hthere, hback⟩ := ih fun gs hgs => h gs (List.mem_cons_of_mem _ hgs)
    cases fss with
    | nil =>
      have hone : Fragment.commas [fs] = fs := by simp [Fragment.commas, separated]
      rw [hone, List.flatten_cons, List.flatten_nil, List.append_nil]
      exact ⟨hfs, hfs⟩
    | cons gs fss =>
      have hmore : Fragment.commas (fs :: gs :: fss) =
          fs ++ ([text ", "] ++ Fragment.commas (gs :: fss)) := by
        simp [Fragment.commas, separated, List.intercalate_cons_cons]
      have hcomma : Anchored [] [text ", "] := .free _ rfl
      rw [hmore, List.flatten_cons]
      exact ⟨hfs.append ((words hcomma (List.forall_mem_nil _)).append hthere),
        hfs.append ((words .nil (by simp [isWord])).append hback)⟩

/-- Some items of a list take the place of themselves, and the others can be missing. -/
theorem filter {α : Type} {xs : List α} {p : α → Bool} {f g : α → List Fragment}
    (hkept : ∀ x ∈ xs, p x = true → Repeats (f x) (g x))
    (hdropped : ∀ x ∈ xs, p x = false → Repeats (f x) []) :
    Repeats (xs.map f).flatten ((xs.filter p).map g).flatten := by
  induction xs with
  | nil => exact nil
  | cons x xs ih =>
    have hrest := ih (fun y hy => hkept y (List.mem_cons_of_mem _ hy))
      (fun y hy => hdropped y (List.mem_cons_of_mem _ hy))
    rw [List.map_cons, List.flatten_cons]
    by_cases hp : p x = true
    · rw [List.filter_cons_of_pos hp, List.map_cons, List.flatten_cons]
      exact (hkept x (List.mem_cons_self ..) hp).append hrest
    · rw [List.filter_cons_of_neg hp]
      exact (hdropped x (List.mem_cons_self ..) (by simpa using hp)).append hrest

end Repeats

end Fragment

end SqlMapper
