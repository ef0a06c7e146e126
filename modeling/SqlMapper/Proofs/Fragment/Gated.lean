import Mathlib.Data.List.Forall2
import SqlMapper.Proofs.Fragment.Run
import SqlMapper.Proofs.Join.Walk

/-!
# SqlMapper.Proofs.Fragment.Gated

Fragments of which some stretches are refused.

`Gated fs gs` says that `fs` is `gs` with a compilation error in place of some stretches, at any
depth. A run of `fs` is either the run of `gs` or ends in such an error (`Gated.runAll`), for what
stands before a refused stretch is the same on both sides.
-/

namespace SqlMapper

namespace Fragment

inductive Gated : List Fragment → List Fragment → Prop
  | refl (fs : List Fragment) : Gated fs fs
  | append {fs fs' gs gs' : List Fragment} :
      Gated fs gs → Gated fs' gs' → Gated (fs ++ fs') (gs ++ gs')
  | refused (e : CompilationError) (gs : List Fragment) : Gated [refuse (.compilation e)] gs
  | nested (s : Scope) {fs gs : List Fragment} : Gated fs gs → Gated [nested s fs] [nested s gs]
  | unqualified {fs gs : List Fragment} : Gated fs gs → Gated [unqualified fs] [unqualified gs]

/-! ## Runs -/

theorem runAll_append_of_ok {fs gs : List Fragment} {r m : Rendering}
    (h : runAll fs r = (.ok (), m)) : runAll (fs ++ gs) r = runAll gs m := by
  induction fs generalizing r with
  | nil =>
    cases h
    rfl
  | cons f fs ih =>
    obtain ⟨n, hf, hfs⟩ := runs_cons.1 h
    rw [List.cons_append, runAll, hf]
    exact ih hfs

theorem runAll_append_of_error {fs : List Fragment} {r m : Rendering} {e : Error}
    (h : runAll fs r = (.error e, m)) (gs : List Fragment) :
    runAll (fs ++ gs) r = (.error e, m) := by
  induction fs generalizing r with
  | nil => cases h
  | cons f fs ih =>
    rw [runAll] at h
    rw [List.cons_append, runAll]
    rcases hf : run f r with ⟨e' | ⟨⟩, n⟩
    · rw [hf] at h
      exact h
    · rw [hf] at h
      exact ih h

theorem runAll_singleton (f : Fragment) (r : Rendering) : runAll [f] r = run f r := by
  rw [runAll]
  rcases run f r with ⟨_ | ⟨⟩, _⟩ <;> rfl

/-- The run of a gated statement is that of the whole one, or ends at a gate. -/
theorem Gated.runAll {fs gs : List Fragment} (h : Gated fs gs) (r : Rendering) :
    runAll fs r = runAll gs r ∨ ∃ e, (runAll fs r).1 = .error (.compilation e) := by
  induction h generalizing r with
  | refl fs => exact .inl rfl
  | @append fs fs' gs gs' _ _ ihf ihg =>
    have herror {e : Error} {m : Rendering} (h : Fragment.runAll fs r = (.error e, m)) :
        (Fragment.runAll (fs ++ fs') r).1 = .error e := by
      rw [runAll_append_of_error h]
    rcases hfs : Fragment.runAll fs r with ⟨e | ⟨⟩, m⟩
    -- The part ends with an error: the whole one ends with the same, or the part came to a gate.
    · rcases ihf r with heq | ⟨e', he'⟩
      · rw [hfs] at heq
        exact .inl (by rw [runAll_append_of_error hfs, runAll_append_of_error heq.symm])
      · rw [hfs] at he'
        cases he'
        exact .inr ⟨e', herror hfs⟩
    · rcases ihf r with heq | ⟨e', he'⟩
      · rw [hfs] at heq
        rw [runAll_append_of_ok hfs, runAll_append_of_ok heq.symm]
        exact ihg m
      · rw [hfs] at he'
        cases he'
  | refused e gs =>
    right
    exact ⟨e, by rw [runAll_singleton, run]⟩
  | nested s _ ih =>
    rw [runAll_singleton, runAll_singleton, run, run]
    rcases ih (r.enter s) with heq | ⟨e, he⟩
    · exact .inl (by rw [heq])
    · exact .inr ⟨e, he⟩
  | unqualified _ ih =>
    rw [runAll_singleton, runAll_singleton, run, run]
    rcases ih (r.setBare true) with heq | ⟨e, he⟩
    · exact .inl (by rw [heq])
    · exact .inr ⟨e, he⟩

/-! ## Compositions -/

namespace Gated

variable {fs gs fs' gs' : List Fragment} {fss gss fss' gss' : List (List Fragment)}

theorem lead (fs : List Fragment) (h : Gated fs' gs') : Gated (fs ++ fs') (fs ++ gs') :=
  (Gated.refl fs).append h

theorem ending (h : Gated fs gs) (fs' : List Fragment) : Gated (fs ++ fs') (gs ++ fs') :=
  h.append (.refl fs')

theorem cons (f : Fragment) (h : Gated fs gs) : Gated (f :: fs) (f :: gs) := h.lead [f]

theorem enclosed (o c : String) (h : Gated fs gs) : Gated (enclosed o fs c) (enclosed o gs c) :=
  (h.cons (text o)).ending [text c]

theorem parenthesized (h : Gated fs gs) : Gated (parenthesized fs) (parenthesized gs) :=
  h.enclosed "(" ")"

theorem requiring (available : Bool) (e : CompilationError) (h : Gated fs gs) :
    Gated (requiring available e fs) (requiring available e gs) := by
  unfold Fragment.requiring
  split
  · exact h
  · exact .refl _

/-- A clause that needs a capability, in a dialect and in one that has it if the first one does. -/
theorem available {a a' : Bool} (ha : a = true → a' = true) (e : CompilationError)
    (h : Gated fs gs) : Gated (Fragment.requiring a e fs) (Fragment.requiring a' e gs) := by
  cases a with
  | false => exact .refused e _
  | true =>
    rw [ha rfl]
    exact h

theorem separated (s : String) (h : List.Forall₂ Gated fss gss) :
    Gated (separated s fss) (separated s gss) := by
  induction h with
  | nil => exact .refl _
  | cons hf hrest ih =>
    cases hrest with
    | nil => simpa [Fragment.separated] using hf
    | cons hg hrest =>
      rw [Fragment.separated, Fragment.separated, List.intercalate_cons_cons,
        List.intercalate_cons_cons]
      exact (hf.ending [text s]).append ih

theorem commas (h : List.Forall₂ Gated fss gss) : Gated (commas fss) (commas gss) :=
  separated ", " h

theorem clause (s : String) (h : Gated fs gs) : Gated (clause s fs) (clause s gs) := h.cons (text s)

theorem listClause (s : String) (h : List.Forall₂ Gated fss gss) :
    Gated (listClause s fss) (listClause s gss) := by
  cases h with
  | nil => exact .refl _
  | cons hf hrest => exact (commas (.cons hf hrest)).clause s

theorem flatMap {α : Type} {xs : List α} {f g : α → List Fragment}
    (h : ∀ x ∈ xs, Gated (f x) (g x)) : Gated (xs.flatMap f) (xs.flatMap g) := by
  induction xs with
  | nil => exact .refl _
  | cons x xs ih =>
    rw [List.flatMap_cons, List.flatMap_cons]
    exact (h x (List.mem_cons_self ..)).append (ih fun y hy => h y (List.mem_cons_of_mem _ hy))

theorem map {α : Type} {xs : List α} {f g : α → List Fragment} (h : ∀ x, Gated (f x) (g x)) :
    List.Forall₂ Gated (xs.map f) (xs.map g) := by
  rw [List.forall₂_map_left_iff, List.forall₂_map_right_iff, List.forall₂_same]
  exact fun x _ => h x

end Gated

end Fragment

end SqlMapper
