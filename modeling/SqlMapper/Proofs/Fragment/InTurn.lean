import Mathlib.Data.List.Forall2
import SqlMapper.Proofs.Fragment.Run

/-!
# SqlMapper.Proofs.Fragment.InTurn

Lists whose items are put out one after another, with commas between them.

`InTurn R xs r pss r'` says that the items `xs` take `r` to `r'`, each by a step of `R` from where
the one before it has stopped, and that `pss` are the pieces of each of them. `Threads T xs s s'`
keeps of this only what the items do to the supply.
-/

namespace SqlMapper

namespace Fragment

variable {α β : Type}

inductive InTurn (R : α → Rendering → List Piece → Rendering → Prop) :
    List α → Rendering → List (List Piece) → Rendering → Prop
  | nil (r : Rendering) : InTurn R [] r [] r
  | last {x : α} {r r' : Rendering} {ps : List Piece} : R x r ps r' → InTurn R [x] r [ps] r'
  | more {x y : α} {xs : List α} {r m r' : Rendering} {ps : List Piece}
      {pss : List (List Piece)} :
      R x r ps m → InTurn R (y :: xs) (m.put (.text ", ")) pss r' →
        InTurn R (x :: y :: xs) r (ps :: pss) r'

/-- The pieces of items with commas between them. -/
def listed (pss : List (List Piece)) : List Piece := [Piece.text ", "].intercalate pss

theorem listed_cons {ps : List Piece} {pss : List (List Piece)} (h : pss ≠ []) :
    listed (ps :: pss) = ps ++ .text ", " :: listed pss := by
  cases pss with
  | nil => exact absurd rfl h
  | cons qs pss => simp [listed, List.intercalate_cons_cons]

theorem listed_singleton (ps : List Piece) : listed [ps] = ps := List.intercalate_singleton

namespace InTurn

variable {R S : α → Rendering → List Piece → Rendering → Prop} {xs : List α} {r r' : Rendering}
  {pss : List (List Piece)}

theorem length_eq (h : InTurn R xs r pss r') : pss.length = xs.length := by
  induction h with
  | nil => rfl
  | last _ => rfl
  | more _ _ ih => rw [List.length_cons, ih]; rfl

theorem pieces_ne_nil {x : α} (h : InTurn R (x :: xs) r pss r') : pss ≠ [] := by
  rintro rfl
  cases h.length_eq

theorem mono (h : InTurn R xs r pss r') (hRS : ∀ x r ps r', R x r ps r' → S x r ps r') :
    InTurn S xs r pss r' := by
  induction h with
  | nil r => exact .nil r
  | last hx => exact .last (hRS _ _ _ _ hx)
  | more hx _ ih => exact .more (hRS _ _ _ _ hx) ih

theorem map {f : β → α} {ys : List β} (h : InTurn (fun y => R (f y)) ys r pss r') :
    InTurn R (ys.map f) r pss r' := by
  induction h with
  | nil r => exact .nil r
  | last hx => exact .last hx
  | more hx _ ih => exact .more hx ih

/-- The items of two lists, each list by itself. -/
theorem split {ys : List α} (h : InTurn R (xs ++ ys) r pss r') :
    ∃ front added m n, pss = front ++ added ∧ InTurn R xs r front m ∧ InTurn R ys n added r' := by
  induction xs generalizing r pss with
  | nil => exact ⟨[], pss, r, r, rfl, .nil r, h⟩
  | cons x xs ih =>
    cases xs with
    | nil =>
      cases h with
      | last hx => exact ⟨_, [], _, _, (List.append_nil _).symm, .last hx, .nil _⟩
      | more hx hys => exact ⟨_, _, _, _, rfl, .last hx, hys⟩
    | cons y xs =>
      cases h with
      | more hx hrest =>
        obtain ⟨front, added, m, n, rfl, hxs, hys⟩ := ih hrest
        exact ⟨_ :: front, added, m, n, rfl, .more hx hxs, hys⟩

end InTurn

theorem puts_commas {f : α → List Fragment} {xs : List α} {r r' : Rendering} {ps : List Piece}
    (h : Puts (commas (xs.map f)) r ps r') :
    ∃ pss, InTurn (fun x => Puts (f x)) xs r pss r' ∧ ps = listed pss := by
  induction xs generalizing r ps with
  | nil =>
    obtain ⟨rfl, rfl⟩ := puts_nil.1 h
    exact ⟨[], .nil _, rfl⟩
  | cons x xs ih =>
    cases xs with
    | nil =>
      have hone : commas ([x].map f) = f x := by simp [commas, separated]
      rw [hone] at h
      exact ⟨[ps], .last h, (listed_singleton ps).symm⟩
    | cons y ys =>
      have htwo : commas ((x :: y :: ys).map f) =
          f x ++ ([text ", "] ++ commas ((y :: ys).map f)) := by
        simp [commas, separated, List.intercalate_cons_cons]
      rw [htwo] at h
      obtain ⟨m, qs, _, hx, hrest, rfl⟩ := puts_append.1 h
      obtain ⟨_, _, _, hcomma, hys, rfl⟩ := puts_append.1 hrest
      obtain ⟨rfl, rfl⟩ := puts_text.1 hcomma
      obtain ⟨pss, hpss, rfl⟩ := ih hys
      exact ⟨qs :: pss, .more hx hpss, (listed_cons hpss.pieces_ne_nil).symm⟩

theorem InTurn.puts {fss : List (List Fragment)} {r r' : Rendering} {pss : List (List Piece)}
    (h : InTurn Puts fss r pss r') : Puts (commas fss) r (listed pss) r' := by
  induction h with
  | nil r => exact puts_nil.2 ⟨rfl, rfl⟩
  | @last fs r r' ps hfs =>
    rw [listed_singleton]
    simpa [commas, separated] using hfs
  | @more fs gs fss r m r' ps pss hfs hrest ih =>
    have hcommas : commas (fs :: gs :: fss) = fs ++ text ", " :: commas (gs :: fss) := by
      simp [commas, separated, List.intercalate_cons_cons]
    rw [hcommas, listed_cons hrest.pieces_ne_nil]
    have hcomma : Puts [text ", "] m [.text ", "] (m.put (.text ", ")) := puts_text.2 ⟨rfl, rfl⟩
    exact puts_append.2 ⟨m, _, _, hfs, puts_cons.2 ⟨_, _, _, hcomma, ih, rfl⟩, rfl⟩

/-- Every item has a companion that the step can be stated with. -/
theorem InTurn.exists_paired {R : α → Rendering → List Piece → Rendering → Prop}
    {S : α × β → Rendering → List Piece → Rendering → Prop} {xs : List α} {r r' : Rendering}
    {pss : List (List Piece)} (h : InTurn R xs r pss r')
    (hRS : ∀ x r ps r', R x r ps r' → ∃ y, S (x, y) r ps r') :
    ∃ xys : List (α × β), xys.map Prod.fst = xs ∧ InTurn S xys r pss r' := by
  induction h with
  | nil r => exact ⟨[], rfl, .nil r⟩
  | last hx =>
    obtain ⟨y, hy⟩ := hRS _ _ _ _ hx
    exact ⟨[_], rfl, .last hy⟩
  | more hx _ ih =>
    obtain ⟨y, hy⟩ := hRS _ _ _ _ hx
    obtain ⟨xys, hxs, hxys⟩ := ih
    cases xys with
    | nil => cases hxs
    | cons xy xys => exact ⟨(_, y) :: xy :: xys, by rw [List.map_cons, hxs], .more hy hxys⟩

/-! ## Supplies -/

/-- Items that take a supply from one state to another, each from where the one before it has left
it. -/
inductive Threads (T : α → Supply → Supply → Prop) : List α → Supply → Supply → Prop
  | nil (s : Supply) : Threads T [] s s
  | cons {x : α} {xs : List α} {s s₁ s' : Supply} :
      T x s s₁ → Threads T xs s₁ s' → Threads T (x :: xs) s s'

/-- What every step does to the supply, as long as the states keep an invariant. -/
theorem InTurn.threads {R : α → Rendering → List Piece → Rendering → Prop}
    {T : α → Supply → Supply → Prop} {I : Rendering → Prop} {xs : List α} {r r' : Rendering}
    {pss : List (List Piece)} (h : InTurn R xs r pss r') (hr : I r)
    (hput : ∀ r p, I r → I (r.put p))
    (hR : ∀ x ∈ xs, ∀ r ps r', I r → R x r ps r' → I r' ∧ T x r.supply r'.supply) :
    Threads T xs r.supply r'.supply := by
  induction h with
  | nil r => exact .nil _
  | last hx => exact .cons (hR _ (List.mem_cons_self ..) _ _ _ hr hx).2 (.nil _)
  | more hx _ ih =>
    obtain ⟨hm, hT⟩ := hR _ (List.mem_cons_self ..) _ _ _ hr hx
    exact .cons hT (ih (hput _ _ hm) fun y hy => hR y (List.mem_cons_of_mem _ hy))

namespace Threads

variable {T : α → Supply → Supply → Prop} {s s' t : Supply}

theorem map {f : β → α} {xs : List β} (h : Threads (fun x => T (f x)) xs s s') :
    Threads T (xs.map f) s s' := by
  induction h with
  | nil s => exact .nil s
  | cons hx _ ih => exact .cons hx ih

theorem exists_paired {U : α × β → Supply → Supply → Prop} {xs : List α} (h : Threads T xs s s')
    (hTU : ∀ x s s', T x s s' → ∃ y, U (x, y) s s') :
    ∃ xys : List (α × β), xys.map Prod.fst = xs ∧ Threads U xys s s' := by
  induction h with
  | nil s => exact ⟨[], rfl, .nil s⟩
  | @cons x xs _ _ _ hx _ ih =>
    obtain ⟨y, hy⟩ := hTU _ _ _ hx
    obtain ⟨xys, rfl, hxys⟩ := ih
    exact ⟨(x, y) :: xys, rfl, .cons hy hxys⟩

theorem exists_of_mem {xs : List α} {x : α} (h : Threads T xs s s') (hx : x ∈ xs) :
    ∃ t t', T x t t' := by
  induction h with
  | nil s => cases hx
  | cons hT _ ih =>
    rcases List.mem_cons.1 hx with rfl | hx
    · exact ⟨_, _, hT⟩
    · exact ih hx

/-- Two threads over one list, whose steps leave the same supply and companions that are related,
leave the same supply in the end. -/
theorem paired {γ : Type} {T : α × β → Supply → Supply → Prop} {U : α × γ → Supply → Supply → Prop}
    {P : α → β → γ → Prop} {xs : List (α × β)} {ys : List (α × γ)} (h : Threads T xs s s')
    (h' : Threads U ys s t) (hxs : xs.map Prod.fst = ys.map Prod.fst)
    (hstep : ∀ x ∈ xs, ∀ y s s₁ s₂, T x s s₁ → U (x.1, y) s s₂ → s₁ = s₂ ∧ P x.1 x.2 y) :
    s' = t ∧ List.Forall₂ (fun x y => x.1 = y.1 ∧ P x.1 x.2 y.2) xs ys := by
  induction h generalizing ys with
  | nil s =>
    cases h' with
    | nil _ => exact ⟨rfl, .nil⟩
    | cons _ _ => cases hxs
  | @cons x xs s s₁ s' hx _ ih =>
    cases h' with
    | nil _ => cases hxs
    | @cons y ys _ s₂ _ hy hys =>
      obtain ⟨hfst, hrest⟩ := List.cons.inj hxs
      obtain ⟨rfl, hP⟩ := hstep x (List.mem_cons_self ..) y.2 s s₁ s₂ hx (by rw [hfst]; exact hy)
      obtain ⟨hs, hall⟩ := ih hys hrest fun z hz => hstep z (List.mem_cons_of_mem _ hz)
      exact ⟨hs, .cons ⟨hfst, hP⟩ hall⟩

/-- Items that leave the supply alone can be left out, and what the others come with does not
change by that. -/
theorem filter {T : α × β → Supply → Supply → Prop} {p : α → Bool} {xs ys : List (α × β)}
    (h : Threads T xs s s') (h' : Threads T ys s t)
    (hys : ys.map Prod.fst = (xs.map Prod.fst).filter p)
    (hunique : ∀ x ∈ xs, ∀ y s s₁ s₂, T x s s₁ → T (x.1, y) s s₂ → x.2 = y ∧ s₁ = s₂)
    (hstill : ∀ x ∈ xs, p x.1 = false → ∀ s s₁, T x s s₁ → s₁ = s) :
    ys = xs.filter (fun x => p x.1) ∧ s' = t := by
  induction h generalizing ys with
  | nil s =>
    cases h' with
    | nil _ => exact ⟨rfl, rfl⟩
    | cons _ _ => cases hys
  | @cons x xs s s₁ s' hx _ ih =>
    have hunique' := fun z hz => hunique z (List.mem_cons_of_mem x hz)
    have hstill' := fun z hz => hstill z (List.mem_cons_of_mem x hz)
    rw [List.map_cons] at hys
    by_cases hp : p x.1 = true
    · have hkeep : (x :: xs).filter (fun x => p x.1) = x :: xs.filter fun x => p x.1 :=
        List.filter_cons_of_pos hp
      rw [List.filter_cons_of_pos hp] at hys
      rw [hkeep]
      cases h' with
      | nil _ => cases hys
      | @cons y ys _ s₂ _ hy hthread =>
        obtain ⟨hfst, hmap⟩ := List.cons.inj hys
        obtain ⟨hsnd, rfl⟩ := hunique x (List.mem_cons_self ..) y.2 s s₁ s₂ hx
          (by rw [← hfst]; exact hy)
        obtain ⟨hys, hs⟩ := ih hthread hmap hunique' hstill'
        exact ⟨by rw [hys, Prod.ext hfst hsnd.symm], hs⟩
    · have hdrop : (x :: xs).filter (fun x => p x.1) = xs.filter fun x => p x.1 :=
        List.filter_cons_of_neg hp
      rw [List.filter_cons_of_neg hp] at hys
      rw [hdrop]
      obtain rfl := hstill x (List.mem_cons_self ..) (by simpa using hp) s s₁ hx
      exact ih h' hys hunique' hstill'

end Threads

end Fragment

end SqlMapper
