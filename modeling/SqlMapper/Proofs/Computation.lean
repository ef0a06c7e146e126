import SqlMapper.Error

/-!
# SqlMapper.Proofs.Computation

Computations that can fail, read backwards from what they succeeded with.
-/

namespace SqlMapper

variable {α β : Type} {f : α → Except Error β}

theorem bind_eq_ok {x : Except Error α} {b : β} (h : x >>= f = .ok b) :
    ∃ a, x = .ok a ∧ f a = .ok b := by
  cases x with
  | error e => cases h
  | ok a => exact ⟨a, rfl, h⟩

theorem mem_of_mapM {xs : List α} {ys : List β} (h : xs.mapM f = .ok ys) :
    ∀ y ∈ ys, ∃ x ∈ xs, f x = .ok y := by
  induction xs generalizing ys with
  | nil =>
    cases h
    exact fun y hy => nomatch hy
  | cons x xs ih =>
    rw [List.mapM_cons] at h
    obtain ⟨z, hz, h⟩ := bind_eq_ok h
    obtain ⟨zs, hzs, h⟩ := bind_eq_ok h
    cases h
    intro y hy
    rcases List.mem_cons.1 hy with rfl | hy
    · exact ⟨x, List.mem_cons_self .., hz⟩
    · obtain ⟨x', hx', hy⟩ := ih hzs y hy
      exact ⟨x', List.mem_cons_of_mem _ hx', hy⟩

theorem exists_of_mapM {xs : List α} {ys : List β} (h : xs.mapM f = .ok ys) :
    ∀ x ∈ xs, ∃ y, f x = .ok y := by
  induction xs generalizing ys with
  | nil => exact fun x hx => nomatch hx
  | cons x xs ih =>
    rw [List.mapM_cons] at h
    obtain ⟨z, hz, h⟩ := bind_eq_ok h
    obtain ⟨zs, hzs, h⟩ := bind_eq_ok h
    intro x' hx'
    rcases List.mem_cons.1 hx' with rfl | hx'
    · exact ⟨z, hz⟩
    · exact ih hzs x' hx'

theorem exists_mapM {xs : List α} (h : ∀ x ∈ xs, ∃ y, f x = .ok y) : ∃ ys, xs.mapM f = .ok ys := by
  induction xs with
  | nil => exact ⟨[], rfl⟩
  | cons x xs ih =>
    obtain ⟨y, hy⟩ := h x (List.mem_cons_self ..)
    obtain ⟨ys, hys⟩ := ih fun z hz => h z (List.mem_cons_of_mem _ hz)
    exact ⟨y :: ys, by rw [List.mapM_cons, hy, hys]; rfl⟩

/-- What holds of the items that a loop is done with, and of what it has made of them. -/
theorem foldlM_invariant {step : β → α → Except Error β} (motive : List α → β → Prop)
    (done : List α) {todo : List α} {b b' : β} (hrun : todo.foldlM step b = .ok b')
    (hdone : motive done b)
    (hstep : ∀ done x b b', motive done b → step b x = .ok b' → motive (done ++ [x]) b') :
    motive (done ++ todo) b' := by
  induction todo generalizing done b with
  | nil =>
    cases hrun
    rwa [List.append_nil]
  | cons x todo ih =>
    rw [List.foldlM_cons] at hrun
    obtain ⟨c, hc, hrun⟩ := bind_eq_ok hrun
    have h := ih (done ++ [x]) hrun (hstep done x b c hdone hc)
    rwa [List.append_assoc] at h

/-- A loop that appends something for some of the items and passes over the others. -/
theorem foldlM_filter {step : List β → α → Except Error (List β)} (keep : α → Bool)
    (out : α → β) {todo : List α} {done : List β}
    (hstep : ∀ done, ∀ x ∈ todo, step done x = .ok (if keep x then done ++ [out x] else done)) :
    todo.foldlM step done = .ok (done ++ (todo.filter keep).map out) := by
  induction todo generalizing done with
  | nil =>
    rw [List.filter_nil, List.map_nil, List.append_nil]
    rfl
  | cons x todo ih =>
    rw [List.foldlM_cons, hstep done x (List.mem_cons_self ..)]
    refine (ih fun done y hy => hstep done y (List.mem_cons_of_mem _ hy)).trans ?_
    by_cases hx : keep x
    · rw [if_pos hx, List.filter_cons_of_pos hx, List.map_cons, List.append_assoc]
      rfl
    · rw [if_neg hx, List.filter_cons_of_neg hx]

end SqlMapper
