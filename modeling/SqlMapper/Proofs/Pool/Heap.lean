import SqlMapper.Heap

/-!
# SqlMapper.Proofs.Pool.Heap

What is in a heap: every operation on heaps rearranges items, and adds or takes out only what it
says.

* `push_perm`, `pop?_perm`, `ofArray_perm`: the items of a heap after each operation.
* `pop?_eq_none`: only the empty heap has no first item.
-/

namespace SqlMapper.Heap

variable {α : Type} {before : α → α → Bool}

theorem swapIfInBounds_perm (a : Array α) (i j : Nat) :
    (a.swapIfInBounds i j).toList.Perm a.toList := by
  rw [Array.swapIfInBounds_def]
  split
  · split
    · exact (Array.swap_perm _ _).toList
    · rfl
  · rfl

theorem siftUp_perm (steps : Nat) (a : Array α) (i : Nat) :
    (siftUp before steps a i).toList.Perm a.toList := by
  induction steps generalizing a i with
  | zero => rfl
  | succ steps ih =>
    unfold siftUp
    split
    · exact (ih _ _).trans (swapIfInBounds_perm a i (parent i))
    · rfl

theorem siftDown_perm (steps : Nat) (a : Array α) (i : Nat) :
    (siftDown before steps a i).toList.Perm a.toList := by
  induction steps generalizing a i with
  | zero => rfl
  | succ steps ih =>
    unfold siftDown
    dsimp only
    split
    · exact (ih _ _).trans (swapIfInBounds_perm a i _)
    · rfl

theorem sink_perm (steps : Nat) (a : Array α) (i : Nat) :
    (sink before steps a i).1.toList.Perm a.toList := by
  induction steps generalizing a i with
  | zero => rfl
  | succ steps ih =>
    unfold sink
    dsimp only
    split
    · exact (ih _ _).trans (swapIfInBounds_perm a i _)
    · rfl

theorem heapify_perm (steps : Nat) (a : Array α) :
    (heapify before steps a).toList.Perm a.toList := by
  induction steps generalizing a with
  | zero => rfl
  | succ i ih => exact (ih _).trans (siftDown_perm a.size a i)

theorem push_perm (before : α → α → Bool) (a : Array α) (x : α) :
    (push before a x).toList.Perm (x :: a.toList) := by
  have hpush : (a.push x).toList = a.toList ++ [x] := Array.toList_push
  exact (siftUp_perm a.size (a.push x) a.size).trans (hpush ▸ List.perm_append_singleton x a.toList)

theorem ofArray_perm (before : α → α → Bool) (a : Array α) :
    (ofArray before a).toList.Perm a.toList :=
  heapify_perm (a.size / 2) a

theorem pop?_eq_none {a : Array α} : pop? before a = none ↔ a.toList = [] := by
  unfold pop?
  rw [Array.toList_eq_nil_iff]
  cases hfirst : a[0]? with
  | none => simpa using hfirst
  | some first =>
    have hsize := (Array.getElem?_eq_some_iff.1 hfirst).1
    simp only [reduceCtorEq, false_iff]
    rintro rfl
    exact absurd hsize (Nat.lt_irrefl 0)

/-- The first and the last item change places before the last one is dropped. -/
theorem perm_pop_swap {a : Array α} {first : α} (h : a[0]? = some first) :
    (first :: (a.swapIfInBounds 0 (a.size - 1)).pop.toList).Perm a.toList := by
  obtain ⟨hsize, rfl⟩ := Array.getElem?_eq_some_iff.1 h
  have hlast : a.size - 1 < a.size := Nat.sub_one_lt_of_lt hsize
  have hswap : a.swapIfInBounds 0 (a.size - 1) = a.swap 0 (a.size - 1) := by
    rw [Array.swapIfInBounds_def, dif_pos hsize, dif_pos hlast]
  have hne : (a.swap 0 (a.size - 1)).toList ≠ [] := by
    rw [ne_eq, Array.toList_eq_nil_iff, ← Array.size_eq_zero_iff, Array.size_swap]
    omega
  have hback : (a.swap 0 (a.size - 1)).toList.getLast hne = a[0] := by
    rw [List.getLast_eq_getElem, Array.getElem_toList, Array.getElem_swap]
    by_cases hone : a.size - 1 = 0 <;> simp [hone]
  have hsplit := List.dropLast_concat_getLast hne
  rw [hback] at hsplit
  rw [hswap, Array.toList_pop]
  refine (List.perm_append_singleton a[0] _).symm.trans ?_
  rw [hsplit]
  exact (Array.swap_perm _ _).toList

theorem pop?_perm {a rest : Array α} {x : α} (h : pop? before a = some (x, rest)) :
    (x :: rest.toList).Perm a.toList := by
  unfold pop? at h
  split at h
  · cases h
  · rename_i first hfirst
    cases h
    exact (((siftUp_perm _ _ _).trans (sink_perm _ _ _)).cons x).trans (perm_pop_swap hfirst)

end SqlMapper.Heap
