import Mathlib.Order.WithBot
import SqlMapper.Proofs.Pool.Heap

/-!
# SqlMapper.Proofs.Pool.HeapOrder

The order of the items in a heap. Every item has a rank, and of two items the one with the lower
rank comes before the other.

* `Heap.IsHeap`: no item ranks below its parent.
* `Heap.Gap`, `Heap.UpTo`: what is in order while one item is on its way down or up.
* `Heap.push_isHeap`, `Heap.ofArray_isHeap`, `Heap.pop?_isHeap`: every operation ends in a heap.
* `Heap.pop?_le`: the item that is taken out of a heap ranks lowest.
-/

namespace SqlMapper.Heap

variable {α β : Type}

/-- The rank of the item at a position. A position without an item ranks last. -/
def rankAt (rank : α → β) (a : Array α) (i : Nat) : WithTop β :=
  match a[i]? with
  | some x => rank x
  | none => ⊤

section Positions

variable {rank : α → β} {a a' : Array α} {i j : Nat}

theorem parent_lt (h : 0 < i) : parent i < i := by
  unfold parent
  omega

theorem parent_le (i : Nat) : parent i ≤ i := by
  unfold parent
  omega

theorem child_cases (h : parent j = i) (hj : 0 < j) : j = 2 * i + 1 ∨ j = 2 * i + 2 := by
  unfold parent at h
  omega

theorem rankAt_of_lt (h : i < a.size) : rankAt rank a i = rank a[i] := by
  rw [rankAt, Array.getElem?_eq_getElem h]

theorem rankAt_of_size_le (h : a.size ≤ i) : rankAt rank a i = ⊤ := by
  rw [rankAt, Array.getElem?_eq_none h]

theorem rankAt_congr (h : a'[i]? = a[j]?) : rankAt rank a' i = rankAt rank a j := by
  rw [rankAt, h, rankAt]

/-- Ranks after the items at `i` and `j` have changed places. -/
def exchanged (v : Nat → WithTop β) (i j k : Nat) : WithTop β :=
  if k = i then v j else if k = j then v i else v k

@[simp] theorem exchanged_left (v : Nat → WithTop β) (i j : Nat) : exchanged v i j i = v j :=
  if_pos rfl

@[simp] theorem exchanged_right (v : Nat → WithTop β) (i j : Nat) : exchanged v i j j = v i := by
  unfold exchanged
  split
  · rename_i h
    rw [h]
  · rw [if_pos rfl]

theorem exchanged_of_ne (v : Nat → WithTop β) {i j k : Nat} (hi : k ≠ i) (hj : k ≠ j) :
    exchanged v i j k = v k := by
  rw [exchanged, if_neg hi, if_neg hj]

theorem rankAt_swap (hi : i < a.size) (hj : j < a.size) :
    rankAt rank (a.swapIfInBounds i j) = exchanged (rankAt rank a) i j := by
  funext k
  rw [Array.swapIfInBounds_def, dif_pos hi, dif_pos hj]
  by_cases hki : k = i
  · subst hki
    rw [exchanged_left]
    refine rankAt_congr ?_
    rw [Array.getElem?_swap, Array.getElem?_eq_getElem hj]
    split
    · rename_i h
      simp only [h]
    · rw [if_pos rfl]
  · by_cases hkj : k = j
    · subst hkj
      rw [exchanged_right]
      refine rankAt_congr ?_
      rw [Array.getElem?_swap, Array.getElem?_eq_getElem hi, if_pos rfl]
    · rw [exchanged_of_ne _ hki hkj]
      refine rankAt_congr ?_
      rw [Array.getElem?_swap, if_neg (Ne.symm hkj), if_neg (Ne.symm hki)]

end Positions

/-! ## Items and their ranks -/

variable [LinearOrder β]

/-- Of two items, the one with the lower rank comes before the other. -/
def Ranks (before : α → α → Bool) (rank : α → β) : Prop :=
  ∀ x y, before x y = true ↔ rank x < rank y

/-- No item ranks below its parent. -/
def IsHeap (rank : α → β) (a : Array α) : Prop :=
  ∀ j, rankAt rank a (parent j) ≤ rankAt rank a j

variable {before : α → α → Bool} {rank : α → β} {a : Array α} {i j : Nat}

theorem isBefore_iff (hranks : Ranks before rank) (hj : j < a.size) :
    isBefore before a i j = true ↔ rankAt rank a i < rankAt rank a j := by
  rw [isBefore, rankAt_of_lt hj, Array.getElem?_eq_getElem hj]
  by_cases hi : i < a.size
  · rw [Array.getElem?_eq_getElem hi, rankAt_of_lt hi, WithTop.coe_lt_coe]
    exact hranks _ _
  · rw [Array.getElem?_eq_none (by omega), rankAt_of_size_le (by omega)]
    simp

omit [LinearOrder β] in
theorem lt_size_of_isBefore (h : isBefore before a i j = true) : i < a.size ∧ j < a.size := by
  unfold isBefore at h
  split at h
  · rename_i hi hj
    exact ⟨(Array.getElem?_eq_some_iff.1 hi).1, (Array.getElem?_eq_some_iff.1 hj).1⟩
  · cases h

theorem le_of_not_isBefore (hranks : Ranks before rank) (hji : j < a.size ∨ j ≤ i)
    (h : isBefore before a i j ≠ true) : rankAt rank a j ≤ rankAt rank a i := by
  by_cases hj : j < a.size
  · rw [ne_eq, isBefore_iff hranks hj] at h
    exact not_lt.1 h
  · have hi : a.size ≤ i := by omega
    rw [rankAt_of_size_le hi]
    exact le_top

theorem IsHeap.root_le (h : IsHeap rank a) (i : Nat) : rankAt rank a 0 ≤ rankAt rank a i := by
  induction i using Nat.strong_induction_on with
  | _ i ih =>
    by_cases hi : i = 0
    · rw [hi]
    · exact (ih (parent i) (parent_lt (Nat.pos_of_ne_zero hi))).trans (h i)

/-! ## Items on their way

Both structures are about ranks by position. All is in order but what lies next to position `i`. -/

/-- Position `r` and what is below it is in order, apart from the item at `i`. -/
structure Gap (v : Nat → WithTop β) (r i : Nat) : Prop where
  apart : ∀ j, r ≤ parent j → parent j ≠ i → j ≠ i → v (parent j) ≤ v j
  across : ∀ j, 0 < i → r ≤ parent i → parent j = i → v (parent i) ≤ v j

/-- All is in order, but the item at `i` may have to go up. -/
structure UpTo (v : Nat → WithTop β) (i : Nat) : Prop where
  apart : ∀ j, j ≠ i → v (parent j) ≤ v j
  across : ∀ j, 0 < i → parent j = i → v (parent i) ≤ v j

section Moving

variable {v : Nat → WithTop β} {r c : Nat}

/-- The item at `i` and the lowest of its children change places. -/
theorem Gap.down (h : Gap v r i) (hchild : parent c = i) (hc : 0 < c)
    (hlowest : ∀ j, 0 < j → parent j = i → v c ≤ v j) : Gap (exchanged v i c) r c where
  apart j hr hpc hjc := by
    have hic : i < c := hchild ▸ parent_lt hc
    by_cases hji : j = i
    · subst hji
      by_cases hj : j = 0
      · rw [hj]
        exact le_rfl
      · have hpj : parent j < j := parent_lt (Nat.pos_of_ne_zero hj)
        rw [exchanged_left, exchanged_of_ne v (by omega) hpc]
        exact h.across c (Nat.pos_of_ne_zero hj) hr hchild
    · rw [exchanged_of_ne v hji hjc]
      by_cases hpi : parent j = i
      · have hj : 0 < j := by
          have := parent_le j
          omega
        rw [hpi, exchanged_left]
        exact hlowest j hj hpi
      · rw [exchanged_of_ne v hpi hpc]
        exact h.apart j hr hpi hji
  across j _ hr hpj := by
    have hic : i < c := hchild ▸ parent_lt hc
    have hcj : c < j := hpj ▸ parent_lt (by have := parent_le j; omega)
    rw [hchild, exchanged_left, exchanged_of_ne v (by omega) (by omega), ← hpj]
    exact h.apart j (by omega) (by omega) (by omega)

/-- The item has come to rest: what is below it does not rank lower. -/
theorem Gap.ordered (h : Gap v r i) (hinto : r ≤ parent i → v (parent i) ≤ v i)
    (hbelow : ∀ j, 0 < j → parent j = i → v i ≤ v j) (j : Nat) (hr : r ≤ parent j) :
    v (parent j) ≤ v j := by
  by_cases hji : j = i
  · subst hji
    exact hinto hr
  · by_cases hpj : parent j = i
    · have hj : 0 < j := by
        have := parent_le j
        omega
      rw [hpj]
      exact hbelow j hj hpj
    · exact h.apart j hr hpj hji

/-- Nothing is below the item any more. -/
theorem Gap.upTo (h : Gap v 0 i) (hleaf : ∀ j, 0 < j → parent j = i → v j = ⊤) : UpTo v i where
  apart j hji := by
    by_cases hpi : parent j = i
    · have hj : 0 < j := by
        have := parent_le j
        omega
      rw [hleaf j hj hpi]
      exact le_top
    · exact h.apart j (Nat.zero_le _) hpi hji
  across j hi hpj := h.across j hi (Nat.zero_le _) hpj

/-- The item at `i` and its parent change places. -/
theorem UpTo.up (h : UpTo v i) (hi : 0 < i) (hlt : v i < v (parent i)) :
    UpTo (exchanged v i (parent i)) (parent i) where
  apart j hjp := by
    have hpi : parent i < i := parent_lt hi
    by_cases hji : j = i
    · subst hji
      rw [exchanged_left, exchanged_right]
      exact hlt.le
    · rw [exchanged_of_ne v hji hjp]
      by_cases hpj : parent j = i
      · rw [hpj, exchanged_left]
        exact h.across j hi hpj
      · by_cases hpp : parent j = parent i
        · rw [hpp, exchanged_right]
          exact hlt.le.trans (hpp ▸ h.apart j hji)
        · rw [exchanged_of_ne v hpj hpp]
          exact h.apart j hji
  across j hp hpj := by
    have hpi : parent i < i := parent_lt hi
    have hpp : parent (parent i) < parent i := parent_lt hp
    have hgrand : v (parent (parent i)) ≤ v (parent i) := h.apart (parent i) (by omega)
    rw [exchanged_of_ne v (by omega) (by omega)]
    by_cases hji : j = i
    · rw [hji, exchanged_left]
      exact hgrand
    · have hjp : j ≠ parent i := by
        rintro rfl
        omega
      rw [exchanged_of_ne v hji hjp]
      exact hgrand.trans (hpj ▸ h.apart j hji)

theorem UpTo.ordered (h : UpTo v i) (hi : v (parent i) ≤ v i) (j : Nat) : v (parent j) ≤ v j := by
  by_cases hji : j = i
  · rw [hji]
    exact hi
  · exact h.apart j hji

end Moving

/-! ## Going down -/

theorem parent_firstChild (before : α → α → Bool) (a : Array α) (i : Nat) :
    parent (firstChild before a i) = i := by
  unfold firstChild parent
  split <;> omega

theorem lt_firstChild (before : α → α → Bool) (a : Array α) (i : Nat) :
    i < firstChild before a i := by
  unfold firstChild
  split <;> omega

theorem firstChild_le (hranks : Ranks before rank) (hj : 0 < j) (hchild : parent j = i) :
    rankAt rank a (firstChild before a i) ≤ rankAt rank a j := by
  unfold firstChild
  split
  · rename_i h
    simp only [Bool.and_eq_true, decide_eq_true_eq, Bool.not_eq_true'] at h
    rcases child_cases hchild hj with rfl | rfl
    · exact le_of_not_isBefore hranks (.inl h.1) (by simp [h.2])
    · exact le_rfl
  · rename_i h
    simp only [Bool.and_eq_true, decide_eq_true_eq, Bool.not_eq_true', not_and,
      Bool.not_eq_false] at h
    rcases child_cases hchild hj with rfl | rfl
    · exact le_rfl
    · by_cases hsize : 2 * i + 2 < a.size
      · exact ((isBefore_iff hranks hsize).1 (h hsize)).le
      · rw [rankAt_of_size_le (i := 2 * i + 2) (by omega)]
        exact le_top

/-- Once the item has come to rest, position `r` and what is below it is in order. -/
theorem siftDown_ordered (hranks : Ranks before rank) {r : Nat} (steps : Nat) (a : Array α)
    (i : Nat) (hsteps : a.size ≤ i + steps) (hr : r ≤ i) (hgap : Gap (rankAt rank a) r i)
    (hinto : r ≤ parent i → rankAt rank a (parent i) ≤ rankAt rank a i) :
    ∀ j, r ≤ parent j →
      rankAt rank (siftDown before steps a i) (parent j) ≤
        rankAt rank (siftDown before steps a i) j := by
  induction steps generalizing a i with
  | zero =>
    -- The item is past the end of the array, where nothing is below it.
    refine hgap.ordered hinto fun j hj hchild => ?_
    have hij : i < j := hchild ▸ parent_lt hj
    rw [rankAt_of_size_le (i := j) (by omega)]
    exact le_top
  | succ steps ih =>
    have hlowest (j : Nat) (hj : 0 < j) (hchild : parent j = i) :=
      firstChild_le (a := a) hranks hj hchild
    have hchild := parent_firstChild before a i
    have hdown := lt_firstChild before a i
    unfold siftDown
    dsimp only
    generalize firstChild before a i = c at hlowest hchild hdown ⊢
    split
    · rename_i h
      rw [Bool.and_eq_true, decide_eq_true_eq] at h
      have hi : i < a.size := by omega
      have hlt := (isBefore_iff hranks hi).1 h.2
      have hswap : rankAt rank (a.swapIfInBounds i c) = exchanged (rankAt rank a) i c :=
        rankAt_swap hi h.1
      -- The item sinks, and the gap in the order sinks with it.
      refine ih (a.swapIfInBounds i c) c ?_ (by omega) ?_ ?_
      · rw [Array.size_swapIfInBounds]
        omega
      · rw [hswap]
        exact hgap.down hchild (by omega) hlowest
      · rw [hswap, hchild, exchanged_left, exchanged_right]
        exact fun _ => hlt.le
    · rename_i h
      have hle : rankAt rank a i ≤ rankAt rank a c := by
        by_cases hc : c < a.size
        · exact le_of_not_isBefore hranks (.inr hdown.le) (by simpa [hc] using h)
        · rw [rankAt_of_size_le (i := c) (by omega)]
          exact le_top
      exact hgap.ordered hinto fun j hj hpj => hle.trans (hlowest j hj hpj)

theorem heapify_isHeap (hranks : Ranks before rank) (steps : Nat) (a : Array α)
    (h : ∀ j, steps ≤ parent j → rankAt rank a (parent j) ≤ rankAt rank a j) :
    IsHeap rank (heapify before steps a) := by
  induction steps generalizing a with
  | zero => exact fun j => h j (Nat.zero_le _)
  | succ i ih =>
    refine ih (siftDown before a.size a i) ?_
    refine siftDown_ordered hranks a.size a i (by omega) le_rfl ⟨?_, ?_⟩ ?_
    · exact fun j hr hpj _ => h j (by omega)
    · intro j hi hr
      have := parent_lt hi
      omega
    · intro hr
      by_cases hi : i = 0
      · rw [hi]
        exact le_rfl
      · have := parent_lt (Nat.pos_of_ne_zero hi)
        omega

theorem ofArray_isHeap (hranks : Ranks before rank) (a : Array α) :
    IsHeap rank (ofArray before a) := by
  refine heapify_isHeap hranks (a.size / 2) a fun j hj => ?_
  by_cases hzero : j = 0
  · rw [hzero]
    exact le_rfl
  · -- The second half of the positions has nothing below it.
    have hsize : a.size ≤ j := by
      unfold parent at hj
      omega
    rw [rankAt_of_size_le hsize]
    exact le_top

theorem sink_upTo (hranks : Ranks before rank) (steps : Nat) (a : Array α) (i : Nat)
    (hsteps : a.size ≤ i + steps) (hgap : Gap (rankAt rank a) 0 i) :
    UpTo (rankAt rank (sink before steps a i).1) (sink before steps a i).2 := by
  induction steps generalizing a i with
  | zero =>
    refine hgap.upTo fun j hj hchild => rankAt_of_size_le ?_
    have hij : i < j := hchild ▸ parent_lt hj
    omega
  | succ steps ih =>
    have hlowest (j : Nat) (hj : 0 < j) (hchild : parent j = i) :=
      firstChild_le (a := a) hranks hj hchild
    have hchild := parent_firstChild before a i
    have hdown := lt_firstChild before a i
    unfold sink
    dsimp only
    generalize firstChild before a i = c at hlowest hchild hdown ⊢
    split
    · rename_i hc
      refine ih (a.swapIfInBounds i c) c ?_ ?_
      · rw [Array.size_swapIfInBounds]
        omega
      · rw [rankAt_swap (by omega) hc]
        exact hgap.down hchild (by omega) hlowest
    · rename_i hc
      refine hgap.upTo fun j hj hpj => top_le_iff.1 ?_
      have hlow := hlowest j hj hpj
      rwa [rankAt_of_size_le (i := c) (by omega)] at hlow

/-! ## Going up -/

theorem siftUp_isHeap (hranks : Ranks before rank) (steps : Nat) (a : Array α) (i : Nat)
    (hsteps : i ≤ steps) (h : UpTo (rankAt rank a) i) : IsHeap rank (siftUp before steps a i) := by
  induction steps generalizing a i with
  | zero =>
    have hi : i = 0 := by omega
    exact h.ordered (by rw [hi]; exact le_rfl)
  | succ steps ih =>
    unfold siftUp
    split
    · rename_i hup
      rw [Bool.and_eq_true, decide_eq_true_eq] at hup
      obtain ⟨hi, hp⟩ := lt_size_of_isBefore hup.2
      have hlt := (isBefore_iff hranks hp).1 hup.2
      have hpi := parent_lt hup.1
      refine ih _ _ (by omega) ?_
      rw [rankAt_swap hi hp]
      exact h.up hup.1 hlt
    · rename_i hstay
      refine h.ordered ?_
      by_cases hi : i = 0
      · rw [hi]
        exact le_rfl
      · exact le_of_not_isBefore hranks (.inr (parent_le i))
          (by simpa [Nat.pos_of_ne_zero hi] using hstay)

/-! ## Operations -/

theorem push_isHeap (hranks : Ranks before rank) (h : IsHeap rank a) (x : α) :
    IsHeap rank (push before a x) := by
  have hold {k : Nat} (hk : k ≠ a.size) : rankAt rank (a.push x) k = rankAt rank a k := by
    refine rankAt_congr ?_
    rw [Array.getElem?_push, if_neg hk]
  have htop {j : Nat} (hj : a.size < j) : rankAt rank (a.push x) j = ⊤ :=
    rankAt_of_size_le (by rw [Array.size_push]; omega)
  refine siftUp_isHeap hranks a.size (a.push x) a.size le_rfl ⟨fun j hj => ?_, fun j hi hpj => ?_⟩
  · by_cases hpj : parent j = a.size
    · have := parent_le j
      rw [htop (j := j) (by omega)]
      exact le_top
    · rw [hold hpj, hold hj]
      exact h j
  · have := parent_le j
    have hj : j ≠ a.size := by
      rintro rfl
      have := parent_lt hi
      omega
    rw [htop (j := j) (by omega)]
    exact le_top

/-- The root is taken by the last item, and all else stays where it is. -/
theorem gap_pop_swap (h : IsHeap rank a) (hsize : 0 < a.size) :
    Gap (rankAt rank (a.swapIfInBounds 0 (a.size - 1)).pop) 0 0 := by
  have hlast : a.size - 1 < a.size := by omega
  have hold {k : Nat} (hk : k ≠ 0) (hlt : k < a.size - 1) :
      rankAt rank (a.swapIfInBounds 0 (a.size - 1)).pop k = rankAt rank a k := by
    have hpop : rankAt rank (a.swapIfInBounds 0 (a.size - 1)).pop k =
        rankAt rank (a.swapIfInBounds 0 (a.size - 1)) k := by
      refine rankAt_congr ?_
      rw [Array.getElem?_pop, Array.size_swapIfInBounds, if_pos hlt]
    rw [hpop, rankAt_swap hsize hlast, exchanged_of_ne _ hk (by omega)]
  refine ⟨fun j _ hpj hj => ?_, fun j hpos => absurd hpos (Nat.lt_irrefl 0)⟩
  by_cases hlt : j < a.size - 1
  · have := parent_le j
    rw [hold hpj (by omega), hold hj hlt]
    exact h j
  · rw [rankAt_of_size_le (i := j) (by rw [Array.size_pop, Array.size_swapIfInBounds]; omega)]
    exact le_top

theorem pop?_isHeap (hranks : Ranks before rank) (h : IsHeap rank a) {x : α} {rest : Array α}
    (hpop : pop? before a = some (x, rest)) : IsHeap rank rest := by
  unfold pop? at hpop
  split at hpop
  · cases hpop
  · rename_i first hfirst
    cases hpop
    have hgap := gap_pop_swap h (Array.getElem?_eq_some_iff.1 hfirst).1
    exact siftUp_isHeap hranks _ _ _ le_rfl (sink_upTo hranks _ _ _ (by omega) hgap)

/-- The item that is taken out ranks lowest. -/
theorem pop?_le (h : IsHeap rank a) {x : α} {rest : Array α}
    (hpop : pop? before a = some (x, rest)) : ∀ y ∈ a.toList, rank x ≤ rank y := by
  intro y hy
  obtain ⟨k, hk, rfl⟩ := Array.mem_iff_getElem.1 (Array.mem_toList_iff.1 hy)
  have hroot := h.root_le k
  unfold pop? at hpop
  split at hpop
  · cases hpop
  · rename_i first hfirst
    cases hpop
    rwa [rankAt, hfirst, rankAt_of_lt hk, WithTop.coe_le_coe] at hroot

end SqlMapper.Heap
