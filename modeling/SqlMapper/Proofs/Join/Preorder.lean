import Mathlib.Data.List.Induction
import Mathlib.Data.List.Nodup
import SqlMapper.Proofs.Join.Walk

/-!
# SqlMapper.Proofs.Join.Preorder

The walk through joins that are a tree.

* `Join.Rooted`: every join starts at a source that is there before it.
* `Join.Tree`: joins that are rooted at one source, each of which adds a source of its own.
* `Join.Preorder`: joins in a row, each followed by what hangs off it.
* `Join.Tree.preorder`, `Join.Tree.perm`: the walk through a tree goes on until nothing is left, in
  preorder, and comes to every join once.
-/

namespace SqlMapper
namespace Join

/-- The joins that start at a source, in the order in which they were made. -/
def startingAt (joins : List Join) (key : String) : List Join := joins.filter (·.context == key)

theorem mem_startingAt {joins : List Join} {key : String} {j : Join} :
    j ∈ startingAt joins key ↔ j ∈ joins ∧ j.context = key := by
  simp [startingAt]

/-- The keys of the sources that joins add. -/
def targets (joins : List Join) : List String := joins.map (·.target.key)

@[simp] theorem targets_append (js ks : List Join) :
    targets (js ++ ks) = targets js ++ targets ks :=
  List.map_append

/-- Each join starts at a source that is known, or at the target of an earlier join. -/
def Rooted : List String → List Join → Prop
  | _, [] => True
  | known, j :: js => j.context ∈ known ∧ Rooted (j.target.key :: known) js

/-- Joins in a row, each followed by all that hangs off it. -/
inductive Preorder (joins : List Join) : List Join → List Join → Prop
  | nil : Preorder joins [] []
  | cons {j : Join} {siblings below rest : List Join} :
      Preorder joins (startingAt joins j.target.key) below → Preorder joins siblings rest →
        Preorder joins (j :: siblings) (j :: below ++ rest)

structure Tree (root : String) (joins : List Join) : Prop where
  nodup : (root :: targets joins).Nodup
  rooted : Rooted [root] joins

/-! ## Rooted joins -/

namespace Rooted

variable {known known' : List String} {js ks : List Join} {j : Join}

theorem mono (h : Rooted known js) (hsub : known ⊆ known') : Rooted known' js := by
  induction js generalizing known known' with
  | nil => trivial
  | cons j js ih => exact ⟨hsub h.1, ih h.2 (List.cons_subset_cons _ hsub)⟩

theorem append (h : Rooted known js) (h' : Rooted (targets js ++ known) ks) :
    Rooted known (js ++ ks) := by
  induction js generalizing known with
  | nil => exact h'
  | cons j js ih =>
    exact ⟨h.1, ih h.2 (h'.mono List.perm_middle.symm.subset)⟩

theorem of_append (h : Rooted known (js ++ ks)) :
    Rooted known js ∧ Rooted (targets js ++ known) ks := by
  induction js generalizing known with
  | nil => exact ⟨trivial, h⟩
  | cons j js ih =>
    obtain ⟨hjs, hks⟩ := ih h.2
    exact ⟨⟨h.1, hjs⟩, hks.mono List.perm_middle.subset⟩

theorem context_mem (h : Rooted known js) (hj : j ∈ js) : j.context ∈ targets js ++ known := by
  obtain ⟨front, back, rfl⟩ := List.append_of_mem hj
  have hcontext : j.context ∈ targets front ++ known := h.of_append.2.1
  rw [targets_append]
  rcases List.mem_append.1 hcontext with hfront | hknown
  · exact List.mem_append_left _ (List.mem_append_left _ hfront)
  · exact List.mem_append_right _ hknown

end Rooted

/-! ## Walks in preorder -/

namespace Preorder

variable {joins siblings out : List Join} {known : List String}

/-- Everything that is known where the siblings stand is known where they have gone. -/
theorem rooted (h : Preorder joins siblings out) (hknown : ∀ j ∈ siblings, j.context ∈ known) :
    Rooted known out := by
  induction h generalizing known with
  | nil => trivial
  | @cons j siblings below rest _ _ ihbelow ihrest =>
    have hbelow : Rooted (j.target.key :: known) below := ihbelow fun i hi => by
      rw [(mem_startingAt.1 hi).2]
      exact List.mem_cons_self ..
    have hrest : Rooted known rest := ihrest fun i hi => hknown i (List.mem_cons_of_mem _ hi)
    have hsub : known ⊆ targets below ++ j.target.key :: known := fun key hkey =>
      List.mem_append_right _ (List.mem_cons_of_mem _ hkey)
    exact ⟨hknown j (List.mem_cons_self ..), hbelow.append (hrest.mono hsub)⟩

/-- There is one way to walk. -/
theorem unique {out' : List Join} (h : Preorder joins siblings out)
    (h' : Preorder joins siblings out') : out = out' := by
  induction h generalizing out' with
  | nil =>
    cases h'
    rfl
  | cons _ _ ihbelow ihrest =>
    cases h' with
    | cons hbelow hrest => rw [ihbelow hbelow, ihrest hrest]

theorem flatMap {f : Join → List Join}
    (h : ∀ j ∈ siblings, Preorder joins (startingAt joins j.target.key) (f j)) :
    Preorder joins siblings (siblings.flatMap fun j => j :: f j) := by
  induction siblings with
  | nil => exact .nil
  | cons j js ih =>
    exact .cons (h j (List.mem_cons_self ..)) (ih fun i hi => h i (List.mem_cons_of_mem _ hi))

/-- What comes out is the siblings and what hangs off anything that comes out. -/
theorem perm (h : Preorder joins siblings out) :
    out.Perm (siblings ++ out.flatMap fun j => startingAt joins j.target.key) := by
  induction h with
  | nil => exact .nil
  | @cons j siblings below rest _ _ ihbelow ihrest =>
    rw [List.cons_append, List.cons_append, List.flatMap_cons, List.flatMap_append]
    refine ((ihbelow.append ihrest).trans ?_).cons j
    generalize startingAt joins j.target.key = children
    generalize (below.flatMap fun j => startingAt joins j.target.key) = below'
    generalize (rest.flatMap fun j => startingAt joins j.target.key) = rest'
    rw [← List.append_assoc, ← List.append_assoc, ← List.append_assoc,
      List.append_assoc siblings children]
    exact List.perm_append_comm.append_right rest'

end Preorder

/-! ## Trees -/

namespace Tree

variable {root : String} {joins front back : List Join} {j : Join}

theorem nil (root : String) : Tree root [] := ⟨List.nodup_singleton root, trivial⟩

/-- A join that starts at a source of the tree and adds a new one. -/
theorem concat (h : Tree root joins) (hcontext : j.context ∈ root :: targets joins)
    (hnew : j.target.key ∉ root :: targets joins) : Tree root (joins ++ [j]) where
  nodup := by
    rw [targets_append, ← List.cons_append]
    refine List.nodup_append.2 ⟨h.nodup, List.nodup_singleton _, ?_⟩
    rintro key hkey _ hkey' rfl
    obtain rfl : key = j.target.key := List.mem_singleton.1 hkey'
    exact hnew hkey
  rooted := h.rooted.append ⟨(List.perm_append_singleton root (targets joins)).symm.subset hcontext,
    trivial⟩

theorem nodup_targets (h : Tree root joins) : (targets joins).Nodup := (List.nodup_cons.1 h.nodup).2

theorem root_not_mem (h : Tree root joins) : root ∉ targets joins := (List.nodup_cons.1 h.nodup).1

/-- A join is known by its target. -/
theorem eq_of_target (h : Tree root joins) {i : Join} (hi : i ∈ joins) (hj : j ∈ joins)
    (heq : i.target.key = j.target.key) : i = j :=
  List.inj_on_of_nodup_map h.nodup_targets hi hj heq

/-- What starts at the target of a join comes after this join. -/
theorem context_ne (h : Tree root (front ++ j :: back)) :
    ∀ i ∈ front ++ [j], i.context ≠ j.target.key := by
  intro i hi heq
  have hknown : i.context ∈ targets front ++ [root] := by
    obtain ⟨hfront, hj⟩ := h.rooted.of_append
    rcases List.mem_append.1 hi with hi | hi
    · exact hfront.context_mem hi
    · rw [List.mem_singleton.1 hi]
      exact hj.1
  have hnodup := h.nodup
  rw [targets_append, ← List.cons_append, List.nodup_append] at hnodup
  refine hnodup.2.2 i.context ?_ j.target.key (List.mem_cons_self ..) heq
  exact List.perm_append_singleton .. |>.subset hknown

end Tree

/-- The walk below a source. -/
def walkBelow (joins : List Join) (steps : Nat) (key : String) : List Join :=
  (JoinEdge.below (joins.map edge) steps key).map JoinEdge.content

theorem walkBelow_succ (joins : List Join) (steps : Nat) (key : String) :
    walkBelow joins (steps + 1) key =
      (startingAt joins key).flatMap fun j => j :: walkBelow joins steps j.target.key := by
  unfold walkBelow startingAt
  rw [JoinEdge.below, List.filter_map, List.flatMap_map, List.map_flatMap]
  rfl

namespace Tree

variable {root : String} {joins : List Join}

/-- The walk below a source needs no more steps than there are joins after it. -/
theorem preorder_below (h : Tree root joins) {front back : List Join} {key : String} {steps : Nat}
    (hjoins : joins = front ++ back) (hkey : ∀ i ∈ front, i.context ≠ key)
    (hsteps : back.length ≤ steps) :
    Preorder joins (startingAt joins key) (walkBelow joins steps key) := by
  induction steps generalizing front back key with
  | zero =>
    have hnone : startingAt joins key = [] := by
      rw [hjoins, List.length_eq_zero_iff.1 (Nat.le_zero.1 hsteps), List.append_nil]
      exact List.filter_eq_nil_iff.2 fun i hi => by simpa using hkey i hi
    rw [hnone]
    exact .nil
  | succ steps ih =>
    rw [walkBelow_succ]
    refine .flatMap fun j hj => ?_
    obtain ⟨hmem, hcontext⟩ := mem_startingAt.1 hj
    have hback : j ∈ back := by
      rw [hjoins, List.mem_append] at hmem
      exact hmem.resolve_left fun hfront => hkey j hfront hcontext
    obtain ⟨between, after, rfl⟩ := List.append_of_mem hback
    have hsplit : joins = (front ++ between) ++ j :: after := by
      rw [hjoins, List.append_assoc]
    rw [List.length_append, List.length_cons] at hsteps
    have hafter : joins = (front ++ between ++ [j]) ++ after := by
      rw [hsplit, List.append_assoc (front ++ between)]
      rfl
    exact ih hafter (context_ne (hsplit ▸ h)) (by omega)

theorem preorder (h : Tree root joins) :
    Preorder joins (startingAt joins root) (walk joins root) := by
  have hlength : joins.length ≤ (joins.map edge).length := Nat.le_of_eq (List.length_map edge).symm
  exact h.preorder_below (List.nil_append joins).symm (List.forall_mem_nil _) hlength

/-- The walk comes to its end by itself: more steps add nothing. -/
theorem walkBelow_eq_walk (h : Tree root joins) {steps : Nat} (hsteps : joins.length ≤ steps) :
    walkBelow joins steps root = walk joins root :=
  (h.preorder_below (List.nil_append joins).symm (List.forall_mem_nil _) hsteps).unique h.preorder

theorem rooted_walk (h : Tree root joins) : Rooted [root] (walk joins root) :=
  h.preorder.rooted fun j hj => by simp [(mem_startingAt.1 hj).2]

/-- A join hangs off the one source that it starts at. -/
theorem count_startingAt (h : Tree root joins) {i : Join} (hi : i ∈ joins) (key : String) :
    (targets (startingAt joins key)).count i.target.key = if i.context = key then 1 else 0 := by
  have hsub : (targets (startingAt joins key)).Sublist (targets joins) :=
    List.filter_sublist.map _
  split
  · next hcontext =>
    refine List.count_eq_one_of_mem (hsub.nodup h.nodup_targets) ?_
    exact List.mem_map_of_mem (mem_startingAt.2 ⟨hi, hcontext⟩)
  · next hcontext =>
    refine List.count_eq_zero.2 fun hmem => ?_
    obtain ⟨j, hj, htarget⟩ := List.mem_map.1 hmem
    obtain ⟨hjoins, hstart⟩ := mem_startingAt.1 hj
    rw [h.eq_of_target hjoins hi htarget] at hstart
    exact hcontext hstart

theorem count_flatMap_startingAt (h : Tree root joins) {i : Join} (hi : i ∈ joins)
    (out : List Join) :
    (targets (out.flatMap fun j => startingAt joins j.target.key)).count i.target.key =
      (targets out).count i.context := by
  induction out with
  | nil => rfl
  | cons j out ih =>
    rw [List.flatMap_cons, targets_append, List.count_append, ih, h.count_startingAt hi]
    have hcons : targets (j :: out) = j.target.key :: targets out := rfl
    rw [hcons, List.count_cons, Nat.add_comm]
    simp only [beq_iff_eq, eq_comm (a := i.context)]

/-- The walk comes to a join as often as to the source that it starts at. -/
theorem count_walk (h : Tree root joins) {i : Join} (hi : i ∈ joins) :
    (targets (walk joins root)).count i.target.key =
      (if i.context = root then 1 else 0) + (targets (walk joins root)).count i.context := by
  have hperm := (h.preorder.perm.map fun j => j.target.key).count_eq i.target.key
  rw [List.map_append, List.count_append] at hperm
  exact hperm.trans (congrArg₂ (· + ·) (h.count_startingAt hi root)
    (h.count_flatMap_startingAt hi _))

/-- Once for each join: once for those at the root, and from there on down. -/
theorem count_walk_eq_one (h : Tree root joins) {front back : List Join}
    (hjoins : joins = front ++ back) :
    ∀ i ∈ front, (targets (walk joins root)).count i.target.key = 1 := by
  induction front using List.reverseRecOn generalizing back with
  | nil => simp
  | append_singleton front j ih =>
    have hsplit : joins = front ++ (j :: back) := by rw [hjoins, List.append_assoc]; rfl
    have hroot : (targets (walk joins root)).count root = 0 := by
      refine List.count_eq_zero.2 fun hmem => h.root_not_mem ?_
      obtain ⟨i, hi, htarget⟩ := List.mem_map.1 hmem
      exact htarget ▸ List.mem_map_of_mem (mem_of_mem_walk hi)
    intro i hi
    rcases List.mem_append.1 hi with hi | hi
    · exact ih hsplit i hi
    · rw [List.mem_singleton.1 hi]
      have hj : j ∈ joins := by rw [hsplit]; exact List.mem_append_right _ (List.mem_cons_self ..)
      have hknown : j.context ∈ targets front ++ [root] := by
        have hrooted := h.rooted
        rw [hsplit] at hrooted
        exact hrooted.of_append.2.1
      rw [h.count_walk hj]
      split
      · next hcontext => rw [hcontext, hroot]
      · next hcontext =>
        have hfront : j.context ∈ targets front := by
          rcases List.mem_append.1 hknown with hfront | hsingle
          · exact hfront
          · exact absurd (List.mem_singleton.1 hsingle) hcontext
        obtain ⟨k, hk, htarget⟩ := List.mem_map.1 hfront
        rw [← htarget, ih hsplit k hk]

/-- The walk comes to every join once, and to nothing else. -/
theorem perm (h : Tree root joins) : (walk joins root).Perm joins := by
  have hone := h.count_walk_eq_one (List.append_nil joins).symm
  have htargets : (targets (walk joins root)).Nodup := by
    refine List.nodup_iff_count_le_one.2 fun key => ?_
    by_cases hkey : key ∈ targets (walk joins root)
    · obtain ⟨i, hi, rfl⟩ := List.mem_map.1 hkey
      exact Nat.le_of_eq (hone i (mem_of_mem_walk hi))
    · rw [List.count_eq_zero.2 hkey]
      exact Nat.zero_le 1
  refine (List.perm_ext_iff_of_nodup htargets.of_map h.nodup_targets.of_map).2 fun i =>
    ⟨mem_of_mem_walk, fun hi => ?_⟩
  have hmem : i.target.key ∈ targets (walk joins root) :=
    List.count_pos_iff.1 (by rw [hone i hi]; exact Nat.one_pos)
  obtain ⟨j, hj, htarget⟩ := List.mem_map.1 hmem
  rwa [← h.eq_of_target (mem_of_mem_walk hj) hi htarget]

end Tree

end Join
end SqlMapper
