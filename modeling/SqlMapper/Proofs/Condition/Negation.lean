import SqlMapper.Proofs.Condition.Chain

/-!
# SqlMapper.Proofs.Condition.Negation

Negating a condition twice.

* `Condition.not_not_eq`: a condition comes back as it was unless it is a bare operand, which stays
  in the group that its first negation has put it into.
* `Condition.Further`: the calls that a condition can go into next.
* `Condition.Heavier`: two groups that stay different whatever calls follow.
* `Condition.restored_iff`: after which calls a condition that was negated twice is what it would be
  otherwise, and how it is written.
-/

namespace SqlMapper

open Fragment Rendering

namespace Condition

/-! ## Two negations -/

/-- Whether the condition is an operand without a comparison, such as `EXISTS` or SQL of the
caller. -/
def isBare : Condition → Bool
  | operand _ => true
  | _ => false

theorem not_not_eq (c : Condition) : c.not.not = if c.isBare then group .all [c] false else c := by
  cases c with
  | compare left op right negated escaped => simp [not, isBare]
  | group k members negated => simp [not, isBare]
  | operand e => simp [not, isBare]

theorem isLeaf_of_isBare {c : Condition} (hc : c.isBare = true) : c.isLeaf = true := by
  cases c with
  | operand e => rfl
  | compare _ _ _ _ _ => cases hc
  | group _ _ _ => cases hc

theorem not_of_isBare {c : Condition} (hc : c.isBare = true) : c.not = group .all [c] true := by
  cases c with
  | operand e => rfl
  | compare _ _ _ _ _ => cases hc
  | group _ _ _ => cases hc

/-! ## Further calls -/

/-- A call that takes a condition, by itself or with another one on its right or on its left. -/
inductive Further
  | negated
  | followed (k : Connective) (b : Condition)
  | preceded (k : Connective) (a : Condition)

namespace Further

def apply : Further → Condition → Condition
  | negated, c => c.not
  | followed k b, c => k.both c b
  | preceded k a, c => k.both a c

/-- Whether the call opens a group that has the operand for its only member: it takes in one more
leaf under `AND`, and a third negation is the first one. -/
def opensGroup : Further → Bool
  | negated => true
  | followed .all b => b.isLeaf
  | followed .any _ => false
  | preceded _ _ => false

end Further

/-- The condition after calls. -/
def after (c : Condition) (calls : List Further) : Condition :=
  calls.foldl (fun c f => f.apply c) c

/-! ## Groups that stay different -/

/-- The number of fragments that members take, each with the connective before it. -/
def weight (d : Dialect) : List Condition → Nat
  | [] => 0
  | c :: cs => (c.fragments d).length + 1 + weight d cs

variable {d : Dialect} {k : Connective} {members : List Condition} {negated : Bool}
  {a b c x y : Condition}

@[simp] theorem weight_nil (d : Dialect) : weight d [] = 0 := rfl

@[simp] theorem weight_cons (d : Dialect) (c : Condition) (cs : List Condition) :
    weight d (c :: cs) = (c.fragments d).length + 1 + weight d cs := rfl

@[simp] theorem weight_append (d : Dialect) (front back : List Condition) :
    weight d (front ++ back) = weight d front + weight d back := by
  induction front with
  | nil => rw [List.nil_append, weight_nil, Nat.zero_add]
  | cons c front ih =>
    rw [List.cons_append, weight_cons, weight_cons, ih]
    exact (Nat.add_assoc ..).symm

theorem length_separated (d : Dialect) (word : String) (c : Condition) (cs : List Condition) :
    (separated word (listFragments d (c :: cs))).length + 1 = weight d (c :: cs) := by
  induction cs generalizing c with
  | nil => simp [separated, listFragments]
  | cons c' cs ih =>
    have hrest := ih c'
    rw [separated_cons, weight_cons d c, ← hrest]
    simp only [List.length_append, List.length_singleton]
    omega

theorem length_fragments_group (d : Dialect) (k : Connective) (h : members ≠ []) (negated : Bool) :
    ((group k members negated).fragments d).length =
      (negation negated).length + weight d members + 1 := by
  obtain ⟨c, cs, rfl⟩ := List.exists_cons_of_ne_nil h
  have hlength := length_separated d (between k) c cs
  simp only [fragments_group, parenthesized, Fragment.enclosed, List.length_append,
    List.length_cons, List.length_nil]
  omega

/-- Two groups of one kind, of which the first takes more fragments. -/
inductive Heavier (d : Dialect) : Condition → Condition → Prop
  | groups {k : Connective} {members members' : List Condition} {negated : Bool} :
      members ≠ [] → members' ≠ [] → weight d members' < weight d members →
        Heavier d (group k members negated) (group k members' negated)

namespace Heavier

theorem length_lt (h : Heavier d x y) : (y.fragments d).length < (x.fragments d).length := by
  cases h with
  | groups hx hy hlt =>
    rw [length_fragments_group d _ hx, length_fragments_group d _ hy]
    omega

/-- Groups that become members of groups with the same other members. -/
theorem enclosed (front back : List Condition)
    (h : (y.fragments d).length < (x.fragments d).length) :
    Heavier d (group k (front ++ x :: back) false) (group k (front ++ y :: back) false) := by
  refine .groups (by simp) (by simp) ?_
  simp only [weight_append, weight_cons]
  omega

theorem followed (h : Heavier d x y) (k : Connective) (b : Condition) :
    Heavier d (combine k x b) (combine k y b) := by
  have hlt := h.length_lt
  cases h with
  | @groups k' members members' negated hx hy hweight =>
    cases negated with
    | true => exact enclosed [] [b] hlt
    | false =>
      unfold combine
      dsimp only
      split
      · refine .groups (by simp) (by simp) ?_
        rw [weight_append, weight_append]
        omega
      · exact enclosed [] [b] hlt

theorem preceded (h : Heavier d x y) (k : Connective) (a : Condition) :
    Heavier d (combine k a x) (combine k a y) := by
  have hlt := h.length_lt
  have hpair (z : Condition) (hz : z.isLeaf = false) : combine k a z = group k [a, z] false := by
    unfold combine
    split
    · simp [hz]
    · rfl
  cases h with
  | groups hx hy hweight =>
    rw [hpair _ rfl, hpair _ rfl]
    exact enclosed [a] [] hlt

theorem not (h : Heavier d x y) : Heavier d x.not y.not := by
  cases h with
  | groups hx hy hweight => exact .groups hx hy hweight

theorem apply (h : Heavier d x y) (f : Further) : Heavier d (f.apply x) (f.apply y) := by
  cases f with
  | negated => exact h.not
  | followed k b =>
    simp only [Further.apply, k.both_eq]
    exact h.followed k b
  | preceded k a =>
    simp only [Further.apply, k.both_eq]
    exact h.preceded k a

/-- No calls bring the two together again. -/
theorem after (h : Heavier d x y) (calls : List Further) :
    Heavier d (x.after calls) (y.after calls) := by
  induction calls generalizing x y with
  | nil => exact h
  | cons f calls ih => exact ih (h.apply f)

end Heavier

/-! ## The first call -/

theorem weight_le_length (d : Dialect) (k : Connective) (members : List Condition)
    (negated : Bool) :
    weight d members ≤ ((group k members negated).fragments d).length := by
  cases members with
  | nil => exact Nat.zero_le _
  | cons c cs =>
    rw [length_fragments_group d k (List.cons_ne_nil c cs)]
    omega

theorem length_enclosed (d : Dialect) (c : Condition) :
    ((group .all [c] false).fragments d).length = (c.fragments d).length + 2 := by
  rw [length_fragments_group d .all (List.cons_ne_nil c [])]
  simp [negation]

/-- A call under another connective, or with a group on the right, does not open a group. -/
theorem combine_unopened {k k' : Connective} (h : ¬(k' = k ∧ b.isLeaf = true)) :
    combine k (group k' members false) b = group k [group k' members false, b] false := by
  simp only [combine]
  rw [if_neg]
  simpa using h

/-- On the right of another condition, a group weighs more than the operand that it has for its
only member. -/
theorem heavier_preceded (hc : c.isLeaf = true) (d : Dialect) (k : Connective) (a : Condition) :
    Heavier d (combine k a (group .all [c] false)) (combine k a c) := by
  have hlength := length_enclosed d c
  have hpair : Heavier d (group k [a, group .all [c] false] false) (group k [a, c] false) :=
    .enclosed [a] [] (by omega)
  cases a with
  | compare left op right negated escaped => exact hpair
  | operand e => exact hpair
  | group k' members negated =>
    cases negated with
    | true => exact hpair
    | false =>
      rw [combine_unopened (by simp [isLeaf])]
      by_cases hk : k' = k
      · subst hk
        -- The operand joins the members of the group, and the group would be a second one.
        have hmembers := weight_le_length d k' members false
        rw [combine_leaf hc]
        refine .groups (by simp) (by simp) ?_
        simp only [weight_append, weight_cons, weight_nil]
        omega
      · rw [combine_unopened (fun h => hk h.1)]
        exact hpair

/-- A group that has a bare operand for its only member is opened by the first call, or it stays a
group where the operand would not be one. -/
theorem apply_enclosed (hc : c.isBare = true) (f : Further) (d : Dialect) :
    (f.opensGroup = true ∧ f.apply (group .all [c] false) = f.apply c) ∨
      (f.opensGroup = false ∧ Heavier d (f.apply (group .all [c] false)) (f.apply c)) := by
  have hleaf := isLeaf_of_isBare hc
  have hlength := length_enclosed d c
  cases f with
  | negated => exact .inl ⟨rfl, (not_of_isBare hc).symm⟩
  | followed k b =>
    simp only [Further.apply, k.both_eq, combine_of_isLeaf hleaf]
    by_cases hopens : k = .all ∧ b.isLeaf = true
    · obtain ⟨rfl, hb⟩ := hopens
      exact .inl ⟨hb, combine_leaf hb⟩
    · rw [combine_unopened (fun h => hopens ⟨h.1.symm, h.2⟩)]
      refine .inr ⟨?_, .enclosed [] [b] (by omega)⟩
      cases k with
      | all => simpa [Further.opensGroup] using hopens
      | any => rfl
  | preceded k a =>
    simp only [Further.apply, k.both_eq]
    exact .inr ⟨rfl, heavier_preceded hleaf d k a⟩

/-- Whether a condition that was negated twice is what it would be otherwise, once the calls are
made. -/
def Restored (c : Condition) (calls : List Further) : Prop :=
  c.isBare = false ∨ ∃ f ∈ calls.head?, f.opensGroup = true

theorem restored_or_longer (c : Condition) (calls : List Further) (d : Dialect) :
    (c.Restored calls ∧ c.not.not.after calls = c.after calls) ∨
      (¬c.Restored calls ∧
        ((c.after calls).fragments d).length < ((c.not.not.after calls).fragments d).length) := by
  rw [not_not_eq]
  cases hc : c.isBare with
  | false => exact .inl ⟨.inl hc, rfl⟩
  | true =>
    rw [if_pos rfl]
    cases calls with
    | nil =>
      refine .inr ⟨by simp [Restored, hc], ?_⟩
      have hlength := length_enclosed d c
      simp only [after, List.foldl_nil]
      omega
    | cons f calls =>
      obtain ⟨hopens, heq⟩ | ⟨hopens, hheavier⟩ := apply_enclosed hc f d
      · exact .inl ⟨.inr ⟨f, rfl, hopens⟩, by simp only [after, List.foldl_cons, heq]⟩
      · exact .inr ⟨by simp [Restored, hc, hopens], (hheavier.after calls).length_lt⟩

theorem writes_enclosed_iff {r r' : Rendering} {q : Rendered} :
    Writes d ((group .all [c] false).fragments d) r q r' ↔
      ∃ m q₁, Writes d (c.fragments d) (r.put (.text "(")) q₁ m ∧ r' = m.put (.text ")") ∧
        q = .plain "(" ++ q₁ ++ .plain ")" := by
  have hgroup : (group .all [c] false).fragments d = parenthesized (c.fragments d) := by
    simp [fragments, ofGroup, listFragments, separated, negation]
  rw [hgroup, writes_parenthesized]

/-- A condition that is negated twice is itself again, and so is all that it goes into, unless it
is a bare operand: that stays in a group of its own, in which it is written in parentheses, and
only a first call that takes in one more leaf under `AND` or negates it again opens the group. -/
theorem restored_iff (c : Condition) (calls : List Further) :
    (c.not.not.after calls = c.after calls ↔ c.Restored calls) ∧
    (∀ d, (c.not.not.after calls).fragments d = (c.after calls).fragments d ↔
      c.Restored calls) ∧
    ∀ d r q r', Writes d (c.not.not.fragments d) r q r' ↔
      if c.isBare then
        ∃ m q₁, Writes d (c.fragments d) (r.put (.text "(")) q₁ m ∧ r' = m.put (.text ")") ∧
          q = .plain "(" ++ q₁ ++ .plain ")"
      else Writes d (c.fragments d) r q r' := by
  have hfragments (d : Dialect) :
      (c.not.not.after calls).fragments d = (c.after calls).fragments d ↔ c.Restored calls := by
    obtain ⟨hrestored, heq⟩ | ⟨hrestored, hlt⟩ := restored_or_longer c calls d
    · exact ⟨fun _ => hrestored, fun _ => congrArg (fragments d) heq⟩
    · exact ⟨fun h => absurd (congrArg List.length h) hlt.ne', fun h => absurd h hrestored⟩
  refine ⟨⟨fun h => (hfragments .sqlite).1 (congrArg (fragments .sqlite) h), fun h => ?_⟩,
    hfragments, fun d r q r' => ?_⟩
  · obtain ⟨-, heq⟩ | ⟨hrestored, -⟩ := restored_or_longer c calls .sqlite
    · exact heq
    · exact absurd h hrestored
  · rw [not_not_eq]
    cases c.isBare with
    | false => exact Iff.rfl
    | true => exact writes_enclosed_iff

end Condition

namespace Sample

/-- A select with a filter that has been negated twice. -/
def renegated : Select := (Select.ofTable "t").filtered thirdLeaf.not.not

/-- SQL of the caller is not itself again: it is a group, to which a chain of leaves does not add
its members, and it is written in parentheses. -/
theorem bareOperand_enclosed :
    thirdLeaf.not.not ≠ thirdLeaf ∧
    (firstLeaf.or secondLeaf).or thirdLeaf.not.not ≠ (firstLeaf.or secondLeaf).or thirdLeaf ∧
    (Statement.query (.simple renegated)).compile .postgres ⟨0⟩ =
      (.ok ⟨"SELECT * FROM \"t\" WHERE (c)", []⟩, ⟨0⟩) ∧
    (Statement.query (.simple ((Select.ofTable "t").filtered thirdLeaf))).compile .postgres ⟨0⟩ =
      (.ok ⟨"SELECT * FROM \"t\" WHERE c", []⟩, ⟨0⟩) := by
  refine ⟨?_, ?_, by with_unfolding_all rfl, by with_unfolding_all rfl⟩
  · simp [thirdLeaf, Condition.raw, Condition.not]
  · simp [firstLeaf, secondLeaf, thirdLeaf, Expr.compare, Condition.raw, Condition.not,
      Condition.or, Condition.combine, Condition.isLeaf]

end Sample

end SqlMapper
