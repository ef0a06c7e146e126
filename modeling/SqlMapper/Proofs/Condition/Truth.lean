import SqlMapper.Query.Select

/-!
# SqlMapper.Proofs.Condition.Truth

What conditions say in three-valued logic, where a comparison with NULL is neither true nor false.

* `Truth`: the three values, with the connectives on them.
* `Condition.truth`: the value of a condition, given those of its leaves.
* `Condition.truth_combine`: combining two conditions combines their values, also where the second
  becomes one more member of the first.
* `Condition.combined_truth`: all ways to build conditions from others.
-/

namespace SqlMapper

/-! ## Truth values -/

inductive Truth
  | no
  | unknown
  | yes
  deriving DecidableEq

namespace Truth

def not : Truth → Truth
  | no => yes
  | unknown => unknown
  | yes => no

def and : Truth → Truth → Truth
  | no, _ => no
  | yes, t => t
  | unknown, no => no
  | unknown, _ => unknown

def or : Truth → Truth → Truth
  | yes, _ => yes
  | no, t => t
  | unknown, yes => yes
  | unknown, _ => unknown

/-- The value of what has a NOT in front of it, or has none. -/
def signed (t : Truth) (negated : Bool) : Truth := if negated then t.not else t

@[simp] theorem not_not (t : Truth) : t.not.not = t := by cases t <;> rfl

theorem and_comm (t u : Truth) : t.and u = u.and t := by cases t <;> cases u <;> rfl

theorem or_comm (t u : Truth) : t.or u = u.or t := by cases t <;> cases u <;> rfl

theorem and_assoc (t u w : Truth) : (t.and u).and w = t.and (u.and w) := by
  cases t <;> cases u <;> cases w <;> rfl

theorem or_assoc (t u w : Truth) : (t.or u).or w = t.or (u.or w) := by
  cases t <;> cases u <;> cases w <;> rfl

theorem signed_not (t : Truth) (negated : Bool) : t.signed (!negated) = (t.signed negated).not := by
  cases negated with
  | false => rfl
  | true => exact (not_not t).symm

end Truth

namespace Connective

def join : Connective → Truth → Truth → Truth
  | all => Truth.and
  | any => Truth.or

/-- The value of a group without members. -/
def unit : Connective → Truth
  | all => .yes
  | any => .no

/-- The value of all together. -/
def joined (k : Connective) (ts : List Truth) : Truth := ts.foldr k.join k.unit

variable (k : Connective)

@[simp] theorem unit_join (t : Truth) : k.join k.unit t = t := by cases k <;> rfl

@[simp] theorem join_unit (t : Truth) : k.join t k.unit = t := by
  cases k with
  | all => exact (Truth.and_comm t .yes).trans rfl
  | any => exact (Truth.or_comm t .no).trans rfl

theorem join_assoc (t u w : Truth) : k.join (k.join t u) w = k.join t (k.join u w) := by
  cases k with
  | all => exact Truth.and_assoc t u w
  | any => exact Truth.or_assoc t u w

theorem joined_pair (t u : Truth) : k.joined [t, u] = k.join t u := by
  show k.join t (k.join u k.unit) = k.join t u
  rw [join_unit]

theorem joined_concat (ts : List Truth) (t : Truth) :
    k.joined (ts ++ [t]) = k.join (k.joined ts) t := by
  induction ts with
  | nil =>
    show k.join t k.unit = k.join k.unit t
    rw [join_unit, unit_join]
  | cons u ts ih =>
    show k.join u (k.joined (ts ++ [t])) = k.join (k.join u (k.joined ts)) t
    rw [ih, join_assoc]

/-- From the left or from the right comes to the same. -/
theorem foldl_join (t : Truth) (ts : List Truth) : ts.foldl k.join t = k.joined (t :: ts) := by
  induction ts generalizing t with
  | nil => exact (k.join_unit t).symm
  | cons u ts ih =>
    rw [List.foldl_cons, ih]
    exact k.join_assoc t u (k.joined ts)

end Connective

/-! ## Conditions -/

/-- What a condition comes down to: comparisons, without the NOT that may stand before them, and
other operands. -/
inductive Leaf
  | comparison (left : Expr) (op : Comparison) (right : Expr) (escaped : Bool)
  | operand (e : Expr)

mutual

def Condition.truth (v : Leaf → Truth) : Condition → Truth
  | .compare left op right negated escaped => (v (.comparison left op right escaped)).signed negated
  | .group k members negated => (k.joined (Condition.listTruth v members)).signed negated
  | .operand e => v (.operand e)

def Condition.listTruth (v : Leaf → Truth) : List Condition → List Truth
  | [] => []
  | c :: cs => c.truth v :: Condition.listTruth v cs

end

namespace Condition

variable (v : Leaf → Truth)

theorem listTruth_eq_map (cs : List Condition) : listTruth v cs = cs.map (truth v) := by
  induction cs with
  | nil => rfl
  | cons c cs ih => rw [listTruth, ih, List.map_cons]

theorem truth_pair (k : Connective) (a b : Condition) :
    (group k [a, b] false).truth v = k.join (a.truth v) (b.truth v) := by
  rw [truth, listTruth_eq_map]
  exact k.joined_pair _ _

/-- Only a group that is not negated takes in another member: a negation stays with the members
that it was put on. -/
theorem truth_combine (k : Connective) (a b : Condition) :
    (combine k a b).truth v = k.join (a.truth v) (b.truth v) := by
  unfold combine
  split
  · rename_i c members
    split
    · rename_i hflat
      have hc : c = k := of_decide_eq_true (Bool.and_eq_true_iff.1 hflat).1
      rw [hc, truth, truth, listTruth_eq_map, listTruth_eq_map, List.map_append]
      exact k.joined_concat _ _
    · exact truth_pair v k _ b
  · exact truth_pair v k a b

theorem truth_not (a : Condition) : a.not.truth v = (a.truth v).not := by
  cases a with
  | compare left op right negated escaped =>
    rw [not, truth, truth]
    exact Truth.signed_not _ negated
  | group k members negated =>
    rw [not, truth, truth]
    exact Truth.signed_not _ negated
  | operand e =>
    -- the group that an operand is negated in has no other member
    rw [not, truth, listTruth_eq_map]
    exact congrArg Truth.not (Connective.join_unit .all _)

theorem truth_foldl_combine (k : Connective) (a : Condition) (cs : List Condition) :
    (cs.foldl (combine k) a).truth v = k.joined ((a :: cs).map (truth v)) := by
  rw [List.map_cons, ← Connective.foldl_join, List.foldl_map]
  induction cs generalizing a with
  | nil => rfl
  | cons c cs ih => rw [List.foldl_cons, List.foldl_cons, ih, truth_combine]

theorem truth_combineAll (k : Connective) (c : Condition) (cs : List Condition) :
    (combineAll k (c :: cs)).map (truth v) = some (k.joined ((c :: cs).map (truth v))) :=
  congrArg some (truth_foldl_combine v k c cs)

end Condition

/-! ## Filters -/

namespace Select

/-- Adds a condition to the filter. -/
def filteredBy (s : Select) : Connective → Condition → Select
  | .all, c => s.filtered c
  | .any, c => s.orFiltered c

/-- Adds conditions to the filter one after the other. -/
def filteredByAll (s : Select) (added : List (Connective × Condition)) : Select :=
  added.foldl (fun s a => s.filteredBy a.1 a.2) s

end Select

/-- What a filter says once a condition is added to it: the condition alone if it was the first. -/
def Connective.extend (k : Connective) (filter : Option Truth) (t : Truth) : Truth :=
  filter.elim t (k.join · t)

namespace Select

variable (v : Leaf → Truth)

theorem truth_filteredBy (s : Select) (k : Connective) (c : Condition) :
    (s.filteredBy k c).filter.map (Condition.truth v) =
      some (k.extend (s.filter.map (Condition.truth v)) (c.truth v)) := by
  have hfilter : (s.filteredBy k c).filter = some (Condition.extend k s.filter c) := by
    cases k <;> rfl
  rw [hfilter]
  cases s.filter with
  | none => rfl
  | some a => exact congrArg some (Condition.truth_combine v k a c)

theorem truth_filteredByAll (s : Select) (added : List (Connective × Condition)) :
    (s.filteredByAll added).filter.map (Condition.truth v) =
      added.foldl (fun filter a => some (a.1.extend filter (a.2.truth v)))
        (s.filter.map (Condition.truth v)) := by
  induction added generalizing s with
  | nil => rfl
  | cons a added ih =>
    rw [List.foldl_cons, ← truth_filteredBy]
    exact ih (s.filteredBy a.1 a.2)

end Select

/-- Whatever shape conditions have, what is built from them says what it is built to say, and the
filter of a select says what was added to it, from left to right. -/
theorem Condition.combined_truth (v : Leaf → Truth) :
    (∀ a b : Condition, (a.and b).truth v = (a.truth v).and (b.truth v)) ∧
    (∀ a b : Condition, (a.or b).truth v = (a.truth v).or (b.truth v)) ∧
    (∀ a : Condition, a.not.truth v = (a.truth v).not) ∧
    (∀ (c : Condition) (cs : List Condition),
      (Condition.all (c :: cs)).map (truth v) =
        some (Connective.all.joined ((c :: cs).map (truth v)))) ∧
    (∀ (c : Condition) (cs : List Condition),
      (Condition.any (c :: cs)).map (truth v) =
        some (Connective.any.joined ((c :: cs).map (truth v)))) ∧
    ∀ (s : Select) (added : List (Connective × Condition)),
      (s.filteredByAll added).filter.map (truth v) =
        added.foldl (fun filter a => some (a.1.extend filter (a.2.truth v)))
          (s.filter.map (truth v)) :=
  ⟨truth_combine v .all, truth_combine v .any, truth_not v, truth_combineAll v .all,
    truth_combineAll v .any, Select.truth_filteredByAll v⟩

end SqlMapper
