import SqlMapper.Proofs.Text.Reserved
import SqlMapper.Query.Syntax

/-!
# SqlMapper.Proofs.Text.SetTree

Queries as trees of set operators, read from their lexemes.

Set operators are all equally strong and associate to the left. A query between parentheses, or one
that all rows are selected from, stands for itself. An ordering, a limit and an offset count for all
that is before them at the same level, and no set operator follows them (`SetTree.read`).
-/

namespace SqlMapper

/-- The lexemes of what counts for all of a query. -/
structure Tail where
  orderBy : Option (List Lexeme) := none
  limit : Option (List Lexeme) := none
  offset : Option (List Lexeme) := none

def Tail.lexemes (tail : Tail) : List Lexeme :=
  Reserved.order.clause (tail.orderBy.map (.word ['B', 'Y'] :: ·)) ++
    (Reserved.limit.clause tail.limit ++ Reserved.offset.clause tail.offset)

inductive SetTree
  /-- A query without set operators. -/
  | select (ls : List Lexeme)
  | node (left : SetTree) (op : SetOperator) (right : SetTree)
  | tailed (t : SetTree) (tail : Tail)

/-- The tree with the tail, if there is anything in it. -/
def SetTree.attach (t : SetTree) : Tail → SetTree
  | ⟨none, none, none⟩ => t
  | tail => .tailed t tail

namespace SetTree

/-! ## Reading -/

/-- A lexeme with what has been made of the group that it is. -/
abbrev Item := Lexeme × Option (Option SetTree)

def clause? (x : Item) : Option Reserved := x.1.reserved?.filter Reserved.isClause

/-- What is before the first clause, and each clause with what is behind it. -/
def split : List Item → List Item × List (Reserved × List Item)
  | [] => ([], [])
  | x :: xs =>
    match clause? x with
    | some k => ([], (k, (split xs).1) :: (split xs).2)
    | none => (x :: (split xs).1, (split xs).2)

def isNamePart : Lexeme → Bool
  | .name _ | .dot => true
  | _ => false

/-- The query that all rows are selected from. -/
def derived? : List Item → Option SetTree
  | (l, _) :: (.word ['*'], _) :: (l', _) :: (_, some t) :: (l'', _) :: name =>
    if l.reserved? = some .select && l'.reserved? = some .source && l''.reserved? = some .type &&
        name.all fun x => isNamePart x.1 then t
    else none
  | _ => none

def operand : List Item → Option SetTree
  | [(_, some t)] => t
  | xs => some ((derived? xs).getD (.select (xs.map Prod.fst)))

/-- The set operator that a clause starts, and its right operand. -/
def setOperator? : Reserved → List Item → Option (SetOperator × List Item)
  | .union, xs =>
    if xs.head?.bind (fun x => x.1.reserved?) = some .all then some (.unionAll, xs.tail)
    else some (.union, xs)
  | .intersect, xs => some (.intersect, xs)
  | .except, xs => some (.except, xs)
  | _, _ => none

/-- The parts of a tail are in order. -/
def addTail? : Tail → Reserved → List Lexeme → Option Tail
  | ⟨none, none, none⟩, .order, .word ['B', 'Y'] :: ls => some ⟨some ls, none, none⟩
  | ⟨orderBy, none, none⟩, .limit, ls => some ⟨orderBy, some ls, none⟩
  | ⟨orderBy, limit, none⟩, .offset, ls => some ⟨orderBy, limit, some ls⟩
  | _, _, _ => none

/-- What the query up to a clause and the clause make together. -/
def next : SetTree × Tail → Reserved × List Item → Option (SetTree × Tail)
  | (t, tail), (k, xs) =>
    match setOperator? k xs, tail with
    | some (op, right), ⟨none, none, none⟩ => (operand right).map fun r => (.node t op r, {})
    | some _, _ => none
    | none, tail => (addTail? tail k (xs.map Prod.fst)).map fun tail => (t, tail)

/-- The query and its tail. -/
def parts? (xs : List Item) : Option (SetTree × Tail) :=
  (operand (split xs).1).bind fun t => (split xs).2.foldlM next (t, {})

def level (xs : List Item) : Option SetTree := (parts? xs).map fun (t, tail) => t.attach tail

def items (ls : List Lexeme) : List Item := Lexeme.foldAll level ls

def read (ls : List Lexeme) : Option SetTree := level (items ls)

@[simp] theorem items_nil : items [] = [] := rfl

@[simp] theorem items_cons (l : Lexeme) (ls : List Lexeme) :
    items (l :: ls) = (l, l.fold level) :: items ls := rfl

@[simp] theorem items_append (ls ks : List Lexeme) : items (ls ++ ks) = items ls ++ items ks :=
  Lexeme.foldAll_append level ls ks

@[simp] theorem map_fst_items (ls : List Lexeme) : (items ls).map Prod.fst = ls := by
  induction ls with
  | nil => rfl
  | cons l ls ih => rw [items_cons, List.map_cons, ih]

/-! ## Reading from left to right -/

theorem clause?_of_isClause {l : Lexeme} {o : Option (Option SetTree)} (h : l.isClause = false) :
    clause? (l, o) = none := by
  unfold clause?
  unfold Lexeme.isClause at h
  cases hl : l.reserved? with
  | none => rfl
  | some k =>
    rw [hl, Option.any_some] at h
    simp [h]

theorem clause?_lexeme {k : Reserved} (o : Option (Option SetTree)) (h : k.isClause = true) :
    clause? (k.lexeme, o) = some k := by
  simp [clause?, h]

theorem split_items {ls : List Lexeme} (h : ∀ l ∈ ls, l.isClause = false) :
    split (items ls) = (items ls, []) := by
  induction ls with
  | nil => rfl
  | cons l ls ih =>
    rw [items_cons, split, clause?_of_isClause (h l (List.mem_cons_self ..)),
      ih fun l hl => h l (List.mem_cons_of_mem _ hl)]

theorem split_append (xs : List Item) {k : Reserved} (o : Option (Option SetTree)) (ys : List Item)
    (h : k.isClause = true) :
    split (xs ++ (k.lexeme, o) :: ys) =
      ((split xs).1, (split xs).2 ++ (k, (split ys).1) :: (split ys).2) := by
  induction xs with
  | nil => simp only [List.nil_append, split, clause?_lexeme o h]
  | cons x xs ih =>
    rw [List.cons_append, split, split, ih]
    cases clause? x <;> rfl

theorem parts?_items {ls : List Lexeme} (h : ∀ l ∈ ls, l.isClause = false) :
    parts? (items ls) = (operand (items ls)).map fun t => (t, {}) := by
  rw [parts?, split_items h]
  cases operand (items ls) <;> rfl

/-- A further clause. -/
theorem parts?_clause (ls : List Lexeme) {k : Reserved} {ks : List Lexeme} (hk : k.isClause = true)
    (hks : ∀ l ∈ ks, l.isClause = false) :
    parts? (items (ls ++ k.lexeme :: ks)) = (parts? (items ls)).bind fun r => next r (k, items ks) := by
  rw [items_append, items_cons, parts?, split_append _ _ _ hk, split_items hks, parts?,
    Option.bind_assoc]
  refine congrArg _ (funext fun t => ?_)
  rw [List.foldlM_append]
  exact congrArg _ (funext fun r => bind_pure _)

/-- The tail of a query that has none. -/
theorem parts?_tail {ls : List Lexeme} {t : SetTree} (h : parts? (items ls) = some (t, {}))
    {tail : Tail} (horder : ∀ ks ∈ tail.orderBy, ∀ l ∈ ks, l.isClause = false)
    (hlimit : ∀ ks ∈ tail.limit, ∀ l ∈ ks, l.isClause = false)
    (hoffset : ∀ ks ∈ tail.offset, ∀ l ∈ ks, l.isClause = false) :
    parts? (items (ls ++ tail.lexemes)) = some (t, tail) := by
  obtain ⟨orderBy, limit, offset⟩ := tail
  have hordered : parts? (items (ls ++ Reserved.order.clause (orderBy.map (.word ['B', 'Y'] :: ·)))) =
      some (t, ⟨orderBy, none, none⟩) := by
    cases orderBy with
    | none => simpa using h
    | some ks =>
      have hks : ∀ l ∈ .word ['B', 'Y'] :: ks, l.isClause = false :=
        List.forall_mem_cons.2 ⟨by decide, horder ks rfl⟩
      rw [Option.map_some, Reserved.clause_some, parts?_clause ls (by decide) hks, h]
      simp [next, setOperator?, addTail?]
  have hlimited : parts? (items (ls ++ Reserved.order.clause (orderBy.map (.word ['B', 'Y'] :: ·)) ++
      Reserved.limit.clause limit)) = some (t, ⟨orderBy, limit, none⟩) := by
    cases limit with
    | none => simpa using hordered
    | some ks =>
      rw [Reserved.clause_some, parts?_clause _ (by decide) (hlimit ks rfl), hordered]
      simp [next, setOperator?, addTail?]
  rw [Tail.lexemes, ← List.append_assoc, ← List.append_assoc]
  dsimp only
  cases offset with
  | none => simpa using hlimited
  | some ks =>
    rw [Reserved.clause_some, parts?_clause _ (by decide) (hoffset ks rfl), hlimited]
    simp [next, setOperator?, addTail?]

/-- A select is read as something. -/
theorem operand_select (ls : List Lexeme) :
    ∃ t, operand (items (Reserved.select.lexeme :: ls)) = some t := by
  have hword : Reserved.select.lexeme.fold level = none := rfl
  rw [items_cons, hword]
  cases items ls <;> exact ⟨_, rfl⟩

/-- The query that all rows are selected from stands for itself. -/
theorem operand_derived {ls name : List Lexeme} {t : SetTree} (h : read ls = some t)
    (hname : ∀ l ∈ name, isNamePart l = true) :
    operand (items ([Reserved.select.lexeme, .word ['*'], Reserved.source.lexeme, .group ls,
      Reserved.type.lexeme] ++ name)) = some t := by
  have hall : (items name).all (fun x => isNamePart x.1) = true := by
    rw [← map_fst_items name, List.forall_mem_map] at hname
    exact List.all_eq_true.2 hname
  have hgroup : (Lexeme.group ls).fold level = some (some t) := congrArg some h
  rw [items_append, items_cons, items_cons, items_cons, items_cons, items_cons, hgroup, items_nil]
  simp only [List.cons_append, List.nil_append]
  rw [operand, derived?, hall]
  · simp
  · simp

end SetTree

end SqlMapper
