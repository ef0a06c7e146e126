import SqlMapper.Proofs.Text.Precedence

/-!
# SqlMapper.Proofs.Text.Denoted

What the reader makes of texts that are put together from operands.

`Denotes b x ls` says that the lexemes `ls` are an operand, after a `NOT` if `b`, and that `x` is what
the reader makes of them without this `NOT`, if anything. There is one lemma for each form of a level
of parentheses (`level_signed`, `level_between`, …).
-/

namespace SqlMapper

namespace Reader

@[simp] theorem run_nil (r : Reader) : r.run [] = some r := rfl

@[simp] theorem run_cons (r : Reader) (x : Item) (xs : List Item) :
    r.run (x :: xs) = (r.step x).bind fun r => r.run xs := rfl

theorem run_append (r : Reader) (xs ys : List Item) :
    r.run (xs ++ ys) = (r.run xs).bind fun r => r.run ys := by
  rw [run, List.foldlM_append]
  rfl

section

variable {r : Reader} {m : Mode} {t : OpTree} (hm : m.value? = some t)

include hm

theorem step_value (x : Item) : step { r with mode := m } x = onValue { r with mode := m } x := by
  cases m with
  | value u => rfl
  | word w => rfl
  | name k n => rfl
  | _ => cases hm

theorem step_word (w : List Char) (o : Option (Option Content)) :
    step { r with mode := m } (.word w, o) = r.onWord t w := by
  rw [step_value hm, onValue, hm, Option.bind_some]
  rfl

theorem step_comma (o : Option (Option Content)) :
    step { r with mode := m } (.comma, o) = (close r.stack t).map fun t =>
      { r with items := r.items ++ [t], stack := [], mode := .operand } := by
  rw [step_value hm, onValue, hm, Option.bind_some]

theorem finish_value : finish { r with mode := m } =
    (close r.stack t).map fun t => .items r.distinct (r.items ++ [t]) := by
  cases m with
  | value u => cases hm; rfl
  | word w => cases hm; rfl
  | name k n => cases hm; rfl
  | _ => cases hm

end

/-- The reader stops after an operand, in a mode that has been left open. -/
def Ends (r : Reader) (x : Option OpTree) (o : Option Reader) : Prop :=
  match x with
  | none => o = none
  | some t => ∃ m : Mode, m.value? = some t ∧ o = some { r with mode := m }

theorem Ends.bind {α : Type} {r : Reader} {x : Option OpTree} {o : Option Reader}
    {f : Reader → Option α} {g : OpTree → Option α} (h : Ends r x o)
    (hfg : ∀ m t, m.value? = some t → f { r with mode := m } = g t) : o.bind f = x.bind g := by
  cases x with
  | none =>
    have h : o = none := h
    rw [h]
    rfl
  | some t =>
    obtain ⟨m, hm, rfl⟩ := h
    exact hfg m t hm

end Reader

namespace OpTree

open Lexer (ofName mem_ofName parts_ne_nil)
open Reader

def items (ls : List Lexeme) : List Item := Lexeme.foldAll level ls

@[simp] theorem items_nil : items [] = [] := rfl

@[simp] theorem items_cons (l : Lexeme) (ls : List Lexeme) :
    items (l :: ls) = (l, l.fold level) :: items ls := rfl

@[simp] theorem items_append (ls ks : List Lexeme) : items (ls ++ ks) = items ls ++ items ks :=
  Lexeme.foldAll_append level ls ks

theorem any_items (p : Lexeme → Bool) (ls : List Lexeme) :
    ((items ls).any fun x => p x.1) = ls.any p := by
  induction ls with
  | nil => rfl
  | cons l ls ih => rw [items_cons, List.any_cons, List.any_cons, ih]

/-- The lexemes are no query. -/
def NoQuery (ls : List Lexeme) : Prop := ∀ l ∈ ls, l.isQueryWord = false

instance (ls : List Lexeme) : Decidable (NoQuery ls) := List.decidableBAll _ ls

theorem NoQuery.append {ls ks : List Lexeme} (hl : NoQuery ls) (hk : NoQuery ks) :
    NoQuery (ls ++ ks) := by
  intro l h
  exact (List.mem_append.1 h).elim (hl l) (hk l)

theorem level_eq {ls : List Lexeme} (h : NoQuery ls) :
    level (items ls) = (Reader.run {} (items ls)).bind finish := by
  have hany : (ls.any Lexeme.isQueryWord) = false := List.any_eq_false.2 fun l hl => by simp [h l hl]
  rw [level, any_items, hany, if_neg Bool.false_ne_true]

/-! ## Operands -/

/-- From where an operand is expected, the reader makes `x` of the lexemes. -/
def Reads (x : Option OpTree) (ls : List Lexeme) : Prop :=
  ∀ r : Reader, r.mode = .operand → Ends r x (r.run (items ls))

/-- The lexemes of an operand, after a `NOT` if `b`. -/
def Denotes (b : Bool) (x : Option OpTree) (ls : List Lexeme) : Prop :=
  ∃ ks, ls = (if b then [Reserved.not.lexeme] else []) ++ ks ∧ NoQuery ks ∧ Reads x ks

/-- Operators that may have a `NOT` for an operand. -/
def Loose : List Pending → Prop
  | [] | .not :: _ => True
  | .operator n label _ :: _ => n ≤ 3 ∧ label ≠ .reserved .is false
  | _ => False

/-- Operators that take no `NOT` for an operand. -/
def Tight : List Pending → Prop
  | .operator n label _ :: _ => 4 ≤ n ∧ label ≠ .reserved .is false
  | .between _ :: _ | .interval _ _ :: _ => True
  | _ => False

def nots (b : Bool) : List Pending := if b then [.not] else []

variable {b b' : Bool} {x y : Option OpTree} {ks js ls ss : List Lexeme} {r : Reader}

theorem Denotes.noQuery (h : Denotes b x ls) : NoQuery ls := by
  obtain ⟨ks, rfl, hks, -⟩ := h
  exact NoQuery.append (by cases b <;> decide) hks

theorem step_not (hm : r.mode = .operand) (o : Option (Option Content)) :
    r.step (Reserved.not.lexeme, o) = r.onNot := by
  have hword : r.step (Reserved.not.lexeme, o) = r.onOperandWord Reserved.not.spelling.toList := by
    rw [step, hm]
    rfl
  rw [hword, onOperandWord, Reserved.of?_spelling]

theorem onNot_loose (h : Loose r.stack) :
    r.onNot = some { r with stack := .not :: r.stack } := by
  unfold onNot
  split
  · rename_i heq
    rw [heq] at h
    exact absurd rfl h.2
  · rename_i heq
    rw [heq] at h
    exact if_pos h.1
  · rfl
  · rfl
  · rename_i hop his hnil hnot
    match hs : r.stack, h with
    | [], _ => exact absurd hs hnil
    | .not :: fs, _ => exact absurd hs (hnot fs)
    | .operator n label t :: fs, _ => exact absurd hs (his n label t fs)

theorem onNot_tight (h : Tight r.stack) : r.onNot = none := by
  unfold onNot
  split
  · rename_i heq
    rw [heq] at h
    exact absurd rfl h.2
  · rename_i heq
    rw [heq] at h
    exact if_neg (Nat.not_le.2 h.1)
  · rename_i heq
    rw [heq] at h
    exact h.elim
  · rename_i heq
    rw [heq] at h
    exact h.elim
  · rfl

theorem Denotes.run (h : Denotes b x ls) (hm : r.mode = .operand) (hl : Loose r.stack) :
    Ends { r with stack := nots b ++ r.stack } x (r.run (items ls)) := by
  obtain ⟨ks, rfl, -, hreads⟩ := h
  cases b with
  | false => exact hreads r hm
  | true =>
    rw [if_pos rfl, List.singleton_append, items_cons, run_cons, step_not hm, onNot_loose hl]
    exact hreads { r with stack := .not :: r.stack } hm

theorem Denotes.run_false (h : Denotes false x ls) (hm : r.mode = .operand) :
    Ends r x (r.run (items ls)) := by
  obtain ⟨ks, rfl, -, hreads⟩ := h
  exact hreads r hm

theorem Denotes.run_tight (h : Denotes true x ls) (hm : r.mode = .operand) (ht : Tight r.stack) :
    r.run (items ls) = none := by
  obtain ⟨ks, rfl, -, -⟩ := h
  rw [if_pos rfl, List.singleton_append, items_cons, run_cons, step_not hm, onNot_tight ht]
  rfl

/-- A level of one operand. -/
theorem level_operand (h : Denotes b x ls) :
    level (items ls) = x.map fun t => .items false [negated b t] := by
  have hread := h.run (r := {}) rfl trivial
  rw [level_eq h.noQuery, hread.bind (g := fun t => some (.items false [negated b t])) ?_]
  · cases x <;> rfl
  · intro m t hm
    rw [finish_value hm]
    cases b <;> rfl

/-! ## Operators -/

/-- The lexemes of an operator of level `n`, which is stronger than `NOT`. -/
structure Signs (ss : List Lexeme) (n : Nat) (label : Label) : Prop where
  noQuery : NoQuery ss
  isStrong : 4 ≤ n
  isOther : label ≠ .reserved .not false
  run : ∀ (r : Reader) (m : Mode) (t : OpTree), m.value? = some t →
    Reader.run { r with mode := m } (items ss) = some (r.push n label t)

theorem four_le_signLevel (w : List Char) : 4 ≤ signLevel w := by
  unfold signLevel
  split
  · decide
  · split
    · decide
    · split
      · decide
      · split <;> decide

theorem signs_word {w : List Char} (h : Reserved.of? w = none) :
    Signs [.word w] (signLevel w) (.sign w) where
  noQuery := by
    intro l hl
    rw [List.mem_singleton.1 hl]
    simp [Lexeme.isQueryWord, Lexeme.isClause, Lexeme.reserved?, h]
  isStrong := four_le_signLevel w
  isOther := by simp
  run r m t hm := by
    rw [items_cons, run_cons, step_word hm, onWord, h]
    rfl

theorem step_reserved {m : Mode} {t : OpTree} (hm : m.value? = some t) (k : Reserved)
    (o : Option (Option Content)) :
    step { r with mode := m } (k.lexeme, o) = r.onWord t k.spelling.toList := step_word hm _ o

theorem signs_is : Signs [Reserved.is.lexeme] 4 (.reserved .is false) where
  noQuery := by decide
  isStrong := Nat.le_refl 4
  isOther := by simp
  run r m t hm := by
    rw [items_cons, run_cons, step_reserved hm, onWord, Reserved.of?_spelling]
    rfl

theorem signs_member : Signs [Reserved.member.lexeme] 4 (.reserved .member false) where
  noQuery := by decide
  isStrong := Nat.le_refl 4
  isOther := by simp
  run r m t hm := by
    rw [items_cons, run_cons, step_reserved hm, onWord, Reserved.of?_spelling]
    rfl

theorem signs_like : Signs [Reserved.like.lexeme] 4 (.reserved .like false) where
  noQuery := by decide
  isStrong := Nat.le_refl 4
  isOther := by simp
  run r m t hm := by
    rw [items_cons, run_cons, step_reserved hm, onWord, Reserved.of?_spelling]
    rfl

theorem signs_ilike : Signs [Reserved.ilike.lexeme] 4 (.reserved .ilike false) where
  noQuery := by decide
  isStrong := Nat.le_refl 4
  isOther := by simp
  run r m t hm := by
    rw [items_cons, run_cons, step_reserved hm, onWord, Reserved.of?_spelling]
    rfl

theorem signs_isNot :
    Signs [Reserved.is.lexeme, Reserved.not.lexeme] 4 (.reserved .is true) where
  noQuery := by decide
  isStrong := Nat.le_refl 4
  isOther := by simp
  run r m t hm := by
    rw [items_cons, run_cons, step_reserved hm, onWord, Reserved.of?_spelling]
    dsimp only
    rw [Option.bind_some, items_cons, run_cons, step_not rfl]
    rfl

theorem signs_notMember :
    Signs [Reserved.not.lexeme, Reserved.member.lexeme] 4 (.reserved .member true) where
  noQuery := by decide
  isStrong := Nat.le_refl 4
  isOther := by simp
  run r m t hm := by
    rw [items_cons, run_cons, step_reserved hm, onWord, Reserved.of?_spelling]
    rfl

theorem signs_notLike :
    Signs [Reserved.not.lexeme, Reserved.like.lexeme] 4 (.reserved .like true) where
  noQuery := by decide
  isStrong := Nat.le_refl 4
  isOther := by simp
  run r m t hm := by
    rw [items_cons, run_cons, step_reserved hm, onWord, Reserved.of?_spelling]
    rfl

/-! ## Levels of operands -/

@[simp] theorem reduce_nots {n : Nat} (hn : 4 ≤ n) (b : Bool) (t : OpTree) :
    reduce n (nots b) t = (nots b, t) := by
  cases b with
  | false => rfl
  | true =>
    have hn : ¬n ≤ 3 := by omega
    rw [nots, if_pos rfl, reduce, if_neg hn]

/-- What an operand is in the place of one that takes no `NOT`. -/
def tight (b : Bool) (x : Option OpTree) : Option OpTree := if b then none else x

/-- What an operand is in a place of its own. -/
def loose (b : Bool) (x : Option OpTree) : Option OpTree := x.map (negated b)

@[simp] theorem loose_false (x : Option OpTree) : loose false x = x := by cases x <;> rfl

theorem tight_eq_some {t : OpTree} : tight b x = some t ↔ b = false ∧ x = some t := by
  cases b <;> simp [tight]

theorem Denotes.bind_tight {α : Type} {f : Reader → Option α} {g : OpTree → Option α}
    (h : Denotes b x ls) (hm : r.mode = .operand) (ht : Tight r.stack)
    (hfg : ∀ m t, m.value? = some t → f { r with mode := m } = g t) :
    (r.run (items ls)).bind f = (tight b x).bind g := by
  cases b with
  | false => exact (h.run_false hm).bind hfg
  | true =>
    rw [h.run_tight hm ht]
    rfl

/-- An operand at the start of a level. -/
theorem level_append (h : Denotes b x ls) (hks : NoQuery ks) {g : OpTree → Option Content}
    (hg : ∀ (m : Mode) t, m.value? = some t →
      ((Reader.mk [] false (nots b) m).run (items ks)).bind finish = g t) :
    level (items (ls ++ ks)) = x.bind g := by
  have hread := h.run (r := {}) rfl trivial
  rw [level_eq (h.noQuery.append hks), items_append, run_append, Option.bind_assoc]
  refine hread.bind fun m t hm => ?_
  rw [← hg m t hm, List.append_nil]

/-- The literal that a comparison may end with. -/
def escape (s : Option (List Char)) : List Lexeme :=
  s.elim [] fun s => [Reserved.escape.lexeme, .string s]

theorem noQuery_escape (s : Option (List Char)) : NoQuery (escape s) := by
  cases s with
  | none => decide
  | some s =>
    intro l hl
    simp only [escape, Option.elim_some, List.mem_cons, List.not_mem_nil, or_false] at hl
    rcases hl with rfl | rfl
    · decide
    · rfl

theorem run_escape {s : Option (List Char)} {m : Mode} {n : Nat} {label : Label} {t u : OpTree}
    (hs : s = none ∨ n = 4) (hm : m.value? = some u) :
    ((Reader.mk [] false (.operator n label t :: nots b) m).run (items (escape s))).bind finish =
      some (.items false [negated b (escaped s.isSome (.node label [t, u]))]) := by
  cases s with
  | none =>
    refine (finish_value (r := ⟨[], false, .operator n label t :: nots b, m⟩) hm).trans ?_
    cases b <;> rfl
  | some s =>
    obtain rfl : n = 4 := hs.resolve_left (Option.some_ne_none s)
    rw [escape, Option.elim_some, items_cons, run_cons,
      step_reserved (r := ⟨[], false, .operator 4 label t :: nots b, m⟩) hm, onWord,
      Reserved.of?_spelling]
    cases b <;> rfl

theorem level_left {label : Label} {n : Nat} (hs : Signs ss n label) (hl : Denotes b x ls)
    (hks : NoQuery ks) :
    level (items (ls ++ ss ++ ks)) = x.bind fun t =>
      ((Reader.mk [] false (.operator n label t :: nots b) .operand).run (items ks)).bind finish := by
  rw [List.append_assoc, level_append hl (hs.noQuery.append hks)]
  intro m t hm
  rw [items_append, run_append, hs.run ⟨[], false, nots b, m⟩ m t hm, Option.bind_some, push,
    reduce_nots hs.isStrong]

theorem negated_escaped {s : Option (List Char)} {label label' : Label} {ts us : List OpTree}
    (h : label' ≠ .reserved .not false) :
    negated b (escaped s.isSome (.node label ts)) = escaped s.isSome (.node label' us) ↔
      b = false ∧ label = label' ∧ ts = us := by
  cases b <;> cases s <;> simp [negated, escaped, h.symm]

section

variable {label : Label} {n : Nat} {s : Option (List Char)} {t : OpTree} (he : s = none ∨ n = 4)

include he

theorem run_right (hn : 4 ≤ n) (his : label ≠ .reserved .is false) (h : Denotes b' y ks) :
    ((Reader.mk [] false (.operator n label t :: nots b) .operand).run
        (items (ks ++ escape s))).bind finish =
      (tight b' y).bind fun u => some (.items false [negated b (escaped s.isSome (.node label [t, u]))]) := by
  have htight : Tight (.operator n label t :: nots b) := ⟨hn, his⟩
  rw [items_append, run_append, Option.bind_assoc]
  exact h.bind_tight rfl htight fun m u hm => run_escape he hm

/-- A `NOT` after `IS` goes over to the operator. -/
theorem run_right_is (h : Denotes b' y ks) :
    ((Reader.mk [] false (.operator n (.reserved .is false) t :: nots b) .operand).run
        (items (ks ++ escape s))).bind finish =
      y.bind fun u =>
        some (.items false [negated b (escaped s.isSome (.node (.reserved .is b') [t, u]))]) := by
  obtain ⟨js, rfl, -, hreads⟩ := h
  have hrest := (hreads ⟨[], false, .operator n (.reserved .is b') t :: nots b, .operand⟩ rfl).bind
    (f := fun r => (r.run (items (escape s))).bind finish) fun m u hm => run_escape he hm
  rw [← Option.bind_assoc, ← run_append, ← items_append] at hrest
  cases b' with
  | false => exact hrest
  | true =>
    rw [if_pos rfl, List.singleton_append, List.cons_append, items_cons, run_cons, step_not rfl]
    exact hrest

/-- An operator and its operands, neither of which starts with a `NOT`. -/
theorem level_signed {u : OpTree} (hs : Signs ss n label) (hl : Denotes b x ls)
    (hr : Denotes b' y ks) :
    level (items (ls ++ ss ++ (ks ++ escape s))) =
        some (.items false [escaped s.isSome (.node label [t, u])]) ↔
      tight b x = some t ∧ tight b' y = some u := by
  rw [level_left hs hl (hr.noQuery.append (noQuery_escape s))]
  by_cases his : label = .reserved .is false
  · subst his
    simp only [run_right_is he hr, Option.bind_eq_some_iff, Option.some.injEq, Content.items.injEq,
      true_and, List.cons.injEq, and_true, negated_escaped hs.isOther, tight_eq_some]
    constructor
    · rintro ⟨t', hx, u', hy, rfl, hlabel, rfl, rfl⟩
      cases hlabel
      exact ⟨⟨rfl, hx⟩, rfl, hy⟩
    · rintro ⟨⟨rfl, hx⟩, rfl, hy⟩
      exact ⟨t, hx, u, hy, rfl, rfl, rfl, rfl⟩
  · simp only [run_right he hs.isStrong his hr, Option.bind_eq_some_iff, Option.some.injEq,
      Content.items.injEq, true_and, List.cons.injEq, and_true, negated_escaped hs.isOther]
    constructor
    · rintro ⟨t', hx, u', hy, rfl, rfl, rfl⟩
      exact ⟨tight_eq_some.2 ⟨rfl, hx⟩, hy⟩
    · rintro ⟨hx, hy⟩
      obtain ⟨rfl, hx⟩ := tight_eq_some.1 hx
      exact ⟨t, hx, u, hy, rfl, rfl, rfl⟩

end

/-- An operand with `IS NULL` or `IS NOT NULL` behind it. -/
theorem level_said {negative : Bool} (hs : Signs ss 4 (.reserved .is negative))
    (hl : Denotes b x ls) {t : OpTree} :
    level (items (ls ++ ss ++ [Reserved.null.lexeme])) =
      some (.items false [.node (.null negative) [t]]) ↔ tight b x = some t := by
  have hnull (t' : OpTree) : ((Reader.mk [] false
      (.operator 4 (.reserved .is negative) t' :: nots b) .operand).run
        (items [Reserved.null.lexeme])).bind finish =
      some (.items false [negated b (.node (.null negative) [t'])]) := by
    cases b <;> rfl
  rw [level_left hs hl (by decide)]
  simp only [hnull]
  cases b <;> cases x <;> simp [tight, negated]

theorem close_nots (b : Bool) (t : OpTree) : close (nots b) t = some (negated b t) := by
  cases b <;> rfl

/-- An operand between two others. -/
theorem level_between {low high : Bool} {z : Option OpTree} {js : List Lexeme} {t u v : OpTree}
    (hx : Denotes b x ls) (hy : Denotes low y ks) (hz : Denotes high z js) :
    level (items (ls ++ ([Reserved.between.lexeme] ++ (ks ++ ([Reserved.and.lexeme] ++ js))))) =
      some (.items false [.node (.reserved .between false) [t, .row [u, v]]]) ↔
      tight b x = some t ∧ tight low y = some u ∧ tight high z = some v := by
  have hquery : NoQuery ([Reserved.between.lexeme] ++ (ks ++ ([Reserved.and.lexeme] ++ js))) :=
    NoQuery.append (by decide) (hy.noQuery.append (NoQuery.append (by decide) hz.noQuery))
  -- From the end backwards: the upper bound, then the lower one and what follows it.
  have hhigh (t' u' : OpTree) : ((Reader.mk [] false (.interval t' u' :: nots b) .operand).run
      (items js)).bind finish = (tight high z).bind fun v' =>
        some (.items false [negated b (.node (.reserved .between false) [t', .row [u', v']])]) := by
    refine hz.bind_tight rfl trivial fun m v' hm => ?_
    rw [finish_value (r := ⟨[], false, .interval t' u' :: nots b, m⟩) hm]
    cases b <;> rfl
  have hlow (t' : OpTree) : ((Reader.mk [] false (.between t' :: nots b) .operand).run
      (items (ks ++ ([Reserved.and.lexeme] ++ js)))).bind finish = (tight low y).bind fun u' =>
        (tight high z).bind fun v' =>
          some (.items false [negated b (.node (.reserved .between false) [t', .row [u', v']])]) := by
    rw [items_append, run_append, Option.bind_assoc]
    refine hy.bind_tight rfl trivial fun m u' hm => ?_
    rw [List.singleton_append, items_cons, run_cons,
      step_reserved (r := ⟨[], false, .between t' :: nots b, m⟩) hm, onWord, Reserved.of?_spelling,
      ← hhigh]
    rfl
  rw [level_append hx hquery (g := fun t' => (tight low y).bind fun u' => (tight high z).bind fun v' =>
    some (.items false [negated b (.node (.reserved .between false) [t', .row [u', v']])]))]
  · cases b with
    | false =>
      simp only [negated, Bool.false_eq_true, if_false, Option.bind_eq_some_iff, Option.some.injEq,
        Content.items.injEq, true_and, List.cons.injEq, and_true, OpTree.node.injEq, row, tight]
      constructor
      · rintro ⟨_, hx, _, hy, _, hz, rfl, rfl, rfl⟩
        exact ⟨hx, hy, hz⟩
      · rintro ⟨hx, hy, hz⟩
        exact ⟨t, hx, u, hy, v, hz, rfl, rfl, rfl⟩
    | true => simp [negated, tight, Option.bind_eq_some_iff]
  · intro m t' hm
    rw [← hlow, List.singleton_append, items_cons, run_cons,
      step_reserved (r := ⟨[], false, nots b, m⟩) hm, onWord, Reserved.of?_spelling]
    cases b <;> rfl

/-- An operand under a type. -/
theorem level_typed {js : List Lexeme} (h : Denotes b x ls) (hjs : NoQuery js) :
    level (items (ls ++ ([Reserved.type.lexeme] ++ js))) = (loose b x).map .typed := by
  have htype (t : OpTree) (xs : List Item) :
      (Reader.mk [] false [] (.typed t)).run xs = some ⟨[], false, [], .typed t⟩ := by
    induction xs with
    | nil => rfl
    | cons y ys ih => exact ih
  rw [level_append h (NoQuery.append (by decide) hjs) (g := fun t => some (.typed (negated b t)))]
  · cases x <;> rfl
  · intro m t hm
    rw [List.singleton_append, items_cons, run_cons,
      step_reserved (r := ⟨[], false, nots b, m⟩) hm, onWord, Reserved.of?_spelling]
    dsimp only
    rw [close_nots, List.isEmpty_nil, Bool.not_false, Bool.and_self, if_pos rfl, Option.map_some,
      Option.bind_some, htype]
    rfl

/-! ## Lists of operands -/

/-- The lexemes of an operand that is read as `x` in a place of its own. -/
def Denoted (x : Option OpTree) (ls : List Lexeme) : Prop := ∃ b y, Denotes b y ls ∧ x = loose b y

theorem Denoted.noQuery (h : Denoted x ls) : NoQuery ls := by
  obtain ⟨b, y, hy, -⟩ := h
  exact hy.noQuery

theorem NoQuery.intercalate {xs : List (Option OpTree)} {lss : List (List Lexeme)}
    (hss : NoQuery ss) (h : List.Forall₂ Denoted xs lss) : NoQuery (ss.intercalate lss) := by
  induction h with
  | nil => exact fun _ h => nomatch h
  | cons hx hrest ih =>
    cases hrest with
    | nil =>
      rw [List.intercalate_singleton]
      exact hx.noQuery
    | cons _ _ =>
      rw [List.intercalate_cons_cons]
      exact (hx.noQuery.append hss).append ih

theorem mapM_cons_some (t : OpTree) (xs : List (Option OpTree)) :
    (some t :: xs).mapM id = (xs.mapM id).map (t :: ·) := by
  rw [List.mapM_cons, Option.map_eq_bind]
  rfl

/-- Operands with commas between them. -/
theorem run_listing {xs : List (Option OpTree)} {lss : List (List Lexeme)}
    (h : List.Forall₂ Denoted xs lss) (hne : lss ≠ []) (distinct : Bool) (ts : List OpTree) :
    ((Reader.mk ts distinct [] .operand).run (items ([Lexeme.comma].intercalate lss))).bind finish =
      (xs.mapM id).map fun us => .items distinct (ts ++ us) := by
  induction h generalizing ts with
  | nil => exact absurd rfl hne
  | @cons x ls xs lss hx hrest ih =>
    obtain ⟨b, y, hy, rfl⟩ := hx
    have hread := hy.run (r := ⟨ts, distinct, [], .operand⟩) rfl trivial
    rw [List.append_nil] at hread
    cases hrest with
    | nil =>
      rw [List.intercalate_singleton, hread.bind (g := fun t => some (.items distinct (ts ++ [negated b t])))]
      · cases y <;> rfl
      · intro m t hm
        rw [finish_value hm, close_nots]
        rfl
    | cons hx' hrest' =>
      rw [List.intercalate_cons_cons, List.append_assoc, items_append, run_append, Option.bind_assoc,
        hread.bind (g := fun t => (Reader.run ⟨ts ++ [negated b t], distinct, [], .operand⟩
          (items ([Lexeme.comma].intercalate (_ :: _)))).bind finish)]
      · cases y with
        | none => rfl
        | some t =>
          rw [Option.bind_some, ih (List.cons_ne_nil _ _), loose, Option.map_some, mapM_cons_some,
            Option.map_map]
          simp [Function.comp_def]
      · intro m t hm
        rw [List.singleton_append, items_cons, run_cons, step_comma hm, close_nots]
        rfl

/-- The lexemes of a list of arguments. -/
theorem level_listing {xs : List (Option OpTree)} {lss : List (List Lexeme)}
    (h : List.Forall₂ Denoted xs lss) (distinct : Bool) :
    level (items ((if distinct then [Reserved.distinct.lexeme] else []) ++
      [Lexeme.comma].intercalate lss)) = (xs.mapM id).map (.items distinct) := by
  have hcommas : (Reader.run ⟨[], distinct, [], .operand⟩
      (items ([Lexeme.comma].intercalate lss))).bind finish = (xs.mapM id).map (.items distinct) := by
    cases h with
    | nil => rfl
    | cons hx hrest => exact run_listing (.cons hx hrest) (List.cons_ne_nil _ _) distinct []
  rw [level_eq ((by cases distinct <;> decide : NoQuery _).append (.intercalate (by decide) h)), ← hcommas]
  cases distinct <;> rfl

/-- Operators of one kind associate to the left. -/
def chain (label : Label) : List OpTree → OpTree
  | [] => .node label []
  | t :: ts => ts.foldl (fun l r => .node label [l, r]) t

theorem chain_append {label : Label} {ts : List OpTree} (hts : ts ≠ []) (us : List OpTree) :
    chain label (chain label ts :: us) = chain label (ts ++ us) := by
  cases ts with
  | nil => exact absurd rfl hts
  | cons t ts => exact List.foldl_append.symm

/-- A connective of level `n`. -/
def Connects (k : Reserved) (n : Nat) : Prop := k = .and ∧ n = 2 ∨ k = .or ∧ n = 1

/-- What waits for the next member of a chain. -/
def waiting (n : Nat) (k : Reserved) (l : Option OpTree) : List Pending :=
  l.elim [] fun l => [.operator n (.reserved k false) l]

section

variable {k : Reserved} {n : Nat} (hk : Connects k n)

include hk

theorem loose_waiting (l : Option OpTree) : Loose (waiting n k l) := by
  cases l with
  | none => trivial
  | some l => obtain ⟨rfl, rfl⟩ | ⟨rfl, rfl⟩ := hk <;> exact ⟨by decide, by simp⟩

theorem close_waiting (l : Option OpTree) (t : OpTree) : close (nots b ++ waiting n k l) t =
    some (chain (.reserved k false) (l.toList ++ [negated b t])) := by
  obtain ⟨rfl, rfl⟩ | ⟨rfl, rfl⟩ := hk <;> cases b <;> cases l <;> rfl

theorem onWord_waiting (l : Option OpTree) (m : Mode) (t : OpTree) :
    onWord ⟨[], false, nots b ++ waiting n k l, m⟩ t k.spelling.toList =
      some ⟨[], false,
        waiting n k (some (chain (.reserved k false) (l.toList ++ [negated b t]))), .operand⟩ := by
  rw [onWord, Reserved.of?_spelling]
  obtain ⟨rfl, rfl⟩ | ⟨rfl, rfl⟩ := hk <;> cases b <;> cases l <;> rfl

/-- Operands with a connective between them, after a part of the chain that may have been read. -/
theorem run_chain {xs : List (Option OpTree)} {lss : List (List Lexeme)}
    (h : List.Forall₂ Denoted xs lss) (hne : lss ≠ []) (l : Option OpTree) :
    ((Reader.mk [] false (waiting n k l) .operand).run
        (items ([k.lexeme].intercalate lss))).bind finish =
      (xs.mapM id).map fun ts => .items false [chain (.reserved k false) (l.toList ++ ts)] := by
  -- `l` is the part of the chain that the reader has on its stack.
  induction h generalizing l with
  | nil => exact absurd rfl hne
  | cons hx hrest ih =>
    obtain ⟨b, y, hy, rfl⟩ := hx
    have hread := hy.run (r := ⟨[], false, waiting n k l, .operand⟩) rfl (loose_waiting hk l)
    cases hrest with
    | nil =>
      rw [List.intercalate_singleton, hread.bind (g := fun t =>
        some (.items false [chain (.reserved k false) (l.toList ++ [negated b t])]))]
      · cases y <;> rfl
      · intro m t hm
        rw [finish_value hm, close_waiting hk]
        rfl
    | cons hx' hrest' =>
      rw [List.intercalate_cons_cons, List.append_assoc, items_append, run_append, Option.bind_assoc,
        hread.bind (g := fun t => (Reader.run ⟨[], false, waiting n k (some
          (chain (.reserved k false) (l.toList ++ [negated b t]))), .operand⟩
          (items ([k.lexeme].intercalate (_ :: _)))).bind finish)]
      · cases y with
        | none => rfl
        | some t =>
          rw [Option.bind_some, ih (List.cons_ne_nil _ _), loose, Option.map_some, mapM_cons_some,
            Option.map_map]
          simp [Function.comp_def, chain_append]
      · intro m t hm
        rw [List.singleton_append, items_cons, run_cons, step_reserved hm, onWord_waiting hk]
        rfl

theorem level_chain {xs : List (Option OpTree)} {lss : List (List Lexeme)}
    (h : List.Forall₂ Denoted xs lss) (hne : lss ≠ []) :
    level (items ([k.lexeme].intercalate lss)) =
      (xs.mapM id).map fun ts => .items false [chain (.reserved k false) ts] := by
  have hquery : NoQuery [k.lexeme] := by
    obtain ⟨rfl, rfl⟩ | ⟨rfl, rfl⟩ := hk <;> decide
  rw [level_eq (.intercalate hquery h)]
  exact run_chain hk h hne none

end

/-! ## Single operands -/

theorem Denotes.of_reads (hls : NoQuery ls) (h : Reads x ls) : Denotes false x ls := ⟨ls, rfl, hls, h⟩

theorem noQuery_group (ls : List Lexeme) : NoQuery [.group ls] := by
  intro l hl
  rw [List.mem_singleton.1 hl]
  rfl

theorem items_group (ls ks : List Lexeme) :
    items (.group ls :: ks) = (.group ls, some (level (items ls))) :: items ks := rfl

theorem denotes_group (ls : List Lexeme) :
    Denotes false ((level (items ls)).bind Content.operand?) [.group ls] := by
  refine .of_reads (noQuery_group ls) fun r hr => ?_
  have hstep : r.step (.group ls, some (level (items ls))) =
      ((level (items ls)).bind Content.operand?).map fun t => { r with mode := .value t } := by
    rw [step, hr]
    rfl
  rw [items_group, run_cons, hstep]
  cases (level (items ls)).bind Content.operand? with
  | none => rfl
  | some t => exact ⟨.value t, rfl, rfl⟩

/-- The last part of a name with dots. -/
def lastPart (n : List Char) : List Char := (Identifier.parts n).getLastD []

/-- A reader that takes a name next. -/
def Naming (k : NameOf) (r : Reader) : Prop :=
  ∀ p, r.step (.name p, none) = some { r with mode := .name k p }

theorem naming_operand (hr : r.mode = .operand) : Naming .column r := by
  intro p
  rw [step, hr]
  rfl

theorem naming_dotted (r : Reader) (k : NameOf) : Naming k { r with mode := .dotted k } := fun _ => rfl

theorem run_ofName {k : NameOf} (n : List Char) (hr : Naming k r) :
    r.run (items (ofName n)) = some { r with mode := .name k (lastPart n) } := by
  have hne := parts_ne_nil n
  unfold ofName lastPart
  generalize Identifier.parts n = ps at hne
  induction ps generalizing r with
  | nil => exact absurd rfl hne
  | cons p ps ih =>
    cases ps with
    | nil =>
      rw [List.map_singleton, List.intercalate_singleton, items_cons, run_cons, Lexeme.fold, hr]
      rfl
    | cons p' ps =>
      have hrest := ih (naming_dotted r k) (List.cons_ne_nil p' ps)
      rw [List.map_cons, List.map_cons, List.intercalate_cons_cons, List.append_assoc,
        List.singleton_append, List.singleton_append, items_cons, items_cons, run_cons, Lexeme.fold,
        hr, Option.bind_some, run_cons]
      exact hrest.trans (by rw [List.getLastD_cons, List.getLastD_cons, List.getLastD_cons])

theorem noQuery_ofName (n : List Char) : NoQuery (ofName n) := by
  intro l hl
  obtain rfl | ⟨p, rfl⟩ := mem_ofName hl <;> rfl

theorem denotes_name (n : List Char) :
    Denotes false (some (.node (.column (lastPart n)) [])) (ofName n) :=
  .of_reads (noQuery_ofName n) fun _ hr => ⟨_, rfl, run_ofName n (naming_operand hr)⟩

theorem noQuery_qualified {s : List Char} (h : NoQuery ls) : NoQuery (ofName s ++ .dot :: ls) :=
  (noQuery_ofName s).append (NoQuery.append (by decide : NoQuery [Lexeme.dot]) h)

/-- The reader after a qualifier. -/
theorem run_qualified (hr : r.mode = .operand) (s : List Char) (ls : List Lexeme) :
    r.run (items (ofName s ++ .dot :: ls)) = { r with mode := .dotted .column }.run (items ls) := by
  rw [items_append, run_append, run_ofName s (naming_operand hr)]
  rfl

theorem denotes_qualified (s n : List Char) :
    Denotes false (some (.node (.column (lastPart n)) [])) (ofName s ++ .dot :: ofName n) :=
  .of_reads (noQuery_qualified (noQuery_ofName n)) fun r hr =>
    ⟨_, rfl, (run_qualified hr s _).trans (run_ofName n (naming_dotted r .column))⟩

theorem denotes_star : Denotes false (some (.node .star [])) [.word ['*']] :=
  .of_reads (by decide) fun _ hr => ⟨.value (.node .star []), rfl, by
    rw [items_cons, run_cons, step, hr]
    rfl⟩

theorem denotes_qualifiedStar (s : List Char) :
    Denotes false (some (.node .star [])) (ofName s ++ [Lexeme.dot, .word ['*']]) :=
  .of_reads (noQuery_qualified (by decide)) fun _ hr =>
    ⟨.value (.node .star []), rfl, (run_qualified hr s _).trans rfl⟩

theorem denotes_word {w : List Char} (hw : Reserved.of? w = none) (hstar : w ≠ ['*']) :
    Denotes false (some (.ofWord w)) [.word w] := by
  refine .of_reads (signs_word hw).noQuery fun r hr => ⟨.word w, rfl, ?_⟩
  have hword : r.step (.word w, none) = some { r with mode := .word w } := by
    rw [step, hr]
    change onOperandWord r w = _
    rw [onOperandWord, hw]
    dsimp only
    rw [Mode.ofWord, if_neg hstar]
  rw [items_cons, run_cons, Lexeme.fold, hword]
  rfl

theorem denotes_values (n : List Char) :
    Denotes false (some (.node .proposed [])) [Reserved.values.lexeme, .group (ofName n)] := by
  refine .of_reads (NoQuery.append (by decide : NoQuery [Reserved.values.lexeme])
    (noQuery_group _)) fun r hr => ⟨.value (.node .proposed []), rfl, ?_⟩
  rw [items_cons, items_group, level_operand (denotes_name n), run_cons, step, hr]
  rfl

theorem denotes_excluded (n : List Char) :
    Denotes false (some (.node .proposed [])) (Reserved.excluded.lexeme :: .dot :: ofName n) := by
  refine .of_reads (NoQuery.append (by decide : NoQuery [Reserved.excluded.lexeme, .dot])
    (noQuery_ofName n)) fun r hr => ⟨.name .proposed (lastPart n), rfl, ?_⟩
  rw [items_cons, run_cons, step, hr]
  exact run_ofName n (naming_dotted r .proposed)

/-! ## Functions, casts, windows and queries -/

/-- A part of the name of a function. -/
def functionPart? : Lexeme → Option (List Char)
  | .word w => if Reserved.of? w = none ∧ w ≠ ['*'] then some w else none
  | .name n => some n
  | _ => none

/-- The last part of the name of a function, if the lexemes are one. -/
def functionName? : List Lexeme → Option (List Char)
  | [l] => functionPart? l
  | l :: .dot :: ls => (functionPart? l).bind fun _ => functionName? ls
  | _ => none

theorem step_functionPart {l : Lexeme} {f : List Char} (hl : functionPart? l = some f)
    (hr : r.mode = .operand ∨ r.mode = .dotted .column) (o : Option (Option Content)) :
    ∃ m : Mode, m.function? = some f ∧ r.step (l, o) = some { r with mode := m } := by
  unfold functionPart? at hl
  split at hl
  · rename_i w
    split at hl
    · rename_i hw
      cases hl
      have hmode : Mode.ofWord f = .word f := if_neg hw.2
      refine ⟨.word f, rfl, ?_⟩
      rcases hr with hr | hr
      · rw [step, hr, ← hmode]
        change onOperandWord r f = _
        rw [onOperandWord, hw.1]
      · rw [step, hr, ← hmode]
    · cases hl
  · cases hl
    refine ⟨.name .column f, rfl, ?_⟩
    rcases hr with hr | hr <;> rw [step, hr]
    rfl
  · cases hl

theorem step_function_dot {m : Mode} {f : List Char} (hm : m.function? = some f)
    (o : Option (Option Content)) :
    step { r with mode := m } (.dot, o) = some { r with mode := .dotted .column } := by
  unfold Mode.function? at hm
  split at hm
  · rfl
  · rfl
  · cases hm

theorem run_function {f : List Char} (hls : functionName? ls = some f)
    (hr : r.mode = .operand ∨ r.mode = .dotted .column) :
    ∃ m : Mode, m.function? = some f ∧ r.run (items ls) = some { r with mode := m } := by
  fun_induction functionName? ls generalizing r with
  | case1 l =>
    obtain ⟨m, hm, hstep⟩ := step_functionPart hls hr (l.fold level)
    refine ⟨m, hm, ?_⟩
    rw [items_cons, run_cons, hstep]
    rfl
  | case2 l ls ih =>
    obtain ⟨f', hl, hls⟩ := Option.bind_eq_some_iff.1 hls
    obtain ⟨m, hm, hstep⟩ := step_functionPart hl hr (l.fold level)
    obtain ⟨m', hm', hrun⟩ := ih hls (r := { r with mode := .dotted .column }) (.inr rfl)
    refine ⟨m', hm', ?_⟩
    rw [items_cons, items_cons, run_cons, hstep, Option.bind_some, run_cons, step_function_dot hm]
    exact hrun
  | case3 => cases hls

theorem noQuery_function {f : List Char} (h : functionName? ls = some f) : NoQuery ls := by
  have hpart {l : Lexeme} {f : List Char} (h : functionPart? l = some f) : l.isQueryWord = false := by
    unfold functionPart? at h
    split at h
    · split at h
      · rename_i w hw
        exact (signs_word hw.1).noQuery _ (List.mem_singleton.2 rfl)
      · cases h
    · rfl
    · cases h
  fun_induction functionName? ls with
  | case1 l => exact fun l' hl => List.mem_singleton.1 hl ▸ hpart h
  | case2 l ls ih =>
    obtain ⟨f', hl, hls⟩ := Option.bind_eq_some_iff.1 h
    exact List.forall_mem_cons.2 ⟨hpart hl, List.forall_mem_cons.2 ⟨rfl, ih hls⟩⟩
  | case3 => cases h

theorem step_arguments {m : Mode} {f : List Char} (hm : m.function? = some f) (ks : List Lexeme)
    (distinct : Bool) (o : Option (List OpTree)) :
    step { r with mode := m } (.group ks, some (o.map (.items distinct))) =
      o.map fun ts => { r with mode := .value (.node (.call f distinct) ts) } := by
  unfold Mode.function? at hm
  split at hm
  · cases hm
    cases o <;> rfl
  · cases hm
    cases o <;> rfl
  · cases hm

theorem denotes_call {f : List Char} (hf : functionName? ls = some f) (distinct : Bool)
    {xs : List (Option OpTree)} {lss : List (List Lexeme)} (h : List.Forall₂ Denoted xs lss) :
    Denotes false ((xs.mapM id).map (.node (.call f distinct)))
      (ls ++ [Lexeme.group ((if distinct then [Reserved.distinct.lexeme] else []) ++
        [Lexeme.comma].intercalate lss)]) := by
  refine .of_reads ((noQuery_function hf).append (noQuery_group _)) fun r hr => ?_
  obtain ⟨m, hm, hrun⟩ := run_function hf (r := r) (.inl hr)
  rw [items_append, run_append, hrun, Option.bind_some, items_group, run_cons, level_listing h,
    step_arguments hm]
  cases xs.mapM id with
  | none => rfl
  | some ts => exact ⟨.value (.node (.call f distinct) ts), rfl, rfl⟩

/-! ## Queries, casts and windows -/

theorem level_query (h : ls.any Lexeme.isQueryWord = true) : level (items ls) = some .query := by
  rw [level, any_items, if_pos h]

theorem denotes_nonEmpty (h : ks.any Lexeme.isQueryWord = true) :
    Denotes false (some (.node .nonEmpty [])) [Reserved.nonEmpty.lexeme, .group ks] := by
  refine .of_reads (NoQuery.append (by decide : NoQuery [Reserved.nonEmpty.lexeme])
    (noQuery_group ks)) fun r hr => ⟨.value (.node .nonEmpty []), rfl, ?_⟩
  rw [items_cons, items_group, level_query h, run_cons, step, hr]
  rfl

theorem denotes_cast {js : List Lexeme} (h : Denotes b x ks) (hjs : NoQuery js) :
    Denotes false ((loose b x).map fun t => .node .cast [t])
      [Reserved.cast.lexeme, .group (ks ++ ([Reserved.type.lexeme] ++ js))] := by
  refine .of_reads (NoQuery.append (by decide : NoQuery [Reserved.cast.lexeme])
    (noQuery_group _)) fun r hr => ?_
  rw [items_cons, items_group, level_typed h hjs, run_cons, step, hr]
  cases loose b x with
  | none => rfl
  | some t => exact ⟨.value (.node .cast [t]), rfl, rfl⟩

/-- A window is a group or a name. -/
theorem Denotes.windowed {ws : List Lexeme} (h : Denotes b x ls)
    (hws : (∃ ks, ws = [.group ks]) ∨ ∃ n, ws = ofName n) :
    Denotes b (x.map fun t => .node .window [t]) (ls ++ ([Reserved.window.lexeme] ++ ws)) := by
  obtain ⟨ks, rfl, hks, hreads⟩ := h
  have hquery : NoQuery ([Reserved.window.lexeme] ++ ws) := by
    refine NoQuery.append (by decide) ?_
    obtain ⟨js, rfl⟩ | ⟨n, rfl⟩ := hws
    · exact noQuery_group js
    · exact noQuery_ofName n
  refine ⟨_, List.append_assoc .., hks.append hquery, fun r hr => ?_⟩
  have hrun : r.run (items (ks ++ ([Reserved.window.lexeme] ++ ws))) = (r.run (items ks)).bind
      fun r => r.run (items ([Reserved.window.lexeme] ++ ws)) := by
    rw [items_append, run_append]
  rw [hrun]
  have hread := hreads r hr
  cases x with
  | none =>
    have hnone : r.run (items ks) = none := hread
    rw [hnone]
    rfl
  | some t =>
    obtain ⟨m, hm, hsome⟩ := hread
    rw [hsome, Option.bind_some, List.singleton_append, items_cons, run_cons, step_reserved hm, onWord,
      Reserved.of?_spelling]
    obtain ⟨js, rfl⟩ | ⟨n, rfl⟩ := hws
    · exact ⟨.value (.node .window [t]), rfl, rfl⟩
    · exact ⟨.name (.window t) (lastPart n), rfl, run_ofName n fun _ => rfl⟩

end OpTree

end SqlMapper
