import Mathlib.Data.List.Induction
import SqlMapper.Proofs.Text.Denoted

/-!
# SqlMapper.Proofs.Text.Kept

When the reader gives an operand back as the tree that it was written from.

`Kept b t s ls` says that the lexemes `ls` are an operand, after a `NOT` if `b`, and that they are
read as the tree `t` exactly if `s`. There is one rule for each form of an operand. A `NOT` in front
of an operand of something stronger loses the tree, and nothing else does.
-/

namespace SqlMapper
namespace OpTree

variable {α : Type} {b b' s s' : Bool} {t u : OpTree} {ls ks js ss : List Lexeme}

def Kept (b : Bool) (t : OpTree) (s : Bool) (ls : List Lexeme) : Prop :=
  ∃ x, Denotes b x ls ∧ (loose b x = some t ↔ s = true)

namespace Kept

/-- Lexemes that are read as the tree. -/
theorem of_denotes (h : Denotes false (some t) ls) : Kept false t true ls :=
  ⟨some t, h, by simp⟩

theorem read_iff (h : Kept b t s ls) : read ls = some t ↔ s = true := by
  obtain ⟨x, hdenotes, hx⟩ := h
  have hlevel : level (Lexeme.foldAll level ls) =
      x.map fun t => .items false [OpTree.negated b t] := level_operand hdenotes
  rw [read, ← hx, hlevel]
  cases x <;> rfl

/-- An operand in the place of one that takes no `NOT`. -/
theorem tight (h : Kept b t s ls) :
    ∃ x, Denotes b x ls ∧ (OpTree.tight b x = some t ↔ (!b && s) = true) := by
  obtain ⟨x, hdenotes, hx⟩ := h
  refine ⟨x, hdenotes, ?_⟩
  cases b with
  | false => simpa [OpTree.tight] using hx
  | true => simp [OpTree.tight]

theorem negated (h : Kept false t s ls) (b : Bool) :
    Kept b (.negated b t) s ((if b then [Reserved.not.lexeme] else []) ++ ls) := by
  obtain ⟨x, ⟨ks, rfl, hks, hreads⟩, hx⟩ := h
  refine ⟨x, ⟨_, rfl, hks, hreads⟩, ?_⟩
  rw [← hx]
  cases b <;> cases x <;> simp [loose, OpTree.negated]

/-! ## Groups -/

/-- What is neither a row nor a query comes from a level of one operand. -/
theorem bind_operand?_eq {o : Option Content} (hrow : ∀ ts, t ≠ .node .row ts)
    (hquery : t ≠ .node .query []) :
    o.bind Content.operand? = some t ↔ o = some (.items false [t]) := by
  match o with
  | none => simp
  | some (.items true ts) => simp [Content.operand?]
  | some (.items false []) => simp [Content.operand?, row, (hrow _).symm]
  | some (.items false [t]) => simp [Content.operand?, row]
  | some (.items false (t :: u :: ts)) => simp [Content.operand?, row, (hrow _).symm]
  | some (.typed t) => simp [Content.operand?]
  | some .query => simp [Content.operand?, hquery.symm]

theorem of_level (hrow : ∀ ts, t ≠ .node .row ts) (hquery : t ≠ .node .query [])
    (h : level (items ls) = some (.items false [t]) ↔ s = true) :
    Kept false t s [.group ls] :=
  ⟨_, denotes_group ls, by rw [loose_false, bind_operand?_eq hrow hquery, h]⟩

/-- An operator, its operands and the literal after `ESCAPE`. -/
theorem signed {label : Label} {n : Nat} {e : Option (List Char)} (hs : Signs ss n label)
    (hrow : label ≠ .row) (hquery : label ≠ .query) (he : e = none ∨ n = 4) (hl : Kept b t s ls)
    (hr : Kept b' u s' ks) :
    Kept false (escaped e.isSome (.node label [t, u])) ((!b && s) && (!b' && s'))
      [.group (ls ++ ss ++ (ks ++ escape e))] := by
  obtain ⟨x, hx, hxt⟩ := hl.tight
  obtain ⟨y, hy, hyu⟩ := hr.tight
  refine of_level ?_ ?_ ?_
  · cases e <;> simp [escaped, hrow]
  · cases e <;> simp [escaped, hquery]
  · rw [level_signed he hs hx hy, hxt, hyu, ← Bool.and_eq_true]

theorem said {negative : Bool} (hs : Signs ss 4 (.reserved .is negative)) (h : Kept b t s ls) :
    Kept false (.node (.null negative) [t]) (!b && s)
      [.group (ls ++ (ss ++ [Reserved.null.lexeme]))] := by
  obtain ⟨x, hx, hxt⟩ := h.tight
  refine of_level (by simp) (by simp) ?_
  rw [← List.append_assoc, level_said hs hx, hxt]

theorem between {low high l h : Bool} {v : OpTree} (hx : Kept b t s ls) (hy : Kept low u l ks)
    (hz : Kept high v h js) :
    Kept false (.node (.reserved .between false) [t, .row [u, v]])
      ((!b && s) && ((!low && l) && (!high && h)))
      [.group (ls ++ [Reserved.between.lexeme] ++ ks ++ [Reserved.and.lexeme] ++ js)] := by
  obtain ⟨x, hx, hxt⟩ := hx.tight
  obtain ⟨y, hy, hyu⟩ := hy.tight
  obtain ⟨z, hz, hzv⟩ := hz.tight
  refine of_level (by simp) (by simp) ?_
  rw [List.append_assoc, List.append_assoc, List.append_assoc, level_between hx hy hz, hxt, hyu, hzv,
    ← Bool.and_eq_true, ← Bool.and_eq_true]

theorem query (h : ls.any Lexeme.isQueryWord = true) :
    Kept false (.node .query []) true [.group ls] :=
  ⟨_, denotes_group ls, by rw [loose_false, level_query h]; exact iff_of_true rfl rfl⟩

/-! ## Lists -/

/-- The operands of a row can be told apart, given how many there are. -/
theorem row_injective {ts us : List OpTree} (hlength : ts.length = us.length)
    (h : row ts = row us) : ts = us := by
  match ts, us with
  | [], [] => rfl
  | [t], [u] => exact congrArg (fun t => [t]) h
  | t :: t' :: ts, u :: u' :: us =>
    injection h
  | [], _ :: _ | _ :: _, [] => cases hlength
  | [_], _ :: _ :: _ | _ :: _ :: _, [_] => simp at hlength

theorem chain_concat {label : Label} {ts : List OpTree} (hts : ts ≠ []) (t : OpTree) :
    chain label (ts ++ [t]) = .node label [chain label ts, t] := (chain_append hts [t]).symm

theorem chain_injective {label : Label} {ts us : List OpTree} (hlength : ts.length = us.length)
    (h : chain label ts = chain label us) : ts = us := by
  induction ts using List.reverseRecOn generalizing us with
  | nil => exact (List.length_eq_zero_iff.1 hlength.symm).symm
  | append_singleton ts t ih =>
    obtain rfl | ⟨us, u, rfl⟩ := List.eq_nil_or_concat us
    · simp at hlength
    · rw [List.concat_eq_append] at hlength h ⊢
      have hlength : ts.length = us.length := by simpa using hlength
      by_cases hts : ts = []
      · obtain rfl : us = [] := List.length_eq_zero_iff.1 (by rw [← hlength, hts]; rfl)
        rw [hts] at h ⊢
        exact congrArg (fun t => [t]) h
      · have hus : us ≠ [] := fun hus => hts (List.length_eq_zero_iff.1 (by rw [hlength, hus]; rfl))
        rw [chain_concat hts, chain_concat hus] at h
        injection h with _ h
        injection h with h hlast
        injection hlast with hlast
        rw [ih hlength h, hlast]

theorem forall_denoted {b s : α → Bool} {t : α → OpTree} {es : List α} {lss : List (List Lexeme)}
    (h : List.Forall₂ (fun e ls => Kept (b e) (t e) (s e) ls) es lss) :
    ∃ xs, List.Forall₂ Denoted xs lss ∧ (xs.mapM id = some (es.map t) ↔ es.all s = true) ∧
      ∀ us, xs.mapM id = some us → us.length = (es.map t).length := by
  induction h with
  | nil => exact ⟨[], .nil, by simp, by simp⟩
  | @cons e ls es lss hx hrest ih =>
    obtain ⟨x, hdenotes, hx⟩ := hx
    obtain ⟨xs, hxs, hall, hlength⟩ := ih
    refine ⟨loose (b e) x :: xs, .cons ⟨_, x, hdenotes, rfl⟩ hxs, ?_⟩
    rw [List.all_cons, Bool.and_eq_true, ← hall, ← hx]
    cases loose (b e) x with
    | none => simp [List.mapM_cons]
    | some u =>
      rw [mapM_cons_some]
      refine ⟨by simp [and_comm], fun us hus => ?_⟩
      obtain ⟨ts, hts, rfl⟩ := Option.map_eq_some_iff.1 hus
      rw [List.length_cons, hlength ts hts, List.map_cons, List.length_cons]

section

variable {b s : α → Bool} {t : α → OpTree} {es : List α} {lss : List (List Lexeme)}
  (h : List.Forall₂ (fun e ls => Kept (b e) (t e) (s e) ls) es lss)

include h

theorem ofRow : Kept false (.row (es.map t)) (es.all s) [.group ([Lexeme.comma].intercalate lss)] := by
  obtain ⟨xs, hxs, hall, hlength⟩ := forall_denoted h
  refine ⟨_, denotes_group _, ?_⟩
  have hlevel : level (items ([Lexeme.comma].intercalate lss)) = (xs.mapM id).map (.items false) :=
    level_listing hxs false
  rw [loose_false, hlevel, ← hall]
  cases hus : xs.mapM id with
  | none => simp
  | some us =>
    change some (OpTree.row us) = some (.row (es.map t)) ↔ _
    rw [Option.some.injEq, Option.some.injEq]
    exact ⟨row_injective (hlength us hus), congrArg row⟩

theorem call {f : List Char} (hf : functionName? ls = some f) (distinct : Bool) :
    Kept false (.node (.call f distinct) (es.map t)) (es.all s)
      (ls ++ [Lexeme.group ((if distinct then [Reserved.distinct.lexeme] else []) ++
        [Lexeme.comma].intercalate lss)]) := by
  obtain ⟨xs, hxs, hall, -⟩ := forall_denoted h
  refine ⟨_, denotes_call hf distinct hxs, ?_⟩
  rw [loose_false, ← hall]
  simp [Option.map_eq_some_iff]

theorem chain {k : Reserved} {n : Nat} (hk : Connects k n) (hne : es ≠ []) :
    Kept false (.chain (.reserved k false) (es.map t)) (es.all s)
      [.group ([k.lexeme].intercalate lss)] := by
  obtain ⟨xs, hxs, hall, hlength⟩ := forall_denoted h
  have hlss : lss ≠ [] := by
    rintro rfl
    cases h
    exact hne rfl
  refine ⟨_, denotes_group _, ?_⟩
  rw [loose_false, level_chain hk hxs hlss, ← hall]
  cases hus : xs.mapM id with
  | none => simp
  | some us =>
    change some (OpTree.chain _ us) = some (.chain _ (es.map t)) ↔ _
    rw [Option.some.injEq, Option.some.injEq]
    exact ⟨chain_injective (hlength us hus), congrArg (OpTree.chain _)⟩

end

/-! ## Casts and windows -/

theorem cast (h : Kept b t s ls) (hjs : NoQuery js) :
    Kept false (.node .cast [t]) s
      [Reserved.cast.lexeme, .group (ls ++ ([Reserved.type.lexeme] ++ js))] := by
  obtain ⟨x, hx, hxt⟩ := h
  refine ⟨_, denotes_cast hx hjs, ?_⟩
  rw [loose_false, ← hxt]
  simp [Option.map_eq_some_iff]

theorem windowed {ws : List Lexeme} (h : Kept b t s ls)
    (hws : (∃ ks, ws = [.group ks]) ∨ ∃ n, ws = Lexer.ofName n) :
    Kept b (.node .window [t]) (!b && s) (ls ++ ([Reserved.window.lexeme] ++ ws)) := by
  obtain ⟨x, hx, hxt⟩ := h.tight
  refine ⟨_, hx.windowed hws, ?_⟩
  rw [← hxt]
  cases b <;> cases x <;> simp [loose, OpTree.tight, OpTree.negated]

end Kept

end OpTree
end SqlMapper
