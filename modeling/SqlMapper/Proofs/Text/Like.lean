import Mathlib.Data.List.Infix
import SqlMapper.Query.Expr

/-!
# SqlMapper.Proofs.Text.Like

Which texts a pattern of `LIKE` matches when the backslash is its escape character.

* `Like`: the rules. `Like.accepts` decides them, trying every run that a percent sign can stand
  for.
* `Like.escapeChars_append_iff`: a text that is escaped stands for itself, whatever pattern comes
  after it.
* `Expr.patterns_literal`: the conditions that look for a text find it and nothing else.
-/

namespace SqlMapper

open Pattern

/-- A percent sign stands for any run of characters, an underscore for one character, and what
comes after a backslash for itself, as every other character does. -/
inductive Like : List Char → List Char → Prop
  | nil : Like [] []
  | run (skipped : List Char) {p s : List Char} : Like p s → Like ('%' :: p) (skipped ++ s)
  | one (c : Char) {p s : List Char} : Like p s → Like ('_' :: p) (c :: s)
  | escaped (c : Char) {p s : List Char} : Like p s → Like ('\\' :: c :: p) (c :: s)
  | plain {c : Char} {p s : List Char} :
      c ≠ '%' → c ≠ '_' → c ≠ '\\' → Like p s → Like (c :: p) (c :: s)

namespace Like

variable {c : Char} {p s : List Char}

/-! ## The matcher -/

/-- Matches a pattern from the left. A percent sign is tried with every rest of the text, and a
backslash at the end of the pattern matches nothing. -/
def accepts : List Char → List Char → Bool
  | [], s => s.isEmpty
  | '%' :: p, s => s.tails.any fun rest => accepts p rest
  | '_' :: p, _ :: s => accepts p s
  | '\\' :: c :: p, x :: s => c == x && accepts p s
  | ['\\'], _ => false
  | c :: p, x :: s => c == x && accepts p s
  | _ :: _, [] => false

theorem accepts_percent :
    accepts ('%' :: p) s = true ↔ ∃ skipped rest, s = skipped ++ rest ∧ accepts p rest = true := by
  rw [accepts, List.any_eq_true]
  constructor
  · rintro ⟨rest, hrest, h⟩
    obtain ⟨skipped, rfl⟩ := (List.mem_tails ..).1 hrest
    exact ⟨skipped, rest, rfl, h⟩
  · rintro ⟨skipped, rest, rfl, h⟩
    exact ⟨rest, (List.mem_tails ..).2 (List.suffix_append ..), h⟩

theorem of_accepts (h : accepts p s = true) : Like p s := by
  fun_induction accepts p s with
  | case1 s =>
    rw [List.isEmpty_iff.1 h]
    exact .nil
  | case2 p s ih =>
    rw [← accepts, accepts_percent] at h
    obtain ⟨skipped, rest, rfl, hrest⟩ := h
    exact .run skipped (ih rest hrest)
  | case3 p x s ih => exact .one x (ih h)
  | case4 c p x s ih =>
    rw [Bool.and_eq_true, beq_iff_eq] at h
    obtain ⟨rfl, hrest⟩ := h
    exact .escaped c (ih hrest)
  | case5 s => cases h
  | case6 c p x s hrun hone hescape hlast ih =>
    rw [Bool.and_eq_true, beq_iff_eq] at h
    obtain ⟨rfl, hrest⟩ := h
    refine .plain hrun hone ?_ (ih hrest)
    rintro rfl
    cases p with
    | nil => exact hlast rfl rfl
    | cons d p => exact hescape d p rfl rfl
  | case7 => cases h

theorem accepts_of_like (h : Like p s) : accepts p s = true := by
  induction h with
  | nil => rfl
  | run skipped _ ih => exact accepts_percent.2 ⟨skipped, _, rfl, ih⟩
  | one c _ ih => rwa [accepts]
  | escaped c _ ih => rw [accepts, ih, beq_self_eq_true, Bool.and_self]
  | plain hrun hone hescape _ ih =>
    rw [accepts, ih, beq_self_eq_true, Bool.and_self]
    · exact hrun
    · exact hone
    · exact fun _ _ hc => absurd hc hescape
    · exact fun hc => absurd hc hescape

instance (p s : List Char) : Decidable (Like p s) :=
  decidable_of_iff (accepts p s = true) ⟨of_accepts, accepts_of_like⟩

/-- Without the backslash the underscore would match the letter, and behind one that was not
escaped the percent sign would be a character like others. -/
example : Like ['%', '\\', '_', '\\', '\\', '%'] ['a', '_', '\\', 'b'] ∧
    ¬ Like ['%', '\\', '_', '\\', '\\', '%'] ['a', 'x', '\\', 'b'] := by
  decide

/-! ## Escaped texts -/

theorem nil_iff : Like [] s ↔ s = [] := by
  constructor
  · rintro ⟨⟩
    rfl
  · rintro rfl
    exact .nil

theorem percent_iff : Like ('%' :: p) s ↔ ∃ skipped rest, s = skipped ++ rest ∧ Like p rest := by
  constructor
  · intro h
    cases h with
    | run skipped h => exact ⟨skipped, _, rfl, h⟩
    | plain hrun _ _ _ => exact absurd rfl hrun
  · rintro ⟨skipped, rest, rfl, h⟩
    exact .run skipped h

theorem escaped_iff : Like ('\\' :: c :: p) s ↔ ∃ rest, s = c :: rest ∧ Like p rest := by
  constructor
  · intro h
    cases h with
    | escaped _ h => exact ⟨_, rfl, h⟩
    | plain _ _ hescape _ => exact absurd rfl hescape
  · rintro ⟨rest, rfl, h⟩
    exact .escaped c h

theorem plain_iff (hc : isSpecial c = false) :
    Like (c :: p) s ↔ ∃ rest, s = c :: rest ∧ Like p rest := by
  simp only [isSpecial, Bool.or_eq_false_iff, beq_eq_false_iff_ne] at hc
  obtain ⟨⟨hrun, hone⟩, hescape⟩ := hc
  constructor
  · intro h
    cases h with
    | run _ _ => exact absurd rfl hrun
    | one _ _ => exact absurd rfl hone
    | escaped _ _ => exact absurd rfl hescape
    | plain _ _ _ h => exact ⟨_, rfl, h⟩
  · rintro ⟨rest, rfl, h⟩
    exact .plain hrun hone hescape h

/-- What an escaped text is followed by is a pattern again, for the text does not end in a backslash
that would take in what follows. -/
theorem escapeChars_append_iff (text : List Char) :
    Like (escapeChars text ++ p) s ↔ ∃ rest, s = text ++ rest ∧ Like p rest := by
  induction text generalizing s with
  | nil => simp [escapeChars]
  | cons c text ih =>
    have hcons : Like (escapeChars (c :: text) ++ p) s ↔
        ∃ rest, s = c :: rest ∧ Like (escapeChars text ++ p) rest := by
      rw [escapeChars, List.flatMap_cons, List.append_assoc, ← escapeChars]
      split
      · exact escaped_iff
      · rename_i hc
        exact plain_iff (Bool.eq_false_iff.2 hc)
    rw [hcons]
    constructor
    · rintro ⟨_, rfl, h⟩
      obtain ⟨rest, rfl, hrest⟩ := ih.1 h
      exact ⟨rest, rfl, hrest⟩
    · rintro ⟨rest, rfl, h⟩
      exact ⟨text ++ rest, rfl, ih.2 ⟨rest, rfl, h⟩⟩

theorem escapeChars_iff (text : List Char) : Like (escapeChars text) s ↔ s = text := by
  have h := escapeChars_append_iff (p := []) (s := s) text
  rw [List.append_nil] at h
  rw [h]
  simp [nil_iff]

/-- A percent sign at the end matches whatever is left. -/
theorem percent_last (s : List Char) : Like ['%'] s :=
  percent_iff.2 ⟨s, [], (List.append_nil s).symm, .nil⟩

theorem escapeChars_percent_iff (text : List Char) :
    Like (escapeChars text ++ ['%']) s ↔ text <+: s := by
  rw [escapeChars_append_iff]
  constructor
  · rintro ⟨rest, rfl, -⟩
    exact List.prefix_append ..
  · rintro ⟨rest, rfl⟩
    exact ⟨rest, rfl, percent_last rest⟩

end Like

/-! ## Conditions -/

/-- The condition compares the operand with a pattern that has the backslash for its escape
character, and the texts that match the pattern are those of the kind. -/
def Condition.Finds (c : Condition) (e : Expr) (kind : String → Prop) : Prop :=
  ∃ pattern, c = .compare e .like (.literal (.text pattern)) false true ∧
    ∀ subject : String, Like pattern.toList subject.toList ↔ kind subject

namespace Pattern

theorem toList_escape (text : String) : (escape text).toList = escapeChars text.toList :=
  String.toList_ofList

theorem toList_startingWith (text : String) :
    (startingWith text).toList = escapeChars text.toList ++ ['%'] := by
  rw [startingWith, String.toList_append, toList_escape]
  rfl

theorem toList_endingWith (text : String) :
    (endingWith text).toList = '%' :: escapeChars text.toList := by
  rw [endingWith, String.toList_append, toList_escape]
  rfl

theorem toList_containing (text : String) :
    (containing text).toList = '%' :: (escapeChars text.toList ++ ['%']) := by
  rw [containing, String.toList_append, String.toList_append, toList_escape]
  rfl

end Pattern

/-- The characters of the text mean themselves, also those that have a meaning in patterns: what is
found starts with the text, ends with it, has it somewhere, or is the text. -/
theorem Expr.patterns_literal (e : Expr) (text : String) :
    (e.startsWith text).Finds e (fun subject => text.toList <+: subject.toList) ∧
    (e.endsWith text).Finds e (fun subject => text.toList <:+ subject.toList) ∧
    (e.contains text).Finds e (fun subject => text.toList <:+: subject.toList) ∧
    ∀ subject : String, Like (escape text).toList subject.toList ↔ subject = text := by
  refine ⟨⟨startingWith text, rfl, fun subject => ?_⟩, ⟨endingWith text, rfl, fun subject => ?_⟩,
    ⟨containing text, rfl, fun subject => ?_⟩, fun subject => ?_⟩
  · rw [toList_startingWith, Like.escapeChars_percent_iff]
  · rw [toList_endingWith, Like.percent_iff]
    simp only [Like.escapeChars_iff]
    constructor
    · rintro ⟨skipped, _, hsubject, rfl⟩
      exact ⟨skipped, hsubject.symm⟩
    · rintro ⟨skipped, hsubject⟩
      exact ⟨skipped, _, hsubject.symm, rfl⟩
  · rw [toList_containing, Like.percent_iff]
    simp only [Like.escapeChars_percent_iff]
    constructor
    · rintro ⟨skipped, _, hsubject, rest, rfl⟩
      exact ⟨skipped, rest, by rw [hsubject, List.append_assoc]⟩
    · rintro ⟨skipped, rest, hsubject⟩
      exact ⟨skipped, _, by rw [← hsubject, List.append_assoc], rest, rfl⟩
  · rw [toList_escape, Like.escapeChars_iff, String.toList_inj]

end SqlMapper
