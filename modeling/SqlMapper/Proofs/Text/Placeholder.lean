import SqlMapper.Query.Dialect

/-!
# SqlMapper.Proofs.Text.Placeholder

Finding the placeholders of an SQL text.

A placeholder is a mark, `?` or `$`, with the digits that follow it. `Placeholder.scan` reads all of
them from left to right, in any style. What a dialect writes for a parameter is read back whole if
no digit comes next (`scan_placeholder`), and text without marks holds none (`scan_append`).
-/

namespace SqlMapper
namespace Placeholder

def isMark (c : Char) : Bool := c == '?' || c == '$'

def scan : List Char → List String
  | [] => []
  | c :: cs => if isMark c then .ofList (c :: cs.takeWhile Char.isDigit) :: scan cs else scan cs

/-- The placeholders of a text, from left to right. -/
def ofText (sql : String) : List String := scan sql.toList

def NoMark (cs : List Char) : Prop := ∀ c ∈ cs, isMark c = false

instance (cs : List Char) : Decidable (NoMark cs) := List.decidableBAll _ cs

def NoDigitFirst (cs : List Char) : Prop := ∀ c ∈ cs.head?, c.isDigit = false

theorem NoMark.append {cs ds : List Char} (hc : NoMark cs) (hd : NoMark ds) : NoMark (cs ++ ds) := by
  intro c h
  rcases List.mem_append.1 h with h | h
  · exact hc c h
  · exact hd c h

theorem isMark_of_isDigit {c : Char} (h : c.isDigit = true) : isMark c = false := by
  simp only [isMark, Bool.or_eq_false_iff, beq_eq_false_iff_ne]
  constructor <;> rintro rfl <;> exact absurd h (by decide)

theorem scan_append {cs : List Char} (h : NoMark cs) (rest : List Char) :
    scan (cs ++ rest) = scan rest := by
  induction cs with
  | nil => rfl
  | cons c cs ih =>
    rw [List.cons_append, scan, h c (List.mem_cons_self ..)]
    exact ih fun c hc => h c (List.mem_cons_of_mem _ hc)

theorem takeWhile_isDigit {ds rest : List Char} (hd : ∀ c ∈ ds, c.isDigit = true)
    (hr : NoDigitFirst rest) : (ds ++ rest).takeWhile Char.isDigit = ds := by
  rw [List.takeWhile_append_of_pos hd]
  cases rest with
  | nil => simp
  | cons c rest => simp [hr c rfl]

/-- A mark and digits are one placeholder. -/
theorem scan_mark {c : Char} {ds rest : List Char} (hc : isMark c = true)
    (hd : ∀ c ∈ ds, c.isDigit = true) (hr : NoDigitFirst rest) :
    scan (c :: ds ++ rest) = .ofList (c :: ds) :: scan rest := by
  rw [List.cons_append, scan, if_pos hc, takeWhile_isDigit hd hr,
    scan_append fun c h => isMark_of_isDigit (hd c h)]

/-! ## Numerals -/

theorem isDigit_of_mem_toString {n : Nat} {c : Char} (h : c ∈ (toString n).toList) :
    c.isDigit = true := by
  rw [show toString n = Nat.repr n from rfl, Nat.repr, String.toList_ofList] at h
  exact Nat.isDigit_of_mem_toDigits (by decide) (by decide) h

theorem noMark_toString (n : Nat) : NoMark (toString n).toList :=
  fun _ h => isMark_of_isDigit (isDigit_of_mem_toString h)

/-- Each style of placeholder is a mark with digits. -/
theorem toList_placeholder (d : Dialect) (n : Nat) :
    ∃ c ds, (d.placeholder n).toList = c :: ds ∧ isMark c = true ∧ ∀ c ∈ ds, c.isDigit = true := by
  unfold Dialect.placeholder
  cases d.placeholders with
  | question => exact ⟨'?', [], by simp, rfl, by simp⟩
  | dollar =>
    exact ⟨'$', (toString n).toList, by simp [String.toList_append], rfl,
      fun _ h => isDigit_of_mem_toString h⟩
  | numbered =>
    exact ⟨'?', (toString n).toList, by simp [String.toList_append], rfl,
      fun _ h => isDigit_of_mem_toString h⟩

theorem scan_placeholder (d : Dialect) (n : Nat) {rest : List Char} (h : NoDigitFirst rest) :
    scan ((d.placeholder n).toList ++ rest) = d.placeholder n :: scan rest := by
  obtain ⟨c, ds, hp, hc, hd⟩ := toList_placeholder d n
  rw [hp, scan_mark hc hd h, ← hp, String.ofList_toList]

end Placeholder

/-! ## Quoted names -/

namespace Identifier

open Placeholder

theorem mem_of_mem_parts {cs p : List Char} {c : Char} (hp : p ∈ parts cs) (hc : c ∈ p) :
    c ∈ cs := by
  induction cs generalizing p with
  | nil =>
    rw [parts, List.mem_singleton] at hp
    rw [hp] at hc
    exact hc
  | cons a cs ih =>
    rw [parts] at hp
    split at hp
    · rcases List.mem_cons.1 hp with rfl | hp
      · cases hc
      · exact List.mem_cons_of_mem _ (ih hp hc)
    · cases hparts : parts cs with
      | nil =>
        rw [hparts, List.mem_singleton] at hp
        rw [hp, List.mem_singleton] at hc
        exact hc ▸ List.mem_cons_self ..
      | cons q qs =>
        rw [hparts] at hp ih
        rcases List.mem_cons.1 hp with rfl | hp
        · rcases List.mem_cons.1 hc with rfl | hc
          · exact List.mem_cons_self ..
          · exact List.mem_cons_of_mem _ (ih (List.mem_cons_self ..) hc)
        · exact List.mem_cons_of_mem _ (ih (List.mem_cons_of_mem _ hp) hc)

theorem mem_quotePart {quote c : Char} {part : List Char} (h : c ∈ quotePart quote part) :
    c = quote ∨ c ∈ part := by
  simp only [quotePart, doubled, List.mem_append, List.mem_cons, List.mem_flatMap,
    List.not_mem_nil, or_false] at h
  rcases h with (rfl | ⟨a, ha, h⟩) | rfl
  · exact .inl rfl
  · split at h <;> simp only [List.mem_cons, List.not_mem_nil, or_false] at h
    · rcases h with rfl | rfl
      · exact .inl rfl
      · exact .inr ha
    · exact .inr (h ▸ ha)
  · exact .inl rfl

theorem mem_intercalate {c : Char} {sep : List Char} {ps : List (List Char)}
    (h : c ∈ sep.intercalate ps) : c ∈ sep ∨ ∃ p ∈ ps, c ∈ p := by
  induction ps with
  | nil => cases h
  | cons p ps ih =>
    cases ps with
    | nil =>
      rw [List.intercalate_singleton] at h
      exact .inr ⟨p, List.mem_cons_self .., h⟩
    | cons q qs =>
      rw [List.intercalate_cons_cons, List.mem_append, List.mem_append] at h
      rcases h with (h | h) | h
      · exact .inr ⟨p, List.mem_cons_self .., h⟩
      · exact .inl h
      · rcases ih h with h | ⟨p', hp', h⟩
        · exact .inl h
        · exact .inr ⟨p', List.mem_cons_of_mem _ hp', h⟩

/-- Quoting adds no mark to a name. -/
theorem noMark_quote {name : String} {quote : Char} (hn : NoMark name.toList)
    (hq : isMark quote = false) : NoMark (Identifier.quote name quote).toList := by
  intro c hc
  rw [Identifier.quote, String.toList_ofList, quoteChars] at hc
  rcases mem_intercalate hc with hc | ⟨p, hp, hc⟩
  · rw [List.mem_singleton.1 hc]; rfl
  · obtain ⟨part, hpart, rfl⟩ := List.mem_map.1 hp
    rcases mem_quotePart hc with rfl | hc
    · exact hq
    · exact hn c (mem_of_mem_parts hpart hc)

end Identifier

end SqlMapper
