import SqlMapper.Identifier

/-!
# SqlMapper.Proofs.Text.WordBoundary

The words of a name in mixed case, and the table name that is made of them.

* `Identifier.isBoundary`: the positions at which a word ends.
* `Identifier.Replaced`: one pass that looks for boundaries from left to right and never twice at
  one character. `Identifier.replaced_iff`: it is what `separateWords` does.
* `Identifier.Replaced.sparse`: what a pass leaves are boundaries so far apart that none is in the
  way of another.
* `Identifier.Replaced.twice`: so a second pass finds all that the first one has passed over.
* `Identifier.tableName_marked`: the table name has an underscore at each boundary of the name.
-/

namespace SqlMapper

namespace LowerCase

/-- The characters that have a rule of their own are none of ASCII. -/
theorem go_ascii {cs : List Char} (before : List Char) (h : ∀ c ∈ cs, c.toNat < 128) :
    go before cs = cs.map Char.toLower := by
  induction cs generalizing before with
  | nil => rfl
  | cons c cs ih =>
    have hc := h c (List.mem_cons_self ..)
    have hsigma : c ≠ 'Σ' := by
      rintro rfl
      exact absurd hc (by decide)
    have hdotted : c ≠ 'İ' := by
      rintro rfl
      exact absurd hc (by decide)
    rw [go, ih _ fun d hd => h d (List.mem_cons_of_mem _ hd)]
    simp [hsigma, hdotted, ofChar, hc]

end LowerCase

namespace Identifier

variable {a b c : Char} {cs ds out : List Char}

/-! ## Boundaries -/

/-- Whether a word ends between the characters at `i` and `i + 1`: a capital comes after a small
letter or a digit, or it comes after another capital and starts a word in small letters. -/
def isBoundary (cs : List Char) (i : Nat) : Bool :=
  match cs[i]?, cs[i + 1]? with
  | some a, some b =>
    (a.isLower || a.isDigit) && b.isUpper || a.isUpper && b.isUpper && cs[i + 2]?.any Char.isLower
  | _, _ => false

/-- The characters with an underscore at each boundary. -/
def marked (cs : List Char) : List Char :=
  cs.zipIdx.flatMap fun (c, i) => if isBoundary cs i then [c, '_'] else [c]

theorem isBoundary_succ (a : Char) (cs : List Char) (i : Nat) :
    isBoundary (a :: cs) (i + 1) = isBoundary cs i := rfl

theorem isBoundary_cons_cons (a b : Char) (cs : List Char) :
    isBoundary (a :: b :: cs) 0 =
      (isWordEnd a && b.isUpper || a.isUpper && b.isUpper && cs.head?.any Char.isLower) := by
  simp [isBoundary, isWordEnd, List.head?_eq_getElem?]

theorem marked_cons (a : Char) (cs : List Char) :
    marked (a :: cs) = (if isBoundary (a :: cs) 0 then [a, '_'] else [a]) ++ marked cs := by
  simp only [marked, List.zipIdx_cons, List.flatMap_cons, Nat.zero_add, List.zipIdx_succ]
  rw [List.flatMap_map]
  rfl

theorem isUpper_iff : a.isUpper = true ↔ 65 ≤ a.toNat ∧ a.toNat ≤ 90 := by
  have hdef : a.isUpper = decide (65 ≤ a.val ∧ a.val ≤ 90) := rfl
  simp [hdef, UInt32.le_iff_toNat_le, ← Char.toNat_val]

theorem isLower_iff : a.isLower = true ↔ 97 ≤ a.toNat ∧ a.toNat ≤ 122 := by
  have hdef : a.isLower = (decide (97 ≤ a.val) && decide (a.val ≤ 122)) := rfl
  simp [hdef, UInt32.le_iff_toNat_le, ← Char.toNat_val]

theorem isUpper_eq_false (h : isWordEnd a = true) : a.isUpper = false := by
  rw [Bool.eq_false_iff]
  intro hupper
  rw [isUpper_iff] at hupper
  rw [isWordEnd, Bool.or_eq_true, isLower_iff, Char.isDigit_iff_toNat] at h
  have hlast : '9'.toNat = 57 := rfl
  omega

theorem isWordEnd_of_isLower (h : a.isLower = true) : isWordEnd a = true := by
  simp [isWordEnd, h]

/-- A word goes on where no capital comes next. -/
theorem isBoundary_before (h : b.isUpper = false) : isBoundary (a :: b :: cs) 0 = false := by
  simp [isBoundary_cons_cons, h]

theorem isBoundary_before_mark : isBoundary (a :: '_' :: cs) 0 = false :=
  isBoundary_before (by rfl)

theorem isBoundary_mark (cs : List Char) : isBoundary ('_' :: cs) 0 = false := by
  cases cs with
  | nil => rfl
  | cons b cs =>
    have hend : isWordEnd '_' = false := by rfl
    have hupper : '_'.isUpper = false := by rfl
    simp [isBoundary_cons_cons, hend, hupper]

theorem isBoundary_word (ha : isWordEnd a = true) (hb : b.isUpper = true) :
    isBoundary (a :: b :: cs) 0 = true := by
  simp [isBoundary_cons_cons, ha, hb]

theorem isBoundary_capitals (ha : a.isUpper = true) (hb : b.isUpper = true)
    (hc : c.isLower = true) : isBoundary (a :: b :: c :: cs) 0 = true := by
  simp [isBoundary_cons_cons, ha, hb, hc]

/-! ## One pass -/

/-- From left to right, the first boundary that is met gets its underscore, and the pass goes on
behind the characters that make it one. -/
inductive Replaced : List Char → List Char → Prop
  | nil : Replaced [] []
  | word {a b : Char} {cs out : List Char} :
      isWordEnd a = true → b.isUpper = true → Replaced cs out →
        Replaced (a :: b :: cs) (a :: '_' :: b :: out)
  | capitals {a b c : Char} {cs out : List Char} :
      a.isUpper = true → b.isUpper = true → c.isLower = true → Replaced cs out →
        Replaced (a :: b :: c :: cs) (a :: '_' :: b :: c :: out)
  | skip {a : Char} {cs out : List Char} :
      isBoundary (a :: cs) 0 = false → Replaced cs out → Replaced (a :: cs) (a :: out)

theorem replaced_separateWords (cs : List Char) : Replaced cs (separateWords cs) := by
  fun_induction separateWords cs with
  | case1 a b rest h ih =>
    rw [Bool.and_eq_true] at h
    exact .word h.1 h.2 ih
  | case2 a b c rest hword h ih =>
    rw [Bool.and_eq_true, Bool.and_eq_true] at h
    exact .capitals h.1.1 h.1.2 h.2 ih
  | case3 a b hword c rest hcapitals ih =>
    refine .skip ?_ ih
    rw [isBoundary_cons_cons, List.head?_cons, Option.any_some, Bool.or_eq_false_iff]
    exact ⟨Bool.eq_false_iff.2 hword, Bool.eq_false_iff.2 hcapitals⟩
  | case4 a b hword ih =>
    refine .skip ?_ ih
    rw [isBoundary_cons_cons, List.head?_nil, Option.any_none, Bool.and_false, Bool.or_false]
    exact Bool.eq_false_iff.2 hword
  | case5 a => exact .skip rfl .nil
  | case6 => exact .nil

namespace Replaced

/-- What the pass makes of a text is fixed. -/
theorem unique (h : Replaced cs ds) (h' : Replaced cs out) : ds = out := by
  induction h generalizing out with
  | nil =>
    cases h'
    rfl
  | word ha hb _ ih =>
    cases h' with
    | word _ _ h' => rw [ih h']
    | capitals ha' _ _ _ => rw [isUpper_eq_false ha] at ha'; cases ha'
    | skip hskip _ => rw [isBoundary_word ha hb] at hskip; cases hskip
  | capitals ha hb hc _ ih =>
    cases h' with
    | word ha' _ _ => rw [isUpper_eq_false ha'] at ha; cases ha
    | capitals _ _ _ h' => rw [ih h']
    | skip hskip _ => rw [isBoundary_capitals ha hb hc] at hskip; cases hskip
  | skip hskip _ ih =>
    cases h' with
    | word ha hb _ => rw [isBoundary_word ha hb] at hskip; cases hskip
    | capitals ha hb hc _ => rw [isBoundary_capitals ha hb hc] at hskip; cases hskip
    | skip _ h' => rw [ih h']

theorem head?_eq (h : Replaced cs out) : out.head? = cs.head? := by
  cases h <;> rfl

/-- A pass leaves a boundary in front of the text where there is one: the two characters that could
make it are kept, or there is an underscore for the second one, which was a capital. -/
theorem isBoundary_cons (h : Replaced cs out) (a : Char) :
    isBoundary (a :: out) 0 = isBoundary (a :: cs) 0 := by
  cases h with
  | nil => rfl
  | word hb _ _ =>
    rw [isBoundary_before (isUpper_eq_false hb), isBoundary_before (isUpper_eq_false hb)]
  | @capitals b c d cs out hb hc hd h =>
    have hlower : c.isLower = false := by
      rw [Bool.eq_false_iff]
      intro hlower
      rw [isUpper_eq_false (isWordEnd_of_isLower hlower)] at hc
      cases hc
    have hmark : '_'.isLower = false := by rfl
    simp [isBoundary_cons_cons, hlower, hmark]
  | skip _ h => rw [isBoundary_cons_cons, isBoundary_cons_cons, h.head?_eq]

/-- The underscores that a pass puts in belong there, and the boundaries that it leaves are those
of the text that have none yet. -/
theorem marked_eq (h : Replaced cs out) : marked out = marked cs := by
  induction h with
  | nil => rfl
  | @word a b cs out ha hb h ih =>
    rw [marked_cons a, marked_cons '_', marked_cons b, marked_cons a, marked_cons b,
      isBoundary_word ha hb, isBoundary_before_mark, isBoundary_mark, h.isBoundary_cons, ih]
    rfl
  | @capitals a b c cs out ha hb hc h ih =>
    have hc' : c.isUpper = false := isUpper_eq_false (isWordEnd_of_isLower hc)
    rw [marked_cons a, marked_cons '_', marked_cons b, marked_cons c, marked_cons a, marked_cons b,
      marked_cons c, isBoundary_capitals ha hb hc, isBoundary_before_mark, isBoundary_mark,
      isBoundary_before hc', isBoundary_before hc', h.isBoundary_cons, ih]
    rfl
  | @skip a cs out hskip h ih => rw [marked_cons, marked_cons, h.isBoundary_cons, ih]

end Replaced

theorem replaced_iff : Replaced cs out ↔ out = separateWords cs := by
  constructor
  · intro h
    exact h.unique (replaced_separateWords cs)
  · rintro rfl
    exact replaced_separateWords cs

/-! ## Two passes -/

/-- Behind a boundary the next two positions are none. -/
def Sparse (cs : List Char) : Prop :=
  ∀ i, isBoundary cs i = true → isBoundary cs (i + 1) = false ∧ isBoundary cs (i + 2) = false

theorem sparse_cons_iff :
    Sparse (a :: cs) ↔
      (isBoundary (a :: cs) 0 = true → isBoundary cs 0 = false ∧ isBoundary cs 1 = false) ∧
        Sparse cs := by
  constructor
  · intro h
    exact ⟨h 0, fun i => h (i + 1)⟩
  · rintro ⟨hfirst, hrest⟩ i
    cases i with
    | zero => exact hfirst
    | succ i => exact hrest i

theorem Sparse.of_quiet (hfirst : isBoundary (a :: cs) 0 = false) (h : Sparse cs) :
    Sparse (a :: cs) :=
  sparse_cons_iff.2 ⟨fun hboundary => absurd hboundary (by simp [hfirst]), h⟩

namespace Replaced

/-- The boundaries that a pass leaves are far apart, and the first two positions are none. -/
theorem sparse (h : Replaced cs out) :
    Sparse out ∧ isBoundary out 0 = false ∧ isBoundary out 1 = false := by
  induction h with
  | nil => exact ⟨by rintro i ⟨⟩, rfl, rfl⟩
  | @word a b cs out ha hb h ih =>
    obtain ⟨hsparse, hzero, hone⟩ := ih
    have hb' : Sparse (b :: out) := sparse_cons_iff.2 ⟨fun _ => ⟨hzero, hone⟩, hsparse⟩
    exact ⟨.of_quiet isBoundary_before_mark (.of_quiet (isBoundary_mark _) hb'),
      isBoundary_before_mark, (isBoundary_succ ..).trans (isBoundary_mark _)⟩
  | @capitals a b c cs out ha hb hc h ih =>
    obtain ⟨hsparse, hzero, hone⟩ := ih
    have hc' : Sparse (c :: out) := sparse_cons_iff.2 ⟨fun _ => ⟨hzero, hone⟩, hsparse⟩
    have hlower : c.isUpper = false := isUpper_eq_false (isWordEnd_of_isLower hc)
    exact ⟨.of_quiet isBoundary_before_mark
        (.of_quiet (isBoundary_mark _) (.of_quiet (isBoundary_before hlower) hc')),
      isBoundary_before_mark, (isBoundary_succ ..).trans (isBoundary_mark _)⟩
  | @skip a cs out hskip h ih =>
    have hfirst : isBoundary (a :: out) 0 = false := by rw [h.isBoundary_cons, hskip]
    exact ⟨.of_quiet hfirst ih.1, hfirst, ih.2.1⟩

/-- A pass over a text whose boundaries are far apart passes over none of them. -/
theorem eq_marked (h : Replaced cs out) (hsparse : Sparse cs) : out = marked cs := by
  induction h with
  | nil => rfl
  | @word a b cs out ha hb h ih =>
    have hfirst : isBoundary (a :: b :: cs) 0 = true := isBoundary_word ha hb
    obtain ⟨hnext, hb'⟩ := sparse_cons_iff.1 hsparse
    rw [marked_cons, marked_cons, hfirst, (hnext hfirst).1, ← ih (sparse_cons_iff.1 hb').2]
    rfl
  | @capitals a b c cs out ha hb hc h ih =>
    have hfirst : isBoundary (a :: b :: c :: cs) 0 = true := isBoundary_capitals ha hb hc
    obtain ⟨hnext, hb'⟩ := sparse_cons_iff.1 hsparse
    obtain ⟨hone, htwo⟩ := hnext hfirst
    rw [isBoundary_succ] at htwo
    rw [marked_cons, marked_cons, marked_cons, hfirst, hone, htwo,
      ← ih (sparse_cons_iff.1 (sparse_cons_iff.1 hb').2).2]
    rfl
  | @skip a cs out hskip h ih =>
    rw [marked_cons, hskip, ← ih (sparse_cons_iff.1 hsparse).2]
    rfl

/-- Two passes mark every boundary. -/
theorem twice (h : Replaced cs ds) (h' : Replaced ds out) : out = marked cs := by
  rw [h'.eq_marked h.sparse.1, h.marked_eq]

end Replaced

/-! ## Table names -/

theorem ascii_marked (h : ∀ c ∈ cs, c.toNat < 128) : ∀ c ∈ marked cs, c.toNat < 128 := by
  intro c hc
  rw [marked, List.mem_flatMap] at hc
  obtain ⟨⟨d, i⟩, hd, hc⟩ := hc
  have hd' : d.toNat < 128 := h d (List.fst_mem_of_mem_zipIdx hd)
  by_cases hboundary : isBoundary cs i = true
  · simp only [hboundary, if_true, List.mem_cons, List.not_mem_nil, or_false] at hc
    rcases hc with rfl | rfl
    · exact hd'
    · decide
  · simp only [hboundary, Bool.false_eq_true, if_false, List.mem_singleton] at hc
    exact hc ▸ hd'

/-- The table name is the outcome of two passes in small letters. For an ASCII name it is the name
in small letters, with one underscore at each boundary and none elsewhere. -/
theorem tableName_marked (model : String) (hascii : ∀ c ∈ model.toList, c.toNat < 128) :
    (∃ first second, Replaced model.toList first ∧ Replaced first second ∧
      tableName model = lowerCase (.ofList second)) ∧
    tableName model = .ofList (model.toList.zipIdx.flatMap fun (c, i) =>
      if isBoundary model.toList i then [c.toLower, '_'] else [c.toLower]) := by
  have hfirst := replaced_separateWords model.toList
  have hsecond := replaced_separateWords (separateWords model.toList)
  refine ⟨⟨_, _, hfirst, hsecond, rfl⟩, ?_⟩
  rw [tableName, hfirst.twice hsecond, lowerCase, String.toList_ofList,
    LowerCase.go_ascii [] (ascii_marked hascii), marked, List.map_flatMap]
  congr 2
  funext ⟨c, i⟩
  by_cases hboundary : isBoundary model.toList i = true
  · simp only [hboundary, if_true]
    rfl
  · simp only [hboundary]
    rfl

end Identifier

namespace Sample

/-- A name of six words that overlap in their boundaries: each pass finds every other one. -/
theorem overlapping_marked :
    (∀ c ∈ "aBCdEFgHIj".toList, c.toNat < 128) ∧
    Identifier.separateWords "aBCdEFgHIj".toList = "a_BCd_EFg_HIj".toList ∧
    Identifier.tableName "aBCdEFgHIj" = "a_b_cd_e_fg_h_ij" := by
  have hascii : ∀ c ∈ "aBCdEFgHIj".toList, c.toNat < 128 := by simp
  exact ⟨hascii, by decide +kernel,
    (Identifier.tableName_marked "aBCdEFgHIj" hascii).2.trans (by rfl)⟩

end Sample
end SqlMapper
