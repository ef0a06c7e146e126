import SqlMapper.Proofs.Fragment.Spot

/-!
# SqlMapper.Proofs.Fragment.Block

Fragments that are put together from those of parts.

* `Setting`: what fragments are, given those of a part among them. `IsSpot` says that a setting is a
  spot, so that the part is run from where a run arrives.
* `Block`: fragments, and the parts among them with the setting of each.
* `Block.Sound`: every setting of a block is a spot, and the block is what the part makes of it.
-/

namespace SqlMapper

namespace Fragment

abbrev Setting := List Fragment → List Fragment

/-- The setting is a spot around which the innermost proposal is the given one. -/
def IsSpot (proposal : Option ModelSource) (C : Setting) : Prop :=
  ∃ s : Spot, C = s.fill ∧ s.proposal = proposal

namespace IsSpot

variable {m n : Option ModelSource} {C D : Setting}

theorem id : IsSpot none id := ⟨.gap, rfl, rfl⟩

theorem comp (hC : IsSpot m C) (hD : IsSpot n D) : IsSpot (n.or m) (C ∘ D) := by
  obtain ⟨s, rfl, rfl⟩ := hC
  obtain ⟨t, rfl, rfl⟩ := hD
  exact ⟨s.comp t, funext fun fs => (Spot.fill_comp s t fs).symm, Spot.proposal_comp s t⟩

theorem beside (front : List Fragment) (h : IsSpot m C) (back : List Fragment) :
    IsSpot m fun fs => front ++ C fs ++ back := by
  obtain ⟨s, rfl, rfl⟩ := h
  exact ⟨.beside front s back, rfl, rfl⟩

theorem lead (front : List Fragment) (h : IsSpot m C) : IsSpot m fun fs => front ++ C fs := by
  simpa only [List.append_nil] using h.beside front []

theorem ending (h : IsSpot m C) (back : List Fragment) : IsSpot m fun fs => C fs ++ back :=
  h.beside [] back

theorem enclosed (o c : String) (h : IsSpot m C) : IsSpot m fun fs => enclosed o (C fs) c :=
  h.beside [text o] [text c]

theorem parenthesized (h : IsSpot m C) : IsSpot m fun fs => parenthesized (C fs) :=
  h.enclosed "(" ")"

theorem nested (s : Scope) (h : IsSpot m C) :
    IsSpot (m.or s.proposal) fun fs => [Fragment.nested s (C fs)] := by
  obtain ⟨t, rfl, rfl⟩ := h
  exact ⟨.nested s t, rfl, rfl⟩

theorem unqualified (h : IsSpot m C) : IsSpot m fun fs => [Fragment.unqualified (C fs)] := by
  obtain ⟨s, rfl, rfl⟩ := h
  exact ⟨.unqualified s, rfl, rfl⟩

end IsSpot

/-- The setting has parentheses of its own for what is put in. -/
def IsEnclosed (C : Setting) : Prop :=
  ∃ (s : Spot) (o c : String), C = fun fs => s.fill (Fragment.enclosed (o ++ "(") fs (")" ++ c))

namespace IsEnclosed

variable {m : Option ModelSource} {C D : Setting}

theorem enclosed (o c : String) : IsEnclosed (Fragment.enclosed (o ++ "(") · (")" ++ c)) :=
  ⟨.gap, o, c, rfl⟩

theorem comp (hC : IsSpot m C) (hD : IsEnclosed D) : IsEnclosed (C ∘ D) := by
  obtain ⟨s, rfl, -⟩ := hC
  obtain ⟨t, o, c, rfl⟩ := hD
  exact ⟨s.comp t, o, c, funext fun fs => (Spot.fill_comp s t _).symm⟩

end IsEnclosed

structure Block (α : Type) where
  fragments : List Fragment
  parts : List (Setting × α)

namespace Block

variable {α β : Type}

def plain (fs : List Fragment) : Block α := ⟨fs, []⟩

/-- The fragments of one part. -/
def single (fs : List Fragment) (x : α) : Block α := ⟨fs, [(id, x)]⟩

def within (C : Setting) (b : Block α) : Block α :=
  ⟨C b.fragments, b.parts.map fun x => (C ∘ x.1, x.2)⟩

/-- Two blocks in what is made of the fragments of both. -/
def pair (f : List Fragment → List Fragment → List Fragment) (a b : Block α) : Block α :=
  ⟨f a.fragments b.fragments,
    (a.within (f · b.fragments)).parts ++ (b.within (f a.fragments)).parts⟩

instance : Append (Block α) := ⟨pair (· ++ ·)⟩

def concat : List (Block α) → Block α
  | [] => plain []
  | b :: bs => b ++ concat bs

def separated (separator : String) : List (Block α) → Block α
  | [] => plain []
  | [b] => b
  | b :: c :: bs => b ++ plain [text separator] ++ separated separator (c :: bs)

def commas (bs : List (Block α)) : Block α := separated ", " bs

def listClause (lead : String) : List (Block α) → Block α
  | [] => plain []
  | bs => (commas bs).within (clause lead)

/-- The same parts under labels. -/
def label (f : α → β) (b : Block α) : Block β := ⟨b.fragments, b.parts.map fun x => (x.1, f x.2)⟩

@[simp] theorem fragments_plain (fs : List Fragment) : (plain fs : Block α).fragments = fs := rfl

@[simp] theorem fragments_single (fs : List Fragment) (x : α) : (single fs x).fragments = fs := rfl

@[simp] theorem fragments_within (C : Setting) (b : Block α) :
    (b.within C).fragments = C b.fragments := rfl

@[simp] theorem fragments_pair (f : List Fragment → List Fragment → List Fragment) (a b : Block α) :
    (pair f a b).fragments = f a.fragments b.fragments := rfl

@[simp] theorem fragments_append (a b : Block α) :
    (a ++ b).fragments = a.fragments ++ b.fragments := rfl

@[simp] theorem fragments_label (f : α → β) (b : Block α) : (b.label f).fragments = b.fragments := rfl

@[simp] theorem fragments_concat (bs : List (Block α)) :
    (concat bs).fragments = bs.flatMap fragments := by
  induction bs with
  | nil => rfl
  | cons b bs ih => rw [concat, fragments_append, ih, List.flatMap_cons]

@[simp] theorem fragments_separated (s : String) (bs : List (Block α)) :
    (separated s bs).fragments = Fragment.separated s (bs.map fragments) := by
  induction bs with
  | nil => rfl
  | cons b bs ih =>
    cases bs with
    | nil => simp [separated, Fragment.separated]
    | cons c bs =>
      rw [separated, fragments_append, fragments_append, ih]
      simp [Fragment.separated, List.intercalate_cons_cons]

@[simp] theorem fragments_commas (bs : List (Block α)) :
    (commas bs).fragments = Fragment.commas (bs.map fragments) := fragments_separated ..

@[simp] theorem fragments_listClause (s : String) (bs : List (Block α)) :
    (listClause s bs).fragments = Fragment.listClause s (bs.map fragments) := by
  cases bs with
  | nil => rfl
  | cons b bs => exact congrArg (clause s) (fragments_commas _)

/-! ## Membership -/

section Membership

variable {C : Setting} {x : α} {a b : Block α} {bs : List (Block α)}

theorem mem_within {D : Setting} :
    (C, x) ∈ (b.within D).parts ↔ ∃ E, (E, x) ∈ b.parts ∧ C = D ∘ E := by
  constructor
  · intro h
    obtain ⟨⟨E, y⟩, hy, heq⟩ := List.mem_map.1 h
    cases heq
    exact ⟨E, hy, rfl⟩
  · rintro ⟨E, hE, rfl⟩
    exact List.mem_map.2 ⟨(E, x), hE, rfl⟩

theorem mem_pair {f : List Fragment → List Fragment → List Fragment} :
    (C, x) ∈ (pair f a b).parts ↔
      (∃ E, (E, x) ∈ a.parts ∧ C = (f · b.fragments) ∘ E) ∨
        ∃ E, (E, x) ∈ b.parts ∧ C = f a.fragments ∘ E := by
  rw [pair, List.mem_append, mem_within, mem_within]

theorem mem_append :
    (C, x) ∈ (a ++ b).parts ↔
      (∃ E, (E, x) ∈ a.parts ∧ C = (· ++ b.fragments) ∘ E) ∨
        ∃ E, (E, x) ∈ b.parts ∧ C = (a.fragments ++ ·) ∘ E := mem_pair

theorem mem_append_left (b : Block α) (h : (C, x) ∈ a.parts) :
    (fun fs => C fs ++ b.fragments, x) ∈ (a ++ b).parts := mem_append.2 (.inl ⟨C, h, rfl⟩)

theorem mem_append_right (a : Block α) (h : (C, x) ∈ b.parts) :
    (fun fs => a.fragments ++ C fs, x) ∈ (a ++ b).parts := mem_append.2 (.inr ⟨C, h, rfl⟩)

theorem mem_label {f : α → β} {y : β} :
    (C, y) ∈ (b.label f).parts ↔ ∃ x, (C, x) ∈ b.parts ∧ y = f x := by
  constructor
  · intro h
    obtain ⟨⟨D, x⟩, hx, heq⟩ := List.mem_map.1 h
    cases heq
    exact ⟨x, hx, rfl⟩
  · rintro ⟨x, hx, rfl⟩
    exact List.mem_map.2 ⟨(C, x), hx, rfl⟩

/-- A part of a list is one of an item, in a spot there. -/
theorem mem_separated {s : String} (h : (C, x) ∈ (separated s bs).parts) :
    ∃ D b E, IsSpot none D ∧ b ∈ bs ∧ (E, x) ∈ b.parts ∧ C = D ∘ E := by
  induction bs generalizing C with
  | nil => cases h
  | cons b bs ih =>
    cases bs with
    | nil => exact ⟨id, b, C, .id, List.mem_cons_self .., h, rfl⟩
    | cons c bs =>
      rcases mem_append.1 h with ⟨E, hE, rfl⟩ | ⟨E, hE, rfl⟩
      · rcases mem_append.1 hE with ⟨F, hF, rfl⟩ | ⟨F, hF, -⟩
        · exact ⟨_, b, F, (IsSpot.id.ending _).comp (IsSpot.id.ending _), List.mem_cons_self .., hF,
            rfl⟩
        · cases hF
      · obtain ⟨D, b', F, hD, hb', hF, rfl⟩ := ih hE
        exact ⟨_, b', F, (IsSpot.id.lead _).comp hD, List.mem_cons_of_mem _ hb', hF, rfl⟩

/-- The parts without their settings. -/
def labels (b : Block α) : List α := b.parts.map Prod.snd

theorem mem_labels : x ∈ b.labels ↔ ∃ C, (C, x) ∈ b.parts := by
  simp [labels]

@[simp] theorem labels_plain (fs : List Fragment) : (plain fs : Block α).labels = [] := rfl

@[simp] theorem labels_single (fs : List Fragment) (x : α) : (single fs x).labels = [x] := rfl

@[simp] theorem labels_within (C : Setting) (b : Block α) : (b.within C).labels = b.labels := by
  simp [labels, within, Function.comp_def]

@[simp] theorem labels_pair (f : List Fragment → List Fragment → List Fragment) (a b : Block α) :
    (pair f a b).labels = a.labels ++ b.labels := by
  rw [labels, pair, List.map_append]
  exact congrArg₂ (· ++ ·) (labels_within _ a) (labels_within _ b)

@[simp] theorem labels_append (a b : Block α) : (a ++ b).labels = a.labels ++ b.labels :=
  labels_pair ..

@[simp] theorem labels_label (f : α → β) (b : Block α) : (b.label f).labels = b.labels.map f := by
  simp [labels, label]

@[simp] theorem labels_concat (bs : List (Block α)) : (concat bs).labels = bs.flatMap labels := by
  induction bs with
  | nil => rfl
  | cons b bs ih => rw [concat, labels_append, ih, List.flatMap_cons]

@[simp] theorem labels_separated (s : String) (bs : List (Block α)) :
    (separated s bs).labels = bs.flatMap labels := by
  induction bs with
  | nil => rfl
  | cons b bs ih =>
    cases bs with
    | nil => simp [separated]
    | cons c bs => simp [separated, ih]

@[simp] theorem labels_commas (bs : List (Block α)) : (commas bs).labels = bs.flatMap labels :=
  labels_separated ..

@[simp] theorem labels_listClause (s : String) (bs : List (Block α)) :
    (listClause s bs).labels = bs.flatMap labels := by
  cases bs with
  | nil => rfl
  | cons b bs => rw [listClause, labels_within, labels_commas]; rintro ⟨⟩

end Membership

/-! ## Sound blocks -/

/-- Every part has its fragments in a spot, under the proposal that goes with it. -/
def Sound (f : α → List Fragment) (proposal : α → Option ModelSource) (b : Block α) : Prop :=
  ∀ C x, (C, x) ∈ b.parts → b.fragments = C (f x) ∧ IsSpot (proposal x) C

namespace Sound

variable {f : α → List Fragment} {proposal : α → Option ModelSource} {a b : Block α}
  {bs : List (Block α)} {C : Setting}

theorem plain (fs : List Fragment) : Sound f proposal (plain fs) := fun _ _ h => nomatch h

theorem single (x : α) : Sound f (fun _ => none) (single (f x) x) := by
  rintro C y h
  cases List.mem_singleton.1 h
  exact ⟨rfl, .id⟩

theorem within_of {m : Option ModelSource} (hC : IsSpot m C) (h : Sound f proposal b) :
    Sound f (fun x => (proposal x).or m) (b.within C) := by
  intro D x hx
  obtain ⟨E, hE, rfl⟩ := mem_within.1 hx
  obtain ⟨hfragments, hspot⟩ := h E x hE
  exact ⟨congrArg C hfragments, hC.comp hspot⟩

theorem within (h : Sound f proposal b) (hC : IsSpot none C) : Sound f proposal (b.within C) := by
  simpa only [Option.or_none] using within_of hC h

theorem pair {g : List Fragment → List Fragment → List Fragment}
    (ha : Sound f proposal a) (hb : Sound f proposal b) (hleft : ∀ gs, IsSpot none (g · gs))
    (hright : ∀ fs, IsSpot none (g fs)) : Sound f proposal (pair g a b) := by
  intro C x hx
  rcases List.mem_append.1 hx with hx | hx
  · exact ha.within (hleft b.fragments) C x hx
  · exact hb.within (hright a.fragments) C x hx

theorem append (ha : Sound f proposal a) (hb : Sound f proposal b) : Sound f proposal (a ++ b) :=
  ha.pair hb (fun gs => IsSpot.id.ending gs) fun fs => IsSpot.id.lead fs

theorem concat (h : ∀ b ∈ bs, Sound f proposal b) : Sound f proposal (concat bs) := by
  induction bs with
  | nil => exact plain []
  | cons b bs ih =>
    exact (h b (List.mem_cons_self ..)).append (ih fun c hc => h c (List.mem_cons_of_mem _ hc))

theorem separated (s : String) (h : ∀ b ∈ bs, Sound f proposal b) :
    Sound f proposal (separated s bs) := by
  induction bs with
  | nil => exact plain []
  | cons b bs ih =>
    have hb := h b (List.mem_cons_self ..)
    have hbs := ih fun c hc => h c (List.mem_cons_of_mem _ hc)
    cases bs with
    | nil => exact hb
    | cons c bs => exact (hb.append (plain _)).append hbs

theorem commas (h : ∀ b ∈ bs, Sound f proposal b) : Sound f proposal (commas bs) := separated ", " h

theorem listClause (s : String) (h : ∀ b ∈ bs, Sound f proposal b) :
    Sound f proposal (listClause s bs) := by
  cases bs with
  | nil => exact plain []
  | cons b bs => exact (commas h).within (IsSpot.id.lead [text s])

theorem label {β : Type} {g : β → List Fragment} {proposal : β → Option ModelSource} {l : α → β}
    (h : Sound (fun x => g (l x)) (fun x => proposal (l x)) b) : Sound g proposal (b.label l) := by
  intro C y hy
  obtain ⟨x, hx, rfl⟩ := mem_label.1 hy
  exact h C x hx

end Sound

end Block

end Fragment

end SqlMapper
