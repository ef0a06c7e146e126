import SqlMapper.Proofs.Scope.Opening
import SqlMapper.Proofs.Statement.Parameters

/-!
# SqlMapper.Proofs.Scope.Hygiene

When sources can be told apart by their names.

* `Laid.tidy`: all places of a layout are sound if no source becomes visible under a name that is
  there already.
* `Statement.hygienic_iff`: every name that a compiled statement writes for a source is understood
  of this source exactly if nothing clashes in it.
-/

namespace SqlMapper

open Fragment Rendering

/-! ## Places without clashes -/

/-- The sources that are seen are told apart, also from the names that are still to be given. -/
structure Clean (names : List String) (r : Rendering) (ls : List Level) : Prop where
  mirrors : Mirrors ls r.scopes
  distinct : (ls.flatten.map Seen.name).Nodup
  given : ∀ e ∈ ls.flatten, e.chosen = false → e.name ∉ names

namespace Clean

variable {names names' : List String} {r r' : Rendering} {ls : List Level}

theorem mono (h : Clean names r ls) (hsub : names' ⊆ names) : Clean names' r ls :=
  ⟨h.mirrors, h.distinct, fun e he hchosen hmem => h.given e he hchosen (hsub hmem)⟩

theorem of_scopes (h : Clean names r ls) (hm : Mirrors ls r'.scopes) : Clean names r' ls :=
  ⟨hm, h.distinct, h.given⟩

end Clean

/-- All places of a run are sound, and its levels are still those of the scopes at its end. -/
structure Tidy (target : Option ModelSource) (fs : List Fragment) (r r' : Rendering)
    (ls : List Level) : Prop where
  sound : ∀ p ∈ placesAll target fs r ls, p.Sound
  mirrors : Mirrors ls r'.scopes

namespace Tidy

variable {target : Option ModelSource} {names : List String} {r m r' : Rendering}
  {ls : List Level}

theorem append {fs gs : List Fragment} (hruns : Runs fs r m) (hdeclared : declareAll fs r ls = ls)
    (hf : Tidy target fs r m ls) (hg : Tidy target gs m r' ls) :
    Tidy target (fs ++ gs) r r' ls where
  sound p hp := by
    rw [placesAll_append gs hruns, hdeclared] at hp
    rcases List.mem_append.1 hp with hp | hp
    · exact hf.sound p hp
    · exact hg.sound p hp
  mirrors := hg.mirrors

/-- A fragment that makes nothing visible. -/
theorem single (h : Clean names r ls) {f : Fragment}
    (hplaces : places target f r ls = [⟨f, r, ls⟩]) (hdeclared : f.declare r ls = ls)
    (hmirrors : Mirrors ls r'.scopes) : Tidy target [f] r r' ls where
  sound p hp := by
    rw [placesAll_singleton, hplaces, List.mem_singleton] at hp
    rw [hp]
    refine ⟨h.mirrors, ?_⟩
    rw [Place.after, hdeclared]
    exact h.distinct
  mirrors := hmirrors

theorem text (h : Clean names r ls) (s : String) : Tidy target [.text s] r (r.put (.text s)) ls :=
  single h rfl rfl h.mirrors

theorem identifier (h : Clean names r ls) (s : String) :
    Tidy target [.identifier s] r (r.put (.name s)) ls :=
  single h rfl rfl h.mirrors

theorem param (h : Clean names r ls) (v : Value) :
    Tidy target [.param v] r (r.put (.param v)) ls :=
  single h rfl rfl h.mirrors

theorem qualifier (h : Clean names r ls) {q : Qualifier} (hruns : Runs [.qualifier q] r r') :
    Tidy target [.qualifier q] r r' ls := by
  obtain ⟨ps, hputs⟩ := hruns.puts
  cases hbare : r.scope.bare with
  | true =>
    obtain ⟨rfl, -⟩ := (puts_qualifier_bare hbare).1 hputs
    exact single h rfl rfl h.mirrors
  | false =>
    obtain ⟨rfl, -⟩ := (puts_qualifier hbare).1 hputs
    refine single h rfl rfl ?_
    rw [scopes_putAll]
    exact mirrors_qualifierName h.mirrors q

theorem modelTable (h : Clean names r ls) {m : ModelSource} (hruns : Runs [.modelTable m] r r') :
    Tidy target [.modelTable m] r r' ls := by
  obtain ⟨ps, hputs⟩ := hruns.puts
  obtain ⟨rfl, -⟩ := puts_modelTable.1 hputs
  refine single h rfl rfl ?_
  rw [scopes_putAll]
  exact mirrors_modelName h.mirrors m

theorem equated (h : Clean names r ls) {child childColumn parent parentColumn : String}
    (hruns : Runs [.equated child childColumn parent parentColumn] r r') :
    Tidy target [.equated child childColumn parent parentColumn] r r' ls := by
  obtain ⟨ps, hputs⟩ := hruns.puts
  obtain ⟨c, p, _, _, -, rfl⟩ := puts_equated.1 hputs
  refine single h rfl rfl ?_
  rw [scopes_putAll]
  exact h.mirrors

end Tidy

/-! ## Levels -/

namespace Opening

variable {target : Option ModelSource} {os : List Origin} {r : Rendering} {l : Level}
  {ls : List Level} {names : List String}

/-- A select that is entered in a clean place. -/
theorem of_clean (hc : Clean (os.filterMap Origin.givenName? ++ names) r ls)
    (hnodup : (os.filterMap Origin.givenName?).Nodup) :
    Opening os (r.enter (selectScope os)) [] ls where
  sources := rfl
  mirrors := hc.mirrors
  distinct := hc.distinct
  nodup := hnodup
  given e he hchosen hmem := hc.given e he hchosen (List.mem_append_left _ hmem)
  reserved := .inr ⟨fun o ho a ha => List.mem_filterMap.2 ⟨o, ho, ha⟩, by simp⟩

/-- The target of a statement that changes rows is there before all other sources. -/
theorem of_target (m : ModelSource) (proposal : Option ModelSource)
    (hmirrors : Mirrors [[]] r.scopes) (hnodup : (os.filterMap Origin.givenName?).Nodup) :
    Opening os (r.enter (targetScope m proposal)) ((targetScope m proposal).level (some m))
      [[]] where
  sources := rfl
  mirrors := hmirrors
  distinct := by simp [targetScope, mutationScope, Scope.level]
  nodup := hnodup
  given e he hchosen := by
    rw [List.mem_singleton.1 he] at hchosen
    cases hchosen
  reserved := .inl rfl

/-- The sources of a level and then its body, which begins in a clean place. -/
theorem sound {body : List Fragment} {m : Rendering} (h : Opening os r l ls)
    (hchosen : ∀ e ∈ l, e.chosen = true)
    (hnodup : (os.filterMap Origin.givenName? ++ names).Nodup)
    (houter : ∀ e ∈ ls.flatten, e.chosen = false → e.name ∉ names)
    (hbody : ∀ l', Clean names (r.enlistAll os) (l' :: ls) → Runs body (r.enlistAll os) m →
      (∀ p ∈ placesAll target body (r.enlistAll os) (l' :: ls), ¬ p.Clash) →
        ∀ p ∈ placesAll target body (r.enlistAll os) (l' :: ls), p.Sound)
    (hruns : Runs (os.map Fragment.enlist ++ body) r m)
    (hclash : ∀ p ∈ placesAll target (os.map Fragment.enlist ++ body) r (l :: ls), ¬ p.Clash) :
    ∀ p ∈ placesAll target (os.map Fragment.enlist ++ body) r (l :: ls), p.Sound := by
  obtain ⟨n, henlisted, hrest⟩ := runs_append.1 hruns
  obtain rfl : r.enlistAll os = n := by
    have := (runs_enlist os r).symm.trans henlisted
    exact (Prod.mk.inj this).2
  rw [placesAll_append body henlisted] at hclash ⊢
  obtain ⟨hsources, l', hdeclared, hopen, hgiven⟩ :=
    h.all fun p hp => hclash p (List.mem_append_left _ hp)
  rw [hdeclared] at hclash ⊢
  have hclean : Clean names (r.enlistAll os) (l' :: ls) := by
    refine ⟨hopen.mirrors_all, hopen.distinct, fun e he hfalse hmem => ?_⟩
    rcases List.mem_append.1 he with he | he
    · rcases hgiven e he hfalse with hl | hname
      · rw [hchosen e hl] at hfalse
        cases hfalse
      · exact (List.nodup_append.1 hnodup).2.2 _ hname _ hmem rfl
    · exact houter e he hfalse hmem
  intro p hp
  rcases List.mem_append.1 hp with hp | hp
  · exact hsources p hp
  · exact hbody l' hclean hrest (fun q hq => hclash q (List.mem_append_right _ hq)) p hp

end Opening

/-! ## Layouts -/

namespace Fragment

variable {target : Option ModelSource} {d : Dialect} {as : List Atom} {fs : List Fragment}
  {r r' : Rendering} {ls : List Level}

/-- No source becomes visible outside a level of its own. -/
theorem Laid.ne_enlist (h : Laid d as fs) : ∀ f ∈ fs, ∀ o, f ≠ enlist o := by
  induction h with
  | nil => simp
  | append _ _ _ ihf ihg =>
    intro f hf
    rcases List.mem_append.1 hf with hf | hf
    · exact ihf f hf
    · exact ihg f hf
  | _ => simp

theorem Laid.declareAll_eq (h : Laid d as fs) (r : Rendering) (ls : List Level) :
    declareAll fs r ls = ls :=
  declareAll_of_forall h.ne_enlist r ls

/-- All places of a layout without clashes are sound. -/
theorem Laid.tidy (h : Laid d as fs) (hnodup : (givenNames as).Nodup)
    (hc : Clean (givenNames as) r ls) (hrun : Runs fs r r')
    (hclash : ∀ p ∈ placesAll target fs r ls, ¬ p.Clash) : Tidy target fs r r' ls := by
  induction h generalizing r r' ls with
  | nil =>
    rw [runs_nil.1 hrun]
    exact ⟨by simp [placesAll], hc.mirrors⟩
  | @append as bs fs gs hfs hgs _ ihf ihg =>
    obtain ⟨m, hf, hg⟩ := runs_append.1 hrun
    -- A layout declares nothing outside of levels of its own, so both parts meet the same levels.
    rw [placesAll_append gs hf, hfs.declareAll_eq] at hclash
    rw [givenNames_append] at hnodup hc
    obtain ⟨hnodupf, hnodupg, -⟩ := List.nodup_append.1 hnodup
    have htidy := ihf hnodupf (hc.mono (List.subset_append_left ..)) hf
      fun p hp => hclash p (List.mem_append_left _ hp)
    refine htidy.append hf (hfs.declareAll_eq r ls) (ihg hnodupg ?_ hg
      fun p hp => hclash p (List.mem_append_right _ hp))
    exact (hc.mono (List.subset_append_right ..)).of_scopes htidy.mirrors
  | sql s _ =>
    rw [runs_text.1 hrun]
    exact .text hc s
  | dialectWord s _ =>
    rw [runs_text.1 hrun]
    exact .text hc s
  | name s _ =>
    obtain ⟨ps, hputs⟩ := hrun.puts
    obtain ⟨rfl, -⟩ := puts_identifier.1 hputs
    exact .identifier hc s
  | word s =>
    rw [runs_text.1 hrun]
    exact .text hc s
  | identifier s =>
    obtain ⟨ps, hputs⟩ := hrun.puts
    obtain ⟨rfl, -⟩ := puts_identifier.1 hputs
    exact .identifier hc s
  | literal codec v w _ =>
    obtain ⟨ps, hputs⟩ := hrun.puts
    obtain ⟨rfl, -⟩ := puts_param.1 hputs
    exact .param hc w
  | null =>
    obtain ⟨ps, hputs⟩ := hrun.puts
    obtain ⟨rfl, -⟩ := puts_param.1 hputs
    exact .param hc .null
  | drawn f =>
    obtain ⟨ps, hputs⟩ := hrun.puts
    obtain ⟨v, s, _, _, rfl⟩ := puts_drawn hputs
    exact .single hc rfl rfl hc.mirrors
  | column q s =>
    obtain ⟨m, hq, hs⟩ := runs_cons.1 hrun
    have hq' : Runs [qualifier q] r m := runs_singleton.2 hq
    have htidy : Tidy target [qualifier q] r m ls := .qualifier hc hq'
    obtain ⟨ps, hputs⟩ := Runs.puts hs
    obtain ⟨rfl, -⟩ := puts_identifier.1 hputs
    exact htidy.append hq' rfl (.identifier (hc.of_scopes htidy.mirrors) s)
  | star q =>
    obtain ⟨m, hq, hs⟩ := runs_cons.1 hrun
    have hq' : Runs [qualifier q] r m := runs_singleton.2 hq
    have htidy : Tidy target [qualifier q] r m ls := .qualifier hc hq'
    rw [runs_text.1 hs]
    exact htidy.append hq' rfl (.text (hc.of_scopes htidy.mirrors) "*")
  | modelTable m => exact .modelTable hc hrun
  | equated child childColumn parent parentColumn => exact .equated hc hrun
  | proposed field =>
    obtain ⟨ps, hputs⟩ := hrun.puts
    obtain ⟨m, f, _, _, _, rfl⟩ := puts_proposed.1 hputs
    exact .single hc rfl rfl hc.mirrors
  | refuse _ e => exact absurd hrun not_runs_refuse
  | @unqualified as fs _ ih =>
    have hplaces : placesAll target [Fragment.unqualified fs] r ls =
        placesAll target fs (r.setBare true) ls := placesAll_singleton ..
    obtain ⟨m, hm, rfl⟩ := runs_unqualified.1 hrun
    rw [hplaces] at hclash
    have hinner : Clean (givenNames as) (r.setBare true) ls := hc.of_scopes (hc.mirrors.congr rfl)
    have htidy := ih hnodup hinner hm hclash
    exact ⟨hplaces ▸ htidy.sound, htidy.mirrors.congr rfl⟩
  | @bare as fs _ ih =>
    have hplaces : placesAll target [nested { bare := true } fs] r ls =
        placesAll target fs (r.enter { bare := true }) ([] :: ls) := placesAll_singleton ..
    obtain ⟨m, hm, rfl⟩ := runs_nested.1 hrun
    rw [hplaces] at hclash
    have hinner : Clean (givenNames as) (r.enter { bare := true }) ([] :: ls) :=
      ⟨.cons rfl (by simp) hc.mirrors, hc.distinct, hc.given⟩
    exact ⟨hplaces ▸ (ih hnodup hinner hm hclash).sound, hm.extends.scopes_leave ▸ hc.mirrors⟩
  | @select os as fs _ ih =>
    have hplaces : placesAll target [nested (selectScope os) (os.map enlist ++ fs)] r ls =
        placesAll target (os.map enlist ++ fs) (r.enter (selectScope os)) ([] :: ls) :=
      placesAll_singleton ..
    obtain ⟨m, hm, rfl⟩ := runs_nested.1 hrun
    rw [givenNames_append, givenNames_sources] at hnodup hc
    -- The names of the sources differ from those that are given further in.
    obtain ⟨hnodupos, hnodupas, -⟩ := List.nodup_append.1 hnodup
    rw [hplaces] at hclash
    refine ⟨hplaces ▸ ?_, hm.extends.scopes_leave ▸ hc.mirrors⟩
    exact (Opening.of_clean hc hnodupos).sound (by simp) hnodup
      (fun e he hchosen hmem => hc.given e he hchosen (List.mem_append_right _ hmem))
      (fun l' hclean hruns hno => (ih hnodupas hclean hruns hno).sound) hm hclash

theorem LaidOut.sound (h : LaidOut d target as fs) (hnodup : (givenNames as).Nodup)
    (hmirrors : Mirrors [[]] r.scopes) (hrun : Runs fs r r')
    (hclash : ∀ p ∈ placesAll target fs r [[]], ¬ p.Clash) :
    ∀ p ∈ placesAll target fs r [[]], p.Sound := by
  have hclean (names : List String) {r : Rendering} (hmirrors : Mirrors [[]] r.scopes) :
      Clean names r [[]] := ⟨hmirrors, List.nodup_nil, by simp⟩
  cases h with
  | query h => exact (h.tidy hnodup (hclean _ hmirrors) hrun hclash).sound
  | @mutation m proposal os as bs fs body hctes _ _ hbody =>
    obtain ⟨n, hfs, hnested⟩ := runs_append.1 hrun
    obtain ⟨k, hk, -⟩ := runs_nested.1 hnested
    have hplaces : placesAll (some m) [nested (targetScope m proposal) (os.map enlist ++ body)]
          n [[]] =
        placesAll (some m) (os.map enlist ++ body) (n.enter (targetScope m proposal))
          [(targetScope m proposal).level (some m), []] := placesAll_singleton ..
    have hnames : givenNames (Atom.target m :: os.map .source ++ bs) =
        os.filterMap Origin.givenName? ++ givenNames bs := by
      rw [List.cons_append, ← givenNames_sources, ← givenNames_append]
      rfl
    rw [placesAll_append _ hfs, hctes.declareAll_eq, hplaces] at hclash ⊢
    rw [givenNames_append, hnames] at hnodup
    obtain ⟨hnodupas, hnodupbody, -⟩ := List.nodup_append.1 hnodup
    obtain ⟨hnodupos, hnodupbs, -⟩ := List.nodup_append.1 hnodupbody
    have htidy := hctes.tidy hnodupas (hclean _ hmirrors) hfs
      fun p hp => hclash p (List.mem_append_left _ hp)
    have hsound := (Opening.of_target m proposal htidy.mirrors hnodupos).sound
      (by simp [targetScope, mutationScope, Scope.level]) hnodupbody (by simp)
      (fun l' hc hruns hno => (hbody.tidy hnodupbs hc hruns hno).sound) hk
      fun p hp => hclash p (List.mem_append_right _ hp)
    intro p hp
    rcases List.mem_append.1 hp with hp | hp
    · exact htidy.sound p hp
    · exact hsound p hp

theorem declare_ne_nil (f : Fragment) (r : Rendering) {ls : List Level} (h : ls ≠ []) :
    f.declare r ls ≠ [] := by
  unfold declare
  split
  · exact List.cons_ne_nil _ _
  · exact h

mutual

theorem places_levels (target : Option ModelSource) : (f : Fragment) → (r : Rendering) →
    (ls : List Level) → ls ≠ [] → ∀ p ∈ places target f r ls, p.levels ≠ []
  | .nested s body, r, ls, _ => placesAll_levels target body _ _ (List.cons_ne_nil _ _)
  | .unqualified body, r, ls, h => placesAll_levels target body _ _ h
  | .text _, _, _, h | .identifier _, _, _, h | .param _, _, _, h | .qualifier _, _, _, h
  | .modelTable _, _, _, h | .enlist _, _, _, h | .equated _ _ _ _, _, _, h
  | .proposed _, _, _, h | .drawn _, _, _, h | .refuse _, _, _, h => by
    intro p hp
    rw [places, List.mem_singleton] at hp
    rw [hp]
    exact h

/-- There is always a level in which a source can become visible. -/
theorem placesAll_levels (target : Option ModelSource) : (fs : List Fragment) →
    (r : Rendering) → (ls : List Level) → ls ≠ [] →
      ∀ p ∈ placesAll target fs r ls, p.levels ≠ []
  | [], _, _, _ => by simp [placesAll]
  | f :: fs, r, ls, h => by
    intro p hp
    rw [placesAll] at hp
    rcases List.mem_append.1 hp with hp | hp
    · exact places_levels target f r ls h p hp
    · exact placesAll_levels target fs _ _ (declare_ne_nil f r h) p hp

end

end Fragment

/-! ## Statements -/

namespace Place

theorem Clash.name_seen {p : Place} (h : p.Clash) :
    ∃ o, p.fragment = .enlist o ∧ ∃ e ∈ p.levels.flatten, e.name = p.state.nameOf o := by
  cases h with
  | table he _ hname => exact ⟨_, rfl, _, he, hname⟩
  | inner _ he _ hname => exact ⟨_, rfl, _, List.mem_append_right _ he, hname⟩
  | byTable _ _ he hname => exact ⟨_, rfl, _, he, hname⟩
  | repeated _ he hname => exact ⟨_, rfl, _, he, hname⟩

/-- Where two sources clash, they cannot be told apart afterwards. -/
theorem Clash.not_hygienic {p : Place} (h : p.Clash) (hlevels : p.levels ≠ []) :
    ¬ p.Hygienic := by
  intro hhyg
  obtain ⟨o, hfragment, e, he, hname⟩ := h.name_seen
  obtain ⟨l, ls, hls⟩ := List.exists_cons_of_ne_nil hlevels
  have hdistinct := hhyg.distinct
  rw [after, hfragment, hls] at hdistinct
  rw [hls] at he
  have hperm : (Fragment.declare (.enlist o) p.state (l :: ls)).flatten.Perm
      (p.state.seen o :: (l :: ls).flatten) := by
    rw [Fragment.declare, List.flatten_cons, List.flatten_cons, List.append_assoc]
    exact List.perm_middle
  rw [(hperm.map Seen.name).nodup_iff, List.map_cons, List.nodup_cons] at hdistinct
  exact hdistinct.1 (List.mem_map.2 ⟨e, he, hname⟩)

end Place

namespace Statement

/-- Where all names that a statement gives are different, its sources can be told apart exactly if
nothing clashes: every name that is written for a source stands for it in SQL. -/
theorem hygienic_iff (st : Statement) (d : Dialect) (s : Supply) {s' : Supply} {r : Rendered}
    (hnodup : (givenNames st.atoms).Nodup) (h : st.compile d s = (.ok r, s')) :
    st.Hygienic d s ↔ ¬ st.Clashes d s := by
  obtain ⟨ps, m, hputs, -, -⟩ := pieces_of_compile h
  have hsound (hno : ∀ p ∈ st.places d s, ¬ p.Clash) : ∀ p ∈ st.places d s, p.Sound :=
    (st.laid d).sound hnodup (.cons rfl (by simp) .nil) hputs.1 hno
  constructor
  · intro hhyg
    have hno : ∀ p ∈ st.places d s, ¬ p.Clash := fun p hp hclash =>
      hclash.not_hygienic (placesAll_levels _ _ _ _ (by simp) p hp) (hhyg p hp)
    rintro ⟨p, hp, hclash | hhidden⟩
    · exact hno p hp hclash
    · exact (hsound hno p hp).hygienic_iff_not_hidden.1 (hhyg p hp) hhidden
  · intro hno p hp
    have hplain : ∀ p ∈ st.places d s, ¬ p.Clash := fun p hp hclash => hno ⟨p, hp, .inl hclash⟩
    exact (hsound hplain p hp).hygienic_iff_not_hidden.2 fun hhidden =>
      hno ⟨p, hp, .inr hhidden⟩

end Statement

namespace Sample

def user : Model where
  name := "User"
  table := "users"
  fields := [⟨0, "name", "User", { name := "name", type := .text }⟩]
  primaryKey := .absent
  foreignKeys := []
  indexes := []
  reverse := []

/-- The users whose name stands in a note. The alias of the notes is the name that the users get. -/
def mentioned : Statement :=
  let users : ModelSource := ⟨user, none⟩
  let notes : ModelSource := ⟨note, some "t1"⟩
  .query (.simple ((Select.ofModel users).filtered (.operand (.nonEmpty (.simple
    ((Select.ofModel notes).filtered
      (.compare (notes.column "body") .eq (users.column "name") false false)))))))

def mentionedPieces : List Piece :=
  [.text "SELECT ", .name "t1", .text ".", .name "name", .text " FROM ", .name "users",
    .text " AS ", .name "t1", .text " WHERE ", .text "EXISTS (", .text "SELECT ", .name "t1",
    .text ".", .name "body", .text ", ", .name "t1", .text ".", .name "stamp", .text " FROM ",
    .name "notes", .text " AS ", .name "t1", .text " WHERE ", .text "(", .name "t1", .text ".",
    .name "body", .text " ", .text "=", .text " ", .name "t1", .text ".", .name "name", .text ")",
    .text ")"]

theorem mentioned_clashes : mentioned.Clashes .sqlite ⟨0⟩ := by
  have hplace : ∃ p, (mentioned.places .sqlite ⟨0⟩)[8]? = some p ∧ p.Clash :=
    ⟨_, by with_unfolding_all rfl, .inner (e := ⟨.model ⟨user, none⟩, "t1", true⟩) rfl
      (List.mem_cons_self ..) rfl rfl⟩
  obtain ⟨p, hp, hclash⟩ := hplace
  exact ⟨p, List.mem_of_getElem? hp, .inl hclash⟩

theorem mentioned_not_hygienic :
    (givenNames mentioned.atoms).Nodup ∧
      mentioned.compile .sqlite ⟨0⟩ = (.ok (.ofPieces .sqlite mentionedPieces), ⟨0⟩) ∧
        ¬ mentioned.Hygienic .sqlite ⟨0⟩ := by
  have hnames : givenNames mentioned.atoms = ["t1"] := by with_unfolding_all rfl
  have hnodup : (givenNames mentioned.atoms).Nodup := by simp [hnames]
  have hcompile : mentioned.compile .sqlite ⟨0⟩ =
      (.ok (.ofPieces .sqlite mentionedPieces), ⟨0⟩) := by with_unfolding_all rfl
  refine ⟨hnodup, hcompile, fun h => ?_⟩
  exact (Statement.hygienic_iff mentioned .sqlite ⟨0⟩ hnodup hcompile).1 h mentioned_clashes

end Sample

end SqlMapper
