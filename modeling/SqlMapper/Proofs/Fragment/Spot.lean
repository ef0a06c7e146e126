import SqlMapper.Proofs.Fragment.Anchored
import SqlMapper.Proofs.Fragment.Gated

/-!
# SqlMapper.Proofs.Fragment.Spot

A spot among fragments, and how a run gets there.

* `Spot`: a gap in a list of fragments, at any depth, and `Spot.fill`, which closes it.
* `Spot.arrive`: the state in which a run gets to the gap, unless it ends before.
* `Spot.proposal`: the proposal of the innermost scope around the gap that has one.

What stands in a gap is run from the state of arrival. An error before the gap or in it is the error
of the whole run, and what a run puts out is what stands before the gap, in it and behind it.
-/

namespace SqlMapper

namespace Fragment

open Rendering

inductive Spot
  | gap
  | beside (front : List Fragment) (inner : Spot) (back : List Fragment)
  | nested (s : Scope) (inner : Spot)
  | unqualified (inner : Spot)

namespace Spot

def fill : Spot → List Fragment → List Fragment
  | gap, fs => fs
  | beside front inner back, fs => front ++ inner.fill fs ++ back
  | nested s inner, fs => [.nested s (inner.fill fs)]
  | unqualified inner, fs => [.unqualified (inner.fill fs)]

def proposal : Spot → Option ModelSource
  | gap => none
  | beside _ inner _ => inner.proposal
  | nested s inner => inner.proposal.or s.proposal
  | unqualified inner => inner.proposal

def arrive : Spot → Rendering → Except Error Rendering
  | gap, r => .ok r
  | beside front inner _, r =>
    match runAll front r with
    | (.ok (), m) => inner.arrive m
    | (.error e, _) => .error e
  | nested s inner, r => inner.arrive (r.enter s)
  | unqualified inner, r => inner.arrive (r.setBare true)

/-- A spot in what fills another one. -/
def comp : Spot → Spot → Spot
  | gap, t => t
  | beside front inner back, t => beside front (inner.comp t) back
  | nested s inner, t => nested s (inner.comp t)
  | unqualified inner, t => unqualified (inner.comp t)

theorem fill_comp (s t : Spot) (fs : List Fragment) : (s.comp t).fill fs = s.fill (t.fill fs) := by
  induction s with
  | gap => rfl
  | beside front inner back ih => rw [comp, fill, fill, ih]
  | nested s inner ih => rw [comp, fill, fill, ih]
  | unqualified inner ih => rw [comp, fill, fill, ih]

theorem proposal_comp (s t : Spot) : (s.comp t).proposal = t.proposal.or s.proposal := by
  induction s with
  | gap => rw [comp, proposal, Option.or_none]
  | beside front inner back ih => rw [comp, proposal, proposal, ih]
  | nested s inner ih => rw [comp, proposal, proposal, ih, Option.or_assoc]
  | unqualified inner ih => rw [comp, proposal, proposal, ih]

/-! ## Runs through a spot -/

variable {s : Spot} {fs : List Fragment} {r m : Rendering} {e : Error}

theorem arrive_beside_ok {front back : List Fragment} (h : (beside front s back).arrive r = .ok m) :
    ∃ n, Runs front r n ∧ s.arrive n = .ok m := by
  rw [arrive] at h
  rcases hfront : runAll front r with ⟨e | ⟨⟩, n⟩
  · rw [hfront] at h
    cases h
  · rw [hfront] at h
    exact ⟨n, hfront, h⟩

theorem error_of_arrive (h : s.arrive r = .error e) (fs : List Fragment) :
    (runAll (s.fill fs) r).1 = .error e := by
  induction s generalizing r with
  | gap => cases h
  | beside front inner back ih =>
    rw [arrive] at h
    rw [fill, List.append_assoc]
    rcases hfront : runAll front r with ⟨e' | ⟨⟩, n⟩
    · rw [hfront] at h
      rw [runAll_append_of_error hfront]
      exact congrArg Except.error (Except.error.inj h)
    · rw [hfront] at h
      rw [runAll_append_of_ok hfront]
      rcases hinner : runAll (inner.fill fs) n with ⟨e' | ⟨⟩, n'⟩
      · rw [runAll_append_of_error hinner, ← ih h, hinner]
      · have := ih h
        rw [hinner] at this
        cases this
  | nested scope inner ih =>
    rw [fill, runAll_singleton, run]
    exact ih h
  | unqualified inner ih =>
    rw [fill, runAll_singleton, run]
    exact ih h

theorem error_of_gap (h : s.arrive r = .ok m) (he : (runAll fs m).1 = .error e) :
    (runAll (s.fill fs) r).1 = .error e := by
  induction s generalizing r with
  | gap =>
    cases h
    exact he
  | beside front inner back ih =>
    obtain ⟨n, hfront, hinner⟩ := arrive_beside_ok h
    rw [fill, List.append_assoc, runAll_append_of_ok hfront]
    rcases hfill : runAll (inner.fill fs) n with ⟨e' | ⟨⟩, n'⟩
    · rw [runAll_append_of_error hfill, ← ih hinner, hfill]
    · have := ih hinner
      rw [hfill] at this
      cases this
  | nested scope inner ih =>
    rw [fill, runAll_singleton, run]
    exact ih h
  | unqualified inner ih =>
    rw [fill, runAll_singleton, run]
    exact ih h

/-- What is put out before the gap, in it and behind it. -/
def Puts (s : Spot) (fs : List Fragment) (r : Rendering) (front ps back : List Piece) : Prop :=
  ∃ m m', s.arrive r = .ok m ∧ m.output.toList = r.output.toList ++ front ∧
    Fragment.Puts fs m ps m' ∧ ∃ r', Fragment.Puts (s.fill fs) r (front ++ ps ++ back) r'

theorem puts_of_fill {r' : Rendering} {ps : List Piece} (h : Fragment.Puts (s.fill fs) r ps r') :
    ∃ front qs back, ps = front ++ qs ++ back ∧ s.Puts fs r front qs back := by
  suffices ∃ m m' front qs back, s.arrive r = .ok m ∧ m.output.toList = r.output.toList ++ front ∧
      Fragment.Puts fs m qs m' ∧ ps = front ++ qs ++ back by
    obtain ⟨m, m', front, qs, back, harrive, hout, hqs, rfl⟩ := this
    exact ⟨front, qs, back, rfl, m, m', harrive, hout, hqs, r', h⟩
  induction s generalizing r r' ps with
  | gap => exact ⟨r, r', [], ps, [], rfl, (List.append_nil _).symm, h, (List.append_nil _).symm⟩
  | beside before inner behind ih =>
    obtain ⟨n', _, after, hleft, hbehind, rfl⟩ := puts_append.1 h
    obtain ⟨n, lead, _, hbefore, hinner, rfl⟩ := puts_append.1 hleft
    obtain ⟨m, m', front, qs, back, harrive, hout, hqs, rfl⟩ := ih hinner
    refine ⟨m, m', lead ++ front, qs, back ++ after, ?_, ?_, hqs, by simp⟩
    · have hrun : runAll before r = (.ok (), n) := hbefore.1
      rw [arrive, hrun]
      exact harrive
    · rw [hout, hbefore.2, List.append_assoc]
  | nested scope inner ih =>
    obtain ⟨n, hinner, -⟩ := puts_nested.1 h
    exact ih hinner
  | unqualified inner ih =>
    obtain ⟨n, hinner, -⟩ := puts_unqualified.1 h
    exact ih hinner

/-- Through a spot in what fills another one a run goes from one arrival to the next. -/
theorem arrive_comp (h : s.arrive r = .ok m) (t : Spot) : (s.comp t).arrive r = t.arrive m := by
  induction s generalizing r with
  | gap =>
    cases h
    rfl
  | beside front inner back ih =>
    obtain ⟨n, hfront, hinner⟩ := arrive_beside_ok h
    have hrun : runAll front r = (.ok (), n) := hfront
    rw [comp, arrive, hrun]
    exact ih hinner
  | nested scope inner ih => exact ih h
  | unqualified inner ih => exact ih h

/-- What is put out in a gap of what fills the gap. -/
theorem Puts.inner {front back : List Fragment} {before ps after : List Piece}
    (h : s.Puts (front ++ fs ++ back) r before ps after) :
    ∃ n m₁ m₂ m' lead qs rest, Fragment.Puts front n lead m₁ ∧ Fragment.Puts back m₂ rest m' ∧
      ps = lead ++ qs ++ rest ∧
      (s.comp (.beside front .gap back)).Puts fs r (before ++ lead) qs (rest ++ after) := by
  obtain ⟨m, m', harrive, hout, hps, r', hwhole⟩ := h
  obtain ⟨m₂, _, rest, hleft, hback, rfl⟩ := puts_append.1 hps
  obtain ⟨m₁, lead, qs, hfront, hqs, rfl⟩ := puts_append.1 hleft
  refine ⟨m, m₁, m₂, m', lead, qs, rest, hfront, hback, rfl, m₁, m₂, ?_, ?_, hqs, r', ?_⟩
  · have hrun : runAll front m = (.ok (), m₁) := hfront.1
    rw [arrive_comp harrive, arrive, hrun]
    rfl
  · rw [hfront.2, hout, List.append_assoc]
  · rw [fill_comp]
    simpa [fill] using hwhole

theorem puts_gap {ps : List Piece} (h : Fragment.Puts fs r ps m) : gap.Puts fs r [] ps [] :=
  ⟨r, m, rfl, (List.append_nil _).symm, h, m, by simpa [fill] using h⟩

/-- Nothing comes after a scope at the end. -/
theorem Puts.after_nested {front : List Fragment} {scope : Scope} {before ps after : List Piece}
    (h : (beside front (nested scope gap) []).Puts fs r before ps after) : after = [] := by
  obtain ⟨m, m', harrive, hout, hps, r', hwhole⟩ := h
  obtain ⟨n, hfront, hinner⟩ := arrive_beside_ok harrive
  cases hinner
  rw [fill, fill, fill, List.append_nil] at hwhole
  obtain ⟨n', lead, rest, hlead, hrest, hpieces⟩ := puts_append.1 hwhole
  have hrun : runAll front r = (.ok (), n) := hfront
  cases hrun.symm.trans hlead.1
  have hbefore : before = lead := List.append_cancel_left (hout.symm.trans hlead.2)
  obtain ⟨_, hbody, -⟩ := puts_nested.1 hrest
  rw [hbefore, List.append_assoc, ← (hps.unique hbody).1] at hpieces
  exact List.append_right_eq_self.1 (List.append_cancel_left hpieces)

/-- A refusal in the gap ends the run with what has been put out by then. -/
theorem runAll_fill_refuse {m' : Rendering} {ps : List Piece} (harrive : s.arrive r = .ok m)
    (hfs : Fragment.Puts fs m ps m') (e : Error) :
    ∃ n, runAll (s.fill (fs ++ [refuse e])) r = (.error e, n) ∧ n.output = m'.output := by
  induction s generalizing r with
  | gap =>
    cases harrive
    refine ⟨m', ?_, rfl⟩
    rw [fill, runAll_append_of_ok hfs.1, runAll_singleton, run]
  | beside front inner back ih =>
    obtain ⟨n, hfront, hinner⟩ := arrive_beside_ok harrive
    obtain ⟨n', hrun, hout⟩ := ih hinner
    refine ⟨n', ?_, hout⟩
    rw [fill, List.append_assoc, runAll_append_of_ok hfront, runAll_append_of_error hrun]
  | nested scope inner ih =>
    obtain ⟨n', hrun, hout⟩ := ih harrive
    refine ⟨n'.leave, ?_, (leave_output n').trans hout⟩
    rw [fill, runAll_singleton, run, hrun]
    rfl
  | unqualified inner ih =>
    obtain ⟨n', hrun, hout⟩ := ih harrive
    refine ⟨n'.setBare r.scope.bare, ?_, hout⟩
    rw [fill, runAll_singleton, run, hrun]
    rfl

/-- Two spots that are filled to the same come to the same. -/
theorem Puts.unique {t : Spot} {front front' ps ps' back back' : List Piece}
    (hfill : s.fill = t.fill) (h : s.Puts fs r front ps back) (h' : t.Puts fs r front' ps' back') :
    front = front' ∧ ps = ps' ∧ back = back' := by
  obtain ⟨m, m', harrive, hout, hps, r', hwhole⟩ := h
  obtain ⟨n, n', harrive', hout', hps', r'', hwhole'⟩ := h'
  have houtput {gs : List Fragment} {qs qs' : List Piece} {k k' : Rendering}
      (hqs : Fragment.Puts gs m qs k) (hqs' : Fragment.Puts gs n qs' k') : k.output = k'.output := by
    obtain ⟨x, hx, hxout⟩ := runAll_fill_refuse harrive hqs (.query .betweenBounds)
    obtain ⟨y, hy, hyout⟩ := runAll_fill_refuse harrive' hqs' (.query .betweenBounds)
    rw [hfill, hy] at hx
    cases hx
    rw [← hxout, hyout]
  have hfront : front = front' := by
    have hnil := houtput (puts_nil.2 ⟨rfl, rfl⟩) (puts_nil.2 ⟨rfl, rfl⟩)
    rw [← Array.toList_inj, hout, hout'] at hnil
    exact List.append_cancel_left hnil
  have hpieces : ps = ps' := by
    have hend := houtput hps hps'
    rw [← Array.toList_inj, hps.2, hps'.2, hout, hout', hfront] at hend
    exact List.append_cancel_left hend
  subst hfront hpieces
  rw [← hfill] at hwhole'
  exact ⟨rfl, rfl, List.append_cancel_left (hwhole.unique hwhole').1⟩

theorem arrive_proposal? (h : s.arrive r = .ok m) : m.proposal? = s.proposal.or r.proposal? := by
  induction s generalizing r with
  | gap =>
    cases h
    rfl
  | beside front inner back ih =>
    obtain ⟨n, hfront, hinner⟩ := arrive_beside_ok h
    rw [ih hinner, hfront.extends.proposal?_eq, proposal]
  | nested scope inner ih => rw [ih h, enter_proposal?, proposal, Option.or_assoc]
  | unqualified inner ih => exact ih (r := r.setBare true) h

end Spot

end Fragment

end SqlMapper
