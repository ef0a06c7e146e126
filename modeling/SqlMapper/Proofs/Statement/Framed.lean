import SqlMapper.Proofs.Fragment.Gated
import SqlMapper.Proofs.Statement.Anchored
import SqlMapper.Proofs.Text.Pieces

/-!
# SqlMapper.Proofs.Statement.Framed

What the rendering of a part leaves alone, also where it ends in a refusal.

* `Rendering.Keeps`: sources that were known have the names that they had.
* `Rendering.Continues`: the frame of a run with what it says of text and parameters.
* `Fragment.Still`: fragments that touch no scope around them. Those of every query are still
  (`Query.still`), since each select has its sources in a scope of its own.
* `Rendering.parts_framed`: every part of the syntax continues what stands before it, and a query
  leaves all scopes as they are.
-/

namespace SqlMapper

open Fragment

namespace Rendering

variable {r r' m : Rendering}

/-! ## Names of known sources -/

/-- Every source that was known is found under the name that it had. -/
def Keeps (r r' : Rendering) : Prop :=
  ∀ key name, r.lookup? key = some name → r'.lookup? key = some name

theorem Keeps.refl (r : Rendering) : r.Keeps r := fun _ _ h => h

theorem Keeps.trans (h : r.Keeps m) (h' : m.Keeps r') : r.Keeps r' :=
  fun key name hname => h' key name (h key name hname)

theorem keeps_of_scopes (h : r'.scopes = r.scopes) : r.Keeps r' := by
  intro key name hname
  rwa [lookup?, h]

theorem keeps_putAll (r : Rendering) (ps : List Piece) : r.Keeps (r.putAll ps) :=
  keeps_of_scopes (scopes_putAll r ps)

/-- A source of an unknown key hides none. -/
theorem keeps_record {key : String} (h : r.lookup? key = none) (name : String) :
    r.Keeps (r.record key name) := by
  intro k n hname
  have hne : (k == key) = false := by
    simp only [beq_eq_false_iff_ne]
    rintro rfl
    cases h.symm.trans hname
  rw [lookup?_eq] at hname ⊢
  have hlookup : (r.record key name).scope.sources.lookup k = r.scope.sources.lookup k := by
    rw [record, List.lookup_append, List.lookup_cons, hne]
    simp
  rw [hlookup]
  exact hname

theorem keeps_modelName (r : Rendering) (m : ModelSource) : r.Keeps (r.modelName m).2 := by
  unfold modelName
  cases hlookup : r.lookup? m.key with
  | some name => exact .refl r
  | none =>
    have hscopes := nameModel_scopes r m
    have hunknown : (r.nameModel m).2.lookup? m.key = none := by rwa [lookup?, hscopes]
    exact (keeps_of_scopes hscopes).trans (keeps_record hunknown _)

theorem keeps_qualifierName (r : Rendering) (q : Qualifier) : r.Keeps (r.qualifierName q).2 := by
  cases q with
  | model m => exact keeps_modelName r m
  | table name => exact .refl r

/-! ## Text and parameters -/

/-- What has been put out so far, as a driver would take it. -/
def rendered (r : Rendering) (d : Dialect) : Rendered := .ofPieces d r.output.toList

/-- The state `r'` goes on from `r` in the dialect `d`. There are as many scopes as before, and all
of them are as they were, except that the innermost one may have more sources behind those it had.
Text and parameters are only added at their ends. -/
structure Continues (d : Dialect) (r r' : Rendering) : Prop extends r.Extends r' where
  sql : ∃ more, (r'.rendered d).sql = (r.rendered d).sql ++ more
  params : (r.rendered d).params <+: (r'.rendered d).params
  names : r.Keeps r'

theorem Extends.continues (h : r.Extends r') (hnames : r.Keeps r') (d : Dialect) :
    r.Continues d r' := by
  obtain ⟨ps, hps⟩ := h.output
  refine { h with sql := ?_, params := ?_, names := hnames }
  · refine ⟨String.join (Piece.texts d (0 + Piece.count r.output.toList) ps), ?_⟩
    simp only [rendered, ← hps, Rendered.ofPieces, Piece.texts_append, String.join_append]
  · simp only [rendered, ← hps, Rendered.ofPieces, List.filterMap_append]
    exact List.prefix_append ..

end Rendering

/-! ## Anchored fragments -/

namespace Fragment

open Rendering

variable {keys : List String} {fs gs : List Fragment}

theorem keeps_run_free {f : Fragment} (h : f.isFree = true) (r : Rendering) :
    r.Keeps (run f r).2 := by
  cases f with
  | text s => exact keeps_putAll r [.text s]
  | identifier s => exact keeps_putAll r [.name s]
  | param v => exact keeps_putAll r [.param v]
  | qualifier q =>
    rw [run, runQualifier]
    split
    · exact .refl r
    · exact (keeps_qualifierName r q).trans (keeps_putAll _ _)
  | modelTable m =>
    have hname : r.Keeps ((r.put (.name m.model.table)).modelName m).2 :=
      (keeps_putAll r [.name m.model.table]).trans (keeps_modelName _ m)
    rw [run, runModelTable]
    dsimp only
    split
    · exact hname
    · exact hname.trans (keeps_putAll _ _)
  | proposed field =>
    rw [run, runProposed]
    split
    · exact .refl r
    · split
      · exact keeps_putAll r [.name _]
      · exact .refl r
  | refuse e => exact .refl r
  | _ => cases h

/-- Anchored fragments make nothing visible that would hide a source. -/
theorem Anchored.keeps (h : Anchored keys fs) (r : Rendering) : r.Keeps (runAll fs r).2 := by
  induction h generalizing r with
  | nil => exact .refl r
  | @append keys fs gs _ _ ihf ihg =>
    have hf := ihf r
    rcases hrun : runAll fs r with ⟨e | ⟨⟩, m⟩
    · rw [hrun] at hf
      rw [runAll_append_of_error hrun]
      exact hf
    · rw [hrun] at hf
      rw [runAll_append_of_ok hrun]
      exact hf.trans (ihg m)
  | free f hf =>
    rw [runAll_singleton]
    exact keeps_run_free hf r
  | equated childColumn parentColumn _ _ =>
    rw [runAll_singleton, run, runEquated]
    split
    · exact keeps_putAll _ _
    · exact .refl r
    · exact .refl r
  | unqualified _ ih =>
    rw [runAll_singleton, run]
    exact ih (r.setBare true)
  -- What becomes visible in a scope of its own is gone with it, so its body does not matter.
  | nested s os _ _ =>
    rw [runAll_singleton, run]
    exact keeps_of_scopes (runAll_extends _ (r.enter s)).scopes_leave

theorem Anchored.continues (h : Anchored keys fs) (d : Dialect) (r : Rendering) :
    r.Continues d (runAll fs r).2 :=
  (runAll_extends fs r).continues (h.keeps r) d

/-! ## Fragments that touch no scope -/

def isStill : Fragment → Bool
  | qualifier _ | modelTable _ | enlist _ | unqualified _ => false
  | _ => true

def Still (fs : List Fragment) : Prop := ∀ f ∈ fs, f.isStill = true

theorem scopes_run_of_isStill {f : Fragment} (h : f.isStill = true) (r : Rendering) :
    (run f r).2.scopes = r.scopes := by
  cases f with
  | text s => exact scopes_put ..
  | identifier s => exact scopes_put ..
  | param v => exact scopes_put ..
  | equated child childColumn parent parentColumn =>
    rw [run, runEquated]
    split
    · exact scopes_putAll ..
    · rfl
    · rfl
  | proposed field =>
    rw [run, runProposed]
    split
    · rfl
    · split <;> rfl
  | drawn f =>
    rw [run, runDrawn]
    dsimp only
    split <;> rfl
  | refuse e => rfl
  | nested s body =>
    rw [run]
    exact (runAll_extends body (r.enter s)).scopes_leave
  | _ => cases h

namespace Still

theorem scopes_runAll (h : Still fs) (r : Rendering) : (runAll fs r).2.scopes = r.scopes := by
  induction fs generalizing r with
  | nil => rfl
  | cons f fs ih =>
    have hf := scopes_run_of_isStill (h f (List.mem_cons_self ..)) r
    rw [runAll]
    rcases hrun : run f r with ⟨e | ⟨⟩, m⟩
    · rw [hrun] at hf
      exact hf
    · rw [hrun] at hf
      exact (ih (fun g hg => h g (List.mem_cons_of_mem _ hg)) m).trans hf

theorem single {f : Fragment} (h : f.isStill = true) : Still [f] := by simpa [Still] using h

theorem append (hf : Still fs) (hg : Still gs) : Still (fs ++ gs) :=
  List.forall_mem_append.2 ⟨hf, hg⟩

theorem cons {f : Fragment} (hf : f.isStill = true) (h : Still fs) : Still (f :: fs) :=
  (single hf).append h

theorem enclosed (o c : String) (h : Still fs) : Still (enclosed o fs c) :=
  (h.cons rfl).append (single rfl)

theorem commas {fss : List (List Fragment)} (h : ∀ fs ∈ fss, Still fs) : Still (commas fss) := by
  induction fss with
  | nil => exact List.forall_mem_nil _
  | cons fs fss ih =>
    obtain ⟨hfs, hfss⟩ := List.forall_mem_cons.1 h
    cases fss with
    | nil => simpa [Fragment.commas, separated] using hfs
    | cons gs fss =>
      rw [Fragment.commas, separated, List.intercalate_cons_cons, List.append_assoc]
      exact hfs.append ((ih hfss).cons rfl)

theorem names (ns : List String) : Still (names ns) :=
  commas fun fs hfs => by
    obtain ⟨n, -, rfl⟩ := List.mem_map.1 hfs
    exact single rfl

theorem ofCte (c : Cte) (h : Still fs) : Still (ofCte c fs) := by
  unfold Fragment.ofCte
  refine (Still.append ?_ (h.enclosed _ _)).cons rfl
  split
  · exact List.forall_mem_nil _
  · exact (names _).enclosed _ _

theorem ofCtes {ctes : List Cte} {queries : List (List Fragment)}
    (h : ∀ query ∈ queries, Still query) : Still (ofCtes ctes queries) := by
  cases ctes with
  | nil => exact List.forall_mem_nil _
  | cons c cs =>
    rw [ofCtes_cons]
    refine ((commas fun fs hfs => ?_).cons rfl).append (single rfl)
    rw [← List.map_uncurry_zip_eq_zipWith] at hfs
    obtain ⟨p, hp, rfl⟩ := List.mem_map.1 hfs
    exact .ofCte p.1 (h p.2 (List.of_mem_zip hp).2)

theorem ofOperand {d : Dialect} (isRight isCompound ordered : Bool) (h : Still fs) :
    Still (ofOperand d isRight isCompound ordered fs) := by
  unfold Fragment.ofOperand
  split
  · exact h.enclosed _ _
  · split
    · exact (h.enclosed _ _).append (single rfl)
    · unfold requiring
      split
      · exact h
      · exact single rfl

theorem ofLimit (d : Dialect) (limit offset : Option Nat) : Still (ofLimit d limit offset) := by
  unfold Fragment.ofLimit
  refine append ?_ ?_
  · split <;> simp [Still, isStill]
  · split <;> simp [Still, isStill]

end Still

end Fragment

section

variable (d : Dialect)

mutual

theorem Query.still : (q : Query) → Still (q.fragments d)
  | .simple s => by
    rw [Query.fragments]
    exact Select.still s
  | .compound c => by
    rw [Query.fragments]
    exact Compound.still c

theorem Select.still : (s : Select) → Still (s.fragments d)
  | ⟨ctes, _, _, _, _, _, _, _, _, _, _, _, _, _⟩ => by
    rw [Select.fragments_eq]
    exact (Still.ofCtes (Cte.listStill ctes)).append (.single rfl)

theorem Compound.still : (c : Compound) → Still (c.fragments d)
  | ⟨ctes, left, op, right, orderBy, limit, offset⟩ => by
    have hordering : Still (Compound.orderingFragments d orderBy) := by
      unfold Compound.orderingFragments
      split <;> simp [Still, isStill]
    have hwith : Still (ofCtes ctes (Cte.listFragments d ctes)) := .ofCtes (Cte.listStill ctes)
    have hleft := (Query.still left).ofOperand (d := d) false left.isCompound left.isOrdered
    have hright := (Query.still right).ofOperand (d := d) true right.isCompound right.isOrdered
    rw [Compound.fragments_eq]
    exact ((((hwith.append hleft).append (.single rfl)).append hright).append hordering).append
      (.ofLimit _ _ _)

theorem Cte.listStill : (cs : List Cte) → ∀ query ∈ Cte.listFragments d cs, Still query
  | [] => List.forall_mem_nil _
  | ⟨_, _, _, query⟩ :: cs => by
    rw [Cte.listFragments, List.forall_mem_cons, Cte.fragments]
    exact ⟨Query.still query, Cte.listStill cs⟩

end

end

/-! ## Parts of the syntax -/

namespace Rendering

/-- Whatever the state, and whether or not it ends in a refusal: rendering an expression, a
condition, an ordering, a window or a query leaves the scopes around it as they were, adds sources
to the innermost one only behind those that it has, and only appends to text and parameters, while
the counter does not go back. Sources that were known keep their names; a query adds none. -/
theorem parts_framed (d : Dialect) (r : Rendering) :
    (∀ (codec : Option Field) (e : Expr), r.Continues d (runAll (e.fragments d codec) r).2) ∧
      (∀ c : Condition, r.Continues d (runAll (c.fragments d) r).2) ∧
      (∀ ts : List OrderTerm,
        r.Continues d (runAll (commas (OrderTerm.listFragments d ts)) r).2) ∧
      (∀ w : Window, r.Continues d (runAll (w.fragments d) r).2) ∧
      ∀ q : Query, r.Continues d (runAll (q.fragments d) r).2 ∧
        (runAll (q.fragments d) r).2.scopes = r.scopes := by
  refine ⟨fun codec e => ?_, fun c => ?_, fun ts => ?_, fun w => ?_, fun q => ⟨?_, ?_⟩⟩
  · exact (Expr.anchored d [] codec e).continues d r
  · exact (Condition.anchored d [] c).continues d r
  · exact (Anchored.commas (OrderTerm.listAnchored d [] ts)).continues d r
  · exact (Window.anchored d [] w).continues d r
  · exact (Query.anchored d [] q).continues d r
  · exact (Query.still d q).scopes_runAll r

end Rendering

end SqlMapper
