import SqlMapper.Proofs.Fragment.Run

/-!
# SqlMapper.Proofs.Fragment.Mask

What a run does apart from the values it binds.

`Fragment.mask` puts NULL in the place of every parameter. A run that is not refused goes the same
way over masked fragments (`run_mask`), for no decision on the way looks at a value.
-/

namespace SqlMapper

def Piece.mask : Piece → Piece
  | param _ => .param .null
  | p => p

/-- The state with nothing of the values in it. -/
def Rendering.mask (r : Rendering) : Rendering :=
  { r with supply := ⟨0⟩, output := r.output.map Piece.mask }

namespace Fragment

mutual

/-- A value that no encoder takes is a parameter too. -/
def mask : Fragment → Fragment
  | param _ => param .null
  | drawn _ => param .null
  | refuse _ => param .null
  | nested s body => nested s (maskAll body)
  | unqualified body => unqualified (maskAll body)
  | text s => text s
  | identifier s => identifier s
  | qualifier q => qualifier q
  | modelTable m => modelTable m
  | enlist o => enlist o
  | equated child childColumn parent parentColumn =>
    equated child childColumn parent parentColumn
  | proposed field => proposed field

def maskAll : List Fragment → List Fragment
  | [] => []
  | f :: fs => f.mask :: maskAll fs

end

@[simp] theorem maskAll_nil : maskAll [] = [] := rfl

@[simp] theorem maskAll_cons (f : Fragment) (fs : List Fragment) :
    maskAll (f :: fs) = f.mask :: maskAll fs := rfl

@[simp] theorem maskAll_append (fs gs : List Fragment) :
    maskAll (fs ++ gs) = maskAll fs ++ maskAll gs := by
  induction fs with
  | nil => rfl
  | cons f fs ih => rw [List.cons_append, maskAll_cons, ih]; rfl

end Fragment

/-! ## Runs -/

namespace Rendering

@[simp] theorem mask_put (r : Rendering) (p : Piece) : (r.put p).mask = r.mask.put p.mask := by
  simp [mask, put]

@[simp] theorem mask_putAll (r : Rendering) (ps : List Piece) :
    (r.putAll ps).mask = r.mask.putAll (ps.map Piece.mask) := by
  induction ps generalizing r with
  | nil => rfl
  | cons p ps ih => rw [putAll_cons, ih, mask_put]; rfl

theorem mask_nameModel (r : Rendering) (m : ModelSource) :
    r.mask.nameModel m = ((r.nameModel m).1, (r.nameModel m).2.mask) := by
  cases hgiven : m.givenName with
  | some name => rw [nameModel_given hgiven, nameModel_given hgiven]
  | none =>
    cases h : r.scope.byTable with
    | true => rw [nameModel_byTable hgiven h, nameModel_byTable hgiven (r := r.mask) h]
    | false => rw [nameModel_fresh hgiven h, nameModel_fresh hgiven (r := r.mask) h]; rfl

theorem mask_modelName (r : Rendering) (m : ModelSource) :
    r.mask.modelName m = ((r.modelName m).1, (r.modelName m).2.mask) := by
  unfold modelName
  rw [mask_nameModel]
  have hlookup : r.mask.lookup? m.key = r.lookup? m.key := rfl
  rw [hlookup]
  cases r.lookup? m.key <;> rfl

theorem mask_qualifierName (r : Rendering) (q : Qualifier) :
    r.mask.qualifierName q = ((r.qualifierName q).1, (r.qualifierName q).2.mask) := by
  cases q with
  | model m => exact mask_modelName r m
  | table name => rfl

theorem mask_enlist (r : Rendering) (o : Origin) : (r.enlist o).mask = r.mask.enlist o := by
  cases o with
  | model m =>
    unfold enlist
    dsimp only
    rw [mask_nameModel]
    rfl
  | table name => rfl
  | derived name => rfl

theorem mask_leave (r : Rendering) : r.leave.mask = r.mask.leave := by
  obtain ⟨scope, enclosing, counter, supply, output⟩ := r
  cases enclosing <;> rfl

end Rendering

namespace Fragment

open Rendering

theorem runEquated_mask {child childColumn parent parentColumn : String} {r r' : Rendering}
    (h : runEquated child childColumn parent parentColumn r = (.ok (), r')) :
    runEquated child childColumn parent parentColumn r.mask = (.ok (), r'.mask) := by
  have hchild : r.mask.lookup child = r.lookup child := rfl
  have hparent : r.mask.lookup parent = r.lookup parent := rfl
  unfold runEquated at h ⊢
  rw [hchild, hparent]
  split at h
  · cases h
    rw [mask_putAll]
    rfl
  · cases h
  · cases h

theorem runProposed_mask {field : String} {r r' : Rendering}
    (h : runProposed field r = (.ok (), r')) :
    runProposed field r.mask = (.ok (), r'.mask) := by
  have hproposal : r.mask.proposal? = r.proposal? := rfl
  unfold runProposed at h ⊢
  rw [hproposal]
  split at h
  · cases h
  · split at h
    · cases h
      rw [mask_put]
      rfl
    · cases h

theorem runQualifier_mask {q : Qualifier} {r r' : Rendering}
    (h : runQualifier q r = (.ok (), r')) : runQualifier q r.mask = (.ok (), r'.mask) := by
  have hbare : r.mask.scope.bare = r.scope.bare := rfl
  unfold runQualifier at h ⊢
  rw [mask_qualifierName]
  simp only [hbare]
  split at h
  · rename_i hb
    cases h
    rw [if_pos hb]
  · rename_i hb
    cases h
    rw [if_neg hb, mask_putAll]
    rfl

theorem runModelTable_mask {m : ModelSource} {r r' : Rendering}
    (h : runModelTable m r = (.ok (), r')) : runModelTable m r.mask = (.ok (), r'.mask) := by
  have hput : r.mask.put (.name m.model.table) = (r.put (.name m.model.table)).mask := by
    rw [mask_put]
    rfl
  unfold runModelTable at h ⊢
  dsimp only at h ⊢
  rw [hput, mask_modelName]
  cases h
  split
  · rfl
  · rw [mask_putAll]
    rfl

theorem runDrawn_mask {f : Field} {r r' : Rendering} (h : runDrawn f r = (.ok (), r')) :
    run (param .null) r.mask = (.ok (), r'.mask) := by
  unfold runDrawn at h
  dsimp only at h
  split at h
  · cases h
    rw [mask_put]
    rfl
  · cases h

mutual

theorem run_mask : (f : Fragment) → {r r' : Rendering} → run f r = (.ok (), r') →
    run f.mask r.mask = (.ok (), r'.mask)
  | .text s, r, r', h => by cases h; rw [mask_put]; rfl
  | .identifier s, r, r', h => by cases h; rw [mask_put]; rfl
  | .param v, r, r', h => by cases h; rw [mask_put]; rfl
  | .enlist o, r, r', h => by cases h; rw [mask_enlist]; rfl
  | .qualifier _, _, _, h => runQualifier_mask h
  | .modelTable _, _, _, h => runModelTable_mask h
  | .equated _ _ _ _, _, _, h => runEquated_mask h
  | .proposed _, _, _, h => runProposed_mask h
  | .drawn _, _, _, h => runDrawn_mask h
  | .refuse e, r, r', h => by cases h
  | .nested s body, r, r', h => by
    obtain ⟨m, hm, rfl⟩ := runs_nested.1 (runs_singleton.2 h)
    have hbody : Runs (maskAll body) (r.mask.enter s) m.mask := runAll_mask body hm
    rw [mask_leave]
    exact runs_singleton.1 (runs_nested.2 ⟨m.mask, hbody, rfl⟩)
  | .unqualified body, r, r', h => by
    obtain ⟨m, hm, rfl⟩ := runs_unqualified.1 (runs_singleton.2 h)
    have hbody : Runs (maskAll body) (r.mask.setBare true) m.mask := runAll_mask body hm
    exact runs_singleton.1 (runs_unqualified.2 ⟨m.mask, hbody, rfl⟩)

theorem runAll_mask : (fs : List Fragment) → {r r' : Rendering} → Runs fs r r' →
    Runs (maskAll fs) r.mask r'.mask
  | [], r, r', h => by
    rw [runs_nil.1 h]
    exact runs_nil.2 rfl
  | f :: fs, r, r', h => by
    obtain ⟨m, hf, hfs⟩ := runs_cons.1 h
    exact runs_cons.2 ⟨m.mask, run_mask f hf, runAll_mask fs hfs⟩

end

/-- Runs over fragments that differ in values alone put out pieces that differ in values alone. -/
theorem output_eq_of_maskAll {fs gs : List Fragment} (h : maskAll fs = maskAll gs) {s t : Supply}
    {r r' : Rendering} (hf : Runs fs (.start s) r) (hg : Runs gs (.start t) r') :
    r.output.toList.map Piece.mask = r'.output.toList.map Piece.mask := by
  have hstart : (start s).mask = (start t).mask := rfl
  have hr : Runs (maskAll fs) (start s).mask r.mask := runAll_mask fs hf
  have hr' : Runs (maskAll fs) (start s).mask r'.mask := by
    rw [h, hstart]
    exact runAll_mask gs hg
  have hmask : r.mask = r'.mask := by
    unfold Runs at hr hr'
    rw [hr] at hr'
    exact (Prod.mk.inj hr').2
  rw [← Array.toList_map, ← Array.toList_map]
  exact congrArg (fun r : Rendering => r.output.toList) hmask

end Fragment

/-! ## Text -/

namespace Piece

theorem texts_mask (d : Dialect) (n : Nat) (ps : List Piece) :
    texts d n (ps.map mask) = texts d n ps := by
  induction ps generalizing n with
  | nil => rfl
  | cons p ps ih => cases p <;> simp [mask, texts, ih]

theorem length_params_mask (ps : List Piece) :
    ((ps.map mask).filterMap param?).length = (ps.filterMap param?).length := by
  induction ps with
  | nil => rfl
  | cons p ps ih =>
    cases p with
    | text s => exact ih
    | name s => exact ih
    | param v => exact congrArg (· + 1) ih

end Piece

/-- The text looks at no value. -/
theorem Rendered.eq_of_mask {d : Dialect} {ps qs : List Piece}
    (h : ps.map Piece.mask = qs.map Piece.mask) :
    (ofPieces d ps).sql = (ofPieces d qs).sql ∧
      (ofPieces d ps).params.length = (ofPieces d qs).params.length := by
  constructor
  · rw [ofPieces, ofPieces, ← Piece.texts_mask, h, Piece.texts_mask]
  · rw [ofPieces, ofPieces, ← Piece.length_params_mask, h, Piece.length_params_mask]

end SqlMapper
