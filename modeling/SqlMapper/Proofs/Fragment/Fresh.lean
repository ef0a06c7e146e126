import Mathlib.Data.List.Perm.Subperm
import SqlMapper.Proofs.Fragment.Run

/-!
# SqlMapper.Proofs.Fragment.Fresh

Generated names are new: none is the name of a visible source, or one that such a source claims
(`Rendering.freshName_not_mem_taken`). Among more numbers than names taken there is a free one.
-/

namespace SqlMapper
namespace Rendering

theorem generatedName_injective {m n : Nat} (h : generatedName m = generatedName n) : m = n := by
  have hdigits : (toString m).toList = (toString n).toList := by
    have := congrArg String.toList h
    rw [generatedName, generatedName, String.toList_append, String.toList_append] at this
    exact List.append_cancel_left this
  rw [Nat.toString_eq_repr, Nat.toString_eq_repr, Nat.toList_repr, Nat.toList_repr] at hdigits
  rw [← Nat.ofDigitChars_ten_toDigits (n := m), hdigits, Nat.ofDigitChars_ten_toDigits]

/-- Some number after the counter is free. -/
theorem exists_free (r : Rendering) :
    ∃ i ∈ List.range (r.taken.length + 1), generatedName (r.counter + 1 + i) ∉ r.taken := by
  refine Classical.byContradiction fun h => ?_
  have hsub : (List.range (r.taken.length + 1)).map (fun i => generatedName (r.counter + 1 + i)) ⊆
      r.taken := by
    intro name hname
    obtain ⟨i, hi, rfl⟩ := List.mem_map.1 hname
    exact Classical.byContradiction fun hfree => h ⟨i, hi, hfree⟩
  have hnodup : ((List.range (r.taken.length + 1)).map
      (fun i => generatedName (r.counter + 1 + i))).Nodup := by
    refine List.Pairwise.map _ (fun i j hij heq => hij ?_) List.nodup_range
    have := generatedName_injective heq
    omega
  have hlength := (List.subperm_of_subset hnodup hsub).length_le
  rw [List.length_map, List.length_range] at hlength
  omega

theorem freshName_not_mem_taken (r : Rendering) : r.freshName.1 ∉ r.taken := by
  unfold freshName freshNumber
  dsimp only
  cases hfind : (List.range (r.taken.length + 1)).find? fun i =>
      !r.taken.contains (generatedName (r.counter + 1 + i)) with
  | none =>
    obtain ⟨i, hi, hfree⟩ := exists_free r
    have := List.find?_eq_none.1 hfind i hi
    simp [hfree] at this
  | some i =>
    have := List.find?_some hfind
    simpa using this

end Rendering
end SqlMapper
