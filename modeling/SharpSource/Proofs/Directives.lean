import SharpSource.Proofs.Blanks
import SharpSource.Proofs.Outcome
import SharpSource.Using

/-!
# Blocks of using directives

The one thing that a using directive must not be is blank. A block of
directives is there exactly when none of them is (`Using.block_ok_iff`), and
otherwise the failure says nothing but that.
-/

namespace SharpSource

/-! ### Directives -/

namespace Using

/-- A directive can be written out unless it is blank. -/
theorem normalize_ok_iff {input : String} :
    (∃ d, normalize input = .ok d) ↔ Text.isBlankText input = false := by
  rw [normalize, ← Bool.not_eq_true, ← Text.trim_eq_empty_iff]
  by_cases h : Text.trim input = ""
  · simp [h]
  · simp [h]

theorem normalize_error {input : String} {e : Failure} (h : normalize input = .error e) :
    e = .blankUsing := by
  rw [normalize] at h
  by_cases hblank : Text.trim input = ""
  · rw [if_pos hblank] at h
    cases h
    rfl
  · rw [if_neg hblank] at h
    cases h

/-- **A block of directives** can be made when none of them is blank. -/
theorem block_ok_iff {inputs : List String} :
    (∃ ds, block inputs = .ok ds) ↔ ∀ d ∈ inputs, Text.isBlankText d = false := by
  constructor
  · rintro ⟨ds, hds⟩ d hd
    obtain ⟨directives, hdirectives, -⟩ := Outcome.bind_eq_ok_iff.mp hds
    obtain ⟨d', hd', -⟩ := Outcome.ok_of_mem_of_mapM hdirectives hd
    exact normalize_ok_iff.mp ⟨d', hd'⟩
  · intro h
    obtain ⟨directives, hdirectives⟩ := Outcome.mapM_ok_of_forall (f := normalize)
      fun d hd => normalize_ok_iff.mpr (h d hd)
    exact ⟨_, Outcome.bind_eq_ok_iff.mpr ⟨directives, hdirectives, rfl⟩⟩

theorem block_error {inputs : List String} {e : Failure} (h : block inputs = .error e) :
    e = .blankUsing := by
  rcases Outcome.bind_eq_error_iff.mp h with h | ⟨directives, -, h⟩
  · obtain ⟨before, d, behind, -, -, hd⟩ := Outcome.exists_of_mapM_eq_error h
    exact normalize_error hd
  · cases h

end Using

end SharpSource
