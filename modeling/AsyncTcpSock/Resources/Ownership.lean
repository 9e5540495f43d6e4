import Mathlib.Data.Finset.Erase
import Mathlib.Data.Finset.Insert
import Mathlib.Logic.Function.Basic

/-!
# Ownership of resources

Owners hold at most one resource each. `Owns holds used` says that the resources in use are exactly
the ones that are held, each by one owner only. To hand out a resource that is not in use to an
owner without one keeps this, and so does taking a resource back.
-/

namespace Resources

variable {O R : Type} [DecidableEq O] [DecidableEq R]

/-- Every resource in use is held by exactly one owner, and no other resource is held. -/
structure Owns (holds : O → Option R) (used : Finset R) : Prop where
  /-- What is held is in use. -/
  mem {o : O} {r : R} : holds o = some r → r ∈ used
  /-- What is in use is held. -/
  held {r : R} : r ∈ used → ∃ o, holds o = some r
  /-- Nothing is held twice. -/
  unique {o o' : O} {r : R} : holds o = some r → holds o' = some r → o = o'

namespace Owns

variable {holds : O → Option R} {used : Finset R} {o : O} {r : R}

omit [DecidableEq O] [DecidableEq R] in
/-- A resource in use has exactly one owner. -/
theorem existsUnique (h : Owns holds used) (hr : r ∈ used) : ∃! o, holds o = some r := by
  obtain ⟨o, ho⟩ := h.held hr
  exact ⟨o, ho, fun o' ho' => h.unique ho' ho⟩

/-- A resource that is not in use is handed out to an owner without one. -/
theorem acquire (h : Owns holds used) (ho : holds o = none) (hr : r ∉ used) :
    Owns (Function.update holds o (some r)) (insert r used) := by
  have hold {o' : O} {r' : R} (hne : o' ≠ o) (h' : Function.update holds o (some r) o' = some r') :
      holds o' = some r' := by rwa [Function.update_of_ne hne] at h'
  have hnew {r' : R} (h' : Function.update holds o (some r) o = some r') : r' = r := by
    rw [Function.update_self] at h'
    exact (Option.some.inj h').symm
  -- nobody held the resource before, so it is not the one of another owner
  have hother {o' : O} (hne : o' ≠ o) : Function.update holds o (some r) o' ≠ some r :=
    fun h' => hr (h.mem (hold hne h'))
  refine ⟨fun {o' r'} h' => ?_, fun {r'} hr' => ?_, fun {o₁ o₂ r'} h₁ h₂ => ?_⟩
  · by_cases hne : o' = o
    · subst hne
      exact Finset.mem_insert.mpr (.inl (hnew h'))
    · exact Finset.mem_insert_of_mem (h.mem (hold hne h'))
  · rcases Finset.mem_insert.mp hr' with rfl | hmem
    · exact ⟨o, Function.update_self ..⟩
    · obtain ⟨o', ho'⟩ := h.held hmem
      have hne : o' ≠ o := by
        rintro rfl
        exact absurd (ho.symm.trans ho') nofun
      exact ⟨o', by rwa [Function.update_of_ne hne]⟩
  · by_cases hne₁ : o₁ = o
    · subst hne₁
      obtain rfl := hnew h₁
      by_contra hne
      exact hother (Ne.symm hne) h₂
    · by_cases hne₂ : o₂ = o
      · subst hne₂
        obtain rfl := hnew h₂
        exact absurd h₁ (hother hne₁)
      · exact h.unique (hold hne₁ h₁) (hold hne₂ h₂)

/-- An owner gives its resource back. -/
theorem release (h : Owns holds used) (ho : holds o = some r) :
    Owns (Function.update holds o none) (used.erase r) := by
  have hold {o' : O} {r' : R} (h' : Function.update holds o none o' = some r') :
      o' ≠ o ∧ holds o' = some r' := by
    by_cases hne : o' = o
    · rw [hne, Function.update_self] at h'
      cases h'
    · rw [Function.update_of_ne hne] at h'
      exact ⟨hne, h'⟩
  refine ⟨fun {o' r'} h' => ?_, fun {r'} hr' => ?_, fun h₁ h₂ => h.unique (hold h₁).2 (hold h₂).2⟩
  · obtain ⟨hne, h'⟩ := hold h'
    refine Finset.mem_erase.mpr ⟨?_, h.mem h'⟩
    rintro rfl
    exact hne (h.unique h' ho)
  · obtain ⟨hne, hmem⟩ := Finset.mem_erase.mp hr'
    obtain ⟨o', ho'⟩ := h.held hmem
    have hne' : o' ≠ o := by
      rintro rfl
      exact hne (Option.some.inj (ho'.symm.trans ho))
    exact ⟨o', by rwa [Function.update_of_ne hne']⟩

end Owns

end Resources
