import Mathlib.Data.Finset.Card

/-!
# Dmaplane.Lib.Owner

Exclusive ownership of resources `ι` by holders `κ`.

* `Exclusive used owner` — every used resource has exactly one owner, and owners hold only used
  resources; an owner holds at most one, since `owner` is a function.
* `Apart used owner`     — the weaker half: no resource is held twice, but one may be lost.
* `claim`, `release`     — the two operations that keep them.
-/

namespace Ownership

variable {ι κ : Type} [DecidableEq ι] [DecidableEq κ]

structure Exclusive (used : Finset ι) (owner : κ → Option ι) : Prop where
  owned : ∀ i ∈ used, ∃ k, owner k = some i
  used : ∀ k i, owner k = some i → i ∈ used
  unique : ∀ k k' i, owner k = some i → owner k' = some i → k = k'

namespace Exclusive

variable {used : Finset ι} {owner owner' : κ → Option ι} {k : κ} {i : ι}

omit [DecidableEq ι] [DecidableEq κ] in
theorem nobody : Exclusive (∅ : Finset ι) (fun _ : κ => none) := by
  refine ⟨?_, ?_, ?_⟩
  · intro i hi; cases hi
  · intro k i h; cases h
  · intro k k' i h; cases h

omit [DecidableEq ι] [DecidableEq κ] in
theorem existsUnique (h : Exclusive used owner) (hi : i ∈ used) : ∃! k, owner k = some i := by
  obtain ⟨k, hk⟩ := h.owned i hi
  exact ⟨k, hk, fun k' hk' => h.unique k' k i hk' hk⟩

omit [DecidableEq ι] [DecidableEq κ] in
theorem eq_empty (h : Exclusive used owner) (hn : ∀ k, owner k = none) : used = ∅ := by
  rw [Finset.eq_empty_iff_forall_notMem]
  intro i hi
  obtain ⟨k, hk⟩ := h.owned i hi
  rw [hn k] at hk; cases hk

theorem claim (h : Exclusive used owner) (hi : i ∉ used) (hk : owner k = none) :
    Exclusive (insert i used) (Function.update owner k (some i)) := by
  refine ⟨?_, ?_, ?_⟩
  · intro j hj
    rcases Finset.mem_insert.mp hj with rfl | hj
    · exact ⟨k, Function.update_self ..⟩
    · obtain ⟨k', hk'⟩ := h.owned j hj
      have hne : k' ≠ k := by rintro rfl; rw [hk] at hk'; cases hk'
      exact ⟨k', by rw [Function.update_of_ne hne]; exact hk'⟩
  · intro k' j hj
    by_cases hkk : k' = k
    · subst hkk
      rw [Function.update_self] at hj; cases hj
      exact Finset.mem_insert_self ..
    · rw [Function.update_of_ne hkk] at hj
      exact Finset.mem_insert_of_mem (h.used k' j hj)
  · intro k₁ k₂ j h₁ h₂
    by_cases hk₁ : k₁ = k <;> by_cases hk₂ : k₂ = k
    · rw [hk₁, hk₂]
    · subst hk₁
      rw [Function.update_self] at h₁; cases h₁
      rw [Function.update_of_ne hk₂] at h₂
      exact absurd (h.used k₂ i h₂) hi
    · subst hk₂
      rw [Function.update_self] at h₂; cases h₂
      rw [Function.update_of_ne hk₁] at h₁
      exact absurd (h.used k₁ i h₁) hi
    · rw [Function.update_of_ne hk₁] at h₁
      rw [Function.update_of_ne hk₂] at h₂
      exact h.unique k₁ k₂ j h₁ h₂

theorem release (h : Exclusive used owner) (hk : owner k = some i) :
    Exclusive (used.erase i) (Function.update owner k none) := by
  refine ⟨?_, ?_, ?_⟩
  · intro j hj
    obtain ⟨hne, hj⟩ := Finset.mem_erase.mp hj
    obtain ⟨k', hk'⟩ := h.owned j hj
    have hkk : k' ≠ k := by
      rintro rfl
      rw [hk] at hk'; cases hk'
      exact hne rfl
    exact ⟨k', by rw [Function.update_of_ne hkk]; exact hk'⟩
  · intro k' j hj
    by_cases hkk : k' = k
    · subst hkk
      rw [Function.update_self] at hj; cases hj
    · rw [Function.update_of_ne hkk] at hj
      refine Finset.mem_erase.mpr ⟨?_, h.used k' j hj⟩
      rintro rfl
      exact hkk (h.unique k' k j hj hk)
  · intro k₁ k₂ j h₁ h₂
    by_cases hk₁ : k₁ = k
    · subst hk₁; rw [Function.update_self] at h₁; cases h₁
    · by_cases hk₂ : k₂ = k
      · subst hk₂; rw [Function.update_self] at h₂; cases h₂
      · rw [Function.update_of_ne hk₁] at h₁
        rw [Function.update_of_ne hk₂] at h₂
        exact h.unique k₁ k₂ j h₁ h₂

end Exclusive

/-- What is left of `Exclusive` when an owner may take a second resource and forget the first. -/
structure Apart (used : Finset ι) (owner : κ → Option ι) : Prop where
  used : ∀ k i, owner k = some i → i ∈ used
  unique : ∀ k k' i, owner k = some i → owner k' = some i → k = k'

namespace Apart

variable {used : Finset ι} {owner : κ → Option ι} {k : κ} {i : ι}

omit [DecidableEq ι] [DecidableEq κ] in
theorem nobody : Apart used (fun _ : κ => none) := by
  refine ⟨?_, ?_⟩
  · intro k i h; cases h
  · intro k k' i h; cases h

/-- The resource that `k` held before stays used. -/
theorem claim (h : Apart used owner) (hi : i ∉ used) :
    Apart (insert i used) (Function.update owner k (some i)) := by
  refine ⟨?_, ?_⟩
  · intro k' j hj
    by_cases hkk : k' = k
    · subst hkk
      rw [Function.update_self] at hj; cases hj
      exact Finset.mem_insert_self ..
    · rw [Function.update_of_ne hkk] at hj
      exact Finset.mem_insert_of_mem (h.used k' j hj)
  · intro k₁ k₂ j h₁ h₂
    have hold : ∀ k', Function.update owner k (some i) k' = some i → k' = k := by
      intro k' hk'
      by_contra hkk
      rw [Function.update_of_ne hkk] at hk'
      exact hi (h.used k' i hk')
    by_cases hj : j = i
    · subst hj; rw [hold k₁ h₁, hold k₂ h₂]
    · have hne : ∀ k', Function.update owner k (some i) k' = some j → k' ≠ k := by
        rintro k' hk' rfl
        rw [Function.update_self] at hk'; cases hk'
        exact hj rfl
      rw [Function.update_of_ne (hne k₁ h₁)] at h₁
      rw [Function.update_of_ne (hne k₂ h₂)] at h₂
      exact h.unique k₁ k₂ j h₁ h₂

theorem release (h : Apart used owner) (hk : owner k = some i) :
    Apart (used.erase i) (Function.update owner k none) := by
  have hold : ∀ k' j, Function.update owner k none k' = some j → k' ≠ k ∧ owner k' = some j := by
    intro k' j hj
    by_cases hkk : k' = k
    · subst hkk; rw [Function.update_self] at hj; cases hj
    · rw [Function.update_of_ne hkk] at hj; exact ⟨hkk, hj⟩
  refine ⟨?_, ?_⟩
  · intro k' j hj
    obtain ⟨hkk, hj⟩ := hold k' j hj
    refine Finset.mem_erase.mpr ⟨?_, h.used k' j hj⟩
    rintro rfl
    exact hkk (h.unique k' k j hj hk)
  · intro k₁ k₂ j h₁ h₂
    exact h.unique k₁ k₂ j (hold k₁ j h₁).2 (hold k₂ j h₂).2

end Apart
end Ownership
