import Mathlib.Data.Set.Card
import Mathlib.Logic.Function.Basic

/-!
# Dmaplane.Lib.Threads

How many threads of a thread map `u` are at a program point `p`, and what one thread's move does
to that number. The map may have infinitely many threads; the number is meaningful while
finitely many are at `p` (`(threadsAt u p).Finite`).
-/

namespace Threads

variable {ι π : Type*} {u : ι → π} {t : ι} {p q : π}

def threadsAt (u : ι → π) (p : π) : Set ι := {t | u t = p}

/-- The number of threads at `p`. -/
noncomputable def numAt (u : ι → π) (p : π) : Nat := (threadsAt u p).ncard

theorem threadsAt_const (h : q ≠ p) : threadsAt (fun _ : ι => q) p = ∅ := by
  simp [threadsAt, h]

@[simp] theorem numAt_const (h : q ≠ p) : numAt (fun _ : ι => q) p = 0 := by
  simp [numAt, threadsAt_const h]

theorem numAt_eq_zero (h : ∀ t, u t ≠ p) : numAt u p = 0 := by
  simp [numAt, threadsAt, h]

variable [DecidableEq ι]

theorem threadsAt_enter : threadsAt (Function.update u t p) p = insert t (threadsAt u p) := by
  ext x
  by_cases hx : x = t <;> simp [threadsAt, hx]

theorem threadsAt_leave (hq : q ≠ p) :
    threadsAt (Function.update u t q) p = threadsAt u p \ {t} := by
  ext x
  by_cases hx : x = t <;> simp [threadsAt, hx, hq]

theorem threadsAt_pass (ht : u t ≠ p) (hq : q ≠ p) :
    threadsAt (Function.update u t q) p = threadsAt u p := by
  ext x
  by_cases hx : x = t <;> simp [threadsAt, hx, hq, ht]

theorem finite_move (hf : (threadsAt u p).Finite) :
    (threadsAt (Function.update u t q) p).Finite := by
  by_cases hq : q = p
  · subst hq; rw [threadsAt_enter]; exact hf.insert t
  · rw [threadsAt_leave hq]; exact hf.sdiff

theorem numAt_enter (hf : (threadsAt u p).Finite) (ht : u t ≠ p) :
    numAt (Function.update u t p) p = numAt u p + 1 := by
  have hn : t ∉ threadsAt u p := ht
  rw [numAt, threadsAt_enter, Set.ncard_insert_of_notMem hn hf, numAt]

theorem numAt_leave (hf : (threadsAt u p).Finite) (ht : u t = p) (hq : q ≠ p) :
    numAt (Function.update u t q) p + 1 = numAt u p := by
  rw [numAt, threadsAt_leave hq, numAt]
  exact Set.ncard_sdiff_singleton_add_one ht hf

theorem numAt_pass (ht : u t ≠ p) (hq : q ≠ p) :
    numAt (Function.update u t q) p = numAt u p := by
  rw [numAt, threadsAt_pass ht hq, numAt]

end Threads
