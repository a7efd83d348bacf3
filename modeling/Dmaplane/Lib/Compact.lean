import Mathlib.Algebra.BigOperators.Fin

/-!
# Dmaplane.Lib.Compact

Listing a sparse collection in an array of fixed size: each element takes the next index, until
the array is full.

* `compact b as i s`    — the loop, from index `i`; the body `b` fills one index.
* `compact_get`         — what an index holds in the end, from what one pass does to it.
* `compact_keeps`       — what no pass changes.
-/

namespace Compaction

variable {α σ : Type} {n : Nat}

/-- `for a in as: if i ≥ n then break; b(i, a); i++`. The result is the final `i` and state. -/
def compact (b : Fin n → α → σ → σ) : List α → Nat → σ → Nat × σ
  | [], i, s => (i, s)
  | a :: as, i, s => if h : i < n then compact b as (i + 1) (b ⟨i, h⟩ a s) else (i, s)

variable {b : Fin n → α → σ → σ}

theorem compact_count (as : List α) :
    ∀ {i : Nat} (s : σ), i ≤ n → (compact b as i s).1 = min n (i + as.length) := by
  induction as with
  | nil => intro i s hi; simp [compact, hi]
  | cons a as ih =>
    intro i s hi
    rw [compact]
    split
    · rename_i h
      rw [ih _ (by omega), List.length_cons]; congr 1; omega
    · rw [List.length_cons]; omega

theorem compact_keeps {β : Type} {f : σ → β} (h : ∀ i a s, f (b i a s) = f s) (as : List α) :
    ∀ (i : Nat) (s : σ), f (compact b as i s).2 = f s := by
  induction as with
  | nil => intro i s; rfl
  | cons a as ih =>
    intro i s
    rw [compact]
    split
    · rw [ih, h]
    · rfl

section Get

variable {β : Type} {g : σ → Fin n → β} {v : α → β → β}

/-- Index `k` is filled from the element `k - i` places on, if there is one, and by no other. -/
theorem compact_get_from (hself : ∀ i a s, g (b i a s) i = v a (g s i))
    (hne : ∀ i a s k, k ≠ i → g (b i a s) k = g s k) (as : List α) :
    ∀ (i : Nat) (s : σ) (k : Fin n), g (compact b as i s).2 k
      = if (k : Nat) < i then g s k else (as[(k : Nat) - i]?).elim (g s k) (v · (g s k)) := by
  induction as with
  | nil => intro i s k; simp [compact]
  | cons a as ih =>
    intro i s k
    rw [compact]
    by_cases h : i < n
    · rw [dif_pos h, ih]
      rcases Nat.lt_trichotomy k i with hk | hk | hk
      · have hki : k ≠ ⟨i, h⟩ := by rintro rfl; exact Nat.lt_irrefl _ hk
        rw [if_pos (by omega), if_pos hk, hne _ _ _ _ hki]
      · have hki : k = ⟨i, h⟩ := Fin.ext hk
        subst hki
        simp [hself]
      · have hki : k ≠ ⟨i, h⟩ := by rintro rfl; exact Nat.lt_irrefl _ hk
        have hsub : (k : Nat) - i = ((k : Nat) - (i + 1)) + 1 := by omega
        rw [if_neg (by omega), if_neg (by omega), hne _ _ _ _ hki, hsub, List.getElem?_cons_succ]
    · have hk : (k : Nat) < i := by omega
      rw [dif_neg h, if_pos hk]

theorem compact_get (hself : ∀ i a s, g (b i a s) i = v a (g s i))
    (hne : ∀ i a s k, k ≠ i → g (b i a s) k = g s k) (as : List α) (s : σ) (k : Fin n) :
    g (compact b as 0 s).2 k = (as[(k : Nat)]?).elim (g s k) (v · (g s k)) := by
  rw [compact_get_from hself hne, if_neg (Nat.not_lt_zero _), Nat.sub_zero]

end Get

/-- A sum over the array is the sum over the list, if it fits. -/
theorem sum_getElem? {β : Type} [AddCommMonoid β] (f : α → β) :
    ∀ {n : Nat} (as : List α), as.length ≤ n →
      ∑ k : Fin n, (as[(k : Nat)]?).elim 0 f = (as.map f).sum := by
  intro n
  induction n with
  | zero => intro as h; simp [List.length_eq_zero_iff.mp (Nat.le_zero.mp h)]
  | succ n ih =>
    intro as h
    cases as with
    | nil => simp
    | cons a as =>
      rw [Fin.sum_univ_succ, List.map_cons, List.sum_cons]
      congr 1
      exact ih as (by simpa using h)

end Compaction
