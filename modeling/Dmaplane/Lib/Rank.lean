import Mathlib.Data.List.Sort

/-!
# Dmaplane.Lib.Rank

The order statistics of a list: `Ranked k l v` says that `v` stands at index `k` of the ascending
sort of `l`, whichever algorithm sorts it. The sort is unique, so that any one of them decides
(`ranked_iff`).

`foldl_extreme` is the loop that keeps the best element so far, in whichever direction.
-/

namespace Rank

universe u
variable {α : Type u} [LE α] [Std.IsLinearOrder α] {k : Nat} {l s : List α} {v w : α}

def Ranked (k : Nat) (l : List α) (v : α) : Prop :=
  ∃ s : List α, s.Perm l ∧ s.Pairwise (· ≤ ·) ∧ s[k]? = some v

theorem ranked_iff (hperm : s.Perm l) (hsorted : s.Pairwise (· ≤ ·)) :
    Ranked k l v ↔ s[k]? = some v := by
  refine ⟨?_, fun h => ⟨s, hperm, hsorted, h⟩⟩
  rintro ⟨s', hperm', hsorted', h⟩
  have heq : s' = s := (hperm'.trans hperm.symm).eq_of_pairwise
    (fun _ _ _ _ hab hba => Std.le_antisymm hab hba) hsorted' hsorted
  rwa [heq] at h

theorem Ranked.unique (hv : Ranked k l v) (hw : Ranked k l w) : v = w := by
  obtain ⟨s, hperm, hsorted, h⟩ := hv
  rw [ranked_iff hperm hsorted, h] at hw
  exact Option.some.inj hw

/-- Any comparison that decides the order finds it by `mergeSort`. -/
theorem ranked_mergeSort {le : α → α → Bool} (hle : ∀ a b, le a b = true ↔ a ≤ b) :
    Ranked k l v ↔ (l.mergeSort le)[k]? = some v := by
  refine ranked_iff (List.mergeSort_perm l le) ?_
  have htrans : ∀ a b c, le a b = true → le b c = true → le a c = true := fun a b c hab hbc =>
    (hle a c).mpr (Std.le_trans ((hle a b).mp hab) ((hle b c).mp hbc))
  have htotal : ∀ a b, (le a b || le b a) = true := fun a b => by
    rw [Bool.or_eq_true, hle, hle]
    exact Std.le_total
  exact (List.pairwise_mergeSort htrans htotal l).imp fun h => (hle _ _).mp h

/-! ## Extremes -/

section Extreme

variable {σ β : Type u} (le : β → β → Prop) (get : σ → β) (step : σ → β → σ)

/-- A loop in whose state `get` becomes the better of its value and each element. -/
theorem foldl_extreme (hrefl : ∀ a, le a a) (htrans : ∀ a b c, le a b → le b c → le a c)
    (hstep : ∀ s x, (get (step s x) = get s ∨ get (step s x) = x) ∧
      le (get (step s x)) (get s) ∧ le (get (step s x)) x) (xs : List β) :
    ∀ s, (get (xs.foldl step s) = get s ∨ get (xs.foldl step s) ∈ xs) ∧
      le (get (xs.foldl step s)) (get s) ∧ ∀ x ∈ xs, le (get (xs.foldl step s)) x := by
  induction xs with
  | nil => intro s; exact ⟨.inl rfl, hrefl _, fun x hx => absurd hx List.not_mem_nil⟩
  | cons y ys ih =>
    intro s
    obtain ⟨hnew, hold, hy⟩ := hstep s y
    obtain ⟨hmem, hfirst, hrest⟩ := ih (step s y)
    rw [List.foldl_cons]
    refine ⟨?_, htrans _ _ _ hfirst hold, fun x hx => ?_⟩
    · rcases hmem with hm | hm
      · rw [hm]
        rcases hnew with h | h
        · exact .inl h
        · rw [h]
          exact .inr List.mem_cons_self
      · exact .inr (List.mem_cons_of_mem _ hm)
    · rcases List.mem_cons.mp hx with rfl | hx
      · exact htrans _ _ _ hfirst hy
      · exact hrest x hx

/-- Started with the worst value there is, it ends with the best element. -/
theorem foldl_extreme_mem (hrefl : ∀ a, le a a) (htrans : ∀ a b c, le a b → le b c → le a c)
    (hanti : ∀ a b, le a b → le b a → a = b)
    (hstep : ∀ s x, (get (step s x) = get s ∨ get (step s x) = x) ∧
      le (get (step s x)) (get s) ∧ le (get (step s x)) x)
    {xs : List β} (hne : xs ≠ []) {s : σ} (hworst : ∀ x, le x (get s)) :
    get (xs.foldl step s) ∈ xs ∧ ∀ x ∈ xs, le (get (xs.foldl step s)) x := by
  obtain ⟨hmem, -, hrest⟩ := foldl_extreme le get step hrefl htrans hstep xs s
  refine ⟨?_, hrest⟩
  rcases hmem with hm | hm
  · obtain ⟨y, hy⟩ := List.exists_mem_of_ne_nil _ hne
    have hle := hrest y hy
    rw [hm] at hle ⊢
    rwa [hanti _ _ hle (hworst y)]
  · exact hm

end Extreme

end Rank
