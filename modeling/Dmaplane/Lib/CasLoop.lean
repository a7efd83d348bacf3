import Mathlib.Data.Set.Image
import Mathlib.Order.Bounds.Basic

/-!
# Dmaplane.Lib.CasLoop

Threads that lower one shared cell, each to its own value `v`, by the loop

    old = read(cell)
    while (v < old)
        if (try_cmpxchg(cell, &old, v)) break

in a linear order, where a failed compare-and-exchange leaves the cell's value in `old`. In the
dual order the same loop raises the cell.

`Lowered` is the invariant of any number of such threads in any interleaving; once the threads of
a set have left the loop, the cell is the least of its start and their values.
-/

namespace CasLoop

variable {α ι : Type*} [LinearOrder α]

/-- Where a thread is. -/
inductive Phase (α : Type*) where
  | before
  | loop (old : α)
  | past

/-- One operation of a thread with the value `v`: the cell and the phase, before and after. -/
inductive Move (v : α) : α → Phase α → α → Phase α → Prop where
  | read {cell : α} : Move v cell .before cell (.loop cell)
  | win {old : α} : v < old → Move v old (.loop old) v .past
  | lose {cell old : α} : v < old → cell ≠ old → Move v cell (.loop old) cell (.loop cell)
  | leave {cell old : α} : ¬ v < old → Move v cell (.loop old) cell .past

theorem Move.le {v cell cell' : α} {p p' : Phase α} (h : Move v cell p cell' p') :
    cell' ≤ cell := by
  cases h with
  | win hlt => exact hlt.le
  | read | lose | leave => exact le_rfl

structure Lowered (start : α) (v : ι → α) (cell : α) (ph : ι → Phase α) : Prop where
  /-- The cell is at most what a loop has read. -/
  loop : ∀ i old, ph i = .loop old → cell ≤ old
  past : ∀ i, ph i = .past → cell ≤ v i
  le_start : cell ≤ start
  mem : cell = start ∨ ∃ i, ph i = .past ∧ v i = cell

variable {start cell cell' : α} {v : ι → α} {ph ph' : ι → Phase α} {i : ι}

theorem Lowered.init (h : ∀ i, ph i = .before) : Lowered start v start ph := by
  refine ⟨?_, ?_, le_rfl, .inl rfl⟩
  · intro i old hi; rw [h i] at hi; cases hi
  · intro i hi; rw [h i] at hi; cases hi

/-- Every operation of every thread keeps the invariant. -/
theorem Lowered.move (h : Lowered start v cell ph) (hm : Move (v i) cell (ph i) cell' (ph' i))
    (hother : ∀ j, j ≠ i → ph' j = ph j) : Lowered start v cell' ph' := by
  have hle := hm.le
  refine ⟨?_, ?_, hle.trans h.le_start, ?_⟩
  · intro j old hj
    by_cases hji : j = i
    · subst hji
      rw [hj] at hm
      generalize ph j = p at hm
      cases hm with
      | read => exact le_rfl
      | lose => exact le_rfl
    · rw [hother j hji] at hj
      exact hle.trans (h.loop j old hj)
  · intro j hj
    by_cases hji : j = i
    · subst hji
      rw [hj] at hm
      generalize hp : ph j = p at hm
      cases hm with
      | win _ => exact le_rfl
      -- the cell is at most `old`, and `old` is at most `v`
      | leave hlt => exact (h.loop j _ hp).trans (not_lt.mp hlt)
    · rw [hother j hji] at hj
      exact hle.trans (h.past j hj)
  · generalize hp : ph i = p at hm
    generalize hp' : ph' i = p' at hm
    cases hm with
    | win _ => exact .inr ⟨i, hp', rfl⟩
    | read | lose | leave =>
      rcases h.mem with hs | ⟨j, hj, hv⟩
      · exact .inl hs
      · have hji : j ≠ i := by rintro rfl; rw [hp] at hj; cases hj
        exact .inr ⟨j, by rw [hother j hji]; exact hj, hv⟩

theorem Lowered.isLeast (h : Lowered start v cell ph) :
    IsLeast (insert start (v '' {i | ph i = .past})) cell := by
  constructor
  · rcases h.mem with hs | ⟨i, hi, hv⟩
    · exact .inl hs
    · exact .inr ⟨i, hi, hv⟩
  · rintro x (rfl | ⟨i, hi, rfl⟩)
    · exact h.le_start
    · exact h.past i hi

/-- Started at the top, the cell ends at one of the values, if there is any. -/
theorem Lowered.attained (h : Lowered start v cell ph) (htop : ∀ i, v i ≤ start)
    (hi : ph i = .past) : ∃ j, ph j = .past ∧ v j = cell := by
  rcases h.mem with hs | hj
  · refine ⟨i, hi, le_antisymm ?_ (h.past i hi)⟩
    rw [hs]
    exact htop i
  · exact hj

end CasLoop
