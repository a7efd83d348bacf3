import Mathlib.Algebra.BigOperators.Group.List.Basic
import Mathlib.Algebra.Order.Group.Nat
import Mathlib.Tactic.Ring

/-!
# Dmaplane.Lib.Strided

Strided layouts of multi-dimensional arrays: an index tuple `idx` of an array of shape `shape`
lies at element `dot idx strides` of a flat memory.

* `rowMajor` — the strides of the contiguous layout; its elements are exactly those below the
  number of elements.
* `contiguous` — strides that differ from these at most in dimensions of one element, where the
  stride does not matter.
-/

namespace Strided

/-- `idx` is an index tuple of an array of this shape. -/
def InShape : List Nat → List Nat → Prop
  | [], [] => True
  | i :: idx, n :: shape => i < n ∧ InShape idx shape
  | _, _ => False

def dot : List Nat → List Nat → Nat
  | i :: idx, s :: strides => i * s + dot idx strides
  | _, _ => 0

def rowMajor : List Nat → List Nat
  | [] => []
  | _ :: shape => shape.prod :: rowMajor shape

def contiguous : List Nat → List Nat → Bool
  | [], [] => true
  | n :: shape, s :: strides => (n = 1 || s = shape.prod) && contiguous shape strides
  | _, _ => false

/-- The element that lies farthest out, if no dimension is empty. -/
def farthest : List Nat → List Nat → Nat
  | n :: shape, s :: strides => (n - 1) * s + farthest shape strides
  | _, _ => 0

theorem contiguous_rowMajor (shape : List Nat) : contiguous shape (rowMajor shape) = true := by
  induction shape with
  | nil => rfl
  | cons n shape ih => simp [contiguous, rowMajor, ih]

theorem dot_rowMajor_lt {idx shape : List Nat} (h : InShape idx shape) :
    dot idx (rowMajor shape) < shape.prod := by
  induction idx generalizing shape with
  | nil =>
    cases shape with
    | nil => simp [dot]
    | cons n shape => exact h.elim
  | cons i idx ih =>
    cases shape with
    | nil => exact h.elim
    | cons n shape =>
      obtain ⟨hi, hidx⟩ := h
      have hlt := ih hidx
      simp only [dot, rowMajor, List.prod_cons]
      calc i * shape.prod + dot idx (rowMajor shape)
          < i * shape.prod + shape.prod := Nat.add_lt_add_left hlt _
        _ = (i + 1) * shape.prod := by ring
        _ ≤ n * shape.prod := Nat.mul_le_mul_right _ hi

/-- A contiguous layout puts every element where the row-major one does. -/
theorem dot_of_contiguous {idx shape strides : List Nat} (h : InShape idx shape)
    (hc : contiguous shape strides = true) : dot idx strides = dot idx (rowMajor shape) := by
  induction idx generalizing shape strides with
  | nil =>
    cases shape with
    | nil => cases strides <;> rfl
    | cons n shape => exact h.elim
  | cons i idx ih =>
    cases shape with
    | nil => exact h.elim
    | cons n shape =>
      cases strides with
      | nil => cases hc
      | cons s strides =>
        obtain ⟨hi, hidx⟩ := h
        simp only [contiguous, Bool.and_eq_true, Bool.or_eq_true, decide_eq_true_eq] at hc
        simp only [dot, rowMajor, ih hidx hc.2]
        rcases hc.1 with h1 | hs
        -- a dimension of one element is only indexed by 0
        · have hi0 : i = 0 := by omega
          simp [hi0]
        · rw [hs]

theorem farthest_rowMajor {shape : List Nat} (h : shape.prod ≠ 0) :
    farthest shape (rowMajor shape) + 1 = shape.prod := by
  induction shape with
  | nil => rfl
  | cons n shape ih =>
    rw [List.prod_cons] at h
    have hn : n ≠ 0 := left_ne_zero_of_mul h
    have hp : shape.prod ≠ 0 := right_ne_zero_of_mul h
    have hfar := ih hp
    obtain ⟨m, rfl⟩ := Nat.exists_eq_succ_of_ne_zero hn
    simp only [farthest, rowMajor, List.prod_cons]
    rw [Nat.succ_sub_one, Nat.add_assoc, hfar, Nat.succ_mul]

end Strided
