import Mathlib.Data.BitVec
import Mathlib.Data.Nat.ModEq
import Mathlib.Tactic.Ring

/-!
# Dmaplane.Lib.Ring

A bounded FIFO ring addressed by two free-running `w`-bit counters: `head` and `tail` only ever
increment, wrap at `2^w`, and index the `n` slots modulo `n`.

`contents` is the abstract queue. While the occupancy is at most `n` and `n` divides `2^w`,
`push` appends to it and `pop` removes its first element, across counter wrap-around
(`contents_push`, `contents_pop`).
-/

namespace WrapRing

universe u

structure Ring (n w : Nat) (α : Type u) where
  entries : Fin n → α
  head : BitVec w
  tail : BitVec w

namespace Ring

variable {n w : Nat} {α : Type u}

def count (r : Ring n w α) : BitVec w := r.head - r.tail

def pop (r : Ring n w α) : Ring n w α := { r with tail := r.tail + 1 }

@[simp] theorem count_pop (r : Ring n w α) : r.pop.count = r.count - 1 := by
  simp only [count, pop]; ring

theorem count_eq_zero {r : Ring n w α} : r.count.toNat = 0 ↔ r.head = r.tail := by
  constructor
  · intro h
    have h0 : r.head - r.tail = 0#w := BitVec.eq_of_toNat_eq (by simpa [count] using h)
    exact sub_eq_zero.mp h0
  · intro h; simp [count, h]

variable [NeZero n]

/-- The slot a counter value addresses. -/
def slot (n : Nat) [NeZero n] (c : BitVec w) : Fin n := Fin.ofNat n c.toNat

def front (r : Ring n w α) : α := r.entries (slot n r.tail)

def push (r : Ring n w α) (a : α) : Ring n w α :=
  { r with entries := Function.update r.entries (slot n r.head) a, head := r.head + 1 }

/-- The live entries, oldest first. -/
def contents (r : Ring n w α) : List α :=
  (List.range r.count.toNat).map fun i => r.entries (slot n (r.tail + BitVec.ofNat w i))

@[simp] theorem count_push (r : Ring n w α) (a : α) : (r.push a).count = r.count + 1 := by
  simp only [count, push]; ring

@[simp] theorem length_contents (r : Ring n w α) : r.contents.length = r.count.toNat := by
  simp [contents]

theorem contents_eq_nil {r : Ring n w α} : r.contents = [] ↔ r.head = r.tail := by
  rw [← count_eq_zero, ← length_contents, List.length_eq_zero_iff]

theorem toNat_add_one {c : BitVec w} (h : c.toNat + 1 < 2 ^ w) : (c + 1).toNat = c.toNat + 1 := by
  have hw : 1 < 2 ^ w := by omega
  have h1 : (1 : BitVec w).toNat = 1 := by
    simp [BitVec.toNat_ofNat, Nat.mod_eq_of_lt hw]
  rw [BitVec.toNat_add, h1, Nat.mod_eq_of_lt h]

theorem toNat_sub_one {c : BitVec w} (h : c.toNat ≠ 0) : (c - 1).toNat = c.toNat - 1 := by
  have hc := c.isLt
  have hw : 1 < 2 ^ w := by omega
  have h1 : (1 : BitVec w).toNat = 1 := by
    simp [BitVec.toNat_ofNat, Nat.mod_eq_of_lt hw]
  rw [BitVec.toNat_sub, h1]
  have : 2 ^ w - 1 + c.toNat = 2 ^ w + (c.toNat - 1) := by omega
  rw [this, Nat.add_mod_left, Nat.mod_eq_of_lt (by omega)]

/-- Popping a ring that is not empty removes the oldest entry. -/
theorem contents_pop {r : Ring n w α} (h : r.head ≠ r.tail) :
    r.contents = r.front :: r.pop.contents := by
  have hc : r.count.toNat ≠ 0 := fun h0 => h (count_eq_zero.mp h0)
  obtain ⟨k, hk⟩ : ∃ k, r.count.toNat = k + 1 := ⟨r.count.toNat - 1, by omega⟩
  have hp : r.pop.count.toNat = k := by rw [count_pop, toNat_sub_one hc, hk]; rfl
  simp only [contents, hk, hp, List.range_succ_eq_map, List.map_cons, List.map_map, front]
  congr 1
  · simp
  · apply List.map_congr_left
    intro i _
    show r.entries (slot n (r.tail + BitVec.ofNat w (i + 1))) =
      r.entries (slot n (r.tail + 1 + BitVec.ofNat w i))
    have : BitVec.ofNat w (i + 1) = 1 + BitVec.ofNat w i := by
      rw [BitVec.ofNat_add, BitVec.add_comm]; rfl
    rw [this, ← BitVec.add_assoc]

theorem slot_add (hn : n ∣ 2 ^ w) (c : BitVec w) (i : Nat) :
    (slot n (c + BitVec.ofNat w i) : Nat) = (c.toNat + i) % n := by
  simp only [slot, Fin.ofNat, BitVec.toNat_add, BitVec.toNat_ofNat, Nat.add_mod_mod]
  exact Nat.mod_mod_of_dvd _ hn

/-- Counters less than `n` apart address different slots. -/
theorem slot_ne (hn : n ∣ 2 ^ w) (c : BitVec w) {i j : Nat} (hij : i < j) (hj : j - i < n) :
    slot n (c + BitVec.ofNat w i) ≠ slot n (c + BitVec.ofNat w j) := by
  intro h
  have h' := congrArg Fin.val h
  rw [slot_add hn, slot_add hn] at h'
  have hd : n ∣ (c.toNat + j) - (c.toNat + i) :=
    (Nat.modEq_iff_dvd' (by omega)).mp h'
  have : n ≤ (c.toNat + j) - (c.toNat + i) := Nat.le_of_dvd (by omega) hd
  omega

/-- Pushing onto a ring that is not full appends the new entry and overwrites no live one. -/
theorem contents_push (hn : n ∣ 2 ^ w) (hw : n < 2 ^ w) {r : Ring n w α}
    (h : r.count.toNat < n) (a : α) : (r.push a).contents = r.contents ++ [a] := by
  have hc : (r.push a).count.toNat = r.count.toNat + 1 := by
    rw [count_push, toNat_add_one (by omega)]
  have hhead : r.head = r.tail + BitVec.ofNat w r.count.toNat := by
    rw [BitVec.ofNat_toNat, BitVec.setWidth_eq, count]; ring
  simp only [contents, hc, List.range_succ, List.map_append, List.map_cons, List.map_nil]
  congr 1
  · apply List.map_congr_left
    intro i hi
    have hi' : i < r.count.toNat := List.mem_range.mp hi
    have hne : slot n (r.tail + BitVec.ofNat w i) ≠ slot n r.head := by
      rw [hhead]; exact slot_ne hn _ hi' (by omega)
    simp [push, hne]
  · simp only [push, List.cons.injEq, and_true]
    rw [← hhead]; simp

end Ring
end WrapRing
