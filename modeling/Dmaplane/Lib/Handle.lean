import Mathlib.Logic.Function.Basic
import Mathlib.Logic.Function.Iterate
import Mathlib.Data.Int.ModEq

/-!
# Dmaplane.Lib.Handle

Tables of `n` slots with handles of `w` bits, `0` standing for "no object".

* `nextId`         — the counter after an id is issued: it skips 0 when it wraps.
* `Distinct ids`   — no live handle is 0 and no two slots hold the same one.
* `held inUse k`   — what a slot adds to the table: its handle, if it is in use.
* `lookup ids k`   — the linear scan for a handle; under `Distinct` it finds the one slot with it.

The counter runs through all the `2 ^ w - 1` non-zero ids in turn, so an id comes back exactly
when a multiple of that many ids have been issued (`iterate_nextId_eq`).
-/

namespace Handle

variable {n w : Nat}

def nextId (k : BitVec w) : BitVec w := if k + 1 = 0 then 1 else k + 1

def held (inUse : Bool) (k : BitVec w) : Option (BitVec w) := if inUse then some k else none

@[simp] theorem held_eq_some {inUse : Bool} {k k' : BitVec w} :
    held inUse k = some k' ↔ inUse = true ∧ k = k' := by
  unfold held
  cases inUse <;> simp

@[simp] theorem held_true {k : BitVec w} : held true k = some k := rfl

@[simp] theorem held_false {k : BitVec w} : held false k = none := rfl

/-- The scan returns the first slot with the handle. -/
def lookup (ids : Fin n → Option (BitVec w)) (k : BitVec w) : Option (Fin n) :=
  (List.finRange n).find? fun i => ids i == some k

structure Distinct (ids : Fin n → Option (BitVec w)) : Prop where
  ne_zero : ∀ i k, ids i = some k → k ≠ 0
  unique : ∀ i j k, ids i = some k → ids j = some k → i = j

namespace Distinct

variable {ids : Fin n → Option (BitVec w)} {i : Fin n} {k : BitVec w}

theorem nobody : Distinct (fun _ : Fin n => (none : Option (BitVec w))) := by
  refine ⟨?_, ?_⟩
  · intro i k h; cases h
  · intro i j k h; cases h

theorem insert (h : Distinct ids) (hk : k ≠ 0) (hfree : ∀ j, ids j ≠ some k) :
    Distinct (Function.update ids i (some k)) := by
  refine ⟨?_, ?_⟩
  · intro j k' hj
    by_cases hji : j = i
    · subst hji; rw [Function.update_self] at hj; cases hj; exact hk
    · rw [Function.update_of_ne hji] at hj; exact h.ne_zero j k' hj
  · intro j j' k' hj hj'
    by_cases hji : j = i <;> by_cases hji' : j' = i
    · rw [hji, hji']
    · subst hji
      rw [Function.update_self] at hj; cases hj
      rw [Function.update_of_ne hji'] at hj'
      exact absurd hj' (hfree j')
    · subst hji'
      rw [Function.update_self] at hj'; cases hj'
      rw [Function.update_of_ne hji] at hj
      exact absurd hj (hfree j)
    · rw [Function.update_of_ne hji] at hj
      rw [Function.update_of_ne hji'] at hj'
      exact h.unique j j' k' hj hj'

theorem mono {ids' : Fin n → Option (BitVec w)} (h : Distinct ids)
    (hold : ∀ j k', ids' j = some k' → ids j = some k') : Distinct ids' :=
  ⟨fun j k' hj => h.ne_zero j k' (hold j k' hj),
    fun j j' k' hj hj' => h.unique j j' k' (hold j k' hj) (hold j' k' hj')⟩

end Distinct

theorem lookup_eq_some {ids : Fin n → Option (BitVec w)} {i : Fin n} {k : BitVec w}
    (h : lookup ids k = some i) : ids i = some k := by
  simpa using List.find?_some h

theorem lookup_eq_none {ids : Fin n → Option (BitVec w)} {k : BitVec w} :
    lookup ids k = none ↔ ∀ i, ids i ≠ some k := by
  simp [lookup]

/-- With distinct handles the scan finds the object that holds the handle, and no other. -/
theorem Distinct.lookup_iff {ids : Fin n → Option (BitVec w)} {i : Fin n} {k : BitVec w}
    (h : Distinct ids) : lookup ids k = some i ↔ ids i = some k := by
  refine ⟨lookup_eq_some, fun hi => ?_⟩
  cases hl : lookup ids k with
  | none => exact absurd hi (lookup_eq_none.mp hl i)
  | some j => rw [h.unique i j k hi (lookup_eq_some hl)]

/-! ## The counter -/

theorem toNat_one (hw : 0 < w) : (1 : BitVec w).toNat = 1 :=
  BitVec.toNat_ofNat 1 w ▸ Nat.mod_eq_of_lt (Nat.one_lt_two_pow (by omega))

theorem toNat_pos {k : BitVec w} (hk : k ≠ 0) : 0 < k.toNat := by
  rcases Nat.eq_zero_or_pos k.toNat with h | h
  · exact absurd (BitVec.eq_of_toNat_eq (by simpa using h)) hk
  · exact h

theorem nextId_ne_zero (hw : 0 < w) (k : BitVec w) : nextId k ≠ 0 := by
  unfold nextId
  split
  · intro h
    have h1 := toNat_one hw
    rw [h] at h1; simp at h1
  · assumption

theorem toNat_nextId (hw : 0 < w) {k : BitVec w} (hk : k ≠ 0) :
    (nextId k).toNat = k.toNat % (2 ^ w - 1) + 1 := by
  have hlt : k.toNat < 2 ^ w := k.isLt
  have h1 : 1 < 2 ^ w := Nat.one_lt_two_pow (by omega)
  have hpos := toNat_pos hk
  have hadd : (k + 1).toNat = (k.toNat + 1) % 2 ^ w := by
    rw [BitVec.toNat_add, toNat_one hw]
  unfold nextId
  split
  · rename_i h0
    rw [h0] at hadd
    have h0 : (k.toNat + 1) % 2 ^ w = 0 := by simpa using hadd.symm
    have hmax : k.toNat = 2 ^ w - 1 := by
      by_contra hne
      rw [Nat.mod_eq_of_lt (by omega)] at h0
      omega
    rw [hmax, Nat.mod_self, toNat_one hw]
  · rename_i h0
    have hne : k.toNat ≠ 2 ^ w - 1 := by
      intro hmax
      apply h0
      apply BitVec.eq_of_toNat_eq
      rw [hadd, hmax, Nat.sub_add_cancel (by omega), Nat.mod_self]; simp
    rw [hadd, Nat.mod_eq_of_lt (by omega), Nat.mod_eq_of_lt (by omega)]

theorem iterate_nextId_ne_zero (hw : 0 < w) {k : BitVec w} (hk : k ≠ 0) (m : Nat) :
    nextId^[m] k ≠ 0 := by
  cases m with
  | zero => exact hk
  | succ m => rw [Function.iterate_succ_apply']; exact nextId_ne_zero hw _

theorem toNat_iterate_nextId (hw : 0 < w) {k : BitVec w} (hk : k ≠ 0) (m : Nat) :
    (nextId^[m] k).toNat = (k.toNat - 1 + m) % (2 ^ w - 1) + 1 := by
  have hlt : k.toNat < 2 ^ w := k.isLt
  have hpos := toNat_pos hk
  induction m with
  | zero =>
    rw [Nat.add_zero, Nat.mod_eq_of_lt (by omega), Nat.sub_add_cancel hpos]; rfl
  | succ m ih =>
    rw [Function.iterate_succ_apply', toNat_nextId hw (iterate_nextId_ne_zero hw hk m), ih,
      Nat.mod_add_mod, Nat.add_assoc]

/-- An id comes back exactly after a multiple of `2 ^ w - 1` ids. -/
theorem iterate_nextId_eq (hw : 0 < w) {k : BitVec w} (hk : k ≠ 0) (m : Nat) :
    nextId^[m] k = k ↔ 2 ^ w - 1 ∣ m := by
  have hlt : k.toNat < 2 ^ w := k.isLt
  have hpos := toNat_pos hk
  rw [← BitVec.toNat_inj, toNat_iterate_nextId hw hk]
  constructor
  · intro h
    have hmod : (k.toNat - 1 + m) % (2 ^ w - 1) = (k.toNat - 1 + 0) % (2 ^ w - 1) := by
      rw [Nat.add_zero, Nat.mod_eq_of_lt (a := k.toNat - 1) (by omega)]; omega
    have hm : m % (2 ^ w - 1) = 0 % (2 ^ w - 1) := Nat.ModEq.add_left_cancel' _ hmod
    exact Nat.dvd_of_mod_eq_zero (hm.trans (Nat.zero_mod _))
  · rintro ⟨c, rfl⟩
    rw [Nat.add_mul_mod_self_left, Nat.mod_eq_of_lt (by omega), Nat.sub_add_cancel hpos]

end Handle
