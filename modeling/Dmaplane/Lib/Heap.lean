import Mathlib.Data.Finset.Card
import Mathlib.Logic.Function.Basic

/-!
# Dmaplane.Lib.Heap

A heap of blocks that are never reused: a block names one allocation, so a pointer to a freed
block stays recognisable.

* `alloc`, `free`, `freeAll` — freeing a block that is not live leaves a fault behind.
* `Alloced h h' ps`          — `h'` is `h` with exactly the fresh blocks `ps` added.
* `OwnedBy h own`            — every owner holds live blocks of its own, none of them shared.
* `Exact h own`              — and there are no other live blocks.
* `Holds h ps`               — the same for a single owner, whose blocks are listed.
-/

structure Heap where
  next : Nat
  live : Finset Nat
  /-- Frees of a block that was not live. -/
  faults : Nat
  lt_next : ∀ p ∈ live, p < next

namespace Heap

def empty : Heap := { next := 0, live := ∅, faults := 0, lt_next := by intro p hp; cases hp }

def alloc (h : Heap) : Nat × Heap :=
  (h.next,
    { h with
      next := h.next + 1
      live := insert h.next h.live
      lt_next := by
        intro p hp
        rcases Finset.mem_insert.mp hp with rfl | hp
        · exact Nat.lt_succ_self _
        · exact Nat.lt_succ_of_lt (h.lt_next p hp) })

def free (h : Heap) (p : Nat) : Heap :=
  { h with
    live := h.live.erase p
    faults := if p ∈ h.live then h.faults else h.faults + 1
    lt_next := fun q hq => h.lt_next q (Finset.mem_of_mem_erase hq) }

def freeAll (h : Heap) : List Nat → Heap
  | [] => h
  | p :: ps => freeAll (h.free p) ps

@[simp] theorem mem_free {h : Heap} {p q : Nat} : q ∈ (h.free p).live ↔ q ≠ p ∧ q ∈ h.live :=
  Finset.mem_erase

@[simp] theorem mem_freeAll {h : Heap} {ps : List Nat} {q : Nat} :
    q ∈ (h.freeAll ps).live ↔ q ∉ ps ∧ q ∈ h.live := by
  induction ps generalizing h with
  | nil => simp [freeAll]
  | cons p ps ih => simp only [freeAll, ih, mem_free, List.mem_cons, not_or]; tauto

@[simp] theorem next_freeAll {h : Heap} {ps : List Nat} : (h.freeAll ps).next = h.next := by
  induction ps generalizing h with
  | nil => rfl
  | cons p ps ih => exact ih

theorem faults_free {h : Heap} {p : Nat} (hp : p ∈ h.live) : (h.free p).faults = h.faults :=
  if_pos hp

theorem faults_freeAll {h : Heap} {ps : List Nat} (hn : ps.Nodup) (hp : ∀ p ∈ ps, p ∈ h.live) :
    (h.freeAll ps).faults = h.faults := by
  induction ps generalizing h with
  | nil => rfl
  | cons p ps ih =>
    obtain ⟨hnp, hn⟩ := List.nodup_cons.mp hn
    have hps : ∀ q ∈ ps, q ∈ (h.free p).live := by
      intro q hq
      refine mem_free.mpr ⟨?_, hp q (List.mem_cons_of_mem _ hq)⟩
      rintro rfl; exact hnp hq
    rw [freeAll, ih hn hps, faults_free (hp p List.mem_cons_self)]

/-! ## Sequences of allocations -/

structure Alloced (h h' : Heap) (ps : List Nat) : Prop where
  mem : ∀ q, q ∈ h'.live ↔ q ∈ h.live ∨ q ∈ ps
  fresh : ∀ p ∈ ps, h.next ≤ p
  nodup : ps.Nodup
  next_le : h.next ≤ h'.next
  faults : h'.faults = h.faults

theorem Alloced.refl (h : Heap) : Alloced h h [] :=
  ⟨by simp, by simp, List.nodup_nil, Nat.le_refl _, rfl⟩

theorem Alloced.notMem {h h' : Heap} {ps : List Nat} (ha : Alloced h h' ps) {p : Nat}
    (hp : p ∈ ps) : p ∉ h.live := by
  intro hl
  exact absurd (h.lt_next p hl) (Nat.not_lt.mpr (ha.fresh p hp))

theorem alloced_alloc (h : Heap) : Alloced h h.alloc.2 [h.alloc.1] := by
  refine ⟨?_, ?_, List.nodup_singleton _, Nat.le_succ _, rfl⟩
  · intro q
    show q ∈ insert h.next h.live ↔ _
    rw [Finset.mem_insert, List.mem_singleton, or_comm]; rfl
  · intro p hp
    rw [List.mem_singleton] at hp
    rw [hp]; exact Nat.le_refl _

theorem Alloced.trans {h h₁ h₂ : Heap} {ps qs : List Nat} (ha : Alloced h h₁ ps)
    (hb : Alloced h₁ h₂ qs) : Alloced h h₂ (ps ++ qs) := by
  refine ⟨?_, ?_, ?_, ha.next_le.trans hb.next_le, hb.faults.trans ha.faults⟩
  · intro q
    rw [hb.mem, ha.mem, List.mem_append, or_assoc]
  · intro p hp
    rcases List.mem_append.mp hp with hp | hp
    · exact ha.fresh p hp
    · exact ha.next_le.trans (hb.fresh p hp)
  · refine List.nodup_append.mpr ⟨ha.nodup, hb.nodup, ?_⟩
    rintro p hp q hq rfl
    exact hb.notMem hq ((ha.mem p).mpr (.inr hp))

theorem Alloced.perm {h h' : Heap} {ps qs : List Nat} (ha : Alloced h h' ps)
    (hp : ps.Perm qs) : Alloced h h' qs :=
  ⟨fun q => by rw [ha.mem, hp.mem_iff], fun p hq => ha.fresh p (hp.mem_iff.mpr hq),
    hp.nodup_iff.mp ha.nodup, ha.next_le, ha.faults⟩

/-- Unwinding a failed sequence of allocations. -/
theorem Alloced.freeAll {h h' : Heap} {ps qs : List Nat} (ha : Alloced h h' ps)
    (hqs : qs.Perm ps) : Alloced h (h'.freeAll qs) [] := by
  refine ⟨?_, by simp, List.nodup_nil, by rw [next_freeAll]; exact ha.next_le, ?_⟩
  · intro q
    rw [mem_freeAll, ha.mem, hqs.mem_iff]
    constructor
    · rintro ⟨hq, hl | hl⟩
      · exact .inl hl
      · exact absurd hl hq
    · rintro (hl | hl)
      · exact ⟨fun hq => ha.notMem hq hl, .inl hl⟩
      · cases hl
  · rw [faults_freeAll (hqs.nodup_iff.mpr ha.nodup), ha.faults]
    intro p hp
    exact (ha.mem p).mpr (.inr (hqs.mem_iff.mp hp))

/-! ## Ownership of blocks -/

variable {ι : Type} [DecidableEq ι]

structure OwnedBy (h : Heap) (own : ι → List Nat) : Prop where
  live : ∀ i, ∀ p ∈ own i, p ∈ h.live
  nodup : ∀ i, (own i).Nodup
  disjoint : ∀ i j, ∀ p, p ∈ own i → p ∈ own j → i = j

omit [DecidableEq ι] in
theorem ownedBy_nobody (h : Heap) : OwnedBy h (fun _ : ι => []) := by
  refine ⟨?_, fun _ => List.nodup_nil, ?_⟩
  · intro i p hp; cases hp
  · intro i j p hp; cases hp

/-- Fresh blocks are given to an owner that has none. -/
theorem OwnedBy.give {h h' : Heap} {own : ι → List Nat} {ps : List Nat} {i : ι}
    (ho : OwnedBy h own) (ha : Alloced h h' ps) : OwnedBy h' (Function.update own i ps) := by
  have hlive : ∀ j, j ≠ i → ∀ p ∈ own j, p ∉ ps := fun j _ p hp hps =>
    ha.notMem hps (ho.live j p hp)
  refine ⟨?_, ?_, ?_⟩
  · intro j p hp
    by_cases hj : j = i
    · subst hj
      rw [Function.update_self] at hp
      exact (ha.mem p).mpr (.inr hp)
    · rw [Function.update_of_ne hj] at hp
      exact (ha.mem p).mpr (.inl (ho.live j p hp))
  · intro j
    by_cases hj : j = i
    · subst hj; rw [Function.update_self]; exact ha.nodup
    · rw [Function.update_of_ne hj]; exact ho.nodup j
  · intro j k p hj hk
    by_cases hji : j = i <;> by_cases hki : k = i
    · rw [hji, hki]
    · subst hji
      rw [Function.update_self] at hj
      rw [Function.update_of_ne hki] at hk
      exact absurd hj (hlive k hki p hk)
    · subst hki
      rw [Function.update_self] at hk
      rw [Function.update_of_ne hji] at hj
      exact absurd hk (hlive j hji p hj)
    · rw [Function.update_of_ne hji] at hj
      rw [Function.update_of_ne hki] at hk
      exact ho.disjoint j k p hj hk

/-- An owner frees its own blocks: nobody else loses one. -/
theorem OwnedBy.freeAll {h : Heap} {own : ι → List Nat} {ps : List Nat} {i : ι}
    (ho : OwnedBy h own) (hps : ps.Perm (own i)) :
    OwnedBy (h.freeAll ps) (Function.update own i []) := by
  refine ⟨?_, ?_, ?_⟩
  · intro j p hp
    by_cases hj : j = i
    · subst hj; rw [Function.update_self] at hp; cases hp
    · rw [Function.update_of_ne hj] at hp
      refine mem_freeAll.mpr ⟨fun hq => hj (ho.disjoint j i p hp (hps.mem_iff.mp hq)),
        ho.live j p hp⟩
  · intro j
    by_cases hj : j = i
    · subst hj; rw [Function.update_self]; exact List.nodup_nil
    · rw [Function.update_of_ne hj]; exact ho.nodup j
  · intro j k p hj hk
    by_cases hji : j = i
    · subst hji; rw [Function.update_self] at hj; cases hj
    · by_cases hki : k = i
      · subst hki; rw [Function.update_self] at hk; cases hk
      · rw [Function.update_of_ne hji] at hj
        rw [Function.update_of_ne hki] at hk
        exact ho.disjoint j k p hj hk

omit [DecidableEq ι] in
theorem OwnedBy.faults_freeAll {h : Heap} {own : ι → List Nat} {ps : List Nat} {i : ι}
    (ho : OwnedBy h own) (hps : ps.Perm (own i)) : (h.freeAll ps).faults = h.faults :=
  Heap.faults_freeAll (hps.nodup_iff.mpr (ho.nodup i))
    fun p hp => ho.live i p (hps.mem_iff.mp hp)

omit [DecidableEq ι] in
theorem OwnedBy.alloced_nil {h h' : Heap} {own : ι → List Nat} (ho : OwnedBy h own)
    (ha : Alloced h h' []) : OwnedBy h' own :=
  ⟨fun i p hp => (ha.mem p).mpr (.inl (ho.live i p hp)), ho.nodup, ho.disjoint⟩

/-! ## Exact ownership -/

/-- No block is live but the owners', and none was freed twice. -/
structure Exact (h : Heap) (own : ι → List Nat) : Prop extends OwnedBy h own where
  all : ∀ p ∈ h.live, ∃ i, p ∈ own i
  faults : h.faults = 0

omit [DecidableEq ι] in
theorem exact_empty : Exact empty (fun _ : ι => []) :=
  ⟨ownedBy_nobody _, fun p hp => absurd hp (Finset.notMem_empty p), rfl⟩

omit [DecidableEq ι] in
theorem exact_nobody {h : Heap} (hlive : h.live = ∅) (hfaults : h.faults = 0) :
    Exact h (fun _ : ι => []) :=
  ⟨ownedBy_nobody _, fun p hp => absurd (hlive ▸ hp) (Finset.notMem_empty p), hfaults⟩

omit [DecidableEq ι] in
theorem Exact.alloced_nil {h h' : Heap} {own : ι → List Nat} (ho : Exact h own)
    (ha : Alloced h h' []) : Exact h' own := by
  refine ⟨ho.toOwnedBy.alloced_nil ha, fun p hp => ?_, ha.faults.trans ho.faults⟩
  rcases (ha.mem p).mp hp with hp | hp
  · exact ho.all p hp
  · cases hp

theorem Exact.give {h h' : Heap} {own : ι → List Nat} {ps : List Nat} {i : ι} (ho : Exact h own)
    (hi : own i = []) (ha : Alloced h h' ps) : Exact h' (Function.update own i ps) := by
  refine ⟨ho.toOwnedBy.give ha, fun p hp => ?_, ha.faults.trans ho.faults⟩
  rcases (ha.mem p).mp hp with hp | hp
  · obtain ⟨j, hj⟩ := ho.all p hp
    have hne : j ≠ i := by rintro rfl; rw [hi] at hj; cases hj
    exact ⟨j, by rw [Function.update_of_ne hne]; exact hj⟩
  · exact ⟨i, by rw [Function.update_self]; exact hp⟩

theorem Exact.freeAll {h : Heap} {own : ι → List Nat} {ps : List Nat} {i : ι} (ho : Exact h own)
    (hps : ps.Perm (own i)) : Exact (h.freeAll ps) (Function.update own i []) := by
  refine ⟨ho.toOwnedBy.freeAll hps, fun p hp => ?_, (ho.faults_freeAll hps).trans ho.faults⟩
  obtain ⟨hn, hp⟩ := mem_freeAll.mp hp
  obtain ⟨j, hj⟩ := ho.all p hp
  have hne : j ≠ i := by rintro rfl; exact hn (hps.mem_iff.mpr hj)
  exact ⟨j, by rw [Function.update_of_ne hne]; exact hj⟩

/-! ## Heaps known block by block -/

/-- The live blocks are those of the list, and none was freed twice. -/
structure Holds (h : Heap) (ps : List Nat) : Prop where
  mem : ∀ p, p ∈ h.live ↔ p ∈ ps
  nodup : ps.Nodup
  faults : h.faults = 0

theorem holds_empty : Holds empty [] :=
  ⟨fun _ => iff_of_false (Finset.notMem_empty _) List.not_mem_nil, List.nodup_nil, rfl⟩

theorem Holds.perm {h : Heap} {ps qs : List Nat} (hh : Holds h ps) (hp : ps.Perm qs) : Holds h qs :=
  ⟨fun p => (hh.mem p).trans hp.mem_iff, hp.nodup_iff.mp hh.nodup, hh.faults⟩

theorem Holds.alloced {h h' : Heap} {ps qs : List Nat} (hh : Holds h ps) (ha : Alloced h h' qs) :
    Holds h' (qs ++ ps) := by
  refine ⟨fun p => ?_, ?_, ha.faults.trans hh.faults⟩
  · rw [ha.mem, hh.mem, List.mem_append, or_comm]
  · refine List.nodup_append.mpr ⟨ha.nodup, hh.nodup, ?_⟩
    rintro p hp q hq rfl
    exact ha.notMem hp ((hh.mem p).mpr hq)

theorem Holds.freeAll {h : Heap} {ps qs : List Nat} (hh : Holds h (qs ++ ps)) :
    Holds (h.freeAll qs) ps := by
  obtain ⟨hq, hp, hdisj⟩ := List.nodup_append.mp hh.nodup
  refine ⟨fun p => ?_, hp, ?_⟩
  · rw [mem_freeAll, hh.mem, List.mem_append]
    constructor
    · rintro ⟨hn, hm⟩
      exact hm.resolve_left hn
    · intro hm
      exact ⟨fun hn => hdisj p hn p hm rfl, .inr hm⟩
  · rw [faults_freeAll hq fun p hm => (hh.mem p).mpr (List.mem_append_left _ hm)]
    exact hh.faults

end Heap
