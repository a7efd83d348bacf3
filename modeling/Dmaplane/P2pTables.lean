import Dmaplane.Lib.Threads
import Dmaplane.P2pFlow

/-!
# Dmaplane.P2pTables

Page tables of NVIDIA's driver. Every page table that `nvidia_p2p_get_pages` gives out is held by
one slot, in use or being pinned, or has gone back exactly once (`TableInv`); this needs no proviso.
That it goes back by the right call does: a failing GPU_PIN always calls `nv_put_pages`, and
GPU_UNPIN looks at `gpu_revoked` before it calls. So the callback must not come before a GPU_PIN
that fails has put its pages, nor between that look and the call (`FiresApart`).
-/

namespace Dmaplane

open Threads

variable {Tid : Type}

/-- The slot answers for the page table. -/
structure Owned (s : P2pSt Tid) (i : Fin maxGpuBuffers) (p : Nat) : Prop where
  pageTable : (s.slots i).pageTable = some p
  lt : p < s.nextTable
  data : (s.tables p).data = i
  releases : (s.tables p).releases = []
  revoked : (s.slots i).gpuRevoked = (s.tables p).fired

/-- The slot and the page table that the thread is pinning. -/
def P2pPhase.pins : P2pPhase → Option (Fin maxGpuBuffers × Nat)
  | .pinning slot table _ => some (slot, table)
  | _ => none

/-- The slot that the thread is unpinning. -/
def P2pPhase.unpins : P2pPhase → Option (Fin maxGpuBuffers)
  | .unpinning slot _ => some slot
  | _ => none

/-- A slot in use, or one that is being pinned, answers for the page table. -/
def Held (s : P2pSt Tid) (p : Nat) : Prop :=
  ∃ i, Owned s i p ∧ ((s.slots i).inUse = true ∨ ∃ t, (s.phases t).pins = some (i, p))

structure PageInv (s : P2pSt Tid) : Prop where
  lock : ∀ t, s.lock = some t ↔ (s.phases t).locked = true
  inUse : ∀ i, (s.slots i).inUse = true → ∃ p, Owned s i p
  pinning : ∀ t i p, (s.phases t).pins = some (i, p) → Owned s i p ∧ (s.slots i).inUse = false
  unpinning : ∀ t i, (s.phases t).unpins = some i → (s.slots i).inUse = true
  back : ∀ p, p < s.nextTable → Held s p ∨ (s.tables p).releases.length = 1

theorem locked_of_pins {ph : P2pPhase} {i : Fin maxGpuBuffers} {p : Nat}
    (h : ph.pins = some (i, p)) : ph.locked = true := by
  cases ph <;> first | rfl | cases h

theorem locked_of_unpins {ph : P2pPhase} {i : Fin maxGpuBuffers} (h : ph.unpins = some i) :
    ph.locked = true := by
  cases ph <;> first | rfl | cases h

section Core

variable {s s' : P2pSt Tid}

theorem Owned.of_eq {i : Fin maxGpuBuffers} {p : Nat} (h : Owned s i p)
    (hpage : (s'.slots i).pageTable = (s.slots i).pageTable)
    (hrev : (s'.slots i).gpuRevoked = (s.slots i).gpuRevoked)
    (htab : s'.tables p = s.tables p) (hnext : s.nextTable ≤ s'.nextTable) : Owned s' i p :=
  ⟨hpage.trans h.pageTable, h.lt.trans_le hnext, htab ▸ h.data, htab ▸ h.releases,
    by rw [hrev, htab]; exact h.revoked⟩

theorem Owned.slot_unique {i j : Fin maxGpuBuffers} {p : Nat} (h : Owned s i p)
    (h' : Owned s j p) : i = j := h.data.symm.trans h'.data

theorem Owned.table_unique {i : Fin maxGpuBuffers} {p q : Nat} (h : Owned s i p)
    (h' : Owned s i q) : p = q := Option.some.inj (h.pageTable.symm.trans h'.pageTable)

/-- A step after which everybody holds what he held. -/
theorem PageInv.keep (hi : PageInv s) (howned : ∀ i p, Owned s i p → Owned s' i p)
    (hin : ∀ i, (s'.slots i).inUse = (s.slots i).inUse) (hlock : s'.lock = s.lock)
    (hlocked : ∀ t, (s'.phases t).locked = (s.phases t).locked)
    (hpins : ∀ t, (s'.phases t).pins = (s.phases t).pins)
    (hunpins : ∀ t, (s'.phases t).unpins = (s.phases t).unpins)
    (hnext : s'.nextTable = s.nextTable)
    (hrel : ∀ p, (s'.tables p).releases = (s.tables p).releases) : PageInv s' := by
  refine ⟨fun t => ?_, fun i h => ?_, fun t i p h => ?_, fun t i h => ?_, fun p hp => ?_⟩
  · rw [hlock, hlocked]; exact hi.lock t
  · rw [hin] at h
    obtain ⟨p, hp⟩ := hi.inUse i h
    exact ⟨p, howned i p hp⟩
  · rw [hpins] at h
    obtain ⟨ho, hfree⟩ := hi.pinning t i p h
    exact ⟨howned i p ho, (hin i).trans hfree⟩
  · rw [hunpins] at h
    exact (hin i).trans (hi.unpinning t i h)
  · rw [hnext] at hp
    rw [hrel]
    rcases hi.back p hp with ⟨i, ho, hwho⟩ | hback
    · refine .inl ⟨i, howned i p ho, ?_⟩
      rcases hwho with hwho | ⟨t, ht⟩
      · exact .inl ((hin i).trans hwho)
      · exact .inr ⟨t, (hpins t).trans ht⟩
    · exact .inr hback

theorem PageInv.outside (hi : PageInv s) (h : Outside s s') : PageInv s' := by
  refine hi.keep (fun i p ho => ?_) (fun i => by rw [h.slots]) h.lock (fun t => by rw [h.phases])
    (fun t => by rw [h.phases]) (fun t => by rw [h.phases]) h.nextTable (fun p => by rw [h.tables])
  exact ho.of_eq (by rw [h.slots]) (by rw [h.slots]) (by rw [h.tables]) (by rw [h.nextTable])

/-- One thread at most is inside of pin or unpin. -/
theorem PageInv.solo (hi : PageInv s) {t u : Tid} (ht : (s.phases t).locked = true)
    (hu : (s.phases u).locked = true) : u = t :=
  Option.some.inj (((hi.lock u).mpr hu).symm.trans ((hi.lock t).mpr ht))

/-- With the lock free nobody is. -/
theorem PageInv.free (hi : PageInv s) (hlock : s.lock = none) (t : Tid) :
    (s.phases t).locked = false := by
  cases h : (s.phases t).locked with
  | false => rfl
  | true => rw [← hi.lock t, hlock] at h; cases h

theorem PageInv.free_pins (hi : PageInv s) (hlock : s.lock = none) (t : Tid)
    (x : Fin maxGpuBuffers × Nat) : (s.phases t).pins ≠ some x := by
  intro h
  have hl := hi.free hlock t
  rw [locked_of_pins h] at hl; cases hl

theorem PageInv.free_unpins (hi : PageInv s) (hlock : s.lock = none) (t : Tid)
    (i : Fin maxGpuBuffers) : (s.phases t).unpins ≠ some i := by
  intro h
  have hl := hi.free hlock t
  rw [locked_of_unpins h] at hl; cases hl

/-- A free slot that nobody pins answers for no page table. -/
theorem PageInv.unowned (hi : PageInv s) (hlock : s.lock = none) {i : Fin maxGpuBuffers}
    (hfree : (s.slots i).inUse = false) (p : Nat) : ¬ Owned s i p := by
  intro ho
  rcases hi.back p ho.lt with ⟨j, hj, hin | ⟨t, ht⟩⟩ | hback
  · rw [← ho.slot_unique hj, hfree] at hin; cases hin
  · exact hi.free_pins hlock t _ ht
  · rw [ho.releases] at hback; cases hback

/-- A step that touches the slot `i₀` and the page table it answers for. -/
theorem PageInv.touch (hi : PageInv s) (i₀ : Fin maxGpuBuffers)
    (hwas : ∀ t i p, (s.phases t).pins = some (i, p) → i = i₀)
    (hslots : ∀ j, j ≠ i₀ → s'.slots j = s.slots j)
    (htables : ∀ p, p < s.nextTable → ¬ Owned s i₀ p → s'.tables p = s.tables p)
    (hnext : s.nextTable ≤ s'.nextTable)
    (hlock : ∀ t, s'.lock = some t ↔ (s'.phases t).locked = true)
    (hinUse : (s'.slots i₀).inUse = true → ∃ p, Owned s' i₀ p)
    (hpins : ∀ t i p, (s'.phases t).pins = some (i, p) → Owned s' i p ∧ (s'.slots i).inUse = false)
    (hunpins : ∀ t i, (s'.phases t).unpins = some i → (s'.slots i).inUse = true)
    (hback : ∀ p, p < s'.nextTable → s.nextTable ≤ p ∨ Owned s i₀ p →
      Held s' p ∨ (s'.tables p).releases.length = 1) : PageInv s' := by
  have hother {j : Fin maxGpuBuffers} {p : Nat} (hj : j ≠ i₀) (ho : Owned s j p) :
      Owned s' j p := by
    have hs := hslots j hj
    have ht := htables p ho.lt fun h => hj (ho.slot_unique h)
    exact ho.of_eq (by rw [hs]) (by rw [hs]) ht hnext
  refine ⟨hlock, fun i h => ?_, hpins, hunpins, fun p hp => ?_⟩
  · by_cases hs : i = i₀
    · subst hs; exact hinUse h
    · rw [hslots i hs] at h
      obtain ⟨p, hp⟩ := hi.inUse i h
      exact ⟨p, hother hs hp⟩
  · by_cases hold : s.nextTable ≤ p ∨ Owned s i₀ p
    · exact hback p hp hold
    obtain ⟨hlt, hnot⟩ := not_or.mp hold
    rcases hi.back p (Nat.not_le.mp hlt) with ⟨i, ho, hwho⟩ | hone
    · have hne : i ≠ i₀ := by rintro rfl; exact hnot ho
      rcases hwho with hin | ⟨t, ht⟩
      · exact .inl ⟨i, hother hne ho, .inl (by rw [hslots i hne]; exact hin)⟩
      · exact absurd (hwas t i p ht) hne
    · rw [htables p (Nat.not_le.mp hlt) hnot]; exact .inr hone

end Core

/-! ## Steps -/

section Steps

variable [DecidableEq Tid] {s : P2pSt Tid} {t : Tid} {slot : Fin maxGpuBuffers} {table : Nat}
  {buf : P2pSlot} {pc : P2pPc}

omit [DecidableEq Tid] in
theorem page_cleared (hi : PageInv s) (hlock : s.lock = none)
    (hfree : (s.slots slot).inUse = false) (hbuf : buf.inUse = false) :
    PageInv (s.setSlot slot buf) := by
  refine hi.touch slot (fun u i p h => ?_) (fun j hj => P2pSt.slots_setSlot_ne hj buf)
    (fun _ _ _ => rfl) le_rfl hi.lock (fun h => ?_) (fun u i p h => ?_) (fun u i h => ?_)
    fun p hp h => ?_
  · exact absurd h (hi.free_pins hlock u _)
  · rw [P2pSt.slots_setSlot_self, hbuf] at h; cases h
  · exact absurd h (hi.free_pins hlock u _)
  · exact absurd h (hi.free_unpins hlock u i)
  · exact absurd h (not_or.mpr ⟨Nat.not_le.mpr hp, hi.unowned hlock hfree p⟩)

/-- The phases after a step of `t`. -/
theorem phases_goto_apply (t : Tid) (pc : P2pPc) (u : Tid) :
    (s.goto t pc).phases u = if u = t then pc.phase else s.phases u := by
  rw [phases_goto, Function.update_apply]

theorem page_got {entries : Nat} (hi : PageInv s) (hlock : s.lock = none)
    (hfree : (s.slots slot).inUse = false) (hbuf : buf.inUse = false)
    (hrev : buf.gpuRevoked = false) (hpage : buf.pageTable = some s.nextTable)
    (hpc : pc.phase = .pinning slot s.nextTable false) :
    PageInv ({ s.setSlot slot buf with
      tables := Function.update s.tables s.nextTable ⟨entries, slot, false, []⟩
      nextTable := s.nextTable + 1
      lock := some t }.goto t pc) := by
  generalize hs' : ({ s.setSlot slot buf with
      tables := Function.update s.tables s.nextTable ⟨entries, slot, false, []⟩
      nextTable := s.nextTable + 1
      lock := some t }.goto t pc : P2pSt Tid) = s'
  have hslots : s'.slots = (s.setSlot slot buf).slots := by rw [← hs']; rfl
  have htables : s'.tables = Function.update s.tables s.nextTable ⟨entries, slot, false, []⟩ := by
    rw [← hs']; rfl
  have hnext : s'.nextTable = s.nextTable + 1 := by rw [← hs']; rfl
  have hslock : s'.lock = some t := by rw [← hs']; rfl
  have hphase (u : Tid) : s'.phases u = if u = t then pc.phase else s.phases u := by
    rw [← hs', phases_goto_apply]; rfl
  have hnew : Owned s' slot s.nextTable := by
    refine ⟨?_, by omega, ?_, ?_, ?_⟩
    · rw [hslots, P2pSt.slots_setSlot_self, hpage]
    · rw [htables, Function.update_self]
    · rw [htables, Function.update_self]
    · rw [hslots, P2pSt.slots_setSlot_self, hrev, htables, Function.update_self]
  refine hi.touch slot (fun u i p h => ?_) (fun j hj => ?_) (fun p hp _ => ?_) (by omega)
    (fun u => ?_) (fun h => ?_) (fun u i p h => ?_) (fun u i h => ?_) fun p hp h => ?_
  · exact absurd h (hi.free_pins hlock u _)
  · rw [hslots, P2pSt.slots_setSlot_ne hj]
  · rw [htables, Function.update_of_ne (Nat.ne_of_lt hp)]
  · rw [hslock, hphase]
    by_cases hu : u = t
    · simp [hu, hpc, P2pPhase.locked]
    · simp [hu, hi.free hlock u, Ne.symm hu]
  · exact ⟨_, hnew⟩
  · rw [hphase] at h
    split at h
    · rw [hpc] at h; cases h
      exact ⟨hnew, by rw [hslots, P2pSt.slots_setSlot_self, hbuf]⟩
    · exact absurd h (hi.free_pins hlock u _)
  · rw [hphase] at h
    split at h
    · rw [hpc] at h; cases h
    · exact absurd h (hi.free_unpins hlock u i)
  · rcases h with h | h
    · obtain rfl : p = s.nextTable := by omega
      refine .inl ⟨slot, hnew, .inr ⟨t, ?_⟩⟩
      rw [hphase, if_pos rfl, hpc]; rfl
    · exact absurd h (hi.unowned hlock hfree p)

/-- A thread moves on, and `f` does not tell. -/
theorem phases_goto_same {β : Type} (f : P2pPhase → β) (h : f pc.phase = f (s.phases t)) (u : Tid) :
    f ((s.goto t pc).phases u) = f (s.phases u) := by
  rw [phases_goto_apply]
  split
  · rename_i hu; rw [hu, h]
  · rfl

/-- The thread inside of pin or unpin leaves, and nobody is inside. -/
theorem PageInv.left (hi : PageInv s) (ht : (s.phases t).locked = true)
    (hpc : pc.phase.locked = false) (u : Tid) : ((s.goto t pc).phases u).locked = false := by
  rw [phases_goto_apply]
  split
  · exact hpc
  · rename_i hu
    cases h : (s.phases u).locked with
    | false => rfl
    | true => exact absurd (hi.solo ht h) hu

theorem page_pinned {ok : Bool} (hi : PageInv s) (ht : s.phases t = .pinning slot table false)
    (hbuf : SameButMappings (s.slots slot) buf) (hpc : pc.phase = .pinning slot table (!ok)) :
    PageInv ((s.setSlot slot buf).goto t pc) := by
  have hsame (i : Fin maxGpuBuffers) :
      SameButMappings (s.slots i) (((s.setSlot slot buf).goto t pc).slots i) := by
    by_cases hs : i = slot
    · subst hs
      show SameButMappings _ ((s.setSlot i buf).slots i)
      rwa [P2pSt.slots_setSlot_self]
    · show SameButMappings _ ((s.setSlot slot buf).slots i)
      rw [P2pSt.slots_setSlot_ne hs]; exact ⟨rfl, rfl, rfl⟩
  refine hi.keep (fun i p ho => ?_) (fun i => (hsame i).inUse) rfl
    (phases_goto_same (·.locked) ?_) (phases_goto_same (·.pins) ?_)
    (phases_goto_same (·.unpins) ?_) rfl fun _ => rfl
  · exact ho.of_eq (hsame i).pageTable (hsame i).gpuRevoked rfl le_rfl
  · rw [hpc, show (s.setSlot slot buf).phases t = s.phases t from rfl, ht]; rfl
  · rw [hpc, show (s.setSlot slot buf).phases t = s.phases t from rfl, ht]; rfl
  · rw [hpc, show (s.setSlot slot buf).phases t = s.phases t from rfl, ht]; rfl

/-- `t` goes on with what it holds. -/
theorem page_goto (hi : PageInv s) (hlocked : pc.phase.locked = (s.phases t).locked)
    (hpins : pc.phase.pins = (s.phases t).pins) (hunpins : pc.phase.unpins = (s.phases t).unpins) :
    PageInv (s.goto t pc) :=
  hi.keep (fun _ _ ho => ho.of_eq rfl rfl rfl le_rfl) (fun _ => rfl) rfl
    (phases_goto_same _ hlocked) (phases_goto_same _ hpins) (phases_goto_same _ hunpins) rfl
    fun _ => rfl

omit [DecidableEq Tid] in
theorem page_counters (hi : PageInv s) (pinsTotal unpinsTotal callbacksFired : BitVec 64) :
    PageInv { s with
      pinsTotal := pinsTotal, unpinsTotal := unpinsTotal, callbacksFired := callbacksFired } :=
  hi.keep (fun _ _ ho => ho.of_eq rfl rfl rfl le_rfl) (fun _ => rfl) rfl (fun _ => rfl)
    (fun _ => rfl) (fun _ => rfl) rfl fun _ => rfl

/-- The thread inside of pin or unpin drops the lock: the slot `i₀` that it worked on, and the page
table of the slot, are the only ones that change. -/
theorem PageInv.leave {s' : P2pSt Tid} (hi : PageInv s) (i₀ : Fin maxGpuBuffers)
    (ht : (s.phases t).locked = true) (hwas : ∀ i p, (s.phases t).pins = some (i, p) → i = i₀)
    (hphases : s'.phases = (s.goto t pc).phases) (hpc : pc.phase.locked = false)
    (ho : Owned s i₀ table) (hslots : ∀ j, j ≠ i₀ → s'.slots j = s.slots j)
    (htables : ∀ p, p ≠ table → s'.tables p = s.tables p) (hnext : s'.nextTable = s.nextTable)
    (hlock : s'.lock = none) (hinUse : (s'.slots i₀).inUse = true → ∃ p, Owned s' i₀ p)
    (hback : Held s' table ∨ (s'.tables table).releases.length = 1) : PageInv s' := by
  have hout (u : Tid) : (s'.phases u).locked = false := by
    rw [hphases]; exact hi.left ht hpc u
  refine hi.touch i₀ (fun u i p h => ?_) hslots (fun p _ hn => ?_) hnext.ge (fun u => ?_) hinUse
    (fun u i p h => ?_) (fun u i h => ?_) fun p hp h => ?_
  · obtain rfl := hi.solo ht (locked_of_pins h)
    exact hwas i p h
  · refine htables p ?_
    rintro rfl; exact hn ho
  · rw [hlock]
    exact iff_of_false (fun h => Option.some_ne_none u h.symm) (ne_true_of_eq_false (hout u))
  · exact absurd (locked_of_pins h) (ne_true_of_eq_false (hout u))
  · exact absurd (locked_of_unpins h) (ne_true_of_eq_false (hout u))
  · rcases h with h | h
    · exact absurd (hnext ▸ hp) (Nat.not_lt.mpr h)
    · obtain rfl := ho.table_unique h
      exact hback

omit [DecidableEq Tid] in
theorem releases_release {call : NvRelease} (hrel : (s.tables table).releases = []) :
    ((s.release table call).tables table).releases.length = 1 := by
  unfold P2pSt.release
  simp [hrel]

theorem page_undone (hi : PageInv s) (ht : s.phases t = .pinning slot table true)
    (hpc : pc.phase = .outside) : PageInv ((s.release table .putPages).unlock.goto t pc) := by
  obtain ⟨ho, hfree⟩ := hi.pinning t slot table (by rw [ht]; rfl)
  refine hi.leave slot (by rw [ht]; rfl) (fun i p h => ?_) rfl (by rw [hpc]; rfl) ho
    (fun _ _ => rfl) (fun p hp => Function.update_of_ne hp _ _) rfl rfl (fun h => ?_)
    (.inr (releases_release ho.releases))
  · rw [ht] at h; cases h; rfl
  · exact absurd h (ne_true_of_eq_false hfree)

theorem page_published {nextGpuBufId : BitVec 32} (hi : PageInv s)
    (ht : s.phases t = .pinning slot table false)
    (hpage : buf.pageTable = (s.slots slot).pageTable)
    (hrev : buf.gpuRevoked = (s.slots slot).gpuRevoked) (hbuf : buf.inUse = true)
    (hpc : pc.phase = .pinCount) :
    PageInv ({ s.setSlot slot buf with nextGpuBufId := nextGpuBufId }.unlock.goto t pc) := by
  obtain ⟨ho, _⟩ := hi.pinning t slot table (by rw [ht]; rfl)
  have hself : ({ s.setSlot slot buf with nextGpuBufId := nextGpuBufId }.unlock.goto t pc).slots
      slot = buf := P2pSt.slots_setSlot_self slot buf
  have hown : Owned ({ s.setSlot slot buf with nextGpuBufId := nextGpuBufId }.unlock.goto t pc)
      slot table := ho.of_eq (by rw [hself, hpage]) (by rw [hself, hrev]) rfl le_rfl
  refine hi.leave slot (by rw [ht]; rfl) (fun i p h => ?_) rfl (by rw [hpc]; rfl) ho
    (fun j hj => P2pSt.slots_setSlot_ne hj buf) (fun _ _ => rfl) rfl rfl
    (fun _ => ⟨table, hown⟩) (.inl ⟨slot, hown, .inl (by rw [hself, hbuf])⟩)
  rw [ht] at h; cases h; rfl

theorem page_found (hi : PageInv s) (hlock : s.lock = none)
    (hin : (s.slots slot).inUse = true) (hbuf : SameButMappings (s.slots slot) buf)
    (hpc : pc.phase = .unpinning slot none) :
    PageInv ({ s.setSlot slot buf with lock := some t }.goto t pc) := by
  obtain ⟨table, ho⟩ := hi.inUse slot hin
  have hself : ({ s.setSlot slot buf with lock := some t }.goto t pc).slots slot = buf :=
    P2pSt.slots_setSlot_self slot buf
  have hin' : buf.inUse = true := hbuf.inUse.trans hin
  have hown : Owned ({ s.setSlot slot buf with lock := some t }.goto t pc) slot table :=
    ho.of_eq (by rw [hself, hbuf.pageTable]) (by rw [hself, hbuf.gpuRevoked]) rfl le_rfl
  have hphase (u : Tid) : ({ s.setSlot slot buf with lock := some t }.goto t pc).phases u =
      if u = t then .unpinning slot none else s.phases u := by
    rw [phases_goto_apply, hpc]; rfl
  refine hi.touch slot (fun u i p h => ?_) (fun j hj => P2pSt.slots_setSlot_ne hj buf)
    (fun _ _ _ => rfl) le_rfl (fun u => ?_) (fun _ => ⟨table, hown⟩) (fun u i p h => ?_)
    (fun u i h => ?_) fun p hp h => ?_
  · exact absurd h (hi.free_pins hlock u _)
  · rw [hphase]
    show some t = some u ↔ _
    by_cases hu : u = t
    · simp [hu, P2pPhase.locked]
    · simp [hu, hi.free hlock u, Ne.symm hu]
  · rw [hphase] at h
    split at h
    · cases h
    · exact absurd h (hi.free_pins hlock u _)
  · rw [hphase] at h
    split at h
    · cases h; rw [hself, hin']
    · exact absurd h (hi.free_unpins hlock u i)
  · rcases h with h | h
    · exact absurd hp (Nat.not_lt.mpr h)
    · obtain rfl := ho.table_unique h
      exact .inl ⟨slot, hown, .inl (by rw [hself, hin'])⟩

theorem page_released {call : NvRelease} (hi : PageInv s)
    (ht : s.phases t = .unpinning slot (some call)) (hbuf : buf.inUse = false)
    (hpc : pc.phase = .unpinCount) (hpage : (s.slots slot).pageTable = some table) :
    PageInv (((s.release table call).setSlot slot buf).unlock.goto t pc) := by
  obtain ⟨table', ho⟩ := hi.inUse slot (hi.unpinning t slot (by rw [ht]; rfl))
  obtain rfl := Option.some.inj (hpage.symm.trans ho.pageTable)
  have hself : (((s.release table call).setSlot slot buf).unlock.goto t pc).slots slot = buf :=
    P2pSt.slots_setSlot_self slot buf
  refine hi.leave slot (by rw [ht]; rfl) (fun i p h => ?_) rfl (by rw [hpc]; rfl) ho
    (fun j hj => P2pSt.slots_setSlot_ne hj buf) (fun p hp => Function.update_of_ne hp _ _) rfl rfl
    (fun h => ?_) (.inr (releases_release ho.releases))
  · rw [ht] at h; cases h
  · rw [hself, hbuf] at h; cases h

omit [DecidableEq Tid] in
theorem page_revoked (hi : PageInv s) (hlt : table < s.nextTable)
    (hrel : (s.tables table).releases = []) :
    PageInv { s.setSlot (s.tables table).data
        { s.slots (s.tables table).data with gpuRevoked := true } with
      tables := Function.update s.tables table { s.tables table with fired := true } } := by
  obtain ⟨i, ho, _⟩ : Held s table := by
    rcases hi.back table hlt with hheld | hone
    · exact hheld
    · rw [hrel] at hone; cases hone
  rw [ho.data]
  refine hi.keep (fun j q hj => ?_) (fun j => ?_) rfl (fun _ => rfl) (fun _ => rfl) (fun _ => rfl)
    rfl fun q => ?_
  · by_cases hq : q = table
    · subst hq
      obtain rfl := ho.slot_unique hj
      exact ⟨by simpa using ho.pageTable, hlt, by simpa using ho.data, by simpa using hrel, by simp⟩
    · have hne : j ≠ i := by rintro rfl; exact hq (hj.table_unique ho)
      refine hj.of_eq ?_ ?_ (Function.update_of_ne hq _ _) le_rfl
      · exact congrArg P2pSlot.pageTable (P2pSt.slots_setSlot_ne hne _)
      · exact congrArg P2pSlot.gpuRevoked (P2pSt.slots_setSlot_ne hne _)
  · by_cases hj : j = i
    · subst hj
      exact (congrArg P2pSlot.inUse (P2pSt.slots_setSlot_self j _)).trans rfl
    · exact congrArg P2pSlot.inUse (P2pSt.slots_setSlot_ne hj _)
  · show (Function.update s.tables table _ q).releases = _
    by_cases hq : q = table
    · rw [hq, Function.update_self]
    · rw [Function.update_of_ne hq]

theorem pageInv_flow {s' : P2pSt Tid} {a : P2pAct Tid} (hi : PageInv s) (h : P2pFlow s a s') :
    PageInv s' := by
  cases h with
  | same => exact hi
  | moved hpc _ =>
    refine page_goto hi ?_ ?_ ?_ <;> rw [hpc] <;> rfl
  | cleared hlock hfree hbuf => exact page_cleared hi hlock hfree hbuf
  | got hlock hfree hbuf hrev hpage _ hpc _ => exact page_got hi hlock hfree hbuf hrev hpage hpc
  | pinned ht hbuf hpc _ => exact page_pinned hi ht hbuf hpc
  | undone ht => exact page_undone hi ht rfl
  | @published _ t slot table _ _ _ hpc hbuf _ _ =>
    have ht : s.phases t = .pinning slot table false := by rw [P2pSt.phases, hpc]; rfl
    exact page_published hi ht hbuf.pageTable hbuf.gpuRevoked hbuf.inUse rfl
  | @pinCounted _ t handle ht =>
    have ht' : { s with pinsTotal := s.pinsTotal + 1 }.phases t = .pinCount := ht
    refine page_goto (page_counters hi _ _ _) ?_ ?_ ?_ <;> rw [ht'] <;> rfl
  | found hlock _ hfind hbuf _ => exact page_found hi hlock (P2pSt.findSlot_some hfind) hbuf rfl
  | chosen ht =>
    refine page_goto hi ?_ ?_ ?_ <;> rw [ht] <;> rfl
  | @released _ t slot call buf _ ht hbuf =>
    obtain ⟨table, ho⟩ := hi.inUse slot (hi.unpinning t slot (by rw [ht]; rfl))
    rw [ho.pageTable]
    exact page_released hi ht hbuf rfl ho.pageTable
  | @unpinCounted _ t callbacksFired ht =>
    have ht' : { s with
        unpinsTotal := s.unpinsTotal + 1, callbacksFired := callbacksFired }.phases t =
        .unpinCount := ht
    refine page_goto (page_counters hi _ _ _) ?_ ?_ ?_ <;> rw [ht'] <;> rfl
  | revoked hlt hrel _ => exact page_revoked hi hlt hrel

end Steps

/-! ## The right call -/

/-- The release call is chosen, or `nv_put_pages` comes next. -/
def P2pPhase.calls : P2pPhase → Bool
  | .pinning _ _ failed => failed
  | .unpinning _ call => call.isSome
  | _ => false

/-- Every release that was made, or is about to be made, fits the callback. -/
structure RightCalls (s : P2pSt Tid) : Prop where
  undo : ∀ t i p, s.phases t = .pinning i p true → (s.tables p).fired = false
  chosen : ∀ t i p call, s.phases t = .unpinning i (some call) →
    (s.slots i).pageTable = some p → call = .fitting (s.tables p).fired
  made : ∀ p, ∀ call ∈ (s.tables p).releases, call = .fitting (s.tables p).fired

/-- The callback comes neither before a failing GPU_PIN has put its pages, nor between the look of
GPU_UNPIN at `gpu_revoked` and its release call. -/
def FiresApart (s : P2pSt Tid) : P2pAct Tid → Prop
  | .pinStep t ok =>
    match (s.phases t).pins with
    | some (_, p) => ok = true ∨ (s.tables p).fired = false
    | none => True
  | .callback p =>
    match s.lock.map s.phases with
    | some (.pinning _ q failed) => failed = true → q ≠ p
    | some (.unpinning i call) => call.isSome = true → (s.slots i).pageTable ≠ some p
    | _ => True
  | _ => True

instance (s : P2pSt Tid) (a : P2pAct Tid) : Decidable (FiresApart s a) := by
  unfold FiresApart
  split <;> first | infer_instance | (split <;> infer_instance)

section Right

variable {s s' : P2pSt Tid}

/-- The page tables stay, and so does what is chosen. -/
theorem RightCalls.keep (hr : RightCalls s) (htab : s'.tables = s.tables)
    (hph : ∀ u, s'.phases u = s.phases u ∨ (s'.phases u).calls = false)
    (hpage : ∀ u i call, s.phases u = .unpinning i (some call) →
      (s'.slots i).pageTable = (s.slots i).pageTable) : RightCalls s' := by
  refine ⟨fun u i p h => ?_, fun u i p call h hp => ?_, ?_⟩
  · rw [htab]
    rcases hph u with he | hc
    · exact hr.undo u i p (he ▸ h)
    · rw [h] at hc; cases hc
  · rw [htab]
    rcases hph u with he | hc
    · rw [he] at h
      exact hr.chosen u i p call h ((hpage u i call h).symm.trans hp)
    · rw [h] at hc; cases hc
  · rw [htab]; exact hr.made

theorem locked_of_calls {ph : P2pPhase} (h : ph.calls = true) : ph.locked = true := by
  cases ph <;> first | rfl | cases h

variable [DecidableEq Tid] {t : Tid} {slot : Fin maxGpuBuffers} {table : Nat} {pc : P2pPc}

theorem goto_calls (hpc : pc.phase.calls = false) (u : Tid) :
    (s.goto t pc).phases u = s.phases u ∨ ((s.goto t pc).phases u).calls = false := by
  rw [phases_goto_apply]
  split
  · exact .inr hpc
  · exact .inl rfl

omit [DecidableEq Tid] in
theorem setSlot_page {buf : P2pSlot} (h : buf.pageTable = (s.slots slot).pageTable)
    (i : Fin maxGpuBuffers) : ((s.setSlot slot buf).slots i).pageTable = (s.slots i).pageTable := by
  by_cases hi : i = slot
  · subst hi; rw [P2pSt.slots_setSlot_self, h]
  · rw [P2pSt.slots_setSlot_ne hi]

/-- The page table goes back by the right call, and the lock is dropped. -/
theorem RightCalls.release (pc : P2pPc) (hi : PageInv s) (hr : RightCalls s) {call : NvRelease}
    (ht : (s.phases t).locked = true) (hpc : pc.phase.locked = false)
    (hcall : call = .fitting (s.tables table).fired) (hrel : (s.tables table).releases = [])
    (hphases : s'.phases = (s.goto t pc).phases)
    (htables : s'.tables = (s.release table call).tables) : RightCalls s' := by
  have hout (u : Tid) : (s'.phases u).locked = false := by rw [hphases]; exact hi.left ht hpc u
  refine ⟨fun u i p h => ?_, fun u i p call h _ => ?_, fun p call' hmem => ?_⟩
  · have hl := hout u
    rw [h] at hl; cases hl
  · have hl := hout u
    rw [h] at hl; cases hl
  · rw [htables] at hmem ⊢
    simp only [P2pSt.release] at hmem ⊢
    by_cases hp : p = table
    · subst hp
      rw [Function.update_self] at hmem ⊢
      rw [hrel, List.nil_append, List.mem_singleton] at hmem
      rw [hmem, hcall]
    · rw [Function.update_of_ne hp] at hmem ⊢
      exact hr.made p call' hmem

/-- A new page table: nobody has chosen, as the lock was free. -/
theorem right_got {buf : P2pSlot} {entries : Nat} (hi : PageInv s) (hr : RightCalls s)
    (hlock : s.lock = none) (hpc : pc.phase = .pinning slot s.nextTable false) :
    RightCalls ({ s.setSlot slot buf with
      tables := Function.update s.tables s.nextTable ⟨entries, slot, false, []⟩
      nextTable := s.nextTable + 1
      lock := some t }.goto t pc) := by
  refine ⟨fun u i p h => ?_, fun u i p call h _ => ?_, fun p call hmem => ?_⟩
  · rw [phases_goto_apply] at h
    split at h
    · rw [hpc] at h; cases h
    · exact absurd (by rw [show s.phases u = _ from h]; rfl) (hi.free_pins hlock u (i, p))
  · rw [phases_goto_apply] at h
    split at h
    · rw [hpc] at h; cases h
    · exact absurd (by rw [show s.phases u = _ from h]; rfl) (hi.free_unpins hlock u i)
  · show call = .fitting (Function.update s.tables s.nextTable _ p).fired
    have hmem' : call ∈ (Function.update s.tables s.nextTable
        (⟨entries, slot, false, []⟩ : NvTable) p).releases := hmem
    by_cases hp : p = s.nextTable
    · subst hp; rw [Function.update_self] at hmem'; cases hmem'
    · rw [Function.update_of_ne hp] at hmem' ⊢; exact hr.made p call hmem'

omit [DecidableEq Tid] in
/-- The callback comes to a page table whose release is not chosen yet. -/
theorem right_revoked (hi : PageInv s) (hr : RightCalls s) (hok : FiresApart s (.callback table))
    (hrel : (s.tables table).releases = []) :
    RightCalls { s.setSlot (s.tables table).data
        { s.slots (s.tables table).data with gpuRevoked := true } with
      tables := Function.update s.tables table { s.tables table with fired := true } } := by
  have hpage {i : Fin maxGpuBuffers} {p : Nat}
      (hp : ((s.setSlot (s.tables table).data
        { s.slots (s.tables table).data with gpuRevoked := true }).slots i).pageTable = some p) :
      (s.slots i).pageTable = some p := by
    refine Eq.trans (setSlot_page ?_ i).symm hp
    rfl
  have hlock {u : Tid} (h : (s.phases u).calls = true) : s.lock = some u :=
    (hi.lock u).mpr (locked_of_calls h)
  have hother {p : Nat} (hp : p ≠ table) :
      Function.update s.tables table { s.tables table with fired := true } p = s.tables p :=
    Function.update_of_ne hp _ _
  refine ⟨fun u i p h => ?_, fun u i p call h hp => ?_, fun p call hmem => ?_⟩
  · have h' : s.phases u = .pinning i p true := h
    have hne : p ≠ table := by
      simpa [FiresApart, hlock (u := u) (by rw [h']; rfl), h'] using hok
    exact (congrArg NvTable.fired (hother hne)).trans (hr.undo u i p h')
  · have h' : s.phases u = .unpinning i (some call) := h
    have hne : (s.slots i).pageTable ≠ some table := by
      simpa [FiresApart, hlock (u := u) (by rw [h']; rfl), h'] using hok
    have hpt : p ≠ table := by rintro rfl; exact hne (hpage hp)
    exact (hr.chosen u i p call h' (hpage hp)).trans
      (congrArg (fun x => NvRelease.fitting (NvTable.fired x)) (hother hpt).symm)
  · have hmem' : call ∈ (Function.update s.tables table
        { s.tables table with fired := true } p).releases := hmem
    show call = .fitting (Function.update s.tables table
        { s.tables table with fired := true } p).fired
    by_cases hp : p = table
    · subst hp
      rw [Function.update_self] at hmem'
      rw [show (s.tables p).releases = [] from hrel] at hmem'; cases hmem'
    · rw [hother hp] at hmem' ⊢; exact hr.made p call hmem'

theorem rightCalls_flow {a : P2pAct Tid} (hi : PageInv s) (hr : RightCalls s)
    (hok : FiresApart s a) (h : P2pFlow s a s') : RightCalls s' := by
  cases h with
  | same => exact hr
  | @moved _ t pc hpc _ =>
    have hsame : (s.goto t pc).phases = s.phases := (outside_goto hpc.symm).phases
    exact hr.keep rfl (fun u => .inl (by rw [hsame])) fun _ _ _ _ => rfl
  | @cleared _ slot buf hlock _ _ =>
    refine hr.keep rfl (fun _ => .inl rfl) fun u i call hu => ?_
    exact absurd (by rw [hu]; rfl) (hi.free_unpins hlock u i)
  | got hlock _ _ _ _ _ hpc _ => exact right_got hi hr hlock hpc
  | @pinned t ok slot table buf pc ht hbuf hpc _ =>
    cases ok with
    | true =>
      exact hr.keep rfl (goto_calls (by rw [hpc]; rfl)) fun _ i _ _ =>
        setSlot_page hbuf.pageTable i
    | false =>
      have hnot : (s.tables table).fired = false := by
        simp only [FiresApart, ht, P2pPhase.pins] at hok
        exact hok.resolve_left Bool.false_ne_true
      refine ⟨fun u i p h => ?_, fun u i p call h hp => ?_, hr.made⟩
      · rw [phases_goto_apply] at h
        split at h
        · rw [hpc] at h; cases h; exact hnot
        · exact hr.undo u i p h
      · rw [phases_goto_apply] at h
        split at h
        · rw [hpc] at h; cases h
        · exact hr.chosen u i p call h ((setSlot_page hbuf.pageTable i).symm.trans hp)
  | @undone _ t slot table ht =>
    obtain ⟨ho, _⟩ := hi.pinning t slot table (by rw [ht]; rfl)
    refine RightCalls.release .idle hi hr (t := t) (by rw [ht]; rfl) rfl ?_ ho.releases rfl rfl
    rw [hr.undo t slot table ht]; rfl
  | published _ hbuf _ _ =>
    exact hr.keep rfl (goto_calls rfl) fun _ i _ _ => setSlot_page hbuf.pageTable i
  | pinCounted _ => exact hr.keep rfl (goto_calls rfl) fun _ _ _ _ => rfl
  | found _ _ _ hbuf _ =>
    exact hr.keep rfl (goto_calls rfl) fun _ i _ _ => setSlot_page hbuf.pageTable i
  | @chosen _ t slot wasRevoked ht =>
    obtain ⟨table, ho⟩ := hi.inUse slot (hi.unpinning t slot (by rw [ht]; rfl))
    refine ⟨fun u i p h => ?_, fun u i p call h hp => ?_, hr.made⟩
    · rw [phases_goto_apply] at h
      split at h
      · cases h
      · exact hr.undo u i p h
    · rw [phases_goto_apply] at h
      split at h
      · cases h
        obtain rfl := Option.some.inj (ho.pageTable.symm.trans hp)
        rw [ho.revoked]
        rfl
      · exact hr.chosen u i p call h hp
  | @released _ t slot call buf wasRevoked ht _ =>
    obtain ⟨table, ho⟩ := hi.inUse slot (hi.unpinning t slot (by rw [ht]; rfl))
    rw [ho.pageTable]
    exact RightCalls.release (.unpinCount wasRevoked) hi hr (t := t) (by rw [ht]; rfl) rfl
      (hr.chosen t slot table call ht ho.pageTable) ho.releases rfl rfl
  | unpinCounted _ => exact hr.keep rfl (goto_calls rfl) fun _ _ _ _ => rfl
  | revoked _ hrel _ => exact right_revoked hi hr hok hrel

end Right

/-! ## The counters -/

/-- The slots in use. -/
def P2pSt.pinned (s : P2pSt Tid) : Finset (Fin maxGpuBuffers) :=
  Finset.univ.filter fun i => (s.slots i).inUse = true

/-- The number of slots in use, in the form in which a step changes it. -/
theorem card_pinned (s : P2pSt Tid) : s.pinned.card = numAt (fun i => (s.slots i).inUse) true := by
  rw [numAt, threadsAt, P2pSt.pinned, Set.ncard_eq_toFinset_card']
  simp

/-- The counters, but for the calls that have not counted yet. -/
structure CountInv (s : P2pSt Tid) : Prop where
  pinCount : (threadsAt s.phases .pinCount).Finite
  unpinCount : (threadsAt s.phases .unpinCount).Finite
  count : s.pinsTotal + BitVec.ofNat 64 (numAt s.phases .pinCount) =
    s.unpinsTotal + BitVec.ofNat 64 (s.pinned.card + numAt s.phases .unpinCount)

section Count

variable {s s' : P2pSt Tid}

theorem pinned_same (h : ∀ i, (s'.slots i).inUse = (s.slots i).inUse) : s'.pinned = s.pinned := by
  simp only [P2pSt.pinned, h]

theorem CountInv.same (hc : CountInv s) (hphases : s'.phases = s.phases)
    (hpins : s'.pinsTotal = s.pinsTotal) (hunpins : s'.unpinsTotal = s.unpinsTotal)
    (hin : ∀ i, (s'.slots i).inUse = (s.slots i).inUse) : CountInv s' := by
  refine ⟨?_, ?_, ?_⟩
  · rw [hphases]; exact hc.pinCount
  · rw [hphases]; exact hc.unpinCount
  · rw [hphases, hpins, hunpins, pinned_same hin]; exact hc.count

theorem setSlot_inUse {slot : Fin maxGpuBuffers} {buf : P2pSlot}
    (h : buf.inUse = (s.slots slot).inUse) (i : Fin maxGpuBuffers) :
    ((s.setSlot slot buf).slots i).inUse = (s.slots i).inUse := by
  by_cases hi : i = slot
  · subst hi; rw [P2pSt.slots_setSlot_self, h]
  · rw [P2pSt.slots_setSlot_ne hi]

/-- One slot changes its flag. -/
theorem inUse_setSlot {slot : Fin maxGpuBuffers} {buf : P2pSlot} :
    (fun i => ((s.setSlot slot buf).slots i).inUse) =
      Function.update (fun i => (s.slots i).inUse) slot buf.inUse := by
  funext i
  by_cases hi : i = slot
  · subst hi; simp
  · simp [hi]

theorem card_fill {slot : Fin maxGpuBuffers} {buf : P2pSlot} (hfree : (s.slots slot).inUse = false)
    (hbuf : buf.inUse = true) : (s.setSlot slot buf).pinned.card = s.pinned.card + 1 := by
  rw [card_pinned, card_pinned, inUse_setSlot, hbuf]
  exact numAt_enter (Set.toFinite _) (ne_true_of_eq_false hfree)

theorem card_clear {slot : Fin maxGpuBuffers} {buf : P2pSlot} (hin : (s.slots slot).inUse = true)
    (hbuf : buf.inUse = false) : (s.setSlot slot buf).pinned.card + 1 = s.pinned.card := by
  rw [card_pinned, card_pinned, inUse_setSlot, hbuf]
  exact numAt_leave (Set.toFinite _) hin Bool.false_ne_true

variable [DecidableEq Tid] {t : Tid} {pc : P2pPc}

/-- `t` moves to `ph`: what is left to show is the count. -/
theorem CountInv.move (ph : P2pPhase) (hc : CountInv s)
    (hphases : s'.phases = Function.update s.phases t ph)
    (hcount : s'.pinsTotal + BitVec.ofNat 64 (numAt (Function.update s.phases t ph) .pinCount) =
      s'.unpinsTotal + BitVec.ofNat 64
        (s'.pinned.card + numAt (Function.update s.phases t ph) .unpinCount)) : CountInv s' := by
  refine ⟨?_, ?_, ?_⟩
  · rw [hphases]; exact finite_move hc.pinCount
  · rw [hphases]; exact finite_move hc.unpinCount
  · rw [hphases]; exact hcount

/-- Before and after the step `t` has nothing to count. -/
theorem CountInv.pass (hc : CountInv s) (hphases : s'.phases = s.phases)
    (hpins : s'.pinsTotal = s.pinsTotal) (hunpins : s'.unpinsTotal = s.unpinsTotal)
    (hin : ∀ i, (s'.slots i).inUse = (s.slots i).inUse)
    (hp : s.phases t ≠ .pinCount) (hu : s.phases t ≠ .unpinCount) (hp' : pc.phase ≠ .pinCount)
    (hu' : pc.phase ≠ .unpinCount) : CountInv (s'.goto t pc) := by
  have hc' := hc.same hphases hpins hunpins hin
  rw [← hphases] at hp hu
  refine hc'.move pc.phase (phases_goto t pc) ?_
  rw [numAt_pass hp hp', numAt_pass hu hu']
  exact hc'.count

theorem countInv_flow {a : P2pAct Tid} (hi : PageInv s) (hc : CountInv s) (h : P2pFlow s a s') :
    CountInv s' := by
  cases h with
  | same => exact hc
  | moved hpc _ =>
    exact hc.same (outside_goto hpc.symm).phases rfl rfl fun _ => rfl
  | cleared _ hfree hbuf => exact hc.same rfl rfl rfl (setSlot_inUse (hbuf.trans hfree.symm))
  | got _ hfree hbuf _ _ ht hpc _ =>
    refine hc.pass rfl rfl rfl (setSlot_inUse (hbuf.trans hfree.symm)) ?_ ?_ ?_ ?_ <;>
      simp [ht, hpc]
  | pinned ht hbuf hpc _ =>
    refine hc.pass rfl rfl rfl (setSlot_inUse hbuf.inUse) ?_ ?_ ?_ ?_ <;> simp [ht, hpc]
  | undone ht =>
    refine hc.pass rfl rfl rfl (fun _ => rfl) ?_ ?_ ?_ ?_ <;> simp [ht, P2pPc.phase]
  | @published _ t slot table buf nextId handle hpc hbuf _ _ =>
    have ht : s.phases t = .pinning slot table false := by rw [P2pSt.phases, hpc]; rfl
    have hfree := (hi.pinning t slot table (by rw [ht]; rfl)).2
    have hcard := card_fill hfree hbuf.inUse
    refine hc.move .pinCount (phases_goto _ _) ?_
    rw [numAt_enter hc.pinCount (by simp [ht]), numAt_pass (by simp [ht]) (by simp)]
    show s.pinsTotal + _ = s.unpinsTotal + BitVec.ofNat 64 ((s.setSlot slot buf).pinned.card + _)
    rw [hcard]
    have hcount := hc.count
    bv_omega
  | @pinCounted _ t handle ht =>
    have hleave := numAt_leave (q := P2pPhase.outside) hc.pinCount ht (by simp)
    refine hc.move .outside (phases_goto _ _) ?_
    rw [numAt_pass (p := P2pPhase.unpinCount) (by simp [ht]) (by simp)]
    show s.pinsTotal + 1 + _ = s.unpinsTotal + BitVec.ofNat 64 (s.pinned.card + _)
    have hcount := hc.count
    rw [← hleave] at hcount
    bv_omega
  | @found t slot handle buf wasRevoked _ hpc _ hbuf _ =>
    have ht : s.phases t = .outside := by rw [P2pSt.phases, hpc]; rfl
    refine hc.pass rfl rfl rfl (setSlot_inUse hbuf.inUse) ?_ ?_ ?_ ?_ <;> simp [ht, P2pPc.phase]
  | chosen ht => refine hc.pass rfl rfl rfl (fun _ => rfl) ?_ ?_ ?_ ?_ <;> simp [ht, P2pPc.phase]
  | @released _ t slot call buf wasRevoked ht hbuf =>
    have hin := hi.unpinning t slot (by rw [ht]; rfl)
    obtain ⟨table, ho⟩ := hi.inUse slot hin
    rw [ho.pageTable]
    have hcard : ((s.release table call).setSlot slot buf).pinned.card + 1 = s.pinned.card :=
      card_clear (s := s.release table call) hin hbuf
    refine hc.move .unpinCount (phases_goto _ _) ?_
    rw [numAt_enter hc.unpinCount (by simp [ht]), numAt_pass (by simp [ht]) (by simp)]
    show s.pinsTotal + _ = s.unpinsTotal +
      BitVec.ofNat 64 (((s.release table call).setSlot slot buf).pinned.card + _)
    have hcount := hc.count
    rw [← hcard] at hcount
    bv_omega
  | @unpinCounted _ t callbacksFired ht =>
    have hleave := numAt_leave (q := P2pPhase.outside) hc.unpinCount ht (by simp)
    refine hc.move .outside (phases_goto _ _) ?_
    rw [numAt_pass (p := P2pPhase.pinCount) (by simp [ht]) (by simp)]
    show s.pinsTotal + _ = s.unpinsTotal + 1 + BitVec.ofNat 64 (s.pinned.card + _)
    have hcount := hc.count
    rw [← hleave] at hcount
    bv_omega
  | revoked => exact hc.same rfl rfl rfl (setSlot_inUse rfl)

end Count

/-! ## Runs -/

/-- No call is in progress. -/
def P2pSt.Quiet (s : P2pSt Tid) : Prop := ∀ t, s.pc t = .idle

/-- The page tables go back once, by the call that fits the callback, and the counters count the
slots in use. -/
structure PagesOk (s : P2pSt Tid) : Prop where
  fitting : ∀ p, ∀ call ∈ (s.tables p).releases, call = .fitting (s.tables p).fired
  once : ∀ p, p < s.nextTable → (s.tables p).releases.length ≤ 1
  back : s.Quiet → ∀ p, p < s.nextTable →
    (s.tables p).releases = [.fitting (s.tables p).fired] ∨
      (s.tables p).releases = [] ∧ ∃ i, (s.slots i).inUse = true ∧ (s.slots i).pageTable = some p
  count : s.Quiet → s.pinsTotal - s.unpinsTotal = BitVec.ofNat 64 s.pinned.card

variable [DecidableEq Tid] {s : P2pSt Tid} {ok : P2pSt Tid → P2pAct Tid → Prop}

omit [DecidableEq Tid] in
theorem pageInv_init : PageInv (p2pInit Tid) where
  lock := fun t => iff_of_false (fun h => Option.some_ne_none t h.symm) Bool.false_ne_true
  inUse := by rintro i ⟨⟩
  pinning := by rintro t i p ⟨⟩
  unpinning := by rintro t i ⟨⟩
  back := fun p hp => absurd hp (Nat.not_lt_zero p)

theorem pageInv (h : (p2pSys Tid).ReachableWith ok s) : PageInv s := by
  refine h.invariant (I := fun s => PageInv s) pageInv_init ?_
  intro s a s' hi _ hs
  rcases p2pStep_flow hs with hflow | hout
  · exact pageInv_flow hi hflow
  · exact hi.outside hout

omit [DecidableEq Tid] in
theorem countInv_init : CountInv (p2pInit Tid) := by
  have hnone (ph : P2pPhase) (h : ph ≠ .outside) (t : Tid) : (p2pInit Tid).phases t ≠ ph := h.symm
  have hpinned : (p2pInit Tid).pinned = ∅ := Finset.filter_false_of_mem fun _ _ => Bool.false_ne_true
  refine ⟨?_, ?_, ?_⟩
  · rw [show threadsAt (p2pInit Tid).phases .pinCount = ∅ from threadsAt_const (by simp)]
    exact Set.finite_empty
  · rw [show threadsAt (p2pInit Tid).phases .unpinCount = ∅ from threadsAt_const (by simp)]
    exact Set.finite_empty
  · rw [numAt_eq_zero (hnone .pinCount (by simp)), numAt_eq_zero (hnone .unpinCount (by simp)),
      hpinned]
    rfl

theorem countInv (h : (p2pSys Tid).ReachableWith ok s) : CountInv s := by
  refine h.invariant₂ (I := fun s => PageInv s) (J := fun s => CountInv s) (fun _ => pageInv)
    countInv_init ?_
  intro s a s' hi hc _ hs
  rcases p2pStep_flow hs with hflow | hout
  · exact countInv_flow hi hc hflow
  · exact hc.same hout.phases hout.pinsTotal hout.unpinsTotal fun i => by rw [hout.slots]

theorem rightCalls (h : (p2pSys Tid).ReachableWith FiresApart s) : RightCalls s := by
  refine h.invariant₂ (I := fun s => PageInv s) (J := fun s => RightCalls s) (fun _ => pageInv)
    ⟨by rintro t i p ⟨⟩, by rintro t i p call ⟨⟩, by rintro p call ⟨⟩⟩ ?_
  intro s a s' hi hr hok hs
  rcases p2pStep_flow hs with hflow | hout
  · exact rightCalls_flow hi hr hok hflow
  · exact hr.keep hout.tables (fun u => .inl (by rw [hout.phases])) fun _ _ _ _ => by
      rw [hout.slots]

omit [DecidableEq Tid] in
theorem phases_quiet (hq : s.Quiet) (t : Tid) : s.phases t = .outside := by
  rw [P2pSt.phases, hq t]; rfl

/-- Whatever the callback does, no page table goes back twice. -/
theorem releases_once (h : (p2pSys Tid).ReachableWith ok s) {p : Nat} (hp : p < s.nextTable) :
    (s.tables p).releases.length ≤ 1 := by
  rcases (pageInv h).back p hp with ⟨i, ho, _⟩ | hone
  · rw [ho.releases]; exact Nat.zero_le 1
  · exact hone.le

/-- Whatever the callback does, the counters count the slots in use. -/
theorem count_quiet (h : (p2pSys Tid).ReachableWith ok s) (hq : s.Quiet) :
    s.pinsTotal - s.unpinsTotal = BitVec.ofNat 64 s.pinned.card := by
  have hcount := (countInv h).count
  rw [numAt_eq_zero fun t => by rw [phases_quiet hq t]; simp,
    numAt_eq_zero fun t => by rw [phases_quiet hq t]; simp] at hcount
  bv_omega

/-- **Release of NVIDIA page tables.** In every run in which the callback comes neither before a
failing GPU_PIN has put its pages nor between the look of GPU_UNPIN at `gpu_revoked` and its
release call, every page table goes back exactly once, by `nv_free_page_table` if its callback has
fired and by `nv_put_pages` otherwise, and the counters count the slots in use. -/
theorem pages_released (h : (p2pSys Tid).ReachableWith FiresApart s) : PagesOk s := by
  have hi := pageInv h
  have hr := rightCalls h
  refine ⟨hr.made, fun p => releases_once h, fun hq p hp => ?_, count_quiet h⟩
  rcases hi.back p hp with ⟨i, ho, hwho⟩ | hone
  · refine .inr ⟨ho.releases, i, ?_, ho.pageTable⟩
    rcases hwho with hin | ⟨t, ht⟩
    · exact hin
    · rw [phases_quiet hq t] at ht; cases ht
  · obtain ⟨call, hcall⟩ := List.length_eq_one_iff.mp hone
    have hfit := hr.made p call (by rw [hcall]; exact List.mem_singleton_self call)
    exact .inl (by rw [hcall, hfit])

/-- Pins one page and gives it `handle`. -/
def pinOnePage (t : Fin 1) : List (P2pAct (Fin 1)) :=
  [.pin t 65536 65536 (.ok 1), .pinStep t true, .pinStep t true, .pinStep t true, .pinStep t true,
    .pinPublish t true, .pinCount t, .pinCopy t true]

/-- `cudaFree` while the buffer is pinned, then GPU_UNPIN. -/
theorem pages_released_revoked : ∃ s : P2pSt (Fin 1), s.Quiet ∧ (s.tables 0).fired = true ∧
    (s.tables 0).releases = [.freePageTable] ∧ s.callbacksFired = 1 ∧
      s.pinsTotal - s.unpinsTotal = BitVec.ofNat 64 s.pinned.card := by
  obtain ⟨s, hr, hq, hfired, hrel, hcb⟩ : ∃ s : P2pSt (Fin 1),
      (p2pSys (Fin 1)).ReachableWith FiresApart s ∧ (∀ t, s.pc t = .idle) ∧
        (s.tables 0).fired = true ∧ (s.tables 0).releases = [.freePageTable] ∧
        s.callbacksFired = 1 :=
    Transition.Sys.exists_of_execWith
      (pinOnePage 0 ++ ([.callback 0, .unpin 0 1, .unpinFind 0, .unpinCheck 0, .unpinRelease 0,
        .unpinCount 0] : List (P2pAct (Fin 1)))) (by decide +kernel)
  exact ⟨s, hq, hfired, hrel, hcb, (pages_released hr).count hq⟩

/-- The callback comes while GPU_PIN maps the pages, and `kcalloc` fails; or it comes between the
look of GPU_UNPIN at `gpu_revoked` and its release call. Either way `nv_put_pages` is called on a
page table whose callback has fired. -/
theorem put_pages_after_callback :
    (∃ s : P2pSt (Fin 1), (p2pSys (Fin 1)).Reachable s ∧ s.nextTable = 1 ∧
      (s.tables 0).fired = true ∧ (s.tables 0).releases = [.putPages] ∧ s.unpinsTotal = 0) ∧
    (∃ s : P2pSt (Fin 1), (p2pSys (Fin 1)).Reachable s ∧ s.nextTable = 1 ∧
      (s.tables 0).fired = true ∧ (s.tables 0).releases = [.putPages] ∧ s.unpinsTotal = 1) ∧
    ¬ ∀ s : P2pSt (Fin 1), (p2pSys (Fin 1)).Reachable s → PagesOk s := by
  have hpin : ∃ s : P2pSt (Fin 1), (p2pSys (Fin 1)).Reachable s ∧ s.nextTable = 1 ∧
      (s.tables 0).fired = true ∧ (s.tables 0).releases = [.putPages] ∧ s.unpinsTotal = 0 :=
    Transition.Sys.exists_of_exec
      [.pin 0 65536 65536 (.ok 1), .pinStep 0 true, .pinStep 0 true, .callback 0, .pinStep 0 false,
        .pinPutPages 0] (by decide +kernel)
  have hunpin : ∃ s : P2pSt (Fin 1), (p2pSys (Fin 1)).Reachable s ∧ s.nextTable = 1 ∧
      (s.tables 0).fired = true ∧ (s.tables 0).releases = [.putPages] ∧ s.unpinsTotal = 1 :=
    Transition.Sys.exists_of_exec
      (pinOnePage 0 ++ ([.unpin 0 1, .unpinFind 0, .unpinCheck 0, .callback 0, .unpinRelease 0,
        .unpinCount 0] : List (P2pAct (Fin 1)))) (by decide +kernel)
  refine ⟨hpin, hunpin, fun hall => ?_⟩
  obtain ⟨s, hr, _, hfired, hrel, _⟩ := hpin
  have hfit := (hall s hr).fitting 0 .putPages (by rw [hrel]; exact List.mem_singleton_self _)
  rw [hfired] at hfit; cases hfit

end Dmaplane
