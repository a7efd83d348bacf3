import Dmaplane.P2pTables

/-!
# Dmaplane.P2pMappings

The mappings of a pinned region and who uses them: a copy goes through `bar_pages` of the slot that
its lookup found, a post through the `sge_addr` that GPU_REGISTER_MR put into an MR. Neither looks
again at whether the region is still pinned, and a post does not look at `gpu_revoked`.

* `Referred`, `MrReferred`: who depends on a region, in progress or in the MR table.
* `Spares`: GPU_UNPIN leaves the regions alone that somebody refers to, and the callback those that
  an MR refers to.
* `MapInv`: what slots, calls and MRs rely on, kept by every step that spares.
-/

namespace Dmaplane

variable {Tid : Type}

/-- The slot holds the region with its mappings in place. -/
structure P2pSlot.Maps (buf : P2pSlot) (p : Nat) : Prop where
  inUse : buf.inUse = true
  pageTable : buf.pageTable = some p
  barPages : buf.barPages = some p
  rdmaVaddr : ∀ q, buf.rdmaVaddr = some q → q = p

def Pinned (s : P2pSt Tid) (p : Nat) : Prop := ∃ i, (s.slots i).Maps p

/-- The region that `sge_addr` points into. -/
def P2pMr.region (mr : P2pMr) : Option Nat :=
  match mr.sgeAddr with
  | .host => none
  | .rdma vaddr => vaddr

/-- A registration in progress found the region. -/
def P2pPc.registers (p : Nat) : P2pPc → Bool
  | .registerMap _ region | .registerPublish _ region => region == some p
  | _ => false

/-- A call in progress found the region, or an MR of it. -/
def P2pPc.refers (p : Nat) : P2pPc → Bool
  | .copyHost _ _ region _ _ | .copyCheck _ region _ _ | .copyRun _ region _ _
  | .registerMap _ region | .registerPublish _ region => region == some p
  | .opPost _ mrs _ => mrs.any fun mr => mr.region == some p
  | _ => false

/-- An MR of the region is in the table. -/
def InMrs (s : P2pSt Tid) (p : Nat) : Prop :=
  ∃ k, (s.mrs k).inUse = true ∧ (s.mrs k).region = some p

def MrReferred (s : P2pSt Tid) (p : Nat) : Prop :=
  (∃ t, (s.pc t).registers p = true) ∨ InMrs s p

def Referred (s : P2pSt Tid) (p : Nat) : Prop := (∃ t, (s.pc t).refers p = true) ∨ InMrs s p

/-- GPU_UNPIN comes to a region that nobody refers to, and the callback to one that no MR does. -/
def Spares (s : P2pSt Tid) : P2pAct Tid → Prop
  | .unpinFind t =>
    match s.pc t with
    | .unpinFind handle =>
      match (s.findSlot handle).bind fun i => (s.slots i).pageTable with
      | some p => ¬ Referred s p
      | none => True
    | _ => True
  | .callback p => ¬ MrReferred s p
  | _ => True

section Decidable

variable [Fintype Tid] (s : P2pSt Tid) (p : Nat)

instance : Decidable (InMrs s p) := by unfold InMrs; infer_instance

instance : Decidable (MrReferred s p) := by unfold MrReferred; infer_instance

instance : Decidable (Referred s p) := by unfold Referred; infer_instance

instance (a : P2pAct Tid) : Decidable (Spares s a) :=
  decidable_of_bool
    (match a with
      | .unpinFind t =>
        match s.pc t with
        | .unpinFind handle =>
          match (s.findSlot handle).bind fun i => (s.slots i).pageTable with
          | some p => decide (¬ Referred s p)
          | none => true
        | _ => true
      | .callback p => decide (¬ MrReferred s p)
      | _ => true)
    (by unfold Spares; split <;> [(split <;> [split <;> simp; simp]); simp; simp])

end Decidable

/-! ## What is relied on -/

/-- The MR points into a pinned region that was not revoked at the time of `revoked`. -/
def P2pMr.Good (s : P2pSt Tid) (revoked : Nat → Prop) (mr : P2pMr) : Prop :=
  mr.sgeAddr = .host ∨ ∃ p, mr.sgeAddr = .rdma (some p) ∧ Pinned s p ∧ ¬ revoked p

/-- What a thread relies on between two steps. -/
def Relies (s : P2pSt Tid) : P2pPc → Prop
  | .pin slot table (.ioremap _) | .pinPublish slot table => (s.slots slot).barPages = some table
  | .copyFind _ start | .opFind _ start =>
    ∀ p ∈ start, p < s.nextTable ∧ (s.tables p).fired = true
  | .copyHost _ slot region _ start | .copyCheck slot region _ start
  | .copyRun slot region _ start => ∃ p, region = some p ∧ (s.slots slot).Maps p ∧ p ∉ start
  | .registerMap slot region | .registerPublish slot region =>
    ∃ p, region = some p ∧ (s.slots slot).Maps p ∧ (s.slots slot).rdmaVaddr = some p ∧
      (s.tables p).fired = false
  | .opPost _ mrs start => ∀ mr ∈ mrs, mr.Good s (· ∈ start)
  | _ => True

structure MapInv (s : P2pSt Tid) : Prop where
  inUse : ∀ i, (s.slots i).inUse = true →
    (∃ p, (s.slots i).Maps p) ∨ ∃ t, (s.phases t).unpins = some i
  unmapped : ∀ t i, (s.phases t).unpins = some i → (s.slots i).barPages = none
  calls : ∀ t, Relies s (s.pc t)
  mrs : ∀ k, (s.mrs k).inUse = true → (s.mrs k).Good s fun p => (s.tables p).fired = true

/-- What is relied on of a region before a step holds after it. -/
structure Spared (s s' : P2pSt Tid) : Prop where
  slot : ∀ i p, (s.slots i).Maps p → Referred s p →
    (s'.slots i).Maps p ∧ (s'.slots i).rdmaVaddr = (s.slots i).rdmaVaddr
  next : s.nextTable ≤ s'.nextTable
  fired : ∀ p, p < s.nextTable → (s.tables p).fired = true → (s'.tables p).fired = true
  live : ∀ p, p < s.nextTable → MrReferred s p → (s.tables p).fired = false →
    (s'.tables p).fired = false

section Core

variable {s s' : P2pSt Tid}

theorem plain_relies {pc : P2pPc} (h : pc.plain = true) : Relies s pc := by
  cases pc with
  | pin slot table stage => cases stage <;> trivial
  | _ => trivial

theorem locked_of_maps {pc : P2pPc} {x : Fin maxGpuBuffers × Nat} (h : pc.maps = some x) :
    pc.phase.locked = true := by
  cases pc with
  | pin slot table stage => rfl
  | _ => first | rfl | cases h

theorem relies_of_maps {pc : P2pPc} {i : Fin maxGpuBuffers} {p : Nat} (h : pc.maps = some (i, p))
    (hbar : (s.slots i).barPages = some p) : Relies s pc := by
  cases pc with
  | pin slot table stage => cases stage <;> cases h; exact hbar
  | pinPublish slot table => cases h; exact hbar
  | _ => cases h

theorem maps_relies {pc : P2pPc} {i : Fin maxGpuBuffers} {p : Nat} (h : pc.maps = some (i, p))
    (hrel : Relies s pc) : (s.slots i).barPages = some p := by
  cases pc with
  | pin slot table stage => cases stage <;> cases h; exact hrel
  | pinPublish slot table => cases h; exact hrel
  | _ => cases h

theorem registers_refers {pc : P2pPc} {p : Nat} (h : pc.registers p = true) :
    pc.refers p = true := by
  cases pc with
  | registerMap _ _ => exact h
  | registerPublish _ _ => exact h
  | _ => cases h

theorem MrReferred.referred {p : Nat} (h : MrReferred s p) : Referred s p :=
  h.imp_left fun ⟨t, ht⟩ => ⟨t, registers_refers ht⟩

/-- The region of a mapped slot is the page table that the slot answers for. -/
theorem P2pSlot.Maps.owned (hi : PageInv s) {i : Fin maxGpuBuffers} {p : Nat}
    (h : (s.slots i).Maps p) : Owned s i p := by
  obtain ⟨q, hq⟩ := hi.inUse i h.inUse
  obtain rfl := Option.some.inj (h.pageTable.symm.trans hq.pageTable)
  exact hq

theorem Pinned.lt (hi : PageInv s) {p : Nat} (h : Pinned s p) : p < s.nextTable := by
  obtain ⟨i, hm⟩ := h
  exact (hm.owned hi).lt

theorem Spared.pinned (h : Spared s s') {p : Nat} (hp : Pinned s p) (href : Referred s p) :
    Pinned s' p := by
  obtain ⟨i, hm⟩ := hp
  exact ⟨i, (h.slot i p hm href).1⟩

theorem Relies.keep (hi : PageInv s) (h : Spared s s') {t : Tid} (hrel : Relies s (s.pc t))
    (hmaps : ∀ i p, (s.pc t).maps = some (i, p) →
      (s'.slots i).barPages = (s.slots i).barPages) : Relies s' (s.pc t) := by
  have href (p : Nat) (hp : (s.pc t).refers p = true) : Referred s p := .inl ⟨t, hp⟩
  have hreg (p : Nat) (hp : (s.pc t).registers p = true) : MrReferred s p := .inl ⟨t, hp⟩
  have hstart {start : List Nat} (hs : ∀ p ∈ start, p < s.nextTable ∧ (s.tables p).fired = true) :
      ∀ p ∈ start, p < s'.nextTable ∧ (s'.tables p).fired = true := by
    intro p hp
    obtain ⟨hlt, hfired⟩ := hs p hp
    exact ⟨hlt.trans_le h.next, h.fired p hlt hfired⟩
  generalize s.pc t = pc at *
  have hcopy {slot : Fin maxGpuBuffers} {region : Option Nat} {start : List Nat}
      (href : ∀ p, (region == some p) = true → Referred s p)
      (hs : ∃ p, region = some p ∧ (s.slots slot).Maps p ∧ p ∉ start) :
      ∃ p, region = some p ∧ (s'.slots slot).Maps p ∧ p ∉ start := by
    obtain ⟨p, rfl, hm, hnot⟩ := hs
    exact ⟨p, rfl, (h.slot slot p hm (href p (by simp))).1, hnot⟩
  have hmr {slot : Fin maxGpuBuffers} {region : Option Nat}
      (hreg : ∀ p, (region == some p) = true → MrReferred s p)
      (hs : ∃ p, region = some p ∧ (s.slots slot).Maps p ∧ (s.slots slot).rdmaVaddr = some p ∧
        (s.tables p).fired = false) :
      ∃ p, region = some p ∧ (s'.slots slot).Maps p ∧ (s'.slots slot).rdmaVaddr = some p ∧
        (s'.tables p).fired = false := by
    obtain ⟨p, rfl, hm, hv, hfired⟩ := hs
    have hr := hreg p (by simp)
    obtain ⟨hm', hv'⟩ := h.slot slot p hm hr.referred
    exact ⟨p, rfl, hm', hv'.trans hv, h.live p (hm.owned hi).lt hr hfired⟩
  cases pc with
  | pin slot table stage =>
    cases stage with
    | ioremap left => exact (hmaps slot table rfl).trans hrel
    | _ => trivial
  | pinPublish slot table => exact (hmaps slot table rfl).trans hrel
  | copyFind _ _ => exact hstart hrel
  | opFind _ _ => exact hstart hrel
  | copyHost _ _ _ _ _ => exact hcopy href hrel
  | copyCheck _ _ _ _ => exact hcopy href hrel
  | copyRun _ _ _ _ => exact hcopy href hrel
  | registerMap _ _ => exact hmr hreg hrel
  | registerPublish _ _ => exact hmr hreg hrel
  | opPost _ mrs _ =>
    intro mr hmem
    refine (hrel mr hmem).imp_right fun ⟨p, hsge, hpin, hnot⟩ => ⟨p, hsge, ?_, hnot⟩
    refine h.pinned hpin (href p (List.any_eq_true.mpr ⟨mr, hmem, ?_⟩))
    simp [P2pMr.region, hsge]
  | _ => trivial

/-- The MRs of the table stay good. -/
theorem good_keep (hi : PageInv s) (h : Spared s s') {k : Fin maxMrs}
    (hin : (s.mrs k).inUse = true) (hgood : (s.mrs k).Good s fun p => (s.tables p).fired = true) :
    (s.mrs k).Good s' fun p => (s'.tables p).fired = true := by
  refine hgood.imp_right fun ⟨p, hsge, hpin, hlive⟩ => ?_
  have hreg : MrReferred s p := .inr ⟨k, hin, by simp [P2pMr.region, hsge]⟩
  have hfired := h.live p (hpin.lt hi) hreg (Bool.eq_false_of_not_eq_true hlive)
  exact ⟨p, hsge, h.pinned hpin hreg.referred, ne_true_of_eq_false hfired⟩

/-- A step that spares what others refer to. -/
theorem MapInv.step (hi : PageInv s) (hm : MapInv s) (h : Spared s s')
    (hpc : ∀ u, (s'.pc u = s.pc u ∧ ∀ i p, (s.pc u).maps = some (i, p) →
      (s'.slots i).barPages = (s.slots i).barPages) ∨ Relies s' (s'.pc u))
    (hmrs : ∀ k, s'.mrs k = s.mrs k ∨
      ((s'.mrs k).inUse = true → (s'.mrs k).Good s' fun p => (s'.tables p).fired = true))
    (hin : ∀ i, (s'.slots i).inUse = true →
      (∃ p, (s'.slots i).Maps p) ∨ ∃ t, (s'.phases t).unpins = some i)
    (hun : ∀ t i, (s'.phases t).unpins = some i → (s'.slots i).barPages = none) : MapInv s' := by
  refine ⟨hin, hun, fun u => ?_, fun k hk => ?_⟩
  · rcases hpc u with ⟨heq, hmaps⟩ | hrel
    · rw [heq]; exact (hm.calls u).keep hi h hmaps
    · exact hrel
  · rcases hmrs k with heq | hgood
    · rw [heq] at hk ⊢; exact good_keep hi h hk (hm.mrs k hk)
    · exact hgood hk

end Core

/-! ## Pin, unpin and the callback -/

section Steps

variable {s s' : P2pSt Tid}

/-- Slots and page tables stay, but for the releases. -/
theorem Spared.same (hslots : s'.slots = s.slots) (hnext : s'.nextTable = s.nextTable)
    (hfired : ∀ p, (s'.tables p).fired = (s.tables p).fired) : Spared s s' where
  slot := fun i p hm _ => ⟨by rw [hslots]; exact hm, by rw [hslots]⟩
  next := hnext.ge
  fired := fun p _ h => (hfired p).trans h
  live := fun p _ _ h => (hfired p).trans h

/-- The step touches the slot `i₀`, that nobody refers to. -/
theorem Spared.touch (i₀ : Fin maxGpuBuffers) (hslots : ∀ j, j ≠ i₀ → s'.slots j = s.slots j)
    (hunref : ∀ p, (s.slots i₀).Maps p → ¬ Referred s p) (hnext : s.nextTable ≤ s'.nextTable)
    (hfired : ∀ p, p < s.nextTable → (s'.tables p).fired = (s.tables p).fired) : Spared s s' where
  slot := by
    intro i p hm href
    have hne : i ≠ i₀ := by rintro rfl; exact hunref p hm href
    exact ⟨by rw [hslots i hne]; exact hm, by rw [hslots i hne]⟩
  next := hnext
  fired := fun p hp h => (hfired p hp).trans h
  live := fun p hp _ h => (hfired p hp).trans h

variable [DecidableEq Tid] {t : Tid} {slot : Fin maxGpuBuffers} {buf : P2pSlot}

theorem pc_goto (t : Tid) (pc : P2pPc) (u : Tid) :
    (s.goto t pc).pc u = if u = t then pc else s.pc u := Function.update_apply _ _ _ _

/-- `t` moves on; the slots and who unpins them stay. -/
theorem MapInv.pass (pc : P2pPc) (hi : PageInv s) (hm : MapInv s) (hslots : s'.slots = s.slots)
    (hpcs : s'.pc = s.pc) (hnext : s'.nextTable = s.nextTable)
    (hfired : ∀ p, (s'.tables p).fired = (s.tables p).fired)
    (hmrs : ∀ k, s'.mrs k = s.mrs k ∨
      ((s'.mrs k).inUse = true → (s'.mrs k).Good s' fun p => (s'.tables p).fired = true))
    (hpc : Relies s' pc) (hunpins : pc.phase.unpins = (s.phases t).unpins) :
    MapInv (s'.goto t pc) := by
  have hphases : s'.phases = s.phases := by unfold P2pSt.phases; rw [hpcs]
  have hstay (u : Tid) : ((s'.goto t pc).phases u).unpins = (s.phases u).unpins := by
    rw [phases_goto_same P2pPhase.unpins (by rw [hphases]; exact hunpins), hphases]
  refine hm.step hi (.same hslots hnext hfired) (fun u => ?_) hmrs (fun i hin => ?_) fun u i hu => ?_
  · rw [pc_goto]
    split
    · exact .inr hpc
    · refine .inl ⟨by rw [hpcs], fun i p _ => ?_⟩
      show (s'.slots i).barPages = _
      rw [hslots]
  · have hin' : (s.slots i).inUse = true := by rw [← hslots]; exact hin
    rcases hm.inUse i hin' with ⟨p, hp⟩ | ⟨u, hu⟩
    · refine .inl ⟨p, ?_⟩
      show (s'.slots i).Maps p
      rw [hslots]; exact hp
    · exact .inr ⟨u, (hstay u).trans hu⟩
  · rw [hstay] at hu
    show (s'.slots i).barPages = none
    rw [hslots]; exact hm.unmapped u i hu

omit [DecidableEq Tid] in
/-- A step under the lock: nobody else is inside of pin or unpin, and the slot `i₀` changes. -/
theorem MapInv.touch (hi : PageInv s) (hm : MapInv s) (i₀ : Fin maxGpuBuffers)
    (hslots : ∀ j, j ≠ i₀ → s'.slots j = s.slots j)
    (hunref : ∀ p, (s.slots i₀).Maps p → ¬ Referred s p) (hnext : s.nextTable ≤ s'.nextTable)
    (hfired : ∀ p, p < s.nextTable → (s'.tables p).fired = (s.tables p).fired)
    (hmrs : s'.mrs = s.mrs)
    (hpc : ∀ u, s'.pc u = s.pc u ∧ (s.phases u).locked = false ∨ Relies s' (s'.pc u))
    (hwas : ∀ u i, (s.phases u).unpins = some i → i = i₀)
    (hin : (s'.slots i₀).inUse = true →
      (∃ p, (s'.slots i₀).Maps p) ∨ ∃ u, (s'.phases u).unpins = some i₀)
    (hun : ∀ u i, (s'.phases u).unpins = some i → (s'.slots i).barPages = none) : MapInv s' := by
  refine hm.step hi (.touch i₀ hslots hunref hnext hfired) (fun u => ?_)
    (fun k => .inl (by rw [hmrs])) (fun i hi' => ?_) hun
  · refine (hpc u).imp_left fun ⟨heq, hfree⟩ => ⟨heq, fun i p hmaps => ?_⟩
    exact absurd (locked_of_maps hmaps) (ne_true_of_eq_false hfree)
  · by_cases hs : i = i₀
    · subst hs; exact hin hi'
    · rw [hslots i hs] at hi'
      rcases hm.inUse i hi' with ⟨p, hp⟩ | ⟨u, hu⟩
      · exact .inl ⟨p, by rw [hslots i hs]; exact hp⟩
      · exact absurd (hwas u i hu) hs

omit [DecidableEq Tid] in
/-- A slot that is free, or whose mappings are gone, is referred to by nobody. -/
theorem not_referred {i : Fin maxGpuBuffers}
    (h : (s.slots i).inUse = false ∨ (s.slots i).barPages = none) (p : Nat)
    (hmaps : (s.slots i).Maps p) : ¬ Referred s p := by
  rcases h with h | h
  · exact absurd hmaps.inUse (ne_true_of_eq_false h)
  · exact absurd hmaps.barPages (by rw [h]; exact (Option.some_ne_none p).symm)

/-- Of the threads, `t` alone may be inside of pin or unpin. -/
theorem other_pc {pc : P2pPc} (hfree : ∀ u, u ≠ t → (s.phases u).locked = false)
    (hpcs : s'.pc = s.pc) (hpc : Relies s' pc) (u : Tid) :
    (s'.goto t pc).pc u = s.pc u ∧ (s.phases u).locked = false ∨
      Relies (s'.goto t pc) ((s'.goto t pc).pc u) := by
  rw [pc_goto]
  split
  · exact .inr hpc
  · rename_i hu
    exact .inl ⟨by rw [hpcs], hfree u hu⟩

omit [DecidableEq Tid] in
theorem free_but (hi : PageInv s) (ht : (s.phases t).locked = true) (u : Tid) (hu : u ≠ t) :
    (s.phases u).locked = false :=
  Bool.eq_false_of_not_eq_true fun h => hu (hi.solo ht h)

omit [DecidableEq Tid] in
/-- The thread inside of pin or unpin is the one that unpins, if any does. -/
theorem unpins_solo (hi : PageInv s) (ht : (s.phases t).locked = true) {u : Tid}
    {i : Fin maxGpuBuffers} (h : (s.phases u).unpins = some i) : (s.phases t).unpins = some i := by
  rw [← hi.solo ht (locked_of_unpins h)]; exact h

omit [DecidableEq Tid] in
theorem release_fired (table : Nat) (call : NvRelease) (p : Nat) :
    ((s.release table call).tables p).fired = (s.tables p).fired := by
  unfold P2pSt.release
  by_cases hp : p = table
  · subst hp; simp
  · simp [hp]

omit [DecidableEq Tid] in
/-- `gpu_revoked` alone changes. -/
theorem revoked_slot {β : Type} (f : P2pSlot → β)
    (h : f { s.slots slot with gpuRevoked := true } = f (s.slots slot)) (i : Fin maxGpuBuffers) :
    f ((s.setSlot slot { s.slots slot with gpuRevoked := true }).slots i) = f (s.slots i) := by
  by_cases hi : i = slot
  · subst hi; rw [P2pSt.slots_setSlot_self, h]
  · rw [P2pSt.slots_setSlot_ne hi]

omit [DecidableEq Tid] in
theorem revoked_maps {i : Fin maxGpuBuffers} {p : Nat} (h : (s.slots i).Maps p) :
    ((s.setSlot slot { s.slots slot with gpuRevoked := true }).slots i).Maps p :=
  ⟨(revoked_slot (·.inUse) rfl i).trans h.inUse,
    (revoked_slot (·.pageTable) rfl i).trans h.pageTable,
    (revoked_slot (·.barPages) rfl i).trans h.barPages,
    fun q hq => h.rdmaVaddr q ((revoked_slot (·.rdmaVaddr) rfl i).symm.trans hq)⟩

omit [DecidableEq Tid] in
/-- While a slot is being pinned, none is being unpinned. -/
theorem pinning_unpins (hi : PageInv s) {table : Nat} {failed : Bool}
    (ht : s.phases t = .pinning slot table failed) (u : Tid) (i : Fin maxGpuBuffers) :
    (s.phases u).unpins ≠ some i := by
  intro h
  have hunp := unpins_solo hi (by rw [ht]; rfl) h
  rw [ht] at hunp; cases hunp

omit [DecidableEq Tid] in
theorem map_cleared (hi : PageInv s) (hm : MapInv s) (hlock : s.lock = none)
    (hfree : (s.slots slot).inUse = false) (hbuf : buf.inUse = false) :
    MapInv (s.setSlot slot buf) := by
  refine hm.touch hi slot (fun _ hj => P2pSt.slots_setSlot_ne hj buf) (not_referred (.inl hfree))
    le_rfl (fun _ _ => rfl) rfl (fun u => .inl ⟨rfl, hi.free hlock u⟩) (fun u i h => ?_)
    (fun h => ?_) fun u i h => ?_
  · exact absurd h (hi.free_unpins hlock u i)
  · rw [P2pSt.slots_setSlot_self, hbuf] at h; cases h
  · exact absurd h (hi.free_unpins hlock u i)

theorem map_got {pc : P2pPc} {entries : Nat} (hi : PageInv s) (hm : MapInv s)
    (hlock : s.lock = none) (hfree : (s.slots slot).inUse = false) (hbuf : buf.inUse = false)
    (hpc : pc.phase = .pinning slot s.nextTable false) (hplain : pc.plain = true) :
    MapInv ({ s.setSlot slot buf with
      tables := Function.update s.tables s.nextTable ⟨entries, slot, false, []⟩
      nextTable := s.nextTable + 1
      lock := some t }.goto t pc) := by
  refine hm.touch hi slot (fun _ hj => P2pSt.slots_setSlot_ne hj buf) (not_referred (.inl hfree))
    (Nat.le_succ _) (fun p hp => ?_) rfl
    (other_pc (fun u _ => hi.free hlock u) rfl (plain_relies hplain)) (fun u i h => ?_)
    (fun h => ?_) fun u i h => ?_
  · exact congrArg NvTable.fired (Function.update_of_ne (Nat.ne_of_lt hp) _ _)
  · exact absurd h (hi.free_unpins hlock u i)
  · have hin : ((s.setSlot slot buf).slots slot).inUse = true := h
    rw [P2pSt.slots_setSlot_self, hbuf] at hin; cases hin
  · rw [phases_goto_apply] at h
    split at h
    · rw [hpc] at h; cases h
    · exact absurd h (hi.free_unpins hlock u i)

theorem map_pinned {pc : P2pPc} {ok : Bool} {table : Nat} (hi : PageInv s) (hm : MapInv s)
    (ht : s.phases t = .pinning slot table false) (hbuf : SameButMappings (s.slots slot) buf)
    (hpc : pc.phase = .pinning slot table (!ok)) (hrel : Relies (s.setSlot slot buf) pc) :
    MapInv ((s.setSlot slot buf).goto t pc) := by
  have hlt : (s.phases t).locked = true := by rw [ht]; rfl
  have hfree := (hi.pinning t slot table (by rw [ht]; rfl)).2
  refine hm.touch hi slot (fun _ hj => P2pSt.slots_setSlot_ne hj buf) (not_referred (.inl hfree))
    le_rfl (fun _ _ => rfl) rfl (other_pc (free_but hi hlt) rfl hrel)
    (fun u i h => absurd h (pinning_unpins hi ht u i)) (fun h => ?_) fun u i h => ?_
  · have hin : ((s.setSlot slot buf).slots slot).inUse = true := h
    rw [P2pSt.slots_setSlot_self, hbuf.inUse, hfree] at hin; cases hin
  · rw [phases_goto_apply] at h
    split at h
    · rw [hpc] at h; cases h
    · exact absurd h (pinning_unpins hi ht u i)

theorem map_published {table : Nat} {nextGpuBufId handle : BitVec 32} (hi : PageInv s)
    (hm : MapInv s) (ht : s.phases t = .pinning slot table false) (hnew : buf.Maps table) :
    MapInv ({ s.setSlot slot buf with nextGpuBufId := nextGpuBufId }.unlock.goto t
      (.pinCount handle)) := by
  have hlt : (s.phases t).locked = true := by rw [ht]; rfl
  have hfree := (hi.pinning t slot table (by rw [ht]; rfl)).2
  refine hm.touch hi slot (fun _ hj => P2pSt.slots_setSlot_ne hj buf) (not_referred (.inl hfree))
    le_rfl (fun _ _ => rfl) rfl (other_pc (free_but hi hlt) rfl trivial)
    (fun u i h => absurd h (pinning_unpins hi ht u i)) (fun _ => .inl ⟨table, ?_⟩) fun u i h => ?_
  · show ((s.setSlot slot buf).slots slot).Maps table
    rw [P2pSt.slots_setSlot_self]; exact hnew
  · rw [phases_goto_apply] at h
    split at h
    · cases h
    · exact absurd h (pinning_unpins hi ht u i)

theorem map_found {wasRevoked : Bool} (hi : PageInv s) (hm : MapInv s) (hlock : s.lock = none)
    (hunref : ∀ p, (s.slots slot).Maps p → ¬ Referred s p) (hbar : buf.barPages = none) :
    MapInv ({ s.setSlot slot buf with lock := some t }.goto t (.unpinCheck slot wasRevoked)) := by
  refine hm.touch hi slot (fun _ hj => P2pSt.slots_setSlot_ne hj buf) hunref le_rfl (fun _ _ => rfl)
    rfl (other_pc (fun u _ => hi.free hlock u) rfl trivial)
    (fun u i h => absurd h (hi.free_unpins hlock u i)) (fun _ => .inr ⟨t, ?_⟩) fun u i h => ?_
  · rw [phases_goto_apply, if_pos rfl]; rfl
  · rw [phases_goto_apply] at h
    split at h
    · cases h
      show ((s.setSlot slot buf).slots slot).barPages = none
      rw [P2pSt.slots_setSlot_self]; exact hbar
    · exact absurd h (hi.free_unpins hlock u i)

theorem map_released {table : Nat} {call : NvRelease} {wasRevoked : Bool} (hi : PageInv s)
    (hm : MapInv s) (ht : s.phases t = .unpinning slot (some call)) (hbuf : buf.inUse = false) :
    MapInv (((s.release table call).setSlot slot buf).unlock.goto t (.unpinCount wasRevoked)) := by
  have hlt : (s.phases t).locked = true := by rw [ht]; rfl
  have hunp : (s.phases t).unpins = some slot := by rw [ht]; rfl
  refine hm.touch hi slot (fun _ hj => P2pSt.slots_setSlot_ne hj buf)
    (not_referred (.inr (hm.unmapped t slot hunp))) le_rfl (fun p _ => release_fired table call p)
    rfl (other_pc (free_but hi hlt) rfl trivial)
    (fun u i h => Option.some.inj ((unpins_solo hi hlt h).symm.trans hunp)) (fun h => ?_)
    fun u i h => ?_
  · have hin : (((s.release table call).setSlot slot buf).slots slot).inUse = true := h
    rw [P2pSt.slots_setSlot_self, hbuf] at hin; cases hin
  · rw [phases_goto_apply] at h
    split at h
    · cases h
    · rename_i hu
      exact absurd (locked_of_unpins h) (ne_true_of_eq_false (free_but hi hlt u hu))

omit [DecidableEq Tid] in
theorem map_revoked {table : Nat} (hi : PageInv s) (hm : MapInv s) (hok : ¬ MrReferred s table) :
    MapInv { s.setSlot slot { s.slots slot with gpuRevoked := true } with
      tables := Function.update s.tables table { s.tables table with fired := true } } := by
  refine hm.step hi ⟨fun i p hmaps _ => ⟨?_, ?_⟩, le_rfl, fun p _ h => ?_, fun p _ hreg h => ?_⟩
    (fun u => .inl ⟨rfl, fun i _ _ => ?_⟩) (fun k => .inl rfl) (fun i hin => ?_) fun u i hu => ?_
  · exact revoked_maps hmaps
  · exact revoked_slot (·.rdmaVaddr) rfl i
  · by_cases hp : p = table
    · subst hp; exact congrArg NvTable.fired (Function.update_self p _ s.tables)
    · exact (congrArg NvTable.fired (Function.update_of_ne hp _ s.tables)).trans h
  · have hp : p ≠ table := by rintro rfl; exact hok hreg
    exact (congrArg NvTable.fired (Function.update_of_ne hp _ s.tables)).trans h
  · exact revoked_slot (·.barPages) rfl i
  · refine (hm.inUse i ?_).imp_left fun ⟨p, hp⟩ => ⟨p, revoked_maps hp⟩
    exact (revoked_slot (·.inUse) rfl i).symm.trans hin
  · exact (revoked_slot (·.barPages) rfl i).trans (hm.unmapped u i hu)

theorem mapInv_flow {a : P2pAct Tid} (hi : PageInv s) (hm : MapInv s) (hok : Spares s a)
    (h : P2pFlow s a s') : MapInv s' := by
  cases h with
  | same => exact hm
  | moved hpc hplain =>
    exact hm.pass _ hi rfl rfl rfl (fun _ => rfl) (fun _ => .inl rfl) (plain_relies hplain)
      (congrArg P2pPhase.unpins hpc)
  | cleared hlock hfree hbuf => exact map_cleared hi hm hlock hfree hbuf
  | got hlock hfree hbuf _ _ _ hpc hplain => exact map_got hi hm hlock hfree hbuf hpc hplain
  | @pinned t ok slot table buf pc ht hbuf hpc hmaps =>
    refine map_pinned hi hm ht hbuf hpc ?_
    rcases hmaps with hplain | ⟨hpcm, hbar⟩
    · exact plain_relies hplain
    · refine relies_of_maps hpcm ?_
      rw [P2pSt.slots_setSlot_self]
      rcases hbar with hbar | ⟨hwas, hsame⟩
      · exact hbar
      · exact hsame.trans (maps_relies hwas (hm.calls t))
  | undone ht =>
    exact hm.pass .idle hi rfl rfl rfl (release_fired _ .putPages) (fun _ => .inl rfl) trivial
      (by rw [ht]; rfl)
  | @published _ t slot table buf nextGpuBufId handle hpc hbuf hbar hrdma =>
    have ht : s.phases t = .pinning slot table false := by rw [P2pSt.phases, hpc]; rfl
    have ho := (hi.pinning t slot table (by rw [ht]; rfl)).1
    have hwas := maps_relies (by rw [hpc]; rfl) (hm.calls t)
    exact map_published hi hm ht
      ⟨hbuf.inUse, hbuf.pageTable.trans ho.pageTable, hbar.trans hwas, hrdma⟩
  | pinCounted ht =>
    refine hm.pass (.pinCopy _) hi rfl rfl rfl (fun _ => rfl) (fun _ => .inl rfl) trivial ?_
    rw [ht]; rfl
  | @found t slot handle buf wasRevoked hlock hpc hfind hbuf hbar =>
    refine map_found hi hm hlock (fun p hmaps => ?_) hbar
    simpa only [Spares, hpc, hfind, Option.bind_some, hmaps.pageTable] using hok
  | chosen ht =>
    refine hm.pass (.unpinRelease _ _ _) hi rfl rfl rfl (fun _ => rfl) (fun _ => .inl rfl)
      trivial ?_
    rw [ht]; rfl
  | @released _ t slot call buf wasRevoked ht hbuf =>
    obtain ⟨table, ho⟩ := hi.inUse slot (hi.unpinning t slot (by rw [ht]; rfl))
    rw [ho.pageTable]
    exact map_released hi hm ht hbuf
  | unpinCounted ht =>
    refine hm.pass .idle hi rfl rfl rfl (fun _ => rfl) (fun _ => .inl rfl) trivial ?_
    rw [ht]; rfl
  | revoked => exact map_revoked hi hm hok

end Steps

/-! ## Copies, MRs and posts -/

section Calls

variable {s s' : P2pSt Tid}

/-- What a lookup without pin or unpin in progress finds. -/
theorem found_maps (hi : PageInv s) (hm : MapInv s) (hlock : s.lock = none) {handle : BitVec 32}
    {slot : Fin maxGpuBuffers} (h : s.findSlot handle = some slot)
    (hrev : (s.slots slot).gpuRevoked = false) :
    ∃ p, (s.slots slot).pageTable = some p ∧ (s.slots slot).Maps p ∧
      (s.tables p).fired = false := by
  rcases hm.inUse slot (P2pSt.findSlot_some h) with ⟨p, hp⟩ | ⟨t, ht⟩
  · exact ⟨p, hp.pageTable, hp, (hp.owned hi).revoked.symm.trans hrev⟩
  · exact absurd ht (hi.free_unpins hlock t slot)

theorem mem_revoked {p : Nat} (h : p ∈ s.revoked) :
    p < s.nextTable ∧ (s.tables p).fired = true := by
  unfold P2pSt.revoked at h
  rw [List.mem_filter, List.mem_range] at h
  exact h

/-- A region that is not revoked was not revoked when the call started. -/
theorem not_mem_start {start : List Nat}
    (hstart : ∀ p ∈ start, p < s.nextTable ∧ (s.tables p).fired = true) {p : Nat}
    (h : (s.tables p).fired = false) : p ∉ start :=
  fun hp => ne_true_of_eq_false h (hstart p hp).2

theorem findMr_inUse {mrId : BitVec 32} {k : Fin maxMrs} (h : s.findMr mrId = some k) :
    (s.mrs k).inUse = true := by
  unfold P2pSt.findMr at h
  have hp := List.find?_some h
  simp only [Bool.and_eq_true] at hp
  exact hp.1

/-- The MRs of an operation come from the table. -/
theorem mem_lookup {ids : List (BitVec 32)} {mrs : List P2pMr}
    (h : (ids.mapM fun mrId => (s.findMr mrId).map s.mrs) = some mrs) {mr : P2pMr}
    (hmem : mr ∈ mrs) : ∃ k, (s.mrs k).inUse = true ∧ mr = s.mrs k := by
  induction ids generalizing mrs with
  | nil =>
    simp only [List.mapM_nil, Option.pure_def, Option.some.injEq] at h
    subst h; cases hmem
  | cons mrId ids ih =>
    simp only [List.mapM_cons, Option.bind_eq_bind, Option.pure_def, Option.bind_eq_some_iff,
      Option.map_eq_some_iff, Option.some.injEq] at h
    obtain ⟨mr', ⟨k, hk, rfl⟩, rest, hrest, rfl⟩ := h
    rcases List.mem_cons.mp hmem with rfl | hmem
    · exact ⟨k, findMr_inUse hk, rfl⟩
    · exact ih hrest hmem

variable [DecidableEq Tid] {t : Tid} {pc : P2pPc}

/-- A call moves on. -/
theorem MapInv.goto (hi : PageInv s) (hm : MapInv s) (hpc : pc.phase = (s.pc t).phase)
    (hrel : Relies s pc) : MapInv (s.goto t pc) :=
  hm.pass _ hi rfl rfl rfl (fun _ => rfl) (fun _ => .inl rfl) hrel (congrArg P2pPhase.unpins hpc)

theorem mapInv_copy {a : P2pAct Tid} (hi : PageInv s) (hm : MapInv s)
    (h : copyStep s a = some s') : MapInv s' := by
  unfold copyStep at h
  split at h
  · split at h
    · rename_i hpc; cases h
      split
      · exact hm.goto hi (by rw [hpc]; rfl) fun p => mem_revoked
      · exact hm
    · cases h
  · split at h
    · rename_i t _ op start hpc
      have hstart : Relies s (.copyFind op start) := hpc ▸ hm.calls t
      split at h
      · rename_i hlock
        split at h
        · cases h; exact hm.goto hi (by rw [hpc]; rfl) trivial
        · rename_i slot hfind
          simp only at h
          split at h
          · cases h; exact hm.goto hi (by rw [hpc]; rfl) trivial
          · rename_i hok; cases h
            simp only [Bool.or_eq_true, not_or, Bool.not_eq_true] at hok
            obtain ⟨p, hpage, hmaps, hlive⟩ := found_maps hi hm hlock hfind hok.1
            exact hm.goto hi (by rw [hpc]; rfl) ⟨p, hpage, hmaps, not_mem_start hstart hlive⟩
      · cases h
    · cases h
  · split at h
    · rename_i t host _ op slot region size start hpc
      have hrel : Relies s (.copyHost op slot region size start) := hpc ▸ hm.calls t
      split at h
      · cases h; exact hm.goto hi (by rw [hpc]; rfl) trivial
      · cases h
        split
        · exact hm.goto hi (by rw [hpc]; rfl) hrel
        · exact hm.goto hi (by rw [hpc]; rfl) trivial
    · cases h
  · split at h
    · rename_i t _ slot region left start hpc
      have hrel : Relies s (.copyCheck slot region left start) := hpc ▸ hm.calls t
      split at h
      · cases h; exact hm.goto hi (by rw [hpc]; rfl) trivial
      · cases h
        split
        · exact hm.goto hi (by rw [hpc]; rfl) trivial
        · exact hm.goto hi (by rw [hpc]; rfl) hrel
    · cases h
  · split at h
    · rename_i t _ slot region left start hpc; cases h
      have hrel : Relies s (.copyRun slot region left start) := hpc ▸ hm.calls t
      exact hm.goto hi (by rw [hpc]; rfl) hrel
    · cases h
  · cases h

omit [DecidableEq Tid] in
/-- One entry of the MR table changes. -/
theorem MapInv.mrChange (hi : PageInv s) (hm : MapInv s) (h : Outside s s') (hpcs : s'.pc = s.pc)
    (hmrs : ∀ k, s'.mrs k = s.mrs k ∨
      ((s'.mrs k).inUse = true → (s'.mrs k).Good s' fun p => (s'.tables p).fired = true)) :
    MapInv s' := by
  refine hm.step hi (.same h.slots h.nextTable fun p => by rw [h.tables])
    (fun u => .inl ⟨by rw [hpcs], fun i _ _ => by rw [h.slots]⟩) hmrs (fun i hin => ?_)
    fun u i hu => ?_
  · rw [h.slots] at hin ⊢
    rw [h.phases]; exact hm.inUse i hin
  · rw [h.phases] at hu
    rw [h.slots]; exact hm.unmapped u i hu

omit [DecidableEq Tid] in
theorem mapInv_publishMr (hi : PageInv s) (hm : MapInv s) (k : Fin maxMrs) {sgeAddr : SgeAddr}
    (h : sgeAddr = .host ∨ ∃ p, sgeAddr = .rdma (some p) ∧ Pinned s p ∧
      (s.tables p).fired = false) : MapInv (s.publishMr k sgeAddr) := by
  refine hm.mrChange hi (outside_publishMr k sgeAddr) rfl fun j => ?_
  by_cases hj : j = k
  · subst hj
    refine .inr fun _ => ?_
    rw [show (s.publishMr j sgeAddr).mrs j = ⟨s.nextMrId, true, sgeAddr⟩ from
      Function.update_self _ _ _]
    exact h.imp_right fun ⟨p, hsge, hpin, hlive⟩ => ⟨p, hsge, hpin, ne_true_of_eq_false hlive⟩
  · exact .inl (Function.update_of_ne hj _ _)

omit [DecidableEq Tid] in
theorem mapInv_deregister (hi : PageInv s) (hm : MapInv s) (mrId : BitVec 32) :
    MapInv (s.deregister mrId) := by
  refine hm.mrChange hi (outside_deregister mrId) ?_ fun j => ?_
  · unfold P2pSt.deregister
    split <;> rfl
  · unfold P2pSt.deregister
    split
    · exact .inl rfl
    · rename_i k _
      by_cases hj : j = k
      · subst hj
        refine .inr fun hin => ?_
        rw [show (s.setMr j { s.mrs j with inUse := false }).mrs j =
          { s.mrs j with inUse := false } from Function.update_self _ _ _] at hin
        cases hin
      · exact .inl (Function.update_of_ne hj _ _)

theorem mapInv_gpuMr {a : P2pAct Tid} (hi : PageInv s) (hm : MapInv s)
    (h : gpuMrStep s a = some s') : MapInv s' := by
  unfold gpuMrStep at h
  split at h
  · split at h
    · rename_i hpc; cases h
      split
      · exact hm.goto hi (by rw [hpc]; rfl) trivial
      · exact hm
    · cases h
  · split at h
    · rename_i t _ handle hpc
      split at h
      · rename_i hlock
        split at h
        · cases h; exact hm.goto hi (by rw [hpc]; rfl) trivial
        · rename_i slot hfind
          simp only at h
          split at h
          · cases h; exact hm.goto hi (by rw [hpc]; rfl) trivial
          · rename_i hok; cases h
            simp only [Bool.or_eq_true, not_or, Bool.not_eq_true, Option.isNone_eq_false_iff,
              Option.isSome_iff_exists] at hok
            obtain ⟨p, hpage, hmaps, hlive⟩ := found_maps hi hm hlock hfind hok.1
            obtain ⟨q, hq⟩ := hok.2
            obtain rfl := hmaps.rdmaVaddr q hq
            exact hm.goto hi (by rw [hpc]; rfl) ⟨q, hpage, hmaps, hq, hlive⟩
      · cases h
    · cases h
  · split at h
    · rename_i t _ _ slot region hpc; cases h
      have hrel : Relies s (.registerMap slot region) := hpc ▸ hm.calls t
      split
      · exact hm.goto hi (by rw [hpc]; rfl) hrel
      · exact hm.goto hi (by rw [hpc]; rfl) trivial
    · cases h
  · split at h
    · rename_i t _ slot region hpc
      have hrel : Relies s (.registerPublish slot region) := hpc ▸ hm.calls t
      obtain ⟨p, _, hmaps, hrdma, hlive⟩ := hrel
      split at h
      · cases h; exact hm.goto hi (by rw [hpc]; rfl) trivial
      · rename_i k _; cases h
        rw [hrdma]
        exact (mapInv_publishMr hi hm k (.inr ⟨p, rfl, ⟨slot, hmaps⟩, hlive⟩)).goto
          (hi.outside (outside_publishMr k _)) (congrArg P2pPc.phase hpc).symm trivial
    · cases h
  · split at h
    · rename_i t copyOk _ mrId hpc; cases h
      split
      · exact hm.goto hi (by rw [hpc]; rfl) trivial
      · exact hm.goto hi (by rw [hpc]; rfl) trivial
    · cases h
  · split at h
    · rename_i t _ mrId hpc; cases h
      have hphase := congrFun (outside_deregister (s := s) mrId).phases t
      exact (mapInv_deregister hi hm mrId).goto (hi.outside (outside_deregister mrId))
        ((congrArg P2pPc.phase hpc).symm.trans hphase.symm) trivial
    · cases h
  · split at h
    · cases h; exact hm
    · cases h; exact mapInv_publishMr hi hm _ (.inl rfl)
  · cases h; exact mapInv_deregister hi hm _
  · cases h

theorem mapInv_post {a : P2pAct Tid} (hi : PageInv s) (hm : MapInv s)
    (h : postStep s a = some s') : MapInv s' := by
  unfold postStep at h
  split at h
  · split at h
    · rename_i hpc
      split at h
      · cases h; exact hm
      · cases h; exact hm.goto hi (by rw [hpc]; rfl) fun p => mem_revoked
    · cases h
  · split at h
    · rename_i t _ op start hpc
      have hstart : Relies s (.opFind op start) := hpc ▸ hm.calls t
      split at h
      · cases h; exact hm.goto hi (by rw [hpc]; rfl) trivial
      · rename_i mrs hlookup
        split at h
        · cases h; exact hm.goto hi (by rw [hpc]; rfl) trivial
        · cases h
          refine hm.goto hi (by rw [hpc]; rfl) fun mr hmem => ?_
          obtain ⟨k, hin, rfl⟩ := mem_lookup hlookup hmem
          refine (hm.mrs k hin).imp_right fun ⟨p, hsge, hpin, hlive⟩ => ⟨p, hsge, hpin, ?_⟩
          exact not_mem_start hstart (Bool.eq_false_of_not_eq_true hlive)
    · cases h
  · split at h
    · split at h
      · cases h; exact hm
      · cases h
    · cases h
  · split at h
    · rename_i hpc; cases h
      exact hm.goto hi (by rw [hpc]; rfl) trivial
    · cases h
  · cases h

end Calls

/-! ## Runs -/

/-- Every copy that is about to be made goes through the mapping of a pinned region that was not
revoked when the call started, and so does every post from a GPU MR. -/
structure UsesLive (s : P2pSt Tid) : Prop where
  copies : ∀ t slot region left start, s.pc t = .copyRun slot region left start →
    ∃ p, (s.slots slot).barPages = some p ∧ Pinned s p ∧ p ∉ start
  posts : ∀ t op mrs start, s.pc t = .opPost op mrs start → ∀ mr ∈ mrs,
    mr.sgeAddr = .host ∨ ∃ p, mr.sgeAddr = .rdma (some p) ∧ Pinned s p ∧ p ∉ start

variable [DecidableEq Tid] {s : P2pSt Tid}

omit [DecidableEq Tid] in
theorem mapInv_init : MapInv (p2pInit Tid) where
  inUse := by rintro i ⟨⟩
  unmapped := by rintro t i ⟨⟩
  calls := fun _ => trivial
  mrs := by rintro k ⟨⟩

theorem p2pStep_map {a : P2pAct Tid} {s' : P2pSt Tid} (hi : PageInv s) (hm : MapInv s)
    (hok : Spares s a) (h : p2pStep s a = some s') : MapInv s' := by
  unfold p2pStep at h
  split at h
  all_goals first
    | exact mapInv_flow hi hm hok (pinStep_flow h)
    | exact mapInv_flow hi hm hok (unpinStep_flow h)
    | exact mapInv_flow hi hm hok (callbackStep_flow h)
    | exact mapInv_copy hi hm h
    | exact mapInv_gpuMr hi hm h
    | exact mapInv_post hi hm h

theorem mapInv (h : (p2pSys Tid).ReachableWith Spares s) : MapInv s :=
  h.invariant₂ (I := fun s => PageInv s) (J := fun s => MapInv s) (fun _ => pageInv) mapInv_init
    fun _ _ _ hi hm hok hs => p2pStep_map hi hm hok hs

/-- **Uses of a GPU mapping.** In every run in which GPU_UNPIN comes to regions that no call in
progress and no MR refers to, and the callback to regions that no MR refers to, every copy and
every post goes through the mapping of a pinned region that was not revoked when the call
started. -/
theorem uses_live (h : (p2pSys Tid).ReachableWith Spares s) : UsesLive s := by
  have hm := mapInv h
  refine ⟨fun t slot region left start hpc => ?_, fun t op mrs start hpc => ?_⟩
  · have hrel : Relies s (.copyRun slot region left start) := hpc ▸ hm.calls t
    obtain ⟨p, _, hmaps, hnot⟩ := hrel
    exact ⟨p, hmaps.barPages, ⟨slot, hmaps⟩, hnot⟩
  · exact (hpc ▸ hm.calls t : Relies s (.opPost op mrs start))

/-- Pins one page and registers an MR of it. -/
def pinAndRegister (t : Fin 2) : List (P2pAct (Fin 2)) :=
  [.pin t 65536 65536 (.ok 1), .pinStep t true, .pinStep t true, .pinStep t true, .pinStep t true,
    .pinPublish t true, .pinCount t, .pinCopy t true, .gpuRegister t true 1, .registerFind t,
    .registerMap t true, .registerPublish t, .registerCopy t true]

def unpinFirst (t : Fin 2) : List (P2pAct (Fin 2)) :=
  [.unpin t 1, .unpinFind t, .unpinCheck t, .unpinRelease t, .unpinCount t]

def writeFirst : DataOp := .writeImm 1 0 4096 false

/-- One thread is about to copy from the region and another to post from its MR. -/
theorem uses_live_both : ∃ s : P2pSt (Fin 2),
    s.pc 0 = .opPost writeFirst [⟨1, true, .rdma (some 0)⟩] [] ∧
      s.pc 1 = .copyRun 0 (some 0) 0 [] ∧ Pinned s 0 := by
  obtain ⟨s, hr, hpost, hcopy⟩ : ∃ s : P2pSt (Fin 2), (p2pSys (Fin 2)).ReachableWith Spares s ∧
      s.pc 0 = .opPost writeFirst [⟨1, true, .rdma (some 0)⟩] [] ∧
      s.pc 1 = .copyRun 0 (some 0) 0 [] :=
    Transition.Sys.exists_of_execWith
      (pinAndRegister 0 ++ ([.op 0 ⟨true, true, 0, false⟩ writeFirst, .opFind 0,
        .copy 1 (.toHost 1 1 0 4096), .copyFind 1, .copyHost 1 (some 4096),
        .copyCheck 1] : List (P2pAct (Fin 2))))
      (by decide +kernel)
  have hmr := (uses_live hr).posts 0 _ _ _ hpost _ (List.mem_singleton_self _)
  rcases hmr with hhost | ⟨p, hp, hpin, _⟩
  · cases hhost
  · cases hp; exact ⟨s, hpost, hcopy, hpin⟩

/-- WRITE_IMM from an MR whose region was unpinned, or was revoked before the call; and a copy to
the host with GPU_UNPIN between its lookup and its copy. -/
theorem uses_after_unpin :
    (∃ s : P2pSt (Fin 2), (p2pSys (Fin 2)).Reachable s ∧
      s.pc 0 = .opPost writeFirst [⟨1, true, .rdma (some 0)⟩] [] ∧
      ∀ i, (s.slots i).inUse = false) ∧
    (∃ s : P2pSt (Fin 2), (p2pSys (Fin 2)).Reachable s ∧
      s.pc 0 = .opPost writeFirst [⟨1, true, .rdma (some 0)⟩] [0]) ∧
    (∃ s : P2pSt (Fin 2), (p2pSys (Fin 2)).Reachable s ∧
      s.pc 1 = .copyRun 0 (some 0) 0 [] ∧ (s.slots 0).barPages = none) ∧
    ¬ ∀ s : P2pSt (Fin 2), (p2pSys (Fin 2)).Reachable s → UsesLive s := by
  have hunpinned : ∃ s : P2pSt (Fin 2), (p2pSys (Fin 2)).Reachable s ∧
      s.pc 0 = .opPost writeFirst [⟨1, true, .rdma (some 0)⟩] [] ∧
      ∀ i, (s.slots i).inUse = false :=
    Transition.Sys.exists_of_exec
      (pinAndRegister 0 ++ unpinFirst 0 ++
        [P2pAct.op 0 ⟨true, true, 0, false⟩ writeFirst, P2pAct.opFind 0])
      (by decide +kernel)
  have hrevoked : ∃ s : P2pSt (Fin 2), (p2pSys (Fin 2)).Reachable s ∧
      s.pc 0 = .opPost writeFirst [⟨1, true, .rdma (some 0)⟩] [0] :=
    Transition.Sys.exists_of_exec
      (pinAndRegister 0 ++
        [P2pAct.callback 0, P2pAct.op 0 ⟨true, true, 0, false⟩ writeFirst, P2pAct.opFind 0])
      (by decide +kernel)
  have hcopy : ∃ s : P2pSt (Fin 2), (p2pSys (Fin 2)).Reachable s ∧
      s.pc 1 = .copyRun 0 (some 0) 0 [] ∧ (s.slots 0).barPages = none :=
    Transition.Sys.exists_of_exec
      (pinAndRegister 0 ++
        [P2pAct.copy 1 (.toHost 1 1 0 4096), P2pAct.copyFind 1, P2pAct.copyHost 1 (some 4096)] ++
        unpinFirst 0 ++ [P2pAct.copyCheck 1]) (by decide +kernel)
  refine ⟨hunpinned, hrevoked, hcopy, fun hall => ?_⟩
  obtain ⟨s, hr, hpc, hbar⟩ := hcopy
  obtain ⟨p, hp, _⟩ := (hall s hr).copies 1 _ _ _ _ hpc
  rw [hbar] at hp; cases hp

end Dmaplane
