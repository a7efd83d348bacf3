import Dmaplane.BufferVisible
import Dmaplane.Device

/-!
# Dmaplane.BufferUnload

The buffers when the module is unloaded. The kernel lets a module go only when nothing refers to
it: no call is in progress, and there is no VMA and no dma-buf (`Unloadable`).

Then the loop of `dmaplane_exit` over the buffers leaves nothing behind (`buffers_unload`), whatever
the threads and the release callbacks have done before: no step of any run loses a block
(`bufExact`) or miscounts a buffer (`balanced_run`).
-/

namespace Dmaplane

open BufSt

variable {Tid : Type}

/-- No driver code runs on the buffers, and none can be called. -/
structure BufSt.Unloadable (s : BufSt Tid) : Prop where
  lock : s.lock = none
  user : ∀ t, s.user t = .idle
  counting : s.counting = ∅
  vmas : s.vmas = []
  dmabufs : ∀ d, (s.dmabufs d).phase = .unused ∨ (s.dmabufs d).phase = .gone

/-! ## No block leaks -/

section Leaks

variable {s s' : BufSt Tid} {a : BufAct Tid} {i : Fin maxBuffers}

theorem filling_some {t : Tid} (h : s.lock = some (t, .createFilled i)) : s.filling = some i := by
  rw [BufSt.filling, h]; rfl

theorem lock_of_filling (h : s.filling = some i) : ∃ t, s.lock = some (t, .createFilled i) := by
  obtain ⟨⟨t, sec⟩, hl, hsec⟩ := Option.bind_eq_some_iff.mp h
  cases sec <;> cases hsec
  exact ⟨t, hl⟩

variable [DecidableEq Tid]

/-- A buffer keeps its memory until DESTROY_BUFFER frees it. -/
theorem filled_step (h : bufStep s a = some s') (hm : MemInv s) (hf : s.Filled i) :
    (s'.Filled i ∧ (s'.dev.buffers i).blocks = (s.dev.buffers i).blocks) ∨
      s'.mem = s.mem.freeAll (s.dev.buffers i).blocks := by
  rcases hf with hin | hfill
  · rcases inUse_step h hm hin with hsame | ⟨t, rfl, hl⟩
    · exact .inl ⟨.inl (hsame.inUse.trans hin), hsame.blocks⟩
    · refine .inr ?_
      have hsec : s.section? t = some (.destroyChecked i) := by
        rw [BufSt.section?, hl]; exact if_pos rfl
      simp only [bufStep, hsec] at h
      cases h
      rfl
  · obtain ⟨t, hl⟩ := lock_of_filling hfill
    have hno : s.lock ≠ none := by rw [hl]; exact Option.some_ne_none _
    have hkeep {s₁ : BufSt Tid} (hlock : s₁.lock = s.lock)
        (hb : SameBuffer (s.dev.buffers i) (s₁.dev.buffers i)) :
        (s₁.Filled i ∧ (s₁.dev.buffers i).blocks = (s.dev.buffers i).blocks) :=
      ⟨.inr (filling_some (hlock.trans hl)), hb.blocks⟩
    cases bufStep_flow h with
    | createPublish hl' =>
      rw [hl] at hl'
      cases hl'
      refine .inl ⟨.inl ?_, ?_⟩ <;> simp only [createPublish, setBuffer_self]
      rfl
    | vmaOpen hv hsub => exact .inl (hkeep rfl (sameBuffer_setMmapCount i))
    | vmaClose hv => exact .inl (hkeep rfl (sameBuffer_setMmapCount i))
    | pc | exportCount | refs | releaseEnter | releaseCount | releaseFree =>
      exact .inl (hkeep rfl (.refl _))
    | createFailed hl' | createFilled hl' | destroyChecked hl' | mmapInserted hl' | exportCtx hl'
    | releaseLocked hl' => exact absurd hl' hno
    | destroyFree hl' | mmapCount hl' | exportBuf hl' | exportBufFailed hl' | exportFd hl'
    | exportFdFailed _ hl' | exportPublish hl' | exportFree hl' =>
      rw [hl] at hl'; cases hl'

/-- New blocks are those of a buffer that is being created. -/
theorem live_step {p : Nat} (h : bufStep s a = some s') (hp : p ∈ s'.mem.live) :
    p ∈ s.mem.live ∨ ∃ i, s'.Filled i ∧ p ∈ (s'.dev.buffers i).blocks := by
  cases bufStep_flow h with
  | createFailed hl hall hdev =>
    rcases (hall.mem p).mp hp with hp | hp
    · exact .inl hp
    · cases hp
  | createFilled hl hslot hbut hfilled hall =>
    rename_i t slot _ _ _ _
    rcases (hall.mem p).mp hp with hp | hp
    · exact .inl hp
    · exact .inr ⟨slot, .inr rfl, hp⟩
  | destroyFree hl =>
    simp only [destroyFree, Heap.mem_freeAll] at hp
    exact .inl hp.2
  | _ => exact .inl hp

/-- Every block that is out belongs to a buffer. -/
theorem bufExact (h : (bufSys Tid).Reachable s) : s.mem.Exact s.own := by
  have hm := memInv h
  have hall : ∀ p ∈ s.mem.live, ∃ i, s.Filled i ∧ p ∈ (s.dev.buffers i).blocks := by
    refine h.invariant₂ (J := fun s => ∀ p ∈ s.mem.live, ∃ i, s.Filled i ∧
      p ∈ (s.dev.buffers i).blocks) (fun s hr => memInv (s := s) hr)
      (fun p hp => (by cases hp)) ?_
    intro s a s' hm hi _ hs p hp
    rcases live_step hs hp with hold | hnew
    · obtain ⟨i, hf, hb⟩ := hi p hold
      rcases filled_step hs hm hf with ⟨hf', hb'⟩ | hfree
      · exact ⟨i, hf', hb' ▸ hb⟩
      · rw [hfree, Heap.mem_freeAll] at hp
        exact absurd hb hp.1
    · exact hnew
  refine ⟨hm.owned, fun p hp => ?_, hm.faults⟩
  obtain ⟨i, hf, hb⟩ := hall p hp
  exact ⟨i, by rw [BufSt.own, if_pos hf]; exact hb⟩

end Leaks

/-! ## The counters -/

section Counters

variable {s s' : BufSt Tid} {a : BufAct Tid}

/-- What `Balanced` reads. -/
def BufTable.tally (dev : BufTable) : BitVec 64 × BitVec 64 × (Fin maxBuffers → Bool) :=
  (dev.stats.buffersCreated, dev.stats.buffersDestroyed, fun i => (dev.buffers i).inUse)

theorem BufTable.Balanced.congr {dev dev' : BufTable} (h : dev.Balanced)
    (he : dev'.tally = dev.tally) : dev'.Balanced := by
  simp only [BufTable.tally, Prod.mk.injEq] at he
  obtain ⟨hc, hd, hin⟩ := he
  rw [BufTable.Balanced, hc, hd, usedSlots_congr (congrFun hin)]
  exact h

theorem tally_setMmapCount (dev : BufTable) (slot : Fin maxBuffers) (n : BitVec 32) :
    (dev.setMmapCount slot n).tally = dev.tally := by
  have hin : ∀ i, ((dev.setMmapCount slot n).buffers i).inUse = (dev.buffers i).inUse :=
    fun i => (sameBuffer_setMmapCount i).inUse
  simp only [BufTable.tally, hin]
  rfl

theorem tally_setExported (dev : BufTable) (slot : Fin maxBuffers) (dmabuf : Option Nat) :
    (dev.setExported slot dmabuf).tally = dev.tally := by
  have hin : ∀ i, ((dev.setExported slot dmabuf).buffers i).inUse = (dev.buffers i).inUse :=
    fun i => (sameBuffer_setExported i).inUse
  simp only [BufTable.tally, hin]
  rfl

theorem tally_countNuma (dev : BufTable) (target : Int) (isLocal : Bool) :
    (dev.countNuma target isLocal).tally = dev.tally := by
  obtain ⟨-, hc, hd⟩ : _ ∧ (dev.countNuma target isLocal).stats.buffersCreated =
      dev.stats.buffersCreated ∧ _ := numaAllocs_countNuma target isLocal
  simp only [BufTable.tally, hc, hd, countNuma_buffers]

theorem tally_take {dev : BufTable} {slot : Fin maxBuffers} {buf : DmaplaneBuffer}
    (hslot : dev.freeSlot = some slot) (hbuf : buf.inUse = false) :
    (dev.takeId.setBuffer slot buf).tally = dev.tally := by
  have hin : ∀ i, ((dev.takeId.setBuffer slot buf).buffers i).inUse = (dev.buffers i).inUse := by
    intro i
    by_cases hne : i = slot
    · subst hne
      rw [setBuffer_self, hbuf, freeSlot_some hslot]
    · rw [setBuffer_of_ne hne]; rfl
  simp only [BufTable.tally, hin]
  rfl

/-- Before it is published a buffer is not counted, and not in use. -/
theorem tally_createFill {env : AllocEnv} {type : BufType} {params : DmaplaneBufParams}
    {dev dev' : BufTable} {h h' : Heap} {r : Except Errno (Fin maxBuffers)}
    (hc : createFill env type params dev h = (r, dev', h')) : dev'.tally = dev.tally := by
  have hflow := createFill_flow env type params dev h
  rw [hc] at hflow
  cases hflow with
  | noSlot => rfl
  | coherentFailed hslot | arrayFailed hslot | pageFailed hslot => exact tally_take hslot rfl
  | coherent hslot | vmapFailed hslot | pages hslot =>
    exact (tally_countNuma _ _ _).trans (tally_take hslot rfl)

variable [DecidableEq Tid]

theorem balanced_step (h : bufStep s a = some s') (hm : MemInv s) (hb : s.dev.Balanced) :
    s'.dev.Balanced := by
  cases a with
  | create t params env =>
    simp only [bufStep] at h
    repeat' split at h
    all_goals cases h
    · exact hb
    · rename_i hc; exact hb.congr (tally_createFill hc)
    · rename_i hc; exact hb.congr (tally_createFill hc)
  | createPublish t =>
    simp only [bufStep] at h
    split at h <;> cases h
    rename_i slot hsec
    have hin : (s.dev.buffers slot).inUse = false := hm.sec _ _ (section?_some hsec)
    have hnew : slot ∉ s.dev.usedSlots := by rw [mem_usedSlots, hin]; exact Bool.false_ne_true
    have hused : (createPublish s.dev slot).usedSlots = insert slot s.dev.usedSlots := by
      ext i
      by_cases hne : i = slot <;> simp [createPublish, hne]
    show s.dev.stats.buffersCreated + 1 - s.dev.stats.buffersDestroyed = _
    have hbal : s.dev.stats.buffersCreated - s.dev.stats.buffersDestroyed = _ := hb
    show _ = BitVec.ofNat 64 (createPublish s.dev slot).usedSlots.card
    rw [hused, Finset.card_insert_of_notMem hnew, BitVec.ofNat_add, ← hbal]
    show _ = _ + (1 : BitVec 64)
    bv_omega
  | destroyFree t =>
    simp only [bufStep] at h
    split at h <;> cases h
    rename_i slot hsec
    have hin : (s.dev.buffers slot).inUse = true := hm.sec _ _ (section?_some hsec)
    have hcard := Finset.card_erase_add_one (mem_usedSlots.mpr hin)
    have hbal : s.dev.stats.buffersCreated - s.dev.stats.buffersDestroyed = _ := hb
    rw [← hcard, BitVec.ofNat_add] at hbal
    show s.dev.stats.buffersCreated - (s.dev.stats.buffersDestroyed + 1) =
      BitVec.ofNat 64 (destroyFree s.dev s.mem slot).1.usedSlots.card
    rw [usedSlots_destroyFree, ← sub_sub, hbal]
    exact add_sub_cancel_right _ (1 : BitVec 64)
  | mmapCount | vmaOpen | vmaClose =>
    simp only [bufStep] at h
    split at h <;> cases h
    exact hb.congr (tally_setMmapCount _ _ _)
  | exportPublish | releaseLocked =>
    simp only [bufStep] at h
    repeat' split at h
    all_goals cases h
    exact hb.congr (tally_setExported _ _ _)
  | createCopy | destroyCall | destroyLocked | mmap | exportLocked | exportBuf | exportFd
  | exportCount | exportFree | dmabufGet | dmabufPut | releaseEnter | releaseCount
  | releaseFree =>
    simp only [bufStep] at h
    repeat' split at h
    all_goals cases h
    all_goals exact hb

theorem balanced_run (h : (bufSys Tid).Reachable s) : s.dev.Balanced :=
  h.invariant₂ (J := fun s => s.dev.Balanced) (fun s hr => memInv (s := s) hr)
    bufTableInit_balanced fun _ _ _ hm hb _ hs => balanced_step hs hm hb

end Counters

/-! ## Unloading -/

section Unload

variable {s : BufSt Tid}

theorem BufWf.holdsMemory {buf : DmaplaneBuffer} (h : BufWf buf) : HoldsMemory buf := by
  obtain ⟨p, hp, -⟩ := h.vaddr
  refine ⟨fun hty => ⟨p, hp, ?_⟩, fun hty => ?_⟩
  · rw [DmaplaneBuffer.blocks, hty, hp]; rfl
  · obtain ⟨array, harr, hlen, hn⟩ := h.pages hty
    refine ⟨p, array, hp, harr, hlen, hn, ?_⟩
    rw [DmaplaneBuffer.blocks, hty, hp, harr]; rfl

theorem DmabufPhase.not_wrapping {phase : DmabufPhase} (h : phase = .unused ∨ phase = .gone) :
    phase.wrapping = false ∧ phase.ownsCtx = false := by
  rcases h with rfl | rfl <;> exact ⟨rfl, rfl⟩

/-- Without dma-bufs no buffer is exported and there is no export context. -/
theorem ExportInv.unloadable (hx : ExportInv s) (hu : s.Unloadable) :
    s.flagged = ∅ ∧ s.ctxHeap.live = ∅ ∧
      s.dev.stats.dmabufsExported = s.dev.stats.dmabufsReleased := by
  have hphase d := DmabufPhase.not_wrapping (hu.dmabufs d)
  have hwr : ∀ d, s.wrapped d = none := fun d => by
    rw [wrapped, (hphase d).1]; rfl
  have hflag : s.flagged = ∅ := by
    rw [← claimed_eq_flagged (exporting_none hu.lock)]
    exact hx.slots.eq_empty hwr
  have hctx : ∀ k, s.ctxOwner k = none := by
    intro k
    cases k with
    | none => show s.pendingCtx = none; rw [pendingCtx, hu.lock]; rfl
    | some d => rw [ctxOwner, (hphase d).2]; rfl
  have hclear : s.clearedBufs = ∅ := by
    refine Finset.eq_empty_of_forall_notMem fun d hd => ?_
    have hp := (mem_clearedBufs.mp hd).2
    rcases hu.dmabufs d with h | h <;> rw [hp] at h <;> cases h
  refine ⟨hflag, hx.ctxs.eq_empty hctx, ?_⟩
  simpa [hu.counting, hclear, hflag] using hx.count

variable [DecidableEq Tid]

/-- Between two sections the table is that of sequential calls. -/
theorem bufferMemory_unlocked (h : (bufSys Tid).Reachable s) (hl : s.lock = none) :
    BufferMemory ⟨s.dev, s.mem⟩ := by
  have hown : s.dev.own = s.own := by
    funext i
    by_cases hin : (s.dev.buffers i).inUse = true
    · rw [BufTable.own, BufSt.own, if_pos hin, if_pos (.inl hin)]
    · rw [BufTable.own, BufSt.own, if_neg hin,
        if_neg (mt (filled_iff_inUse (filling_none hl) i).mp hin)]
  refine ⟨?_, fun i hin => ((memInv h).wf i (.inl hin)).holdsMemory⟩
  show s.mem.Exact s.dev.own
  rw [hown]
  exact bufExact h

theorem bufferInv_unloadable (h : (bufSys Tid).ReachableWith MmapsCounted s) (hu : s.Unloadable) :
    BufferInv ⟨s.dev, s.mem⟩ := by
  have hx := exportInv (h.mono fun _ _ => MmapsCounted.fdSucceeds)
  have hv := vmaInv h
  refine ⟨bufferMemory_unlocked h.reachable hu.lock, fun i hin => ⟨?_, ?_⟩,
    balanced_run h.reachable⟩
  · have hzero : s.vmaCount i = 0 := by rw [vmaCount, hu.vmas]; rfl
    have hmapped := (mapped_iff (hv.count i hin) (hv.bound i)).2
    rw [hzero] at hmapped
    exact Bool.eq_false_iff.mpr fun hm => absurd (hmapped.mp hm) (lt_irrefl 0)
  · have hnot : i ∉ s.flagged := by rw [(hx.unloadable hu).1]; exact Finset.notMem_empty i
    exact Bool.eq_false_iff.mpr fun he => hnot (mem_flagged.mpr he)

/-- The loop of `dmaplane_exit` over the buffers. -/
def BufSt.exitBuffers (s : BufSt Tid) : BufCallSt :=
  destroyAllBuffers ⟨s.dev, s.mem⟩ (List.finRange maxBuffers)

/-- **Unloading after any run.** The exit frees what is left of the buffers, each block once, the
contexts of the dma-bufs are gone already, and the counters balance. -/
theorem buffers_unload (s : BufSt Tid) (h : (bufSys Tid).ReachableWith MmapsCounted s)
    (hu : s.Unloadable) :
    s.exitBuffers.mem.live = ∅ ∧ s.exitBuffers.mem.faults = 0 ∧
      s.exitBuffers.dev.stats.buffersCreated = s.exitBuffers.dev.stats.buffersDestroyed ∧
      s.ctxHeap.live = ∅ ∧ s.ctxHeap.faults = 0 ∧ s.ctxUseAfterFree = false ∧
      s.dev.stats.dmabufsExported = s.dev.stats.dmabufsReleased := by
  have hx := exportInv (h.mono fun _ _ => MmapsCounted.fdSucceeds)
  obtain ⟨-, hctx, hcount⟩ := hx.unloadable hu
  obtain ⟨hinv, hfree⟩ := destroyAllBuffers_spec (bufferInv_unloadable h hu)
    (List.pairwise_lt_finRange maxBuffers) fun i _ => List.mem_finRange i
  obtain ⟨hlive, hfaults, hcreated⟩ := hinv.empty hfree
  exact ⟨hlive, hfaults, hcreated, hctx, hx.faults, hx.noUseAfterFree, hcount⟩

/-- A buffer is mapped and exported, both are given up again, and the buffer is left. -/
def leftBehind : List (BufAct (Fin 2)) :=
  createOnePage ++
    ([.mmap 1 1 4096 (fun _ => true), .mmapCount 1, .exportLocked 0 1 true, .exportBuf 0 true,
      .exportFd 0 .ok, .exportPublish 0, .exportCount 0, .vmaClose ⟨0, [1]⟩, .dmabufPut 0,
      .releaseEnter 0, .releaseLocked 0, .releaseCount 0, .releaseFree 0] : List (BufAct (Fin 2)))

theorem buffers_unload_left : ∃ s : BufSt (Fin 2), s.mem.live.card = 3 ∧
    s.dev.stats.dmabufsExported = 1 ∧ s.exitBuffers.mem.live = ∅ := by
  obtain ⟨s, hr, hl, hu, hc, hv, hd, hlive, hexp⟩ : ∃ s : BufSt (Fin 2),
      (bufSys (Fin 2)).ReachableWith MmapsCounted s ∧ s.lock = none ∧ (∀ t, s.user t = .idle) ∧
      s.counting = ∅ ∧ s.vmas = [] ∧ (∀ d < s.nextDmabuf, (s.dmabufs d).phase = .gone) ∧
      s.mem.live.card = 3 ∧ s.dev.stats.dmabufsExported = 1 :=
    Transition.Sys.exists_of_execWith leftBehind (by decide +kernel)
  have hx := exportInv (hr.mono fun _ _ => MmapsCounted.fdSucceeds)
  have hphase : ∀ d, (s.dmabufs d).phase = .unused ∨ (s.dmabufs d).phase = .gone := fun d =>
    (Nat.lt_or_ge d s.nextDmabuf).elim (fun h => .inr (hd d h)) fun h => .inl (hx.unused d h)
  exact ⟨s, hlive, hexp, (buffers_unload s hr ⟨hl, hu, hc, hv, hphase⟩).1⟩

end Unload

end Dmaplane
