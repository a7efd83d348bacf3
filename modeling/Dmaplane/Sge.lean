import Dmaplane.BufferMem
import Dmaplane.MrTeardown

/-!
# Dmaplane.Sge

Which work requests stay inside the memory their MR was registered from (`sge_in_region`): those of
an operation that has checked its size against that very buffer, and else those whose offset and
length the caller chose small enough. WRITE_IMM, POST_RECV, REMOTE_SEND, REMOTE_RECV and
GPU_LOOPBACK check nothing (`write_imm_out_of_region`).
-/

namespace Dmaplane

variable {Tid : Type}

/-- `vaddr` is an old mapping, and a buffer that has it still has the `size` it had. -/
def HostOk (b : BufSt Tid) (vaddr : Ptr) (size : BitVec 64) : Prop :=
  vaddr.block < b.mem.next ∧
    ∀ i p, b.Filled i → (b.dev.buffers i).vaddr = some p → p.block = vaddr.block →
      (b.dev.buffers i).size = size

structure EntryOk (b : BufSt Tid) (mr : DmaplaneMrEntry) : Prop where
  fits : mr.sgeAddr.toNat + mr.region.size < 2 ^ 64
  host : ∀ vaddr size, mr.region = .host vaddr size → HostOk b vaddr size

structure SnapOk (b : BufSt Tid) (snap : RegSnapshot) : Prop where
  fits : snap.vaddr.addr.toNat + snap.size.toNat < 2 ^ 64
  host : HostOk b snap.vaddr snap.size

/-- The buffer found under the MR's `buf_id` is the one the MR was registered from. -/
def FoundOwn (mr : DmaplaneMrEntry) (checked : Option BufSnapshot) : Prop :=
  ∃ snap vaddr size p, checked = some snap ∧ mr.region = .host vaddr size ∧
    snap.vaddr = some p ∧ p.block = vaddr.block

def SgePc (b : BufSt Tid) : MrPc → Prop
  | .register snap => SnapOk b snap
  | .registerMapped snap _ frmr => SnapOk b snap ∧
      ∀ mr, frmr = some mr → mr.iova.toNat + snap.size.toNat < 2 ^ 64
  | .opValidate op mrs => op.validates = true ∧ mrs.length = 1 ∧ ∀ mr ∈ mrs, EntryOk b mr
  | .opPost op mrs checked => ∀ mr ∈ mrs, EntryOk b mr ∧
      (FoundOwn mr checked → op.offset.toNat + op.size.toNat ≤ mr.region.size)
  | _ => True

structure SgeInv (s : MrSt Tid) : Prop where
  entries : ∀ k, (s.tab.mrs k).inUse = true → EntryOk s.buf (s.tab.mrs k)
  gpu : ∀ k map, (s.gpu.gpuBuffers k).rdmaVaddr = some map → map.addr.toNat + map.size < 2 ^ 64
  pcs : ∀ t, SgePc s.buf (s.pc t)

theorem lookup_length {tab : MrTable} {op : DataOp} {mrs : List DmaplaneMrEntry}
    (h : op.lookup tab = some mrs) : mrs.length = op.mrIds.length := by
  unfold DataOp.lookup at h
  generalize op.mrIds = ids at h
  induction ids generalizing mrs with
  | nil =>
    simp only [List.mapM_nil, Option.pure_def, Option.some.injEq] at h
    rw [← h]; rfl
  | cons mrId ids ih =>
    simp only [List.mapM_cons, Option.bind_eq_bind, Option.pure_def, Option.bind_eq_some_iff,
      Option.some.injEq] at h
    obtain ⟨mr, _, rest, hrest, rfl⟩ := h
    rw [List.length_cons, List.length_cons, ih hrest]

theorem validates_mrIds {op : DataOp} (h : op.validates = true) :
    op.mrIds.length = 1 ∧ op.offset = 0 := by
  cases op <;> first | exact ⟨rfl, rfl⟩ | cases h

section Frame

variable [DecidableEq Tid] {b b' : BufSt Tid} {a : BufAct Tid}

theorem HostOk.step (h : bufStep b a = some b') {vaddr : Ptr} {size : BitVec 64}
    (hh : HostOk b vaddr size) : HostOk b' vaddr size := by
  obtain ⟨hlt, hsize⟩ := hh
  refine ⟨Nat.lt_of_lt_of_le hlt (next_step h), fun i p hf hp hb => ?_⟩
  rcases vaddr_step h hf hp with ⟨hf, hp, hs⟩ | hfresh
  · rw [hs]; exact hsize i p hf hp hb
  · rw [hb] at hfresh
    exact absurd hlt (Nat.not_lt.mpr hfresh)

theorem EntryOk.step (h : bufStep b a = some b') {mr : DmaplaneMrEntry} (hm : EntryOk b mr) :
    EntryOk b' mr := ⟨hm.fits, fun vaddr size hr => (hm.host vaddr size hr).step h⟩

theorem SgePc.step (h : bufStep b a = some b') {pc : MrPc} (hp : SgePc b pc) : SgePc b' pc := by
  cases pc with
  | register snap => exact ⟨hp.fits, hp.host.step h⟩
  | registerMapped snap sgt frmr => exact ⟨⟨hp.1.fits, hp.1.host.step h⟩, hp.2⟩
  | opValidate op mrs => exact ⟨hp.1, hp.2.1, fun mr hmr => (hp.2.2 mr hmr).step h⟩
  | opPost op mrs checked => exact fun mr hmr => ⟨((hp mr hmr).1).step h, (hp mr hmr).2⟩
  | _ => trivial

end Frame

/-- The snapshot of a buffer in use describes memory that no other buffer has. -/
theorem SnapshotOf.snapOk {b : BufSt Tid} {slot : Fin maxBuffers} {snap : RegSnapshot}
    (h : SnapshotOf (b.dev.buffers slot) snap) (hm : MemInv b) : SnapOk b snap := by
  have hfilled : b.Filled slot := .inl h.inUse
  have hmem : ∀ i p, b.Filled i → (b.dev.buffers i).vaddr = some p → p.block ∈ b.own i := by
    intro i p hf hp
    rw [BufSt.own, if_pos hf, DmaplaneBuffer.blocks]
    cases (b.dev.buffers i).allocType <;> simp [hp]
  have hown := hmem slot snap.vaddr hfilled h.vaddr
  refine ⟨?_, b.mem.lt_next _ (hm.owned.live slot _ hown), fun i p hf hp hb => ?_⟩
  · obtain ⟨p, hp, _, hlt⟩ := (hm.wf slot hfilled).vaddr
    rw [h.vaddr] at hp; cases hp
    rw [← h.size]; exact hlt
  · have hi := hmem i p hf hp
    rw [hb] at hi
    rw [hm.owned.disjoint i slot _ hi hown, h.size]

/-- What a thread has checked when it moves gives what it relies on. -/
theorem SgeInv.entering {s : MrSt Tid} {t : Tid} {pc : MrPc} (hi : SgeInv s) (hm : MemInv s.buf)
    (h : Entering s t pc) : SgePc s.buf pc := by
  have hlook : ∀ {op : DataOp} {mrs : List DmaplaneMrEntry}, op.lookup s.tab = some mrs →
      ∀ mr ∈ mrs, EntryOk s.buf mr := by
    intro op mrs hl mr hmr
    obtain ⟨k, hin, rfl⟩ := lookup_mem hl mr hmr
    exact hi.entries k hin
  cases pc with
  | register snap =>
    obtain ⟨_, slot, hsnap⟩ := h
    exact hsnap.snapOk hm
  | registerMapped snap sgt frmr =>
    obtain ⟨hpc, _, hiova⟩ := h
    have hsnap : SgePc s.buf (.register snap) := hpc ▸ hi.pcs t
    exact ⟨hsnap, hiova⟩
  | opValidate op mrs =>
    obtain ⟨hval, hl⟩ := h
    exact ⟨hval, (lookup_length hl).trans (validates_mrIds hval).1, hlook hl⟩
  | opPost op mrs checked =>
    cases checked with
    | none =>
      intro mr hmr
      refine ⟨hlook h.2 mr hmr, ?_⟩
      rintro ⟨snap, _, _, _, hs, _⟩; cases hs
    | some snap =>
      obtain ⟨hpc, mr, rest, rfl, hval⟩ := h
      obtain ⟨hv, hlen, hok⟩ : SgePc s.buf (.opValidate op (mr :: rest)) := hpc ▸ hi.pcs t
      obtain ⟨slot, hin, _, hsnap, hle⟩ := DataOp.validate_ok hval
      have hrest : rest = [] := by simpa using hlen
      subst hrest
      intro mr' hmr'
      obtain rfl := List.mem_singleton.mp hmr'
      refine ⟨hok mr' hmr', ?_⟩
      rintro ⟨snap', vaddr, size, p, hs, hreg, hp, hb⟩
      cases hs
      rw [hsnap] at hp hle
      have hsize := ((hok mr' hmr').host vaddr size hreg).2 slot p (.inl hin) hp hb
      rw [(validates_mrIds hv).2, hreg, Region.size, ← hsize]
      simpa using hle
  | _ => trivial

/-- A published entry is in order. -/
theorem SgeInv.publishes {s : MrSt Tid} {t : Tid} {mr : DmaplaneMrEntry} (hi : SgeInv s)
    (h : Publishes s t mr) : EntryOk s.buf mr := by
  cases h with
  | host hpc =>
    rename_i snap sgt frmr
    obtain ⟨hsnap, hiova⟩ : SgePc s.buf (.registerMapped snap sgt frmr) := hpc ▸ hi.pcs t
    refine ⟨?_, ?_⟩
    · cases frmr with
      | none => exact hsnap.fits
      | some ib => exact hiova ib rfl
    · intro vaddr size hreg
      cases hreg
      exact hsnap.host
  | gpu hpc =>
    rename_i slot sgt
    refine ⟨?_, fun vaddr size hreg => by cases hreg⟩
    simp only [gpuRegisterEntry, Region.size]
    cases hmap : (s.gpu.gpuBuffers slot).rdmaVaddr with
    | none => simp
    | some map => exact hi.gpu slot map hmap

theorem gpuFits_set {gpu : GpuTable} {slot : Fin maxGpuBuffers} {buf : DmaplaneGpuBuffer}
    (hi : ∀ k map, (gpu.gpuBuffers k).rdmaVaddr = some map → map.addr.toNat + map.size < 2 ^ 64)
    (hbuf : ∀ map, buf.rdmaVaddr = some map → map.addr.toNat + map.size < 2 ^ 64)
    (k : Fin maxGpuBuffers) (map : GpuMap)
    (hmap : ((gpu.setGpuBuffer slot buf).gpuBuffers k).rdmaVaddr = some map) :
    map.addr.toNat + map.size < 2 ^ 64 := by
  by_cases hk : k = slot
  · subst hk
    simp only [GpuTable.setGpuBuffer, Function.update_self] at hmap
    exact hbuf map hmap
  · simp only [GpuTable.setGpuBuffer, Function.update_of_ne hk] at hmap
    exact hi k map hmap

theorem gpuFits_step {gpu gpu' : GpuTable} {a : MrAct Tid} (h : GpuFlow gpu a gpu')
    (hi : ∀ k map, (gpu.gpuBuffers k).rdmaVaddr = some map → map.addr.toNat + map.size < 2 ^ 64)
    (k : Fin maxGpuBuffers) (map : GpuMap) (hmap : (gpu'.gpuBuffers k).rdmaVaddr = some map) :
    map.addr.toNat + map.size < 2 ^ 64 := by
  cases h with
  | same => exact hi k map hmap
  | failed _ _ hnone =>
    exact gpuFits_set hi (fun map h => by rw [hnone] at h; cases h) k map hmap
  | pinned _ hfit =>
    refine gpuFits_set hi ?_ k map hmap
    exact fun map h => hfit map h
  | unpinned => exact gpuFits_set hi (fun map h => by cases h) k map hmap
  | revoked =>
    refine gpuFits_set hi ?_ k map hmap
    exact fun map h => hi _ map h

variable [DecidableEq Tid]

theorem sgeInv_step {s s' : MrSt Tid} {a : MrAct Tid} (hm : MemInv s.buf) (hi : SgeInv s)
    (h : mrStep s a = some s') : SgeInv s' := by
  have hpcs : ∀ {t : Tid} {pc : MrPc}, SgePc s.buf pc →
      ∀ t', SgePc s.buf (Function.update s.pc t pc t') := by
    intro t pc hpc t'
    by_cases ht : t' = t
    · subst ht; rw [Function.update_self]; exact hpc
    · rw [Function.update_of_ne ht]; exact hi.pcs t'
  have hshr : ∀ {tab : MrTable}, Shrinks s.tab tab →
      ∀ k, (tab.mrs k).inUse = true → EntryOk s.buf (tab.mrs k) := by
    intro tab hs k hk
    have he := hs.mrs k hk
    rw [he] at hk ⊢
    exact hi.entries k hk
  cases mrStep_flow h with
  | same => exact hi
  | buf hb =>
    exact ⟨fun k hk => (hi.entries k hk).step hb, hi.gpu, fun t => (hi.pcs t).step hb⟩
  | gpu hg => exact ⟨hi.entries, gpuFits_step hg hi.gpu, hi.pcs⟩
  | peer => exact ⟨hi.entries, hi.gpu, hi.pcs⟩
  | setup hr h0 h1 => exact ⟨hi.entries, hi.gpu, hpcs trivial⟩
  | undo hr => exact ⟨hi.entries, hi.gpu, hpcs trivial⟩
  | teardown hr =>
    have hs := deregisterAll_shrinks s.ctx s.tab (List.finRange maxMrs)
    generalize deregisterAll s.ctx s.tab (List.finRange maxMrs) = tab at hs ⊢
    exact ⟨hshr hs, hi.gpu, hi.pcs⟩
  | dereg =>
    rename_i mrId
    have hs := deregister_shrinks s.ctx s.tab mrId
    exact ⟨hshr hs, hi.gpu, hi.pcs⟩
  | move hs he => exact ⟨hshr hs, hi.gpu, hpcs (hi.entering hm he)⟩
  | publish ha hslot hp hmrs hnext hpc =>
    rename_i t slot mr tab pc
    refine ⟨?_, hi.gpu, hpcs ?_⟩
    · intro k hk
      simp only [MrSt.goto, hmrs] at hk ⊢
      by_cases hkslot : k = slot
      · subst hkslot; rw [Function.update_self]; exact hi.publishes hp
      · rw [Function.update_of_ne hkslot] at hk ⊢
        exact hi.entries k hk
    · obtain ⟨mrId, rfl | rfl⟩ := hpc <;> trivial

theorem sgeInv {s : MrSt Tid} (h : (mrSys Tid).Reachable s) : SgeInv s := by
  refine h.invariant₂ (I := fun s => MemInv s.buf) (fun s hs => memInv (buf_reachable hs)) ?_ ?_
  · refine ⟨?_, ?_, fun _ => trivial⟩
    · intro k hk; cases hk
    · intro k map hmap; cases hmap
  · intro s a s' hm hi _ hs
    exact sgeInv_step hm hi hs

/-- A work request that thread `t` posts next lies in the MR's memory exactly if the operation has
checked its size against that memory, or the caller's offset and length fit into it. -/
theorem sge_in_region {s : MrSt Tid} {t : Tid} {op : DataOp} {mrs : List DmaplaneMrEntry}
    {checked : Option BufSnapshot} {wr : WorkRequest} (h : (mrSys Tid).Reachable s)
    (hpc : s.pc t = .opPost op mrs checked) (hwr : wr ∈ op.wrs mrs) :
    wr.InRegion ↔ FoundOwn wr.mr checked ∨
      op.offset.toNat + op.size.toNat ≤ wr.mr.region.size := by
  obtain ⟨hmr, hoff, hlen⟩ := mem_wrs hwr
  have hpost : SgePc s.buf (.opPost op mrs checked) := hpc ▸ (sgeInv h).pcs t
  obtain ⟨hok, hown⟩ := hpost wr.mr hmr
  rw [inRegion_iff hok.fits, hoff, hlen]
  refine ⟨.inr, ?_⟩
  rintro (hfound | hle)
  · exact hown hfound
  · exact hle

/-- A one-page buffer is registered as the MR with id 1. -/
def setupOnePage : List (MrAct (Fin 2)) :=
  createOnePage.map MrAct.buf ++ [MrAct.setupRdma 0 7, MrAct.setupCopy 0 true] ++ registerOnePage 0

theorem sge_in_region_loopback : ∃ (s : MrSt (Fin 2)) (mr : DmaplaneMrEntry)
    (checked : Option BufSnapshot),
    s.pc 0 = .opPost (.loopbackTest 1 4096) [mr] checked ∧
      (WorkRequest.mk mr 0 4096).InRegion := by
  obtain ⟨s, hr, hpc⟩ : ∃ s : MrSt (Fin 2), (mrSys (Fin 2)).Reachable s ∧
      s.pc 0 = .opPost (.loopbackTest 1 4096) [s.tab.mrs 0]
        (some ⟨some ⟨2, 0x1000000⟩, 4096⟩) ∧ (s.tab.mrs 0).region = .host ⟨2, 0x1000000⟩ 4096 :=
    Transition.Sys.exists_of_exec
      (setupOnePage ++ [MrAct.op 0 (.loopbackTest 1 4096), MrAct.opValidate 0])
      (by decide +kernel)
  refine ⟨s, _, _, hpc.1, (sge_in_region hr hpc.1 (List.mem_singleton.mpr rfl)).mpr (.inl ?_)⟩
  exact ⟨_, _, _, _, rfl, hpc.2, rfl, rfl⟩

/-- WRITE_IMM posts two pages from the MR of a one-page buffer. -/
theorem write_imm_out_of_region : ∃ (s : MrSt (Fin 2)) (wr : WorkRequest),
    (mrSys (Fin 2)).Reachable s ∧ wr.mr = s.tab.mrs 0 ∧ (s.tab.mrs 0).inUse = true ∧
      s.pc 0 = .opPost (.writeImm 1 0 8192 false) [wr.mr] none ∧
      mrStep s (.post 0 wr) = some s ∧ ¬ wr.InRegion := by
  obtain ⟨s, hr, hin, hpc, haddr, hsize⟩ : ∃ s : MrSt (Fin 2), (mrSys (Fin 2)).Reachable s ∧
      (s.tab.mrs 0).inUse = true ∧
      s.pc 0 = .opPost (.writeImm 1 0 8192 false) [s.tab.mrs 0] none ∧
      (s.tab.mrs 0).sgeAddr = 0x1000000 ∧ (s.tab.mrs 0).region.size = 4096 :=
    Transition.Sys.exists_of_exec (setupOnePage ++ [MrAct.op 0 (.writeImm 1 0 8192 false)])
      (by decide +kernel)
  refine ⟨s, ⟨s.tab.mrs 0, 0, 8192⟩, hr, rfl, hin, hpc, ?_, ?_⟩
  · simp [mrStep, opStep, hpc, DataOp.wrs, DataOp.offset, DataOp.size]
  · simp [WorkRequest.InRegion, WorkRequest.addr, haddr, hsize]

end Dmaplane
