import Dmaplane.BufferMem
import Dmaplane.MrTeardown

/-!
# Dmaplane.MrBacking

No MR outlives its host buffer (`mr_backed`), provided that DESTROY_BUFFER frees no buffer that an
MR, a registration or an operation still refers to. DESTROY_BUFFER itself checks for VMAs and
dma-bufs only, so the proviso is the caller's business; without it an MR keeps the address of freed
memory and WRITE_IMM posts it (`mr_outlives_buffer`).
-/

namespace Dmaplane

/-- The buffer that an MR was registered from. -/
structure Backs (buf : DmaplaneBuffer) (mr : DmaplaneMrEntry) : Prop where
  inUse : buf.inUse = true
  id : buf.id = mr.bufId
  allocType : buf.allocType = .pages
  vaddr : ∃ p, buf.vaddr = some p ∧ mr.region = .host p buf.size ∧
    (mr.mr = none → mr.sgeAddr = p.addr)
  pages : ∃ array sgt, buf.pages = some array ∧ mr.sgt = some sgt ∧
    sgt.pages = array.pages.take buf.nrPages

/-- The mapping of the memory that the MR refers to. -/
def DmaplaneMrEntry.mapping (mr : DmaplaneMrEntry) : Option Nat :=
  match mr.region with
  | .host vaddr _ => some vaddr.block
  | .gpu _ => none

/-- The mappings that a thread under `rdma_sem` refers to. -/
def MrPc.mappings : MrPc → List Nat
  | .register snap | .registerMapped snap _ _ => [snap.vaddr.block]
  | .opValidate _ mrs | .opPost _ mrs _ => mrs.filterMap (·.mapping)
  | _ => []

variable {Tid : Type}

/-- An MR in use, or a registration or operation in progress, refers to the mapping. -/
def MrSt.Refers (s : MrSt Tid) (p : Nat) : Prop :=
  (∃ k, (s.tab.mrs k).inUse = true ∧ (s.tab.mrs k).mapping = some p) ∨
    ∃ t ∈ s.readers, p ∈ (s.pc t).mappings

instance (s : MrSt Tid) (p : Nat) : Decidable (s.Refers p) := inferInstanceAs (Decidable (_ ∨ _))

/-- The memory under the MR is that of a buffer in use, or of a GPU. -/
def MrBacked (b : BufSt Tid) (mr : DmaplaneMrEntry) : Prop :=
  (∃ i, Backs (b.dev.buffers i) mr) ∨ (mr.bufId = 0 ∧ ∃ size, mr.region = .gpu size)

def PcBacked (b : BufSt Tid) : MrPc → Prop
  | .register snap => ∃ i, SnapshotOf (b.dev.buffers i) snap
  | .registerMapped snap sgt _ =>
      (∃ i, SnapshotOf (b.dev.buffers i) snap) ∧ sgt.pages = snap.pages
  | .opValidate _ mrs | .opPost _ mrs _ => ∀ mr ∈ mrs, MrBacked b mr
  | _ => True

structure BackInv (s : MrSt Tid) : Prop where
  entries : ∀ k, (s.tab.mrs k).inUse = true → MrBacked s.buf (s.tab.mrs k)
  pcs : ∀ t, PcBacked s.buf (s.pc t)

theorem Backs.mapping {buf : DmaplaneBuffer} {mr : DmaplaneMrEntry} (h : Backs buf mr) :
    ∃ p, buf.vaddr = some p ∧ mr.mapping = some p.block := by
  obtain ⟨p, hp, hreg, _⟩ := h.vaddr
  exact ⟨p, hp, by simp [DmaplaneMrEntry.mapping, hreg]⟩

/-- The memory the device touches through the MR is the buffer's. -/
theorem Backs.blocks {buf : DmaplaneBuffer} {mr : DmaplaneMrEntry} (h : Backs buf mr) :
    ∀ p ∈ mr.blocks, p ∈ buf.blocks := by
  obtain ⟨vaddr, hv, hreg, _⟩ := h.vaddr
  obtain ⟨array, sgt, harr, hsgt, hpages⟩ := h.pages
  intro p hp
  simp only [DmaplaneMrEntry.blocks, hreg, hsgt, Option.map_some, Option.getD_some,
    List.mem_cons] at hp
  simp only [DmaplaneBuffer.blocks, h.allocType, hv, harr, Option.map_some, Option.toList_some,
    List.mem_append, List.mem_singleton]
  rcases hp with rfl | hp
  · exact .inl rfl
  · rw [hpages] at hp
    obtain ⟨page, hmem, rfl⟩ := List.mem_map.mp hp
    exact .inr (.inl (List.mem_map.mpr ⟨page, List.mem_of_mem_take hmem, rfl⟩))

/-- The memory under an MR that is backed has not been freed. -/
theorem MrBacked.live {b : BufSt Tid} {mr : DmaplaneMrEntry} (h : MrBacked b mr) (hm : MemInv b) :
    ∀ p ∈ mr.blocks, p ∈ b.mem.live := by
  intro p hp
  rcases h with ⟨i, hi⟩ | ⟨_, size, hreg⟩
  · exact hm.live hi.inUse (hi.blocks p hp)
  · simp [DmaplaneMrEntry.blocks, hreg] at hp

theorem Backs.same {buf buf' : DmaplaneBuffer} {mr : DmaplaneMrEntry} (h : Backs buf mr)
    (hs : SameBuffer buf buf') : Backs buf' mr := by
  rw [hs]; exact ⟨h.inUse, h.id, h.allocType, h.vaddr, h.pages⟩

theorem SnapshotOf.same {buf buf' : DmaplaneBuffer} {snap : RegSnapshot} (h : SnapshotOf buf snap)
    (hs : SameBuffer buf buf') : SnapshotOf buf' snap := by
  rw [hs]; exact ⟨h.inUse, h.id, h.allocType, h.vaddr, h.size, h.pages⟩

/-- The entry that REGISTER_MR publishes is backed by the buffer it took the snapshot of. -/
theorem SnapshotOf.backs {buf : DmaplaneBuffer} {snap : RegSnapshot} (h : SnapshotOf buf snap)
    {sgt : SgTable} (hsgt : sgt.pages = snap.pages) (ctx : MrCtx) (tab : MrTable)
    (frmr : Option IbMr) : Backs buf (registerEntry ctx tab snap sgt frmr) := by
  obtain ⟨array, harr, hpages⟩ := h.pages
  refine ⟨h.inUse, h.id, h.allocType, ⟨snap.vaddr, h.vaddr, ?_, ?_⟩, array, sgt, harr, rfl, ?_⟩
  · rw [registerEntry, h.size]
  · intro hnone
    simp only [registerEntry] at hnone ⊢
    rw [hnone]; rfl
  · rw [hsgt, hpages]

theorem BackInv.publishes {s : MrSt Tid} {t : Tid} {mr : DmaplaneMrEntry} (hi : BackInv s)
    (h : Publishes s t mr) : MrBacked s.buf mr := by
  cases h with
  | host hpc =>
    obtain ⟨⟨i, hsnap⟩, hsgt⟩ : PcBacked s.buf (.registerMapped _ _ _) := hpc ▸ hi.pcs t
    exact .inl ⟨i, hsnap.backs hsgt _ _ _⟩
  | gpu hpc => exact .inr ⟨rfl, _, rfl⟩

theorem BackInv.entering {s : MrSt Tid} {t : Tid} {pc : MrPc} (hi : BackInv s)
    (h : Entering s t pc) : PcBacked s.buf pc := by
  have hlook : ∀ {op : DataOp} {mrs : List DmaplaneMrEntry}, op.lookup s.tab = some mrs →
      ∀ mr ∈ mrs, MrBacked s.buf mr := by
    intro op mrs hl mr hmr
    obtain ⟨k, hin, rfl⟩ := lookup_mem hl mr hmr
    exact hi.entries k hin
  cases pc with
  | register snap => exact h.2
  | registerMapped snap sgt frmr =>
    obtain ⟨hpc, hsgt, _⟩ := h
    have hsnap : PcBacked s.buf (.register snap) := hpc ▸ hi.pcs t
    exact ⟨hsnap, hsgt⟩
  | opValidate op mrs => exact hlook h.2
  | opPost op mrs checked =>
    cases checked with
    | none => exact hlook h.2
    | some snap =>
      have hmrs : PcBacked s.buf (.opValidate op mrs) := h.1 ▸ hi.pcs t
      exact hmrs
  | _ => trivial

/-! ## Runs -/

variable [DecidableEq Tid]

/-- The mapping of the buffer that the step frees. -/
def BufSt.freeing (b : BufSt Tid) : BufAct Tid → Option Ptr
  | .destroyFree t =>
    match b.section? t with
    | some (.destroyChecked slot) => (b.dev.buffers slot).vaddr
    | _ => none
  | _ => none

/-- DESTROY_BUFFER frees no buffer that is still referred to. -/
def FreesUnreferred (s : MrSt Tid) : MrAct Tid → Prop
  | .buf a => (s.buf.freeing a).all (fun p => !decide (s.Refers p.block)) = true
  | _ => True

instance (s : MrSt Tid) : (a : MrAct Tid) → Decidable (FreesUnreferred s a)
  | .buf _ => inferInstanceAs (Decidable (_ = true))
  | .setupUndo _ | .gpuPin _ _ _ | .gpuUnpin _ | .gpuRevoke _ | .connectPeer | .destroyPeer
  | .setupRdma _ _ | .setupCopy _ _ | .teardownRdma | .registerMr _ _ _ _ | .registerMap _ _
  | .registerPublish _ | .registerCopy _ _ | .registerUndo _ | .deregisterMr _ _
  | .gpuRegisterMr _ _ | .gpuRegisterMap _ _ | .gpuRegisterPublish _ | .gpuRegisterCopy _ _
  | .gpuRegisterUndo _ | .op _ _ | .opValidate _ | .post _ _ | .opEnd _ => isTrue trivial

section Frame

variable {s : MrSt Tid} {a : BufAct Tid} {b : BufSt Tid}

/-- A buffer whose mapping is referred to stays as it is. -/
theorem sameBuffer_of_refers (hm : MemInv s.buf) (hok : FreesUnreferred s (.buf a))
    (h : bufStep s.buf a = some b) {i : Fin maxBuffers} {p : Ptr}
    (hin : (s.buf.dev.buffers i).inUse = true) (hp : (s.buf.dev.buffers i).vaddr = some p)
    (href : s.Refers p.block) : SameBuffer (s.buf.dev.buffers i) (b.dev.buffers i) := by
  rcases inUse_step h hm hin with hsame | ⟨t, rfl, hlock⟩
  · exact hsame
  · have hfree : s.buf.freeing (.destroyFree t) = some p := by
      simp [BufSt.freeing, BufSt.section?, hlock, hp]
    rw [FreesUnreferred, hfree] at hok
    simp [href] at hok

theorem MrBacked.step (hm : MemInv s.buf) (hok : FreesUnreferred s (.buf a))
    (h : bufStep s.buf a = some b) {mr : DmaplaneMrEntry}
    (href : ∀ p, mr.mapping = some p → s.Refers p) (hb : MrBacked s.buf mr) : MrBacked b mr := by
  rcases hb with ⟨i, hi⟩ | hgpu
  · obtain ⟨p, hp, hmap⟩ := hi.mapping
    exact .inl ⟨i, hi.same (sameBuffer_of_refers hm hok h hi.inUse hp (href _ hmap))⟩
  · exact .inr hgpu

theorem PcBacked.step (hm : MemInv s.buf) (hok : FreesUnreferred s (.buf a))
    (h : bufStep s.buf a = some b) {pc : MrPc} (href : ∀ p ∈ pc.mappings, s.Refers p)
    (hp : PcBacked s.buf pc) : PcBacked b pc := by
  have hsnap : ∀ {snap : RegSnapshot}, s.Refers snap.vaddr.block →
      (∃ i, SnapshotOf (s.buf.dev.buffers i) snap) → ∃ i, SnapshotOf (b.dev.buffers i) snap := by
    rintro snap hr ⟨i, hi⟩
    exact ⟨i, hi.same (sameBuffer_of_refers hm hok h hi.inUse hi.vaddr hr)⟩
  have hmrs : ∀ {mrs : List DmaplaneMrEntry}, (∀ p ∈ mrs.filterMap (·.mapping), s.Refers p) →
      (∀ mr ∈ mrs, MrBacked s.buf mr) → ∀ mr ∈ mrs, MrBacked b mr := by
    intro mrs hr hb mr hmr
    refine (hb mr hmr).step hm hok h fun p hmap => hr p ?_
    exact List.mem_filterMap.mpr ⟨mr, hmr, hmap⟩
  cases pc with
  | register snap => exact hsnap (href _ (List.mem_singleton.mpr rfl)) hp
  | registerMapped snap sgt frmr =>
    exact ⟨hsnap (href _ (List.mem_singleton.mpr rfl)) hp.1, hp.2⟩
  | opValidate op mrs => exact hmrs href hp
  | opPost op mrs checked => exact hmrs href hp
  | _ => trivial

end Frame

theorem MrPc.reading_of_mappings {pc : MrPc} {p : Nat} (h : p ∈ pc.mappings) :
    pc.reading = true := by
  cases pc <;> first | rfl | cases h

theorem backInv_step {s s' : MrSt Tid} {a : MrAct Tid}
    (hr : ∀ t, t ∈ s.readers ↔ (s.pc t).reading = true) (hm : MemInv s.buf) (hi : BackInv s)
    (hok : FreesUnreferred s a) (h : mrStep s a = some s') : BackInv s' := by
  have hpcs : ∀ {t : Tid} {pc : MrPc}, PcBacked s.buf pc →
      ∀ u, PcBacked s.buf (Function.update s.pc t pc u) := by
    intro t pc hpc u
    by_cases hu : u = t
    · subst hu; rw [Function.update_self]; exact hpc
    · rw [Function.update_of_ne hu]; exact hi.pcs u
  have hshr : ∀ {tab : MrTable}, Shrinks s.tab tab →
      ∀ k, (tab.mrs k).inUse = true → MrBacked s.buf (tab.mrs k) := by
    intro tab hs k hk
    have he := hs.mrs k hk
    rw [he] at hk ⊢
    exact hi.entries k hk
  cases mrStep_flow h with
  | same => exact hi
  | buf hb =>
    refine ⟨fun k hk => ?_, fun t => ?_⟩
    · exact (hi.entries k hk).step hm hok hb fun p hmap => .inl ⟨k, hk, hmap⟩
    · refine (hi.pcs t).step hm hok hb fun p hp => .inr ⟨t, ?_, hp⟩
      exact (hr t).mpr (MrPc.reading_of_mappings hp)
  | gpu => exact ⟨hi.entries, hi.pcs⟩
  | peer => exact ⟨hi.entries, hi.pcs⟩
  | setup => exact ⟨hi.entries, hpcs trivial⟩
  | undo => exact ⟨hi.entries, hpcs trivial⟩
  | teardown =>
    have hs := deregisterAll_shrinks s.ctx s.tab (List.finRange maxMrs)
    generalize deregisterAll s.ctx s.tab (List.finRange maxMrs) = tab at hs ⊢
    exact ⟨hshr hs, hi.pcs⟩
  | dereg =>
    have hs := deregister_shrinks s.ctx s.tab ‹_›
    exact ⟨hshr hs, hi.pcs⟩
  | move hs he => exact ⟨hshr hs, hpcs (hi.entering he)⟩
  | publish ha hslot hp hmrs hnext hpc =>
    rename_i t slot mr tab pc
    refine ⟨fun k hk => ?_, hpcs ?_⟩
    · simp only [MrSt.goto, hmrs] at hk ⊢
      by_cases hks : k = slot
      · subst hks; rw [Function.update_self]; exact hi.publishes hp
      · rw [Function.update_of_ne hks] at hk ⊢
        exact hi.entries k hk
    · obtain ⟨mrId, rfl | rfl⟩ := hpc <;> trivial

theorem backInv {s : MrSt Tid} (h : (mrSys Tid).ReachableWith FreesUnreferred s) : BackInv s := by
  refine h.invariant₂
    (I := fun s => (∀ t, t ∈ s.readers ↔ (s.pc t).reading = true) ∧ MemInv s.buf)
    (fun s hs => ⟨mem_readers hs, memInv (buf_reachable hs)⟩) ?_ ?_
  · refine ⟨fun k hk => ?_, fun _ => trivial⟩
    cases hk
  · rintro s a s' ⟨hr, hm⟩ hi hok hs
    exact backInv_step hr hm hi hok hs

/-- Every host MR in use is that of a buffer in use, whose memory is live, and no operation posts an
address of freed memory. -/
theorem mr_backed {s : MrSt Tid} (h : (mrSys Tid).ReachableWith FreesUnreferred s) :
    (∀ k, (s.tab.mrs k).inUse = true → (s.tab.mrs k).bufId ≠ 0 →
      ∃ i, Backs (s.buf.dev.buffers i) (s.tab.mrs k) ∧
        ∀ p ∈ (s.tab.mrs k).blocks, p ∈ s.buf.mem.live) ∧
    ∀ t op mrs checked, s.pc t = .opPost op mrs checked →
      ∀ wr ∈ op.wrs mrs, ∀ p ∈ wr.mr.blocks, p ∈ s.buf.mem.live := by
  have hi := backInv h
  have hm := memInv (buf_reachable h)
  constructor
  · intro k hk hid
    have hb := hi.entries k hk
    rcases hb with ⟨i, hi⟩ | ⟨h0, _⟩
    · exact ⟨i, hi, MrBacked.live (.inl ⟨i, hi⟩) hm⟩
    · exact absurd h0 hid
  · intro t op mrs checked hpc wr hwr
    have hmrs : PcBacked s.buf (.opPost op mrs checked) := hpc ▸ hi.pcs t
    exact (hmrs wr.mr (mem_wrs hwr).1).live hm

/-- Of two buffers the first is registered and the second destroyed; then WRITE_IMM is called. -/
def destroyOther : List (MrAct (Fin 2)) :=
  createOnePage.map MrAct.buf ++ createOnePage.map MrAct.buf ++
    ([.setupRdma 0 7, .setupCopy 0 true] : List (MrAct (Fin 2))) ++ registerOnePage 0 ++
    ([.buf (.destroyCall 1 2), .buf (.destroyLocked 1), .buf (.destroyFree 1),
      .op 0 (.writeImm 1 0 64 false)] : List (MrAct (Fin 2)))

theorem mr_backed_other_destroyed : ∃ s : MrSt (Fin 2),
    (s.buf.dev.buffers 1).inUse = false ∧
      ∃ i, Backs (s.buf.dev.buffers i) (s.tab.mrs 0) ∧
        ∀ p ∈ (s.tab.mrs 0).blocks, p ∈ s.buf.mem.live := by
  obtain ⟨s, hr, hin, hid, hgone⟩ : ∃ s : MrSt (Fin 2),
      (mrSys (Fin 2)).ReachableWith FreesUnreferred s ∧ (s.tab.mrs 0).inUse = true ∧
        (s.tab.mrs 0).bufId ≠ 0 ∧ (s.buf.dev.buffers 1).inUse = false :=
    Transition.Sys.exists_of_execWith destroyOther (by decide +kernel)
  exact ⟨s, hgone, (mr_backed hr).1 0 hin hid⟩

/-- The buffer of an MR in use is destroyed, and WRITE_IMM posts its address. -/
def destroyUnderOp : List (MrAct (Fin 2)) :=
  createOnePage.map MrAct.buf ++ ([.setupRdma 0 7, .setupCopy 0 true] : List (MrAct (Fin 2))) ++
    registerOnePage 0 ++
    ([.buf (.destroyCall 1 1), .buf (.destroyLocked 1), .buf (.destroyFree 1),
      .op 0 (.writeImm 1 0 64 false)] : List (MrAct (Fin 2)))

theorem mr_outlives_buffer : ∃ (s : MrSt (Fin 2)) (wr : WorkRequest) (p : Nat),
    (mrSys (Fin 2)).Reachable s ∧ (s.tab.mrs 0).inUse = true ∧ (s.tab.mrs 0).bufId ≠ 0 ∧
      (∀ i, (s.buf.dev.buffers i).inUse = false) ∧ wr.mr = s.tab.mrs 0 ∧
      mrStep s (.post 0 wr) = some s ∧ p ∈ wr.mr.blocks ∧ p ∉ s.buf.mem.live := by
  obtain ⟨s, hr, hin, hid, hgone, hpc, hp, hdead⟩ : ∃ s : MrSt (Fin 2),
      (mrSys (Fin 2)).Reachable s ∧ (s.tab.mrs 0).inUse = true ∧ (s.tab.mrs 0).bufId ≠ 0 ∧
        (∀ i, (s.buf.dev.buffers i).inUse = false) ∧
        s.pc 0 = .opPost (.writeImm 1 0 64 false) [s.tab.mrs 0] none ∧
        2 ∈ (s.tab.mrs 0).blocks ∧ 2 ∉ s.buf.mem.live :=
    Transition.Sys.exists_of_exec destroyUnderOp (by decide +kernel)
  refine ⟨s, ⟨s.tab.mrs 0, 0, 64⟩, 2, hr, hin, hid, hgone, rfl, ?_, hp, hdead⟩
  simp [mrStep, opStep, hpc, DataOp.wrs, DataOp.offset, DataOp.size]

end Dmaplane
