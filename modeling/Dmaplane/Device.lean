import Dmaplane.BufferConserved
import Dmaplane.MrConserved
import Dmaplane.RdmaConserved

/-!
# Dmaplane.Device

The buffers, the RDMA context and the MRs as one device: the ioctls of `driver/main.c` that make
and release them, each with its failures and its undo, one call after the other, and
`dmaplane_exit`.

An MR and its DMA mapping are made with the verbs device and the PD of the context, so these must
not be released before it. `stranded` counts what was.

* `mrs_in_context`       — no MR is stranded, and every MR in use has the objects it was made with.
* `DeviceInv.exit`  — what the exit leaves behind.

The module cannot be unloaded while a file, a mapping or a dma-buf of it is left, so that the exit
finds none.
-/

namespace Dmaplane

/-- `struct dmaplane_dev`, as far as its buffers and RDMA go. -/
structure DeviceSt where
  buf : BufCallSt
  rdma : RdmaSt
  mr : MrRes
  /-- DMA mappings and MRs that existed when their device and PD were released. -/
  stranded : Nat

/-- What the MR functions read of `dev->rdma`. -/
def RdmaSt.mrCtx (r : RdmaSt) (lkey : BitVec 32) : MrCtx :=
  { initialized := r.initialized, ibDev := (r.objs.ptr .ibDev).isSome, localDmaLkey := lkey
    peerConnected := r.peerConnected }

/-- The loop of `dmaplane_exit` over the buffers. -/
def destroyAllBuffers (s : BufCallSt) : List (Fin maxBuffers) → BufCallSt
  | [] => s
  | i :: is =>
    if (s.dev.buffers i).inUse then
      let r := dmabufRdmaDestroyBuffer s.dev s.mem (s.dev.buffers i).id
      destroyAllBuffers ⟨r.2.1, r.2.2⟩ is
    else destroyAllBuffers s is

/-- `dmaplane_ioctl_create_buffer`: a buffer whose id does not reach user space is destroyed. -/
def ioctlCreateBuffer (params : DmaplaneBufParams) (env : AllocEnv) (copyOk : Bool)
    (s : BufCallSt) : BufCallSt :=
  match dmabufRdmaCreateBuffer env params s.dev s.mem with
  | (.error _, dev, mem) => ⟨dev, mem⟩
  | (.ok slot, dev, mem) =>
    if copyOk then ⟨dev, mem⟩
    else
      let r := dmabufRdmaDestroyBuffer dev mem (dev.buffers slot).id
      ⟨r.2.1, r.2.2⟩

namespace DeviceSt

def withRdma (d : DeviceSt) (rdma : RdmaSt) : DeviceSt :=
  { d with rdma := rdma, mr := { d.mr with ctx := rdma.mrCtx d.mr.ctx.localDmaLkey } }

/-- `rdma_engine_teardown`. -/
def engineTeardown (d : DeviceSt) : DeviceSt :=
  { d.withRdma (rdmaEngineTeardown d.rdma) with
    stranded := d.stranded +
      if d.rdma.initialized then d.mr.tab.sgts.live.card + d.mr.tab.ibMrs.live.card else 0 }

/-- The loop over the MRs before a teardown. -/
def deregisterMrs (d : DeviceSt) : DeviceSt :=
  { d with mr := d.mr.withTab (deregisterAll d.mr.ctx d.mr.tab (List.finRange maxMrs)) }

/-- `dmaplane_ioctl_setup_rdma`; `lkey` is the `local_dma_lkey` of the PD. -/
def ioctlSetupRdma (port : BitVec 8) (env : SetupEnv) (lkey : BitVec 32) (copyOk : Bool)
    (d : DeviceSt) : DeviceSt :=
  match rdmaEngineSetup port env d.rdma with
  | (some _, rdma) => d.withRdma rdma
  | (none, rdma) =>
    let d := { d with rdma := rdma, mr := { d.mr with ctx := rdma.mrCtx lkey } }
    if copyOk then d else d.engineTeardown

/-- `dmaplane_ioctl_teardown_rdma`. -/
def ioctlTeardownRdma (d : DeviceSt) : DeviceSt := d.deregisterMrs.engineTeardown

end DeviceSt

inductive DevCall where
  | createBuffer (params : DmaplaneBufParams) (env : AllocEnv) (copyOk : Bool)
  | destroyBuffer (bufId : BitVec 32)
  | setupRdma (port : BitVec 8) (env : SetupEnv) (lkey : BitVec 32) (copyOk : Bool)
  | teardownRdma
  | initPeer (env : InitPeerEnv)
  | connectPeer (env : ConnectEnv) (remote : PeerInfo)
  | destroyPeer
  | registerMr (bufId accessFlags : BitVec 32) (env : RegisterEnv) (copyOk : Bool)
  /-- Whatever the table of the pinned GPU buffers holds. -/
  | gpuRegisterMr (gpu : GpuTable) (handle : BitVec 32) (env : GpuRegisterEnv) (copyOk : Bool)
  | deregisterMr (mrId : BitVec 32)

def devCall (d : DeviceSt) : DevCall → DeviceSt
  | .createBuffer params env copyOk => { d with buf := ioctlCreateBuffer params env copyOk d.buf }
  | .destroyBuffer bufId =>
    let r := dmabufRdmaDestroyBuffer d.buf.dev d.buf.mem bufId
    { d with buf := ⟨r.2.1, r.2.2⟩ }
  | .setupRdma port env lkey copyOk => d.ioctlSetupRdma port env lkey copyOk
  | .teardownRdma => d.ioctlTeardownRdma
  | .initPeer env => d.withRdma (rdmaEngineInitPeer env d.rdma).2
  | .connectPeer env remote => d.withRdma (rdmaEngineConnectPeer env remote d.rdma).2
  | .destroyPeer => d.withRdma (rdmaEngineTeardownPeer d.rdma)
  | .registerMr bufId accessFlags env copyOk =>
    { d with
      mr := undoUnless copyOk (rdmaEngineRegisterMr d.buf.dev bufId accessFlags env d.mr) }
  | .gpuRegisterMr gpu handle env copyOk =>
    { d with mr := undoUnless copyOk (dmaplaneGpuRegisterMr gpu handle env d.mr) }
  | .deregisterMr mrId => { d with mr := rdmaEngineDeregisterMr mrId d.mr }

def deviceSys : Transition.Sys DeviceSt DevCall where
  init := { buf := ⟨bufTableInit, .empty⟩, rdma := rdmaInit, mr := mrResInit, stranded := 0 }
  step := fun d c => some (devCall d c)

namespace DeviceSt

/-- "Deregister MRs ONLY if RDMA is still up." -/
def closeRdma (d : DeviceSt) : DeviceSt :=
  if d.rdma.initialized then d.deregisterMrs.engineTeardown else d

/-- "Mark all MR slots as unused regardless." -/
def dropMrs (d : DeviceSt) : DeviceSt :=
  { d with
    mr := d.mr.withTab
      { d.mr.tab with mrs := fun i => { d.mr.tab.mrs i with inUse := false } } }

/-- `dmaplane_exit` from the RDMA teardown on, without the GPU. -/
def dmaplaneExit (d : DeviceSt) : DeviceSt :=
  let d := d.closeRdma.dropMrs
  { d with buf := destroyAllBuffers d.buf (List.finRange maxBuffers) }

end DeviceSt

/-! ## Buffers -/

/-- The counters say how many buffers there are. -/
def BufTable.Balanced (dev : BufTable) : Prop :=
  dev.stats.buffersCreated - dev.stats.buffersDestroyed = BitVec.ofNat 64 dev.usedSlots.card

/-- No buffer is mapped or exported. -/
def BufTable.Quiet (dev : BufTable) : Prop :=
  ∀ i, (dev.buffers i).inUse = true →
    (dev.buffers i).mapped = false ∧ (dev.buffers i).dmabufExported = false

/-- The buffers between two calls. -/
structure BufferInv (s : BufCallSt) : Prop where
  memory : BufferMemory s
  quiet : s.dev.Quiet
  balanced : s.dev.Balanced

theorem bufTableInit_balanced : bufTableInit.Balanced := by
  have hnone : bufTableInit.usedSlots = ∅ := by
    rw [Finset.eq_empty_iff_forall_notMem]
    intro i hi
    cases mem_usedSlots.mp hi
  show (0 : BitVec 64) - 0 = BitVec.ofNat 64 bufTableInit.usedSlots.card
  rw [hnone]
  rfl

section Buffers

variable {s : BufCallSt} {env : AllocEnv} {params : DmaplaneBufParams}

/-- A failed create may bump a NUMA counter, but none of these two. -/
theorem createBuffer_error_counts {dev dev' : BufTable} {h h' : Heap} {e : Errno}
    (hc : dmabufRdmaCreateBuffer env params dev h = (.error e, dev', h')) :
    dev'.stats.buffersCreated = dev.stats.buffersCreated ∧
      dev'.stats.buffersDestroyed = dev.stats.buffersDestroyed := by
  rcases createBuffer_error hc with ⟨-, rfl, -⟩ | ⟨type, -, hfill⟩
  · exact ⟨rfl, rfl⟩
  · have hflow := createFill_flow env type params dev h
    rw [hfill] at hflow
    cases hflow with
    | noSlot | coherentFailed | arrayFailed | pageFailed => exact ⟨rfl, rfl⟩
    | vmapFailed => exact (numaAllocs_countNuma _ _).2

theorem BufferInv.create (hb : BufferInv s) :
    BufferInv ⟨(dmabufRdmaCreateBuffer env params s.dev s.mem).2.1,
      (dmabufRdmaCreateBuffer env params s.dev s.mem).2.2⟩ := by
  refine ⟨hb.memory.create, ?_, ?_⟩ <;>
    generalize hr : dmabufRdmaCreateBuffer env params s.dev s.mem = r <;>
    obtain ⟨_ | slot, dev', h'⟩ := r
  · rcases createBuffer_error hr with ⟨-, rfl, rfl⟩ | ⟨type, -, hc⟩
    · exact hb.quiet
    · intro i hi
      have hsame := (createFill_error_slots hc).1 i hi
      show (dev'.buffers i).mapped = false ∧ (dev'.buffers i).dmabufExported = false
      rw [hsame]
      exact hb.quiet i (hsame ▸ hi)
  · obtain ⟨type, dev₁, -, hc, rfl⟩ := createBuffer_ok hr
    obtain ⟨-, hsame, -⟩ := createFill_alloced hc
    intro i hi
    by_cases hne : i = slot
    · subst hne
      have hexp : (dev₁.buffers i).dmabufExported = false := by
        have hflow := createFill_flow env type params s.dev s.mem
        rw [hc] at hflow
        cases hflow with
        | coherent | pages => rw [countNuma_buffers, setBuffer_self]; rfl
      simp only [createPublish, setBuffer_self]
      exact ⟨rfl, hexp⟩
    · have hbuf : (createPublish dev₁ slot).buffers i = s.dev.buffers i :=
        (setBuffer_of_ne hne).trans (hsame.buffers i hne)
      show ((createPublish dev₁ slot).buffers i).mapped = false ∧
        ((createPublish dev₁ slot).buffers i).dmabufExported = false
      rw [hbuf]
      exact hb.quiet i (hbuf ▸ hi)
  · obtain ⟨h1, h2⟩ := createBuffer_error_counts hr
    have hslots : dev'.usedSlots = s.dev.usedSlots := by
      rcases createBuffer_error hr with ⟨-, rfl, -⟩ | ⟨type, -, hc⟩
      · rfl
      · exact usedSlots_congr (createFill_error_slots hc).2
    show dev'.stats.buffersCreated - dev'.stats.buffersDestroyed = _
    rw [h1, h2, hslots]
    exact hb.balanced
  · obtain ⟨type, dev₁, -, hc, rfl⟩ := createBuffer_ok hr
    obtain ⟨hfree, hsame, -⟩ := createFill_alloced hc
    obtain ⟨-, h1, h2⟩ := createFill_counted hc
    have hnew : slot ∉ s.dev.usedSlots := by rw [mem_usedSlots, hfree]; exact Bool.false_ne_true
    have hbal := hb.balanced
    show dev₁.stats.buffersCreated + 1 - dev₁.stats.buffersDestroyed = _
    rw [usedSlots_publish hsame, Finset.card_insert_of_notMem hnew, BitVec.ofNat_add, ← hbal, h1, h2]
    show _ = _ + (1 : BitVec 64)
    bv_omega

theorem BufferInv.destroy (hb : BufferInv s) (bufId : BitVec 32) :
    BufferInv ⟨(dmabufRdmaDestroyBuffer s.dev s.mem bufId).2.1,
      (dmabufRdmaDestroyBuffer s.dev s.mem bufId).2.2⟩ := by
  refine ⟨hb.memory.destroy bufId, ?_, ?_⟩ <;>
    generalize hr : dmabufRdmaDestroyBuffer s.dev s.mem bufId = r <;>
    obtain ⟨_ | slot, dev', h'⟩ := r
  · obtain ⟨rfl, rfl⟩ := destroyBuffer_error hr
    exact hb.quiet
  · obtain ⟨-, rfl, rfl⟩ := destroyBuffer_ok hr
    intro i hi
    have hne : i ≠ slot := by
      rintro rfl
      simp [destroyFree] at hi
    have hbuf : (destroyFree s.dev s.mem slot).1.buffers i = s.dev.buffers i := setBuffer_of_ne hne
    show ((destroyFree s.dev s.mem slot).1.buffers i).mapped = false ∧
      ((destroyFree s.dev s.mem slot).1.buffers i).dmabufExported = false
    rw [hbuf]
    exact hb.quiet i (hbuf ▸ hi)
  · obtain ⟨rfl, rfl⟩ := destroyBuffer_error hr
    exact hb.balanced
  · obtain ⟨hin, rfl, rfl⟩ := destroyBuffer_ok hr
    have hcard := Finset.card_erase_add_one (mem_usedSlots.mpr hin)
    have hbal : s.dev.stats.buffersCreated - s.dev.stats.buffersDestroyed = _ := hb.balanced
    rw [← hcard, BitVec.ofNat_add] at hbal
    show s.dev.stats.buffersCreated - (s.dev.stats.buffersDestroyed + 1) = _
    rw [usedSlots_destroyFree, ← sub_sub, hbal]
    exact add_sub_cancel_right _ (1 : BitVec 64)

theorem BufferInv.ioctlCreate (hb : BufferInv s) (params : DmaplaneBufParams) (env : AllocEnv)
    (copyOk : Bool) : BufferInv (ioctlCreateBuffer params env copyOk s) := by
  have hc : BufferInv ⟨(dmabufRdmaCreateBuffer env params s.dev s.mem).2.1,
      (dmabufRdmaCreateBuffer env params s.dev s.mem).2.2⟩ := hb.create
  unfold ioctlCreateBuffer
  generalize dmabufRdmaCreateBuffer env params s.dev s.mem = r at hc ⊢
  obtain ⟨_ | slot, dev, mem⟩ := r
  · exact hc
  · cases copyOk with
    | true => exact hc
    | false => exact hc.destroy _

/-- A quiet buffer is destroyed by its id, if those before it are gone: the scan stops at the first
match, and ids may recur. -/
theorem destroy_first (hq : s.dev.Quiet) {j : Fin maxBuffers} (hj : (s.dev.buffers j).inUse = true)
    (hbefore : ∀ i < j, (s.dev.buffers i).inUse = false) :
    (dmabufRdmaDestroyBuffer s.dev s.mem (s.dev.buffers j).id).2.1 =
      (destroyFree s.dev s.mem j).1 := by
  have hfind : dmabufRdmaFindBuffer s.dev (s.dev.buffers j).id = some j := by
    unfold dmabufRdmaFindBuffer
    refine List.find?_eq_some_iff_getElem.mpr ⟨by simp [hj], j, by simp, by simp, ?_⟩
    intro i hi
    have hfree := hbefore ⟨i, Nat.lt_trans hi j.isLt⟩ hi
    simp [hfree]
  obtain ⟨hm, he⟩ := hq j hj
  simp only [dmabufRdmaDestroyBuffer, destroyCheck, hfind, hm, he, Bool.false_eq_true, if_false]

theorem destroyAllBuffers_spec {is : List (Fin maxBuffers)} (hb : BufferInv s)
    (hsorted : is.Pairwise (· < ·)) (hall : ∀ i, (s.dev.buffers i).inUse = true → i ∈ is) :
    BufferInv (destroyAllBuffers s is) ∧
      ∀ i, ((destroyAllBuffers s is).dev.buffers i).inUse = false := by
  induction is generalizing s with
  | nil =>
    refine ⟨hb, fun i => ?_⟩
    by_contra h
    cases hall i (by simpa [destroyAllBuffers] using h)
  | cons j js ih =>
    obtain ⟨hj, hsorted⟩ := List.pairwise_cons.mp hsorted
    rw [destroyAllBuffers]
    split
    · rename_i hin
      have hbefore : ∀ k < j, (s.dev.buffers k).inUse = false := by
        intro k hk
        by_contra h
        rcases List.mem_cons.mp (hall k (by simpa using h)) with rfl | hmem
        · exact lt_irrefl _ hk
        · exact absurd (hj k hmem) (not_lt.mpr hk.le)
      have hdev := destroy_first hb.quiet hin hbefore
      refine ih (hb.destroy _) hsorted fun i hi => ?_
      simp only [hdev] at hi
      by_cases hne : i = j
      · subst hne
        simp [destroyFree] at hi
      · simp only [destroyFree, setBuffer_of_ne hne] at hi
        exact (List.mem_cons.mp (hall i hi)).resolve_left hne
    · rename_i hin
      refine ih hb hsorted fun i hi => (List.mem_cons.mp (hall i hi)).resolve_left ?_
      rintro rfl
      exact hin hi

/-- With no buffer in use no memory is out. -/
theorem BufferInv.empty (hb : BufferInv s) (hidle : ∀ i, (s.dev.buffers i).inUse = false) :
    s.mem.live = ∅ ∧ s.mem.faults = 0 ∧
      s.dev.stats.buffersCreated = s.dev.stats.buffersDestroyed := by
  refine ⟨Finset.eq_empty_of_forall_notMem fun p hp => ?_, hb.memory.exact.faults, ?_⟩
  · obtain ⟨i, hi⟩ := hb.memory.exact.all p hp
    simp [BufTable.own, hidle i] at hi
  · have hnone : s.dev.usedSlots = ∅ := Finset.eq_empty_of_forall_notMem fun i hi => by
      rw [mem_usedSlots, hidle i] at hi
      cases hi
    have hbal : s.dev.stats.buffersCreated - s.dev.stats.buffersDestroyed = _ := hb.balanced
    rw [hnone] at hbal
    exact sub_eq_zero.mp hbal

end Buffers

/-! ## The MRs and their context -/

/-- The parts of the device, each by itself, and the MRs' view of the context. -/
structure DeviceInv (d : DeviceSt) : Prop where
  buf : BufferInv d.buf
  shape : Shape d.rdma
  mrs : MrConserved d.mr
  view : d.mr.ctx.initialized = d.rdma.initialized ∧
    d.mr.ctx.ibDev = (d.rdma.objs.ptr .ibDev).isSome
  stranded : d.stranded = 0

section Mrs

variable {s : MrRes}

/-- The MRs ask nothing of the context but whether it is there. -/
theorem MrConserved.sameCtx (h : MrConserved s) {ctx : MrCtx}
    (hinit : ctx.initialized = s.ctx.initialized) (hdev : ctx.ibDev = s.ctx.ibDev) :
    MrConserved { s with ctx := ctx } :=
  ⟨h.sgts, h.ibMrs, h.copies, h.copyFaults, h.inUse, h.idle, h.count,
    fun hc => hdev.trans (h.ctx (hinit ▸ hc)), fun i hi => hinit.trans (h.ready i hi)⟩

/-- With no MR in use nothing of them is left. -/
theorem MrConserved.empty (h : MrConserved s) (hidle : ∀ i, (s.tab.mrs i).inUse = false) :
    s.tab.sgts.live = ∅ ∧ s.tab.ibMrs.live = ∅ ∧
      s.tab.mrsRegistered = s.tab.mrsDeregistered := by
  refine ⟨Finset.eq_empty_of_forall_notMem fun p hp => ?_,
    Finset.eq_empty_of_forall_notMem fun p hp => ?_, ?_⟩
  · obtain ⟨i, hi⟩ := h.sgts.all p hp
    simp [sgtBlocks, (h.idle i (hidle i)).1] at hi
  · obtain ⟨i, hi⟩ := h.ibMrs.all p hp
    simp [ibMrBlocks, (h.idle i (hidle i)).2] at hi
  · have hnone : inUseSlots s.tab.mrs = ∅ :=
      Finset.filter_eq_empty_iff.mpr fun i _ => by simp [hidle i]
    have hc := h.count
    rw [hnone] at hc
    exact sub_eq_zero.mp hc

theorem MrConserved.closed (h : MrConserved s) (hinit : s.ctx.initialized = false)
    (i : Fin maxMrs) : (s.tab.mrs i).inUse = false := by
  by_contra hi
  have := h.ready i (by simpa using hi)
  rw [hinit] at this
  cases this

end Mrs

namespace DeviceInv

variable {d : DeviceSt}

/-- An RDMA call that neither makes nor releases the loopback pair. -/
theorem withRdma (h : DeviceInv d) {rdma : RdmaSt} (hs : Shape rdma)
    (hinit : rdma.initialized = d.rdma.initialized)
    (hdev : rdma.objs.ptr .ibDev = d.rdma.objs.ptr .ibDev) : DeviceInv (d.withRdma rdma) := by
  refine ⟨h.buf, hs, h.mrs.sameCtx ?_ ?_, ⟨rfl, rfl⟩, h.stranded⟩
  · exact hinit.trans h.view.1.symm
  · show (rdma.objs.ptr .ibDev).isSome = _
    rw [hdev, h.view.2]

/-- A teardown with no MR left. -/
theorem engineTeardown (h : DeviceInv d) (hidle : ∀ i, (d.mr.tab.mrs i).inUse = false) :
    DeviceInv d.engineTeardown := by
  obtain ⟨h1, h2, -⟩ := h.mrs.empty hidle
  have htorn := (rdmaEngineTeardown_spec h.shape).2.1
  refine ⟨h.buf, shape_teardown h.shape, h.mrs.withCtx _ (fun hc => ?_) hidle, ⟨rfl, rfl⟩, ?_⟩
  · have hinit : (rdmaEngineTeardown d.rdma).initialized = true := hc
    rw [htorn.initialized] at hinit
    cases hinit
  · simp only [DeviceSt.engineTeardown, h.stranded, h1, h2, Finset.card_empty, Nat.zero_add,
      ite_self]

theorem deregisterMrs (h : DeviceInv d) :
    DeviceInv d.deregisterMrs ∧ ∀ i, (d.deregisterMrs.mr.tab.mrs i).inUse = false := by
  have hall := h.mrs.deregisterAll (List.finRange maxMrs)
  have hclear := deregisterAll_clears d.mr.ctx (List.pairwise_lt_finRange maxMrs)
    fun i (_ : (d.mr.tab.mrs i).inUse = true) => List.mem_finRange i
  unfold DeviceSt.deregisterMrs
  generalize deregisterAll d.mr.ctx d.mr.tab (List.finRange maxMrs) = tab at hall hclear ⊢
  exact ⟨⟨h.buf, h.shape, hall, h.view, h.stranded⟩, hclear⟩

theorem setup (h : DeviceInv d) (port : BitVec 8) (env : SetupEnv) (lkey : BitVec 32)
    (copyOk : Bool) : DeviceInv (d.ioctlSetupRdma port env lkey copyOk) := by
  have hs := shape_setup h.shape port env
  unfold DeviceSt.ioctlSetupRdma
  cases hinit : d.rdma.initialized with
  | true =>
    have hbusy : rdmaEngineSetup port env d.rdma = (some .EBUSY, d.rdma) := by
      rw [rdmaEngineSetup, hinit, if_pos rfl]
    rw [hbusy]
    exact h.withRdma h.shape rfl rfl
  | false =>
    have hidle := h.mrs.closed (h.view.1.trans hinit)
    have hdone := setup_done h.shape hinit port env
    generalize rdmaEngineSetup port env d.rdma = r at hs hdone ⊢
    obtain ⟨err, rdma⟩ := r
    rcases hdone with ⟨e, he, hk⟩ | ⟨hnone, s', hk, he⟩
    · cases he
      exact h.withRdma hs hk.initialized (congrFun hk.ptr_eq _)
    · cases hnone
      have hdev : rdma.objs.ptr .ibDev ≠ none := by
        rw [show rdma = _ from he]
        exact hk.ptr_new (by simp)
      have hopen : DeviceInv { d with rdma := rdma, mr := { d.mr with ctx := rdma.mrCtx lkey } } :=
        ⟨h.buf, hs, h.mrs.withCtx _ (fun _ => Option.isSome_iff_ne_none.mpr hdev) hidle, ⟨rfl, rfl⟩,
          h.stranded⟩
      -- The undo deregisters nothing: there is no MR yet.
      cases copyOk with
      | true => exact hopen
      | false => exact hopen.engineTeardown hidle

theorem register (h : DeviceInv d) (copyOk : Bool) {accessFlags : BitVec 32}
    {r : Except Errno (BitVec 32) × MrRes} (ho : Outcome d.mr accessFlags r) :
    DeviceInv { d with mr := undoUnless copyOk r } := by
  have hctx : (undoUnless copyOk r).ctx = d.mr.ctx := by
    have hr : r.2.ctx = d.mr.ctx := by
      rcases ho with ⟨-, hu⟩ | ⟨-, _, _, hr⟩
      · exact hu.ctx
      · exact hr.ctx
    obtain ⟨_ | mrId, s⟩ := r
    · exact hr
    · cases copyOk with
      | true => exact hr
      | false => exact hr
  refine ⟨h.buf, h.shape, conserved_undo h.mrs copyOk ho, ?_, h.stranded⟩
  rw [hctx]
  exact h.view

theorem call (h : DeviceInv d) (c : DevCall) : DeviceInv (devCall d c) := by
  cases c with
  | createBuffer params env copyOk =>
    exact ⟨h.buf.ioctlCreate params env copyOk, h.shape, h.mrs, h.view, h.stranded⟩
  | destroyBuffer bufId => exact ⟨h.buf.destroy bufId, h.shape, h.mrs, h.view, h.stranded⟩
  | setupRdma port env lkey copyOk => exact h.setup port env lkey copyOk
  | teardownRdma =>
    obtain ⟨hi, hidle⟩ := h.deregisterMrs
    exact hi.engineTeardown hidle
  | initPeer env =>
    have hs := shape_initPeer h.shape env
    rcases initPeer_done h.shape env with ⟨-, hk⟩ | ⟨-, -, hk⟩
    · exact h.withRdma hs hk.initialized (congrFun hk.ptr_eq _)
    · exact h.withRdma hs hk.initialized (hk.ptr_old (by decide))
  | connectPeer env remote =>
    have hs := shape_connectPeer h.shape env remote
    rcases connectPeer_done h.shape env remote with ⟨-, he⟩ | ⟨-, -, he⟩
    · exact h.withRdma hs (by rw [he]) (by rw [he])
    · exact h.withRdma hs (by rw [he]) (by rw [he])
  | destroyPeer =>
    obtain ⟨-, hptr, -, hinit, -⟩ := rdmaEngineTeardownPeer_spec h.shape
    exact h.withRdma (shape_teardownPeer h.shape) hinit ((hptr .ibDev).trans (if_neg (by decide)))
  | registerMr bufId accessFlags env copyOk =>
    exact h.register copyOk (registerMr_outcome d.buf.dev bufId accessFlags env d.mr)
  | gpuRegisterMr gpu handle env copyOk =>
    exact h.register copyOk (gpuRegisterMr_outcome gpu handle env d.mr)
  | deregisterMr mrId =>
    exact ⟨h.buf, h.shape, h.mrs.deregister mrId, h.view, h.stranded⟩

end DeviceInv

theorem deviceInv {d : DeviceSt} (h : deviceSys.Reachable d) : DeviceInv d := by
  refine h.invariant ?_ fun d c d' hi hs => by cases hs; exact hi.call c
  exact ⟨⟨⟨Heap.exact_empty, fun i hi => by cases hi⟩, fun i hi => (by cases hi),
    bufTableInit_balanced⟩, shape_init, conserved_init, ⟨rfl, rfl⟩, rfl⟩

/-- The objects of the loopback pair. -/
def RdmaSt.Has (r : RdmaSt) (f : RdmaField) : Prop :=
  ∃ p, r.objs.ptr f = some p ∧ p ∈ r.objs.heap.live

/-- **MRs and their context.** In any sequential run, whatever fails, no mapping or MR existed when
its device and PD were released; and while a mapping, an MR or an entry of the table exists, the
device, the PD and the loopback pair do. -/
theorem mrs_in_context (d : DeviceSt) (h : deviceSys.Reachable d) :
    d.stranded = 0 ∧
    (d.mr.tab.sgts.live.Nonempty ∨ d.mr.tab.ibMrs.live.Nonempty ∨
        (∃ i, (d.mr.tab.mrs i).inUse = true) →
      ∀ f, f ≠ .cqPeer → f ≠ .qpPeer → d.rdma.Has f) := by
  have hi := deviceInv h
  refine ⟨hi.stranded, fun hex f hf hg => ?_⟩
  have hin : ∃ i, (d.mr.tab.mrs i).inUse = true := by
    by_contra hno
    have hidle : ∀ i, (d.mr.tab.mrs i).inUse = false := fun i => by
      by_contra hi
      exact hno ⟨i, by simpa using hi⟩
    obtain ⟨h1, h2, -⟩ := hi.mrs.empty hidle
    rcases hex with hex | hex | hex
    · exact Finset.not_nonempty_empty (h1 ▸ hex)
    · exact Finset.not_nonempty_empty (h2 ▸ hex)
    · exact hno hex
  obtain ⟨i, hin⟩ := hin
  have hinit := hi.view.1.symm.trans (hi.mrs.ready i hin)
  obtain ⟨p, hp⟩ := Option.ne_none_iff_exists'.mp (hi.shape.full hinit f hf hg)
  exact ⟨p, hp, (hi.shape.sound.live p).mpr ⟨f, hp⟩⟩

/-- A buffer is registered for remote access, while a peer comes and goes. -/
def registeredRun : List DevCall :=
  [.createBuffer twoPageParams (grants 2 (some 0xffffc90000000000)) true,
    .setupRdma 1 rxeEnv 7 false, .setupRdma 1 rxeEnv 7 true,
    .initPeer { cq := none, qp := .ok 17, init := none, sgidAttr := none, ndev := none },
    .registerMr 1 3 { grantRegister with dmaMapped := 2, mapMrSg := .ok 2 } true, .destroyPeer]

theorem mrs_in_context_registered : ∃ d, deviceSys.Reachable d ∧ (d.mr.tab.mrs 0).inUse = true ∧
    d.rdma.Has .pd := by
  obtain ⟨d, hr, hin⟩ : ∃ d, deviceSys.Reachable d ∧ (d.mr.tab.mrs 0).inUse = true :=
    Transition.Sys.exists_of_exec registeredRun (by decide +kernel)
  exact ⟨d, hr, hin, (mrs_in_context d hr).2 (.inr (.inr ⟨0, hin⟩)) .pd (by decide) (by decide)⟩

/-- Nothing is left of the device, and nothing was released twice, too early or without being
there. -/
structure Unloaded (d : DeviceSt) : Prop where
  memory : d.buf.mem.live = ∅ ∧ d.buf.mem.faults = 0
  verbs : d.rdma.objs.heap.live = ∅ ∧ d.rdma.objs.heap.faults = 0 ∧ d.rdma.objs.bad = 0 ∧
    d.rdma.gidRefs = 0
  mappings : d.mr.tab.sgts.live = ∅ ∧ d.mr.tab.sgts.faults = 0
  ibMrs : d.mr.tab.ibMrs.live = ∅ ∧ d.mr.tab.ibMrs.faults = 0
  copies : d.mr.pageCopies.live = ∅ ∧ d.mr.pageCopies.faults = 0
  stranded : d.stranded = 0
  buffers : d.buf.dev.stats.buffersCreated = d.buf.dev.stats.buffersDestroyed
  mrs : d.mr.tab.mrsRegistered = d.mr.tab.mrsDeregistered

/-- The exit up to the buffers. -/
theorem DeviceInv.closeRdma {d : DeviceSt} (h : DeviceInv d) :
    DeviceInv d.closeRdma ∧ d.closeRdma.rdma.initialized = false ∧
      ∀ i, (d.closeRdma.mr.tab.mrs i).inUse = false := by
  unfold DeviceSt.closeRdma
  split
  · obtain ⟨hi, hidle⟩ := h.deregisterMrs
    generalize d.deregisterMrs = t at hi hidle ⊢
    exact ⟨hi.engineTeardown hidle, (rdmaEngineTeardown_spec hi.shape).2.1.initialized, hidle⟩
  · rename_i hinit
    have hinit : d.rdma.initialized = false := by simpa using hinit
    exact ⟨h, hinit, h.mrs.closed (h.view.1.trans hinit)⟩

/-- The exit leaves nothing behind. -/
theorem DeviceInv.exit {d : DeviceSt} (h : DeviceInv d) : Unloaded d.dmaplaneExit := by
  obtain ⟨hi, hinit, hidle⟩ := h.closeRdma
  unfold DeviceSt.dmaplaneExit
  generalize d.closeRdma = t at hi hinit hidle ⊢
  obtain ⟨h1, h2, h3⟩ := hi.mrs.empty hidle
  obtain ⟨hbuf, hfree⟩ := destroyAllBuffers_spec hi.buf (List.pairwise_lt_finRange maxBuffers)
    fun i _ => List.mem_finRange i
  simp only [DeviceSt.dropMrs]
  generalize destroyAllBuffers t.buf (List.finRange maxBuffers) = buf at hbuf hfree ⊢
  obtain ⟨k1, k2, k3⟩ := hbuf.empty hfree
  have hnull := hi.shape.null hinit
  exact ⟨⟨k1, k2⟩, ⟨live_eq_empty hi.shape.sound hnull, hi.shape.sound.faults, hi.shape.sound.bad,
    hi.shape.gidRefs⟩, ⟨h1, hi.mrs.sgts.faults⟩, ⟨h2, hi.mrs.ibMrs.faults⟩,
    ⟨hi.mrs.copies, hi.mrs.copyFaults⟩, hi.stranded, k3, h3⟩

end Dmaplane
