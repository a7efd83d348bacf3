import Dmaplane.Buffer

/-!
# Dmaplane.Mr

Memory regions: the MR table of `driver/rdma_engine.c` and the GPU buffer table of
`driver/gpu_p2p.c` that GPU-backed MRs come from.

* REGISTER_MR is cut into its sections: `registerSnapshot` under `buf_lock`, `registerMap` (the
  sg_table and the fast-reg MR) under no lock, `registerPublish` under `mr_lock`.
* GPU_REGISTER_MR likewise: `gpuRegisterLookup` under `gpu_buf_lock`, `gpuRegisterMap`, and
  `gpuRegisterPublish` under `mr_lock`.
* The verbs layer and the slab hand out blocks of two heaps: sg_tables and `ib_mr`s.
-/

namespace Dmaplane

/-- `DMAPLANE_MAX_MRS`. -/
abbrev maxMrs : Nat := 64

/-- `DMAPLANE_MAX_GPU_BUFFERS`. -/
abbrev maxGpuBuffers : Nat := 16

/-- `DMAPLANE_GPU_PAGE_SIZE`. -/
abbrev gpuPageSize : Nat := 65536

/-- `IB_ACCESS_LOCAL_WRITE`. -/
abbrev ibAccessLocalWrite : BitVec 32 := 1

/-! ## GPU buffers -/

/-- The contiguous mapping `rdma_vaddr`. -/
structure GpuMap where
  addr : BitVec 64
  size : Nat
  deriving DecidableEq, Repr

structure DmaplaneGpuBuffer where
  id : BitVec 32
  gpuVa : BitVec 64
  size : BitVec 64
  numPages : Nat
  rdmaVaddr : Option GpuMap
  gpuRevoked : Bool
  numaNode : Int
  inUse : Bool
  deriving DecidableEq

def gpuBufferZero : DmaplaneGpuBuffer :=
  { id := 0, gpuVa := 0, size := 0, numPages := 0, rdmaVaddr := none, gpuRevoked := false
    numaNode := 0, inUse := false }

structure GpuTable where
  gpuBuffers : Fin maxGpuBuffers → DmaplaneGpuBuffer
  nextGpuBufId : BitVec 32
  pinsTotal : BitVec 64
  unpinsTotal : BitVec 64

def gpuTableInit : GpuTable :=
  { gpuBuffers := fun _ => gpuBufferZero, nextGpuBufId := 1, pinsTotal := 0, unpinsTotal := 0 }

def GpuTable.setGpuBuffer (tab : GpuTable) (slot : Fin maxGpuBuffers) (buf : DmaplaneGpuBuffer) :
    GpuTable := { tab with gpuBuffers := Function.update tab.gpuBuffers slot buf }

/-- What NVIDIA's driver and the kernel answer to one GPU_PIN. -/
structure GpuPinEnv where
  /-- The physical addresses of the page table's entries. -/
  getPages : Except Errno (List (BitVec 64))
  versionOk : Bool
  sgt : Bool
  barPages : Bool
  /-- Every page is mapped by `ioremap_wc`. -/
  ioremapPages : Bool
  rdmaVaddr : Option (BitVec 64)
  numaNode : Int

/-- The BAR pages follow each other in physical memory. -/
def contiguous (pages : List (BitVec 64)) : Bool :=
  (List.range pages.length).all fun i =>
    pages[i]? == pages.head?.map (· + BitVec.ofNat 64 i * BitVec.ofNat 64 gpuPageSize)

def GpuTable.freeGpuSlot (tab : GpuTable) : Option (Fin maxGpuBuffers) :=
  (List.finRange maxGpuBuffers).find? fun i => !(tab.gpuBuffers i).inUse

/-- `dmaplane_gpu_pin` up to the assignment of the handle: the slot and what it will hold. On an
error the slot is left not in use. -/
def gpuPinPrepare (tab : GpuTable) (gpuVa size : BitVec 64) (env : GpuPinEnv) :
    Except Errno (Fin maxGpuBuffers × DmaplaneGpuBuffer) × GpuTable :=
  if size = 0 ∨ gpuVa.toNat % gpuPageSize ≠ 0 ∨ size.toNat % gpuPageSize ≠ 0 then
    (.error .EINVAL, tab)
  else
    match tab.freeGpuSlot with
    | none => (.error .ENOMEM, tab)
    | some slot =>
      let buf := { gpuBufferZero with gpuVa := gpuVa, size := size }
      match env.getPages with
      | .error e => (.error e, tab.setGpuBuffer slot buf)
      | .ok pages =>
        if !env.versionOk then (.error .EINVAL, tab.setGpuBuffer slot buf)
        else
          let buf := { buf with numPages := pages.length }
          if !env.sgt || !env.barPages || !env.ioremapPages then
            (.error .ENOMEM, tab.setGpuBuffer slot buf)
          else
            let rdmaVaddr :=
              if contiguous pages then
                env.rdmaVaddr.map fun addr => ⟨addr, pages.length * gpuPageSize⟩
              else none
            (.ok (slot, { buf with rdmaVaddr := rdmaVaddr, numaNode := env.numaNode }), tab)

/-- The rest of `dmaplane_gpu_pin`. -/
def gpuPinPublish (tab : GpuTable) (slot : Fin maxGpuBuffers) (buf : DmaplaneGpuBuffer) :
    GpuTable :=
  let tab := tab.setGpuBuffer slot { buf with id := tab.nextGpuBufId, inUse := true }
  { tab with nextGpuBufId := Handle.nextId tab.nextGpuBufId, pinsTotal := tab.pinsTotal + 1 }

def gpuFindBuffer (tab : GpuTable) (handle : BitVec 32) : Option (Fin maxGpuBuffers) :=
  (List.finRange maxGpuBuffers).find? fun i =>
    (tab.gpuBuffers i).inUse && (tab.gpuBuffers i).id == handle

def gpuUnpin (tab : GpuTable) (handle : BitVec 32) : Except Errno Unit × GpuTable :=
  match gpuFindBuffer tab handle with
  | none => (.error .ENOENT, tab)
  | some slot =>
    let tab := tab.setGpuBuffer slot
      { tab.gpuBuffers slot with rdmaVaddr := none, inUse := false }
    (.ok (), { tab with unpinsTotal := tab.unpinsTotal + 1 })

/-- The callback of NVIDIA's driver. -/
def gpuUnpinCallback (tab : GpuTable) (slot : Fin maxGpuBuffers) : GpuTable :=
  tab.setGpuBuffer slot { tab.gpuBuffers slot with gpuRevoked := true }

/-! ## The MR table -/

structure SgTable where
  block : Nat
  /-- The pages of a host buffer; a GPU buffer's table has DMA addresses only. -/
  pages : List Page
  nents : Nat
  deriving DecidableEq, Repr

structure IbMr where
  block : Nat
  lkey : BitVec 32
  rkey : BitVec 32
  iova : BitVec 64
  deriving DecidableEq, Repr

/-- The memory an MR was registered from. The driver keeps no record of it beside `buf_id`. -/
inductive Region where
  | host (vaddr : Ptr) (size : BitVec 64)
  | gpu (size : Nat)
  deriving DecidableEq, Repr

def Region.size : Region → Nat
  | .host _ size => size.toNat
  | .gpu size => size

structure DmaplaneMrEntry where
  id : BitVec 32
  bufId : BitVec 32
  mr : Option IbMr
  lkey : BitVec 32
  rkey : BitVec 32
  sgeAddr : BitVec 64
  sgt : Option SgTable
  sgtNents : Nat
  inUse : Bool
  region : Region
  deriving DecidableEq

def mrEntryZero : DmaplaneMrEntry :=
  { id := 0, bufId := 0, mr := none, lkey := 0, rkey := 0, sgeAddr := 0, sgt := none
    sgtNents := 0, inUse := false, region := .gpu 0 }

/-- The host memory that a work request on the MR makes the device touch: the mapping behind
`sge_addr` and the pages of the sg_table. -/
def DmaplaneMrEntry.blocks (mr : DmaplaneMrEntry) : List Nat :=
  match mr.region with
  | .host vaddr _ => vaddr.block :: ((mr.sgt.map (·.pages)).getD []).map (·.block)
  | .gpu _ => []

/-- What the MR code reads of `struct dmaplane_rdma_ctx`. -/
structure MrCtx where
  initialized : Bool
  /-- `ib_dev` is not NULL. -/
  ibDev : Bool
  localDmaLkey : BitVec 32
  peerConnected : Bool
  deriving DecidableEq

structure MrTable where
  mrs : Fin maxMrs → DmaplaneMrEntry
  nextMrId : BitVec 32
  sgts : Heap
  ibMrs : Heap
  mrsRegistered : BitVec 64
  mrsDeregistered : BitVec 64
  gpuMrsRegistered : BitVec 64

def mrTableInit : MrTable :=
  { mrs := fun _ => mrEntryZero, nextMrId := 1, sgts := .empty, ibMrs := .empty
    mrsRegistered := 0, mrsDeregistered := 0, gpuMrsRegistered := 0 }

def MrTable.setMr (tab : MrTable) (slot : Fin maxMrs) (mr : DmaplaneMrEntry) : MrTable :=
  { tab with mrs := Function.update tab.mrs slot mr }

def MrTable.freeMrSlot (tab : MrTable) : Option (Fin maxMrs) :=
  (List.finRange maxMrs).find? fun i => !(tab.mrs i).inUse

def dmabufRdmaFindMr (tab : MrTable) (mrId : BitVec 32) : Option (Fin maxMrs) :=
  (List.finRange maxMrs).find? fun i => (tab.mrs i).inUse && (tab.mrs i).id == mrId

/-- `sg_free_table` and `kfree`. -/
def MrTable.freeSgt (tab : MrTable) (sgt : SgTable) : MrTable :=
  { tab with sgts := tab.sgts.free sgt.block }

def MrTable.deregIbMr (tab : MrTable) (mr : IbMr) : MrTable :=
  { tab with ibMrs := tab.ibMrs.free mr.block }

/-! ## REGISTER_MR -/

/-- The buffer's fields, copied under `buf_lock`. -/
structure RegSnapshot where
  bufId : BitVec 32
  accessFlags : BitVec 32
  vaddr : Ptr
  size : BitVec 64
  pages : List Page
  deriving DecidableEq

def needFastreg (accessFlags : BitVec 32) : Bool := accessFlags &&& ~~~ibAccessLocalWrite != 0

def registerSnapshot (ctx : MrCtx) (dev : BufTable) (bufId accessFlags : BitVec 32)
    (kvmallocOk : Bool) : Except Errno RegSnapshot :=
  if !ctx.initialized then .error .EINVAL
  else
    match dmabufRdmaFindBuffer dev bufId with
    | none => .error .ENOENT
    | some slot =>
      let buf := dev.buffers slot
      match buf.allocType, buf.pages with
      | .pages, some array =>
        if buf.nrPages = 0 then .error .EINVAL
        else if !kvmallocOk then .error .ENOMEM
        else
          match buf.vaddr with
          | none => .error .EINVAL
          | some vaddr => .ok ⟨bufId, accessFlags, vaddr, buf.size, array.pages.take buf.nrPages⟩
      | _, _ => .error .EINVAL

/-- What the slab and the verbs layer answer to one registration. -/
structure MapEnv where
  /-- The number of mapped entries. -/
  sgt : Except Errno Nat
  fastreg : Except Errno (BitVec 32 × BitVec 32 × BitVec 64)

/-- `register_mr_build_sgt` and, if the access flags ask for it, `register_mr_fastreg`. -/
def registerMap (tab : MrTable) (snap : RegSnapshot) (env : MapEnv) :
    Except Errno (SgTable × Option IbMr) × MrTable :=
  match env.sgt with
  | .error e => (.error e, tab)
  | .ok nents =>
    let (block, sgts) := tab.sgts.alloc
    let tab := { tab with sgts := sgts }
    let sgt := ⟨block, snap.pages, nents⟩
    if needFastreg snap.accessFlags then
      match env.fastreg with
      | .error e => (.error e, tab.freeSgt sgt)
      | .ok (lkey, rkey, iova) =>
        let (block, ibMrs) := tab.ibMrs.alloc
        (.ok (sgt, some ⟨block, lkey, rkey, iova⟩), { tab with ibMrs := ibMrs })
    else (.ok (sgt, none), tab)

/-- The entry that REGISTER_MR publishes. -/
def registerEntry (ctx : MrCtx) (tab : MrTable) (snap : RegSnapshot) (sgt : SgTable)
    (frmr : Option IbMr) : DmaplaneMrEntry :=
  { id := tab.nextMrId, bufId := snap.bufId, mr := frmr
    lkey := (frmr.map (·.lkey)).getD ctx.localDmaLkey, rkey := (frmr.map (·.rkey)).getD 0
    sgeAddr := (frmr.map (·.iova)).getD snap.vaddr.addr, sgt := some sgt, sgtNents := sgt.nents
    inUse := true, region := .host snap.vaddr snap.size }

/-- The entry and the id that a registration puts into a free slot. -/
def MrTable.publish (tab : MrTable) (slot : Fin maxMrs) (mr : DmaplaneMrEntry) : MrTable :=
  { tab.setMr slot mr with
    nextMrId := Handle.nextId tab.nextMrId, mrsRegistered := tab.mrsRegistered + 1 }

def registerPublish (ctx : MrCtx) (tab : MrTable) (snap : RegSnapshot) (sgt : SgTable)
    (frmr : Option IbMr) : Except Errno (BitVec 32) × MrTable :=
  match tab.freeMrSlot with
  | none =>
    let tab := match frmr with
      | some mr => tab.deregIbMr mr
      | none => tab
    (.error .ENOMEM, tab.freeSgt sgt)
  | some slot => (.ok tab.nextMrId, tab.publish slot (registerEntry ctx tab snap sgt frmr))

/-! ## GPU_REGISTER_MR -/

def gpuRegisterLookup (ctx : MrCtx) (gpu : GpuTable) (handle : BitVec 32) :
    Except Errno (Fin maxGpuBuffers) :=
  if !ctx.initialized then .error .EINVAL
  else
    match gpuFindBuffer gpu handle with
    | none => .error .ENOENT
    | some slot =>
      if (gpu.gpuBuffers slot).gpuRevoked then .error .ENODEV
      else if (gpu.gpuBuffers slot).rdmaVaddr = none then .error .EINVAL
      else .ok slot

def gpuRegisterMap (gpu : GpuTable) (tab : MrTable) (slot : Fin maxGpuBuffers) (sgtOk : Bool) :
    Except Errno SgTable × MrTable :=
  if sgtOk then
    let (block, sgts) := tab.sgts.alloc
    (.ok ⟨block, [], (gpu.gpuBuffers slot).numPages⟩, { tab with sgts := sgts })
  else (.error .ENOMEM, tab)

/-- The entry that GPU_REGISTER_MR publishes. `rdma_vaddr` is read again, without
`gpu_buf_lock`. -/
def gpuRegisterEntry (ctx : MrCtx) (gpu : GpuTable) (tab : MrTable) (slot : Fin maxGpuBuffers)
    (sgt : SgTable) : DmaplaneMrEntry :=
  let rdmaVaddr := (gpu.gpuBuffers slot).rdmaVaddr
  { id := tab.nextMrId, bufId := 0, mr := none, lkey := ctx.localDmaLkey, rkey := 0
    sgeAddr := (rdmaVaddr.map (·.addr)).getD 0, sgt := some sgt, sgtNents := sgt.nents
    inUse := true, region := .gpu ((rdmaVaddr.map (·.size)).getD 0) }

def gpuRegisterPublish (ctx : MrCtx) (gpu : GpuTable) (tab : MrTable) (slot : Fin maxGpuBuffers)
    (sgt : SgTable) : Except Errno (BitVec 32) × MrTable :=
  match tab.freeMrSlot with
  | none => (.error .ENOMEM, tab.freeSgt sgt)
  | some mrSlot =>
    let tab' := tab.publish mrSlot (gpuRegisterEntry ctx gpu tab slot sgt)
    (.ok tab.nextMrId, { tab' with gpuMrsRegistered := tab.gpuMrsRegistered + 1 })

/-! ## DEREGISTER_MR -/

/-- Without an `ib_dev` the sg_table is neither unmapped nor freed. -/
def deregister (ctx : MrCtx) (tab : MrTable) (mrId : BitVec 32) : Except Errno Unit × MrTable :=
  match dmabufRdmaFindMr tab mrId with
  | none => (.error .ENOENT, tab)
  | some slot =>
    let mr := tab.mrs slot
    let (mr, tab) := match mr.sgt with
      | some sgt => if ctx.ibDev then ({ mr with sgt := none }, tab.freeSgt sgt) else (mr, tab)
      | none => (mr, tab)
    let tab := match mr.mr with
      | some ibMr => tab.deregIbMr ibMr
      | none => tab
    let tab := tab.setMr slot { mr with mr := none, inUse := false }
    (.ok (), { tab with mrsDeregistered := tab.mrsDeregistered + 1 })

/-- The loop of TEARDOWN_RDMA over the slots `js`. -/
def deregisterAll (ctx : MrCtx) (tab : MrTable) : List (Fin maxMrs) → MrTable
  | [] => tab
  | j :: js =>
    deregisterAll ctx (if (tab.mrs j).inUse then (deregister ctx tab (tab.mrs j).id).2 else tab) js

end Dmaplane
