import Dmaplane.DataOp
import Dmaplane.GpuCalls

/-!
# Dmaplane.P2pSys

`driver/gpu_p2p.c` under concurrency: GPU_PIN, GPU_UNPIN, the revocation callback of NVIDIA's
driver, the copies (GPU_DMA_TO_HOST, GPU_DMA_FROM_HOST, GPU_BENCH), GPU_REGISTER_MR, and the
operations that post from the MR table.

* A page table that `nvidia_p2p_get_pages` gave out has a number of its own, which also names the
  pinned region: `bar_pages` and `rdma_vaddr` hold the region they map.
* GPU_PIN and GPU_UNPIN hold `gpu_buf_lock` from their first step on; the callback takes no lock
  and may come between any two steps. A copy and GPU_REGISTER_MR hold it for the lookup only.
* The host buffer that a copy finds, and the RDMA context that an operation finds, are arguments of
  the step. TEARDOWN_RDMA is the deregistrations it makes.
* `start` and `region` of a call are a record: the regions that were revoked when it started, and
  the one its lookup found.
-/

namespace Dmaplane

/-- How a page table goes back to NVIDIA's driver. -/
inductive NvRelease where
  | putPages
  | freePageTable
  deriving DecidableEq, Repr

structure NvTable where
  entries : Nat
  /-- `callback_data`. -/
  data : Fin maxGpuBuffers
  /-- The callback has fired. -/
  fired : Bool
  releases : List NvRelease
  deriving DecidableEq

/-- `struct dmaplane_gpu_buffer`. -/
structure P2pSlot where
  id : BitVec 32
  gpuVa : BitVec 64
  size : BitVec 64
  pageTable : Option Nat
  numPages : Nat
  barPages : Option Nat
  rdmaVaddr : Option Nat
  gpuRevoked : Bool
  inUse : Bool
  deriving DecidableEq

def p2pSlotZero : P2pSlot :=
  { id := 0, gpuVa := 0, size := 0, pageTable := none, numPages := 0, barPages := none
    rdmaVaddr := none, gpuRevoked := false, inUse := false }

/-- Where `sge_addr` points. -/
inductive SgeAddr where
  | host
  /-- `rdma_vaddr`, as GPU_REGISTER_MR read it. -/
  | rdma (vaddr : Option Nat)
  deriving DecidableEq, Repr

structure P2pMr where
  id : BitVec 32
  inUse : Bool
  sgeAddr : SgeAddr
  deriving DecidableEq, Repr

/-! ## Calls -/

inductive CopyOp where
  | toHost (gpuHandle hostHandle : BitVec 32) (offset size : BitVec 64)
  | fromHost (hostHandle gpuHandle : BitVec 32) (offset size : BitVec 64)
  | bench (gpuHandle hostHandle iterations : BitVec 32)
  deriving DecidableEq, Repr

namespace CopyOp

def gpuHandle : CopyOp → BitVec 32
  | toHost gpuHandle _ _ _ | fromHost _ gpuHandle _ _ | bench gpuHandle _ _ => gpuHandle

/-- The check on entry. -/
def starts : CopyOp → Bool
  | bench _ _ iterations => iterations != 0
  | _ => true

/-- The check against the size of the GPU buffer. -/
def fits (gpuSize : BitVec 64) : CopyOp → Bool
  | toHost _ _ offset size | fromHost _ _ offset size =>
    decide ((offset + size).toNat ≤ gpuSize.toNat)
  | bench .. => true

/-- The check against the size of the host buffer. -/
def fitsHost (gpuSize hostSize : BitVec 64) : CopyOp → Bool
  | toHost _ _ offset size | fromHost _ _ offset size =>
    decide ((offset + size).toNat ≤ hostSize.toNat)
  | bench .. => decide (min gpuSize.toNat hostSize.toNat ≠ 0)

/-- How many copies the call makes, each after a look at `gpu_revoked`. -/
def copies : CopyOp → Nat
  | bench _ _ iterations => 2 * iterations.toNat
  | _ => 1

end CopyOp

/-- The steps of GPU_PIN that may fail, after `nvidia_p2p_get_pages`. -/
inductive PinStage where
  | version
  | sgt
  | barPages
  /-- `ioremap_wc` of one page; `left` come after it. -/
  | ioremap (left : Nat)
  deriving DecidableEq, Repr

inductive P2pPc where
  | idle
  | pin (slot : Fin maxGpuBuffers) (table : Nat) (stage : PinStage)
  | pinPutPages (slot : Fin maxGpuBuffers) (table : Nat)
  | pinPublish (slot : Fin maxGpuBuffers) (table : Nat)
  -- `gpu_buf_lock` is released
  | pinCount (handle : BitVec 32)
  | pinCopy (handle : BitVec 32)
  | unpinFind (handle : BitVec 32)
  | unpinCheck (slot : Fin maxGpuBuffers) (wasRevoked : Bool)
  | unpinRelease (slot : Fin maxGpuBuffers) (call : NvRelease) (wasRevoked : Bool)
  | unpinCount (wasRevoked : Bool)
  | copyFind (op : CopyOp) (start : List Nat)
  | copyHost (op : CopyOp) (slot : Fin maxGpuBuffers) (region : Option Nat) (size : BitVec 64)
      (start : List Nat)
  | copyCheck (slot : Fin maxGpuBuffers) (region : Option Nat) (left : Nat) (start : List Nat)
  | copyRun (slot : Fin maxGpuBuffers) (region : Option Nat) (left : Nat) (start : List Nat)
  | registerFind (handle : BitVec 32)
  | registerMap (slot : Fin maxGpuBuffers) (region : Option Nat)
  | registerPublish (slot : Fin maxGpuBuffers) (region : Option Nat)
  | registerCopy (mrId : BitVec 32)
  | registerUndo (mrId : BitVec 32)
  | opFind (op : DataOp) (start : List Nat)
  | opPost (op : DataOp) (mrs : List P2pMr) (start : List Nat)
  deriving DecidableEq

/-- After `bar_pages[i]` there are `n` pages more to map. -/
def P2pPc.mapped (slot : Fin maxGpuBuffers) (table : Nat) : Nat → P2pPc
  | 0 => .pinPublish slot table
  | n + 1 => .pin slot table (.ioremap n)

inductive P2pAct (Tid : Type) where
  | pin (t : Tid) (gpuVa size : BitVec 64) (getPages : Except Errno Nat)
  | pinStep (t : Tid) (ok : Bool)
  | pinPutPages (t : Tid)
  /-- `rdma`: the pages are contiguous and `ioremap_wc` maps them as one. -/
  | pinPublish (t : Tid) (rdma : Bool)
  | pinCount (t : Tid)
  | pinCopy (t : Tid) (copyOk : Bool)
  | unpin (t : Tid) (handle : BitVec 32)
  | unpinFind (t : Tid)
  | unpinCheck (t : Tid)
  | unpinRelease (t : Tid)
  | unpinCount (t : Tid)
  | callback (table : Nat)
  | copy (t : Tid) (op : CopyOp)
  | copyFind (t : Tid)
  /-- `host`: the size of the host buffer, if it is found and has a `vaddr`. -/
  | copyHost (t : Tid) (host : Option (BitVec 64))
  | copyCheck (t : Tid)
  | copyRun (t : Tid)
  | gpuRegister (t : Tid) (initialized : Bool) (handle : BitVec 32)
  | registerFind (t : Tid)
  | registerMap (t : Tid) (sgtOk : Bool)
  | registerPublish (t : Tid)
  | registerCopy (t : Tid) (copyOk : Bool)
  | registerUndo (t : Tid)
  | registerHost
  | deregister (mrId : BitVec 32)
  | op (t : Tid) (ctx : MrCtx) (op : DataOp)
  | opFind (t : Tid)
  | post (t : Tid) (mr : P2pMr)
  | opEnd (t : Tid)

structure P2pSt (Tid : Type) where
  slots : Fin maxGpuBuffers → P2pSlot
  nextGpuBufId : BitVec 32
  /-- The holder of `gpu_buf_lock` between two of its steps. -/
  lock : Option Tid
  tables : Nat → NvTable
  nextTable : Nat
  pinsTotal : BitVec 64
  unpinsTotal : BitVec 64
  callbacksFired : BitVec 64
  mrs : Fin maxMrs → P2pMr
  nextMrId : BitVec 32
  pc : Tid → P2pPc

namespace P2pSt

variable {Tid : Type}

def freeSlot (s : P2pSt Tid) : Option (Fin maxGpuBuffers) :=
  (List.finRange maxGpuBuffers).find? fun i => !(s.slots i).inUse

/-- `dmaplane_gpu_find_buffer`. -/
def findSlot (s : P2pSt Tid) (handle : BitVec 32) : Option (Fin maxGpuBuffers) :=
  (List.finRange maxGpuBuffers).find? fun i => (s.slots i).inUse && (s.slots i).id == handle

def freeMr (s : P2pSt Tid) : Option (Fin maxMrs) :=
  (List.finRange maxMrs).find? fun i => !(s.mrs i).inUse

def findMr (s : P2pSt Tid) (mrId : BitVec 32) : Option (Fin maxMrs) :=
  (List.finRange maxMrs).find? fun i => (s.mrs i).inUse && (s.mrs i).id == mrId

def revoked (s : P2pSt Tid) : List Nat :=
  (List.range s.nextTable).filter fun p => (s.tables p).fired

def setSlot (s : P2pSt Tid) (slot : Fin maxGpuBuffers) (buf : P2pSlot) : P2pSt Tid :=
  { s with slots := Function.update s.slots slot buf }

def setMr (s : P2pSt Tid) (k : Fin maxMrs) (mr : P2pMr) : P2pSt Tid :=
  { s with mrs := Function.update s.mrs k mr }

/-- The page table goes back to NVIDIA's driver. -/
def release (s : P2pSt Tid) (table : Nat) (call : NvRelease) : P2pSt Tid :=
  { s with
    tables := Function.update s.tables table
      { s.tables table with releases := (s.tables table).releases ++ [call] } }

variable [DecidableEq Tid]

def goto (s : P2pSt Tid) (t : Tid) (pc : P2pPc) : P2pSt Tid :=
  { s with pc := Function.update s.pc t pc }

def unlock (s : P2pSt Tid) : P2pSt Tid := { s with lock := none }

end P2pSt

variable {Tid : Type} [DecidableEq Tid]

/-! ## Pin, unpin and the callback -/

/-- `dmaplane_gpu_pin` up to `nvidia_p2p_get_pages`, which gives a page table of so many entries. -/
def pinStart (s : P2pSt Tid) (t : Tid) (gpuVa size : BitVec 64) (getPages : Except Errno Nat) :
    P2pSt Tid :=
  if pinMisaligned gpuVa size then s
  else
    match s.freeSlot with
    | none => s
    | some slot =>
      let buf := { p2pSlotZero with gpuVa := gpuVa, size := size }
      match getPages with
      | .error _ => s.setSlot slot buf
      | .ok entries =>
        { s.setSlot slot { buf with pageTable := some s.nextTable } with
          tables := Function.update s.tables s.nextTable ⟨entries, slot, false, []⟩
          nextTable := s.nextTable + 1
          lock := some t }.goto t (.pin slot s.nextTable .version)

/-- The stages that may fail. -/
def pinStage (s : P2pSt Tid) (t : Tid) (slot : Fin maxGpuBuffers) (table : Nat) (ok : Bool) :
    PinStage → P2pSt Tid
  | .version =>
    if ok then
      (s.setSlot slot { s.slots slot with numPages := (s.tables table).entries }).goto t
        (.pin slot table .sgt)
    else s.goto t (.pinPutPages slot table)
  | .sgt => s.goto t (if ok then .pin slot table .barPages else .pinPutPages slot table)
  | .barPages =>
    if ok then
      (s.setSlot slot { s.slots slot with barPages := some table }).goto t
        (.mapped slot table (s.slots slot).numPages)
    else s.goto t (.pinPutPages slot table)
  | .ioremap left =>
    if ok then s.goto t (.mapped slot table left)
    else (s.setSlot slot { s.slots slot with barPages := none }).goto t (.pinPutPages slot table)

def pinStep (s : P2pSt Tid) : P2pAct Tid → Option (P2pSt Tid)
  | .pin t gpuVa size getPages =>
    if s.pc t = .idle ∧ s.lock = none then some (pinStart s t gpuVa size getPages) else none
  | .pinStep t ok =>
    match s.pc t with
    | .pin slot table stage => some (pinStage s t slot table ok stage)
    | _ => none
  | .pinPutPages t =>
    match s.pc t with
    | .pinPutPages _ table => some ((s.release table .putPages).unlock.goto t .idle)
    | _ => none
  | .pinPublish t rdma =>
    match s.pc t with
    | .pinPublish slot table =>
      some ({ s.setSlot slot
          { s.slots slot with
            rdmaVaddr := if rdma then some table else none, id := s.nextGpuBufId, inUse := true } with
        nextGpuBufId := Handle.nextId s.nextGpuBufId }.unlock.goto t (.pinCount s.nextGpuBufId))
    | _ => none
  | .pinCount t =>
    match s.pc t with
    | .pinCount handle =>
      some ({ s with pinsTotal := s.pinsTotal + 1 }.goto t (.pinCopy handle))
    | _ => none
  | .pinCopy t copyOk =>
    match s.pc t with
    | .pinCopy handle => some (s.goto t (if copyOk then .idle else .unpinFind handle))
    | _ => none
  | _ => none

/-- `dmaplane_gpu_unpin`. -/
def unpinStep (s : P2pSt Tid) : P2pAct Tid → Option (P2pSt Tid)
  | .unpin t handle => if s.pc t = .idle then some (s.goto t (.unpinFind handle)) else none
  | .unpinFind t =>
    match s.pc t with
    | .unpinFind handle =>
      if s.lock = none then
        match s.findSlot handle with
        | none => some (s.goto t .idle)
        | some slot =>
          some ({ s.setSlot slot { s.slots slot with rdmaVaddr := none, barPages := none } with
            lock := some t }.goto t (.unpinCheck slot (s.slots slot).gpuRevoked))
      else none
    | _ => none
  | .unpinCheck t =>
    match s.pc t with
    | .unpinCheck slot wasRevoked =>
      let call := if (s.slots slot).gpuRevoked then .freePageTable else .putPages
      some (s.goto t (.unpinRelease slot call wasRevoked))
    | _ => none
  | .unpinRelease t =>
    match s.pc t with
    | .unpinRelease slot call wasRevoked =>
      let s' := match (s.slots slot).pageTable with
        | some table => s.release table call
        | none => s
      some ((s'.setSlot slot { s.slots slot with pageTable := none, inUse := false }).unlock.goto t
        (.unpinCount wasRevoked))
    | _ => none
  | .unpinCount t =>
    match s.pc t with
    | .unpinCount wasRevoked =>
      some ({ s with
        unpinsTotal := s.unpinsTotal + 1
        callbacksFired := if wasRevoked then s.callbacksFired + 1 else s.callbacksFired }.goto t
          .idle)
    | _ => none
  | _ => none

/-- `dmaplane_gpu_unpin_callback`. A page table that went back calls nobody. -/
def callbackStep (s : P2pSt Tid) (table : Nat) : Option (P2pSt Tid) :=
  let tbl := s.tables table
  if table < s.nextTable ∧ tbl.releases = [] ∧ tbl.fired = false then
    some { s.setSlot tbl.data { s.slots tbl.data with gpuRevoked := true } with
      tables := Function.update s.tables table { tbl with fired := true } }
  else none

/-! ## Copies -/

def copyStep (s : P2pSt Tid) : P2pAct Tid → Option (P2pSt Tid)
  | .copy t op =>
    if s.pc t = .idle then some (if op.starts then s.goto t (.copyFind op s.revoked) else s)
    else none
  | .copyFind t =>
    match s.pc t with
    | .copyFind op start =>
      if s.lock = none then
        match s.findSlot op.gpuHandle with
        | none => some (s.goto t .idle)
        | some slot =>
          let buf := s.slots slot
          if buf.gpuRevoked || !op.fits buf.size then some (s.goto t .idle)
          else some (s.goto t (.copyHost op slot buf.pageTable buf.size start))
      else none
    | _ => none
  | .copyHost t host =>
    match s.pc t with
    | .copyHost op slot region size start =>
      match host with
      | none => some (s.goto t .idle)
      | some hostSize =>
        some (s.goto t
          (if op.fitsHost size hostSize then .copyCheck slot region op.copies start else .idle))
    | _ => none
  | .copyCheck t =>
    match s.pc t with
    | .copyCheck slot region left start =>
      match left with
      | 0 => some (s.goto t .idle)
      | left + 1 =>
        some (s.goto t
          (if (s.slots slot).gpuRevoked then .idle else .copyRun slot region left start))
    | _ => none
  | .copyRun t =>
    match s.pc t with
    | .copyRun slot region left start => some (s.goto t (.copyCheck slot region left start))
    | _ => none
  | _ => none

/-! ## MRs -/

/-- The slot goes to an MR with the next id. -/
def P2pSt.publishMr (s : P2pSt Tid) (k : Fin maxMrs) (sgeAddr : SgeAddr) : P2pSt Tid :=
  { s.setMr k ⟨s.nextMrId, true, sgeAddr⟩ with nextMrId := Handle.nextId s.nextMrId }

/-- `rdma_engine_deregister_mr`, on what is left of the entry here. -/
def P2pSt.deregister (s : P2pSt Tid) (mrId : BitVec 32) : P2pSt Tid :=
  match s.findMr mrId with
  | none => s
  | some k => s.setMr k { s.mrs k with inUse := false }

/-- `dmaplane_gpu_register_mr`; `rdma_vaddr` is read again without the lock. -/
def gpuMrStep (s : P2pSt Tid) : P2pAct Tid → Option (P2pSt Tid)
  | .gpuRegister t initialized handle =>
    if s.pc t = .idle then some (if initialized then s.goto t (.registerFind handle) else s)
    else none
  | .registerFind t =>
    match s.pc t with
    | .registerFind handle =>
      if s.lock = none then
        match s.findSlot handle with
        | none => some (s.goto t .idle)
        | some slot =>
          let buf := s.slots slot
          if buf.gpuRevoked || buf.rdmaVaddr.isNone then some (s.goto t .idle)
          else some (s.goto t (.registerMap slot buf.pageTable))
      else none
    | _ => none
  | .registerMap t sgtOk =>
    match s.pc t with
    | .registerMap slot region =>
      some (s.goto t (if sgtOk then .registerPublish slot region else .idle))
    | _ => none
  | .registerPublish t =>
    match s.pc t with
    | .registerPublish slot _ =>
      match s.freeMr with
      | none => some (s.goto t .idle)
      | some k =>
        some ((s.publishMr k (.rdma (s.slots slot).rdmaVaddr)).goto t (.registerCopy s.nextMrId))
    | _ => none
  | .registerCopy t copyOk =>
    match s.pc t with
    | .registerCopy mrId => some (s.goto t (if copyOk then .idle else .registerUndo mrId))
    | _ => none
  | .registerUndo t =>
    match s.pc t with
    | .registerUndo mrId => some ((s.deregister mrId).goto t .idle)
    | _ => none
  | .registerHost =>
    match s.freeMr with
    | none => some s
    | some k => some (s.publishMr k .host)
  | .deregister mrId => some (s.deregister mrId)
  | _ => none

/-- The MRs of an operation, copied under `mr_lock`. -/
def P2pSt.lookup (s : P2pSt Tid) (op : DataOp) : Option (List P2pMr) :=
  op.mrIds.mapM fun mrId => (s.findMr mrId).map s.mrs

/-- The operations that check their size look up the buffer 0 for a GPU MR, and there is none. -/
def postStep (s : P2pSt Tid) : P2pAct Tid → Option (P2pSt Tid)
  | .op t ctx op =>
    if s.pc t = .idle then
      match op.entryCheck ctx with
      | .error _ => some s
      | .ok () => some (s.goto t (.opFind op s.revoked))
    else none
  | .opFind t =>
    match s.pc t with
    | .opFind op start =>
      match s.lookup op with
      | none => some (s.goto t .idle)
      | some mrs =>
        if op.validates && mrs.any (fun mr => decide (mr.sgeAddr ≠ .host)) then
          some (s.goto t .idle)
        else some (s.goto t (.opPost op mrs start))
    | _ => none
  | .post t mr =>
    match s.pc t with
    | .opPost _ mrs _ => if mr ∈ mrs then some s else none
    | _ => none
  | .opEnd t =>
    match s.pc t with
    | .opPost _ _ _ => some (s.goto t .idle)
    | _ => none
  | _ => none

/-! ## The system -/

def p2pStep (s : P2pSt Tid) (a : P2pAct Tid) : Option (P2pSt Tid) :=
  match a with
  | .pin .. | .pinStep .. | .pinPutPages .. | .pinPublish .. | .pinCount .. | .pinCopy .. =>
    pinStep s a
  | .unpin .. | .unpinFind .. | .unpinCheck .. | .unpinRelease .. | .unpinCount .. =>
    unpinStep s a
  | .callback table => callbackStep s table
  | .copy .. | .copyFind .. | .copyHost .. | .copyCheck .. | .copyRun .. => copyStep s a
  | .gpuRegister .. | .registerFind .. | .registerMap .. | .registerPublish ..
  | .registerCopy .. | .registerUndo .. | .registerHost | .deregister .. => gpuMrStep s a
  | .op .. | .opFind .. | .post .. | .opEnd .. => postStep s a

def p2pInit (Tid : Type) : P2pSt Tid :=
  { slots := fun _ => p2pSlotZero, nextGpuBufId := 1, lock := none
    tables := fun _ => ⟨0, 0, false, []⟩, nextTable := 0, pinsTotal := 0, unpinsTotal := 0
    callbacksFired := 0, mrs := fun _ => ⟨0, false, .host⟩, nextMrId := 1, pc := fun _ => .idle }

def p2pSys (Tid : Type) [DecidableEq Tid] : Transition.Sys (P2pSt Tid) (P2pAct Tid) where
  init := p2pInit Tid
  step := p2pStep

end Dmaplane
