import Dmaplane.Lib.System
import Dmaplane.MrResources

/-!
# Dmaplane.GpuCalls

The GPU ioctls and the debugfs file `gpu` of a module built with `CONFIG_DMAPLANE_GPU`, one call
after the other, from `dmaplane_init` on.

`gpu_buffers`, `gpu_buf_lock` and the three `nv_*` pointers are used as the code uses them, checked
or not: a use that the kernel does not survive is a `GpuOops`, and ends the call. The host buffers
that a call finds are its argument.
-/

namespace Dmaplane

inductive GpuOops where
  /-- `gpu_buffers[i]` with `gpu_buffers == NULL`. -/
  | nullTable
  /-- `mutex_lock` of a `gpu_buf_lock` that `mutex_init` never saw. -/
  | lockUninit
  /-- A call through a NULL `nv_*` pointer. -/
  | nullSymbol
  deriving DecidableEq, Repr

/-- Which of `nv_get_pages`, `nv_put_pages` and `nv_free_page_table` are not NULL. -/
structure NvSymbols where
  getPages : Bool
  putPages : Bool
  freePageTable : Bool
  deriving DecidableEq, Repr

/-- The GPU part of `struct dmaplane_dev`, and what it shares with the host's MRs. -/
structure GpuDev where
  /-- `gpu_buffers` is not NULL. -/
  gpuBuffers : Bool
  /-- What `gpu_buffers` points to, the next id and the pin counters. -/
  gpu : GpuTable
  lockInit : Bool
  nv : NvSymbols
  callbacksFired : BitVec 64
  dmaH2gBytes : BitVec 64
  dmaG2hBytes : BitVec 64
  mr : MrRes

/-! ## Module init and exit -/

structure GpuInitEnv where
  /-- `kcalloc` of the array succeeds. -/
  kcalloc : Bool
  /-- The symbols that `symbol_get` finds. -/
  symbols : NvSymbols

/-- `dmaplane_gpu_exit`: what is not NULL is put and reset. -/
def dmaplaneGpuExit (nv : NvSymbols) : NvSymbols :=
  { getPages := if nv.getPages then false else nv.getPages
    putPages := if nv.putPages then false else nv.putPages
    freePageTable := if nv.freePageTable then false else nv.freePageTable }

def dmaplaneGpuInit (found : NvSymbols) : Except Errno Unit × NvSymbols :=
  if !found.getPages || !found.putPages || !found.freePageTable then
    (.error .ENOENT, dmaplaneGpuExit found)
  else (.ok (), found)

/-- The GPU section of `dmaplane_init`, on the zeroed device. -/
def dmaplaneInit (env : GpuInitEnv) : GpuDev :=
  let d : GpuDev :=
    { gpuBuffers := false, gpu := { gpuTableInit with nextGpuBufId := 0 }, lockInit := false
      nv := ⟨false, false, false⟩, callbacksFired := 0, dmaH2gBytes := 0, dmaG2hBytes := 0
      mr := mrResInit }
  if !env.kcalloc then d
  else
    let d := { d with gpuBuffers := true, lockInit := true, gpu := gpuTableInit }
    match dmaplaneGpuInit env.symbols with
    | (.error _, nv) => { d with nv := nv, gpuBuffers := false }
    | (.ok (), nv) => { d with nv := nv }

namespace GpuDev

/-- `mutex_lock(&gpu_buf_lock)`. -/
def lock (d : GpuDev) : Except GpuOops Unit := if d.lockInit then .ok () else .error .lockUninit

/-- The first `gpu_buffers[i]` of a scan. -/
def table (d : GpuDev) : Except GpuOops GpuTable :=
  if d.gpuBuffers then .ok d.gpu else .error .nullTable

end GpuDev

/-- A call through an `nv_*` pointer. -/
def callNv (resolved : Bool) : Except GpuOops Unit :=
  if resolved then .ok () else .error .nullSymbol

/-! ## Pin and unpin -/

/-- The outputs of GPU_PIN. -/
structure GpuPinned where
  handle : BitVec 32
  numaNode : Int
  numPages : Nat
  bar1Consumed : Nat
  deriving DecidableEq, Repr

def pinMisaligned (gpuVa size : BitVec 64) : Bool :=
  decide (size = 0 ∨ gpuVa.toNat % gpuPageSize ≠ 0 ∨ size.toNat % gpuPageSize ≠ 0)

/-- GPU_PIN calls `nv_put_pages`: the pages are pinned and a later step fails. -/
def GpuPinEnv.putsPages (env : GpuPinEnv) : Bool :=
  match env.getPages with
  | .error _ => false
  | .ok _ => !env.versionOk || !env.sgt || !env.barPages || !env.ioremapPages

def dmaplaneGpuPin (gpuVa size : BitVec 64) (env : GpuPinEnv) (d : GpuDev) :
    Except GpuOops (Except Errno GpuPinned × GpuDev) :=
  if pinMisaligned gpuVa size then .ok (.error .EINVAL, d)
  else do
    d.lock
    let gpu ← d.table
    match gpu.freeGpuSlot with
    | none => return (.error .ENOMEM, d)
    | some _ =>
      callNv d.nv.getPages
      (if env.putsPages then callNv d.nv.putPages else .ok ())
      match gpuPinPrepare gpu gpuVa size env with
      | (.error e, gpu) => return (.error e, { d with gpu := gpu })
      | (.ok (slot, buf), gpu) =>
        return (.ok ⟨gpu.nextGpuBufId, buf.numaNode, buf.numPages, buf.numPages * gpuPageSize⟩,
          { d with gpu := gpuPinPublish gpu slot buf })

/-- A buffer in use has a page table, which goes by `nv_put_pages` or, revoked, by
`nv_free_page_table`. -/
def dmaplaneGpuUnpin (handle : BitVec 32) (d : GpuDev) :
    Except GpuOops (Except Errno Unit × GpuDev) := do
  d.lock
  let gpu ← d.table
  match gpuFindBuffer gpu handle with
  | none => return (.error .ENOENT, d)
  | some slot =>
    let wasRevoked := (gpu.gpuBuffers slot).gpuRevoked
    callNv (if wasRevoked then d.nv.freePageTable else d.nv.putPages)
    return (.ok (),
      { d with
        gpu := (gpuUnpin gpu handle).2
        callbacksFired := if wasRevoked then d.callbacksFired + 1 else d.callbacksFired })

/-- The loop of `dmaplane_exit` over the slots. -/
def unpinAll : List (Fin maxGpuBuffers) → GpuDev → Except GpuOops GpuDev
  | [], d => .ok d
  | slot :: slots, d => do
    let gpu ← d.table
    if (gpu.gpuBuffers slot).inUse then
      let (_, d) ← dmaplaneGpuUnpin (gpu.gpuBuffers slot).id d
      unpinAll slots d
    else unpinAll slots d

/-- The GPU section of `dmaplane_exit`. -/
def dmaplaneExit (d : GpuDev) : Except GpuOops GpuDev := do
  let d ← (if d.gpuBuffers then unpinAll (List.finRange maxGpuBuffers) d else .ok d)
  return { d with nv := dmaplaneGpuExit d.nv }

/-! ## Copies and the benchmark -/

/-- `dmaplane_gpu_find_buffer` under the lock, and the check for a revocation. -/
def gpuLookup (handle : BitVec 32) (d : GpuDev) : Except GpuOops (Except Errno DmaplaneGpuBuffer) := do
  d.lock
  let gpu ← d.table
  match gpuFindBuffer gpu handle with
  | none => return .error .ENOENT
  | some slot =>
    if (gpu.gpuBuffers slot).gpuRevoked then return .error .ENODEV
    else return .ok (gpu.gpuBuffers slot)

/-- The lookup of the host buffer, under `buf_lock`. -/
def hostLookup (dev : BufTable) (handle : BitVec 32) : Except Errno DmaplaneBuffer :=
  match dmabufRdmaFindBuffer dev handle with
  | none => .error .ENOENT
  | some slot =>
    if (dev.buffers slot).vaddr.isNone then .error .ENOENT else .ok (dev.buffers slot)

/-- The checks of `dmaplane_gpu_dma_to_host` and `dmaplane_gpu_dma_from_host`. -/
def gpuDmaCheck (dev : BufTable) (gpuHandle hostHandle : BitVec 32) (offset size : BitVec 64)
    (d : GpuDev) : Except GpuOops (Except Errno Unit) := do
  match ← gpuLookup gpuHandle d with
  | .error e => return .error e
  | .ok gpuBuf =>
    if (offset + size).toNat > gpuBuf.size.toNat then return .error .EINVAL
    else
      match hostLookup dev hostHandle with
      | .error e => return .error e
      | .ok hostBuf =>
        if (offset + size).toNat > hostBuf.size.toNat then return .error .EINVAL
        else return .ok ()

def dmaplaneGpuDmaToHost (dev : BufTable) (gpuHandle hostHandle : BitVec 32)
    (offset size : BitVec 64) (d : GpuDev) : Except GpuOops (Except Errno Unit × GpuDev) := do
  match ← gpuDmaCheck dev gpuHandle hostHandle offset size d with
  | .error e => return (.error e, d)
  | .ok () => return (.ok (), { d with dmaG2hBytes := d.dmaG2hBytes + size })

def dmaplaneGpuDmaFromHost (dev : BufTable) (gpuHandle hostHandle : BitVec 32)
    (offset size : BitVec 64) (d : GpuDev) : Except GpuOops (Except Errno Unit × GpuDev) := do
  match ← gpuDmaCheck dev gpuHandle hostHandle offset size d with
  | .error e => return (.error e, d)
  | .ok () => return (.ok (), { d with dmaH2gBytes := d.dmaH2gBytes + size })

def dmaplaneGpuBenchmark (dev : BufTable) (gpuHandle hostHandle iterations : BitVec 32)
    (d : GpuDev) : Except GpuOops (Except Errno Unit) :=
  if iterations = 0 then .ok (.error .EINVAL)
  else do
    match ← gpuLookup gpuHandle d with
    | .error e => return .error e
    | .ok gpuBuf =>
      match hostLookup dev hostHandle with
      | .error e => return .error e
      | .ok hostBuf =>
        if min gpuBuf.size.toNat hostBuf.size.toNat = 0 then return .error .EINVAL
        else return .ok ()

/-! ## GPU MRs -/

/-- `dmaplane_gpu_register_mr`: the registration is that of `MrResources`, on the device's own
table. -/
def gpuRegisterOn (handle : BitVec 32) (env : GpuRegisterEnv) (d : GpuDev) :
    Except GpuOops (Except Errno (BitVec 32) × GpuDev) :=
  if !d.mr.ctx.initialized then .ok (.error .EINVAL, d)
  else do
    d.lock
    let gpu ← d.table
    let (r, mr) := dmaplaneGpuRegisterMr gpu handle env d.mr
    return (r, { d with mr := mr })

/-- `benchmark_gpu_loopback`; `verbs` is what its posts and polls come to. Any two MRs will do. -/
def benchmarkGpuLoopback (gpuMrId hostMrId size : BitVec 32) (verbs : Except Errno (BitVec 32))
    (d : GpuDev) : Except Errno (BitVec 32) :=
  if !d.mr.ctx.initialized then .error .EINVAL
  else if size = 0 then .error .EINVAL
  else
    match dmabufRdmaFindMr d.mr.tab gpuMrId, dmabufRdmaFindMr d.mr.tab hostMrId with
    | some _, some _ => verbs
    | _, _ => .error .ENOENT

/-! ## The calls -/

structure GpuStats where
  pinsTotal : BitVec 64
  unpinsTotal : BitVec 64
  callbacksFired : BitVec 64
  dmaH2gBytes : BitVec 64
  dmaG2hBytes : BitVec 64
  gpuMrsRegistered : BitVec 64
  deriving DecidableEq, Repr

def GpuDev.stats (d : GpuDev) : GpuStats :=
  { pinsTotal := d.gpu.pinsTotal, unpinsTotal := d.gpu.unpinsTotal
    callbacksFired := d.callbacksFired, dmaH2gBytes := d.dmaH2gBytes
    dmaG2hBytes := d.dmaG2hBytes, gpuMrsRegistered := d.mr.tab.gpuMrsRegistered }

/-- `dmaplane_gpu_show`: the buffers in use. -/
def dmaplaneGpuShow (d : GpuDev) : Except GpuOops (List DmaplaneGpuBuffer × GpuStats) := do
  d.lock
  let gpu ← d.table
  return (((List.finRange maxGpuBuffers).map gpu.gpuBuffers).filter (·.inUse), d.stats)

/-- An ioctl, or a read of the debugfs file. `copyIn` and `copyOut` tell whether the copies from and
to user space succeed. -/
inductive GpuCall where
  | pin (gpuVa size : BitVec 64) (env : GpuPinEnv) (copyIn copyOut : Bool)
  | unpin (handle : BitVec 32) (copyIn : Bool)
  | dmaToHost (dev : BufTable) (gpuHandle hostHandle : BitVec 32) (offset size : BitVec 64)
      (copyIn copyOut : Bool)
  | dmaFromHost (dev : BufTable) (gpuHandle hostHandle : BitVec 32) (offset size : BitVec 64)
      (copyIn copyOut : Bool)
  | bench (dev : BufTable) (gpuHandle hostHandle iterations : BitVec 32) (copyIn copyOut : Bool)
  | registerMr (handle : BitVec 32) (env : GpuRegisterEnv) (copyIn copyOut : Bool)
  | loopback (gpuMrId hostMrId size : BitVec 32) (verbs : Except Errno (BitVec 32))
      (copyIn copyOut : Bool)
  | getStats (copyOut : Bool)
  | gpuShow

/-- `copy_from_user` succeeds; two of the calls do not make it. -/
def GpuCall.copyIn : GpuCall → Bool
  | .pin _ _ _ copyIn _ | .unpin _ copyIn | .dmaToHost _ _ _ _ _ copyIn _
  | .dmaFromHost _ _ _ _ _ copyIn _ | .bench _ _ _ _ copyIn _ | .registerMr _ _ copyIn _
  | .loopback _ _ _ _ copyIn _ => copyIn
  | .getStats _ | .gpuShow => true

inductive GpuReply where
  | error (e : Errno)
  | pinned (p : GpuPinned)
  | unpinned
  | copied
  | measured
  | registered (mrId : BitVec 32)
  | looped (recvBytes : BitVec 32)
  | stats (s : GpuStats)
  | shown (bufs : List DmaplaneGpuBuffer) (s : GpuStats)

/-- The end of an ioctl that undoes nothing. -/
def replyOf {α : Type} (copyOut : Bool) (ok : α → GpuReply) : Except Errno α → GpuReply
  | .error e => .error e
  | .ok a => if copyOut then ok a else .error .EFAULT

/-- The GPU cases of `dmaplane_ioctl` after `copy_from_user`, and `dmaplane_gpu_show`. -/
def gpuDispatch (d : GpuDev) : GpuCall → Except GpuOops (GpuReply × GpuDev)
  | .pin gpuVa size env _ copyOut => do
    match ← dmaplaneGpuPin gpuVa size env d with
    | (.error e, d) => return (.error e, d)
    | (.ok p, d) =>
      if copyOut then return (.pinned p, d)
      else
        let (_, d) ← dmaplaneGpuUnpin p.handle d
        return (.error .EFAULT, d)
  | .unpin handle _ => do
    let (r, d) ← dmaplaneGpuUnpin handle d
    return (replyOf true (fun _ => .unpinned) r, d)
  | .dmaToHost dev gpuHandle hostHandle offset size _ copyOut => do
    let (r, d) ← dmaplaneGpuDmaToHost dev gpuHandle hostHandle offset size d
    return (replyOf copyOut (fun _ => .copied) r, d)
  | .dmaFromHost dev gpuHandle hostHandle offset size _ copyOut => do
    let (r, d) ← dmaplaneGpuDmaFromHost dev gpuHandle hostHandle offset size d
    return (replyOf copyOut (fun _ => .copied) r, d)
  | .bench dev gpuHandle hostHandle iterations _ copyOut => do
    let r ← dmaplaneGpuBenchmark dev gpuHandle hostHandle iterations d
    return (replyOf copyOut (fun _ => .measured) r, d)
  | .registerMr handle env _ copyOut => do
    match ← gpuRegisterOn handle env d with
    | (.error e, d) => return (.error e, d)
    | (.ok mrId, d) =>
      if copyOut then return (.registered mrId, d)
      else return (.error .EFAULT, { d with mr := rdmaEngineDeregisterMr mrId d.mr })
  | .loopback gpuMrId hostMrId size verbs _ copyOut =>
    return (replyOf copyOut .looped (benchmarkGpuLoopback gpuMrId hostMrId size verbs d), d)
  | .getStats copyOut => return (replyOf copyOut .stats (.ok d.stats), d)
  | .gpuShow => do
    let (bufs, s) ← dmaplaneGpuShow d
    return (.shown bufs s, d)

def gpuCall (d : GpuDev) (c : GpuCall) : Except GpuOops (GpuReply × GpuDev) :=
  if c.copyIn then gpuDispatch d c else .ok (.error .EFAULT, d)

/-! ## The system -/

inductive GpuDevAct where
  | call (c : GpuCall)
  /-- NVIDIA's driver revokes a buffer. -/
  | revoke (slot : Fin maxGpuBuffers)
  | setup (lkey : BitVec 32) (ok copyOk : Bool)
  | teardown
  | register (dev : BufTable) (bufId accessFlags : BitVec 32) (env : RegisterEnv) (copyOk : Bool)
  | deregister (mrId : BitVec 32)

/-- After a `GpuOops` there is no next state. -/
def gpuDevStep (d : GpuDev) : GpuDevAct → Option GpuDev
  | .call c =>
    match gpuCall d c with
    | .ok (_, d') => some d'
    | .error _ => none
  | .revoke slot => some { d with gpu := gpuUnpinCallback d.gpu slot }
  | .setup lkey ok copyOk => some { d with mr := mrOp d.mr (.setup lkey ok copyOk) }
  | .teardown => some { d with mr := mrOp d.mr .teardown }
  | .register dev bufId accessFlags env copyOk =>
    some { d with mr := mrOp d.mr (.register dev bufId accessFlags env copyOk) }
  | .deregister mrId => some { d with mr := mrOp d.mr (.deregister mrId) }

def gpuDevSys (env : GpuInitEnv) : Transition.Sys GpuDev GpuDevAct where
  init := dmaplaneInit env
  step := gpuDevStep

end Dmaplane
