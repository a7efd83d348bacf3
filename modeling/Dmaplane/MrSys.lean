import Dmaplane.BufferSys
import Dmaplane.DataOp

/-!
# Dmaplane.MrSys

The buffer tables, the MR table and the RDMA context under concurrency: SETUP_RDMA, TEARDOWN_RDMA,
REGISTER_MR, DEREGISTER_MR, GPU_PIN, GPU_UNPIN, GPU_REGISTER_MR and the operations that post from
an MR, beside everything in `BufferSys`.

* `rdma_sem` is read by registrations and by the data path (`readers`). SETUP_RDMA and
  TEARDOWN_RDMA hold it for writing: each is one step, taken while nobody reads.
* A section under `buf_lock`, `mr_lock` or `gpu_buf_lock` is one step. A thread's MR call and its
  buffer call are independent: no thread makes two calls at once, but two threads may.
* The undo of SETUP_RDMA after a failed `copy_to_user` takes `rdma_sem` again (`setupUndo`); so does
  the one of REGISTER_MR, while the one of GPU_REGISTER_MR runs without it.
-/

namespace Dmaplane

inductive MrPc where
  | idle
  -- SETUP_RDMA has succeeded and released `rdma_sem`
  | setupCopy
  | setupUndo
  | register (snap : RegSnapshot)
  | registerMapped (snap : RegSnapshot) (sgt : SgTable) (frmr : Option IbMr)
  -- the MR is published and `rdma_sem` released
  | registerCopy (mrId : BitVec 32)
  | registerUndo (mrId : BitVec 32)
  | gpuRegister (slot : Fin maxGpuBuffers)
  | gpuRegisterMapped (slot : Fin maxGpuBuffers) (sgt : SgTable)
  | gpuRegisterCopy (mrId : BitVec 32)
  | gpuRegisterUndo (mrId : BitVec 32)
  -- the MRs are copied, the backing buffer is still to be looked up
  | opValidate (op : DataOp) (mrs : List DmaplaneMrEntry)
  | opPost (op : DataOp) (mrs : List DmaplaneMrEntry) (checked : Option BufSnapshot)
  deriving DecidableEq

/-- The thread holds `rdma_sem` for reading. -/
def MrPc.reading : MrPc → Bool
  | .register _ | .registerMapped _ _ _ | .gpuRegister _ | .gpuRegisterMapped _ _
  | .opValidate _ _ | .opPost _ _ _ => true
  | _ => false

structure MrSt (Tid : Type) where
  buf : BufSt Tid
  gpu : GpuTable
  ctx : MrCtx
  tab : MrTable
  pc : Tid → MrPc
  readers : Finset Tid

inductive MrAct (Tid : Type) where
  | buf (a : BufAct Tid)
  | gpuPin (gpuVa size : BitVec 64) (env : GpuPinEnv)
  | gpuUnpin (handle : BitVec 32)
  | gpuRevoke (slot : Fin maxGpuBuffers)
  /-- INIT_PEER and CONNECT_PEER, see `Peer`. -/
  | connectPeer
  | destroyPeer
  | setupRdma (t : Tid) (lkey : BitVec 32)
  | setupCopy (t : Tid) (copyOk : Bool)
  | setupUndo (t : Tid)
  | teardownRdma
  | registerMr (t : Tid) (bufId accessFlags : BitVec 32) (kvmallocOk : Bool)
  | registerMap (t : Tid) (env : MapEnv)
  | registerPublish (t : Tid)
  | registerCopy (t : Tid) (copyOk : Bool)
  | registerUndo (t : Tid)
  | deregisterMr (t : Tid) (mrId : BitVec 32)
  | gpuRegisterMr (t : Tid) (handle : BitVec 32)
  | gpuRegisterMap (t : Tid) (sgtOk : Bool)
  | gpuRegisterPublish (t : Tid)
  | gpuRegisterCopy (t : Tid) (copyOk : Bool)
  | gpuRegisterUndo (t : Tid)
  | op (t : Tid) (op : DataOp)
  | opValidate (t : Tid)
  | post (t : Tid) (wr : WorkRequest)
  | opEnd (t : Tid)

/-- `rdma_engine_teardown`. -/
def MrCtx.teardown (ctx : MrCtx) : MrCtx :=
  if ctx.initialized then
    { ctx with initialized := false, ibDev := false, peerConnected := false }
  else ctx

/-- The registered range does not wrap around the address space of the MR. -/
def MapEnv.Fits (env : MapEnv) (size : Nat) : Prop :=
  match env.fastreg with
  | .ok (_, _, iova) => iova.toNat + size < 2 ^ 64
  | .error _ => True

instance (env : MapEnv) (size : Nat) : Decidable (env.Fits size) := by
  unfold MapEnv.Fits
  split <;> infer_instance

def GpuPinEnv.Fits (env : GpuPinEnv) : Prop :=
  match env.getPages with
  | .ok pages => MapsAt (pages.length * gpuPageSize) env.rdmaVaddr
  | .error _ => True

instance (env : GpuPinEnv) : Decidable env.Fits := by
  unfold GpuPinEnv.Fits
  split <;> infer_instance

variable {Tid : Type} [DecidableEq Tid]

def MrSt.goto (s : MrSt Tid) (t : Tid) (pc : MrPc) : MrSt Tid :=
  { s with
    pc := Function.update s.pc t pc
    readers := if pc.reading then insert t s.readers else s.readers.erase t }

/-- SETUP_RDMA, TEARDOWN_RDMA and the peer. -/
def ctxStep (s : MrSt Tid) : MrAct Tid → Option (MrSt Tid)
  | .connectPeer =>
    if s.ctx.initialized then some { s with ctx := { s.ctx with peerConnected := true } } else none
  | .destroyPeer =>
    if s.readers = ∅ then some { s with ctx := { s.ctx with peerConnected := false } } else none
  | .setupRdma t lkey =>
    if s.pc t = .idle ∧ s.readers = ∅ then
      if s.ctx.initialized then some s
      else
        some ({ s with
          ctx := { s.ctx with initialized := true, ibDev := true, localDmaLkey := lkey } }.goto t
            .setupCopy)
    else none
  | .setupCopy t copyOk =>
    if s.pc t = .setupCopy then some (s.goto t (if copyOk then .idle else .setupUndo)) else none
  | .setupUndo t =>
    if s.pc t = .setupUndo ∧ s.readers = ∅ then
      some ({ s with ctx := s.ctx.teardown }.goto t .idle)
    else none
  | .teardownRdma =>
    if s.readers = ∅ then
      some { s with
        tab := deregisterAll s.ctx s.tab (List.finRange maxMrs), ctx := s.ctx.teardown }
    else none
  | _ => none

/-- REGISTER_MR and DEREGISTER_MR. -/
def registerStep (s : MrSt Tid) : MrAct Tid → Option (MrSt Tid)
  | .registerMr t bufId accessFlags kvmallocOk =>
    if s.pc t = .idle ∧ s.buf.lock = none then
      match registerSnapshot s.ctx s.buf.dev bufId accessFlags kvmallocOk with
      | .error _ => some s
      | .ok snap => some (s.goto t (.register snap))
    else none
  | .registerMap t env =>
    match s.pc t with
    | .register snap =>
      if env.Fits snap.size.toNat then
        match registerMap s.tab snap env with
        | (.error _, tab) => some ({ s with tab := tab }.goto t .idle)
        | (.ok (sgt, frmr), tab) =>
          some ({ s with tab := tab }.goto t (.registerMapped snap sgt frmr))
      else none
    | _ => none
  | .registerPublish t =>
    match s.pc t with
    | .registerMapped snap sgt frmr =>
      match registerPublish s.ctx s.tab snap sgt frmr with
      | (.error _, tab) => some ({ s with tab := tab }.goto t .idle)
      | (.ok mrId, tab) => some ({ s with tab := tab }.goto t (.registerCopy mrId))
    | _ => none
  | .registerCopy t copyOk =>
    match s.pc t with
    | .registerCopy mrId => some (s.goto t (if copyOk then .idle else .registerUndo mrId))
    | _ => none
  | .registerUndo t =>
    match s.pc t with
    | .registerUndo mrId => some ({ s with tab := (deregister s.ctx s.tab mrId).2 }.goto t .idle)
    | _ => none
  | .deregisterMr t mrId =>
    if s.pc t = .idle then some { s with tab := (deregister s.ctx s.tab mrId).2 } else none
  | _ => none

/-- GPU_PIN, GPU_UNPIN and GPU_REGISTER_MR. -/
def gpuStep (s : MrSt Tid) : MrAct Tid → Option (MrSt Tid)
  | .gpuPin gpuVa size env =>
    if env.Fits then
      match gpuPinPrepare s.gpu gpuVa size env with
      | (.error _, gpu) => some { s with gpu := gpu }
      | (.ok (slot, buf), gpu) => some { s with gpu := gpuPinPublish gpu slot buf }
    else none
  | .gpuUnpin handle => some { s with gpu := (gpuUnpin s.gpu handle).2 }
  | .gpuRevoke slot => some { s with gpu := gpuUnpinCallback s.gpu slot }
  | .gpuRegisterMr t handle =>
    if s.pc t = .idle then
      match gpuRegisterLookup s.ctx s.gpu handle with
      | .error _ => some s
      | .ok slot => some (s.goto t (.gpuRegister slot))
    else none
  | .gpuRegisterMap t sgtOk =>
    match s.pc t with
    | .gpuRegister slot =>
      match gpuRegisterMap s.gpu s.tab slot sgtOk with
      | (.error _, tab) => some ({ s with tab := tab }.goto t .idle)
      | (.ok sgt, tab) => some ({ s with tab := tab }.goto t (.gpuRegisterMapped slot sgt))
    | _ => none
  | .gpuRegisterPublish t =>
    match s.pc t with
    | .gpuRegisterMapped slot sgt =>
      match gpuRegisterPublish s.ctx s.gpu s.tab slot sgt with
      | (.error _, tab) => some ({ s with tab := tab }.goto t .idle)
      | (.ok mrId, tab) => some ({ s with tab := tab }.goto t (.gpuRegisterCopy mrId))
    | _ => none
  | .gpuRegisterCopy t copyOk =>
    match s.pc t with
    | .gpuRegisterCopy mrId => some (s.goto t (if copyOk then .idle else .gpuRegisterUndo mrId))
    | _ => none
  | .gpuRegisterUndo t =>
    match s.pc t with
    | .gpuRegisterUndo mrId =>
      some ({ s with tab := (deregister s.ctx s.tab mrId).2 }.goto t .idle)
    | _ => none
  | _ => none

/-- The data path. -/
def opStep (s : MrSt Tid) : MrAct Tid → Option (MrSt Tid)
  | .op t op =>
    if s.pc t = .idle then
      match op.entryCheck s.ctx, op.lookup s.tab with
      | .ok _, some mrs =>
        some (s.goto t (if op.validates then .opValidate op mrs else .opPost op mrs none))
      | _, _ => some s
    else none
  | .opValidate t =>
    match s.pc t with
    | .opValidate op (mr :: mrs) =>
      if s.buf.lock = none then
        match op.validate s.buf.dev mr with
        | .error _ => some (s.goto t .idle)
        | .ok snap => some (s.goto t (.opPost op (mr :: mrs) (some snap)))
      else none
    | _ => none
  | .post t wr =>
    match s.pc t with
    | .opPost op mrs _ => if wr ∈ op.wrs mrs then some s else none
    | _ => none
  | .opEnd t =>
    match s.pc t with
    | .opPost _ _ _ => some (s.goto t .idle)
    | _ => none
  | _ => none

def mrStep (s : MrSt Tid) (a : MrAct Tid) : Option (MrSt Tid) :=
  match a with
  | .buf b =>
    match bufStep s.buf b with
    | some buf => some { s with buf := buf }
    | none => none
  | .gpuPin .. | .gpuUnpin .. | .gpuRevoke .. | .gpuRegisterMr .. | .gpuRegisterMap ..
  | .gpuRegisterPublish .. | .gpuRegisterCopy .. | .gpuRegisterUndo .. => gpuStep s a
  | .registerMr .. | .registerMap .. | .registerPublish .. | .registerCopy .. | .registerUndo ..
  | .deregisterMr .. => registerStep s a
  | .op .. | .opValidate .. | .post .. | .opEnd .. => opStep s a
  | _ => ctxStep s a

def mrInit (Tid : Type) : MrSt Tid :=
  { buf := bufInit Tid, gpu := gpuTableInit
    ctx := { initialized := false, ibDev := false, localDmaLkey := 0, peerConnected := false }
    tab := mrTableInit, pc := fun _ => .idle, readers := ∅ }

def mrSys (Tid : Type) [DecidableEq Tid] : Transition.Sys (MrSt Tid) (MrAct Tid) where
  init := mrInit Tid
  step := mrStep

end Dmaplane
