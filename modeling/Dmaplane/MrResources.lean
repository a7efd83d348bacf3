import Dmaplane.MrSys

/-!
# Dmaplane.MrResources

What registrations allocate: `rdma_engine_register_mr` with `register_mr_build_sgt` and
`register_mr_fastreg`, and `dmaplane_gpu_register_mr`, with every point at which they can fail,
one call after the other. Finding the buffer, publishing the entry and DEREGISTER_MR are those of
`Mr`. The buffer tables that a call finds are its arguments: any may stand there.
-/

namespace Dmaplane

/-- What `rdma_engine_poll_cq` returns. -/
inductive PollResult where
  | timeout
  | error (e : Errno)
  /-- A completion, successful or not. -/
  | cqe (ok : Bool)
  deriving DecidableEq, Repr

/-- What the kernel and the verbs layer answer to one REGISTER_MR. -/
structure RegisterEnv where
  kvmalloc : Bool
  kzalloc : Bool
  sgAllocTable : Bool
  /-- What `ib_dma_map_sg` maps. -/
  dmaMapped : Nat
  /-- `lkey`, `rkey` and `iova`. -/
  allocMr : Except Errno (BitVec 32 × BitVec 32 × BitVec 64)
  mapMrSg : Except Errno Nat
  postSend : Option Errno
  pollCq : PollResult

structure GpuRegisterEnv where
  kzalloc : Bool
  sgAllocTable : Bool

structure MrRes where
  ctx : MrCtx
  tab : MrTable
  /-- The copies of the buffers' page pointers. -/
  pageCopies : Heap
  /-- The access flags each slot was registered with; the driver keeps no record of them. -/
  flags : Fin maxMrs → BitVec 32

def mrResInit : MrRes :=
  { ctx := { initialized := false, ibDev := false, localDmaLkey := 0, peerConnected := false }
    tab := mrTableInit, pageCopies := .empty, flags := fun _ => 0 }

/-- `register_mr_build_sgt`. -/
def registerMrBuildSgt (tab : MrTable) (pages : List Page) (env : RegisterEnv) :
    Except Errno SgTable × MrTable :=
  if !env.kzalloc then (.error .ENOMEM, tab)
  else
    let (block, sgts) := tab.sgts.alloc
    let tab := { tab with sgts := sgts }
    let sgt := ⟨block, pages, env.dmaMapped⟩
    if !env.sgAllocTable then (.error .ENOMEM, tab.freeSgt sgt)
    else if env.dmaMapped = 0 then (.error Errno.EIO, tab.freeSgt sgt)
    else (.ok sgt, tab)

/-- `register_mr_fastreg`. -/
def registerMrFastreg (tab : MrTable) (sgt : SgTable) (env : RegisterEnv) :
    Except Errno IbMr × MrTable :=
  match env.allocMr with
  | .error e => (.error e, tab)
  | .ok (lkey, rkey, iova) =>
    let (block, ibMrs) := tab.ibMrs.alloc
    let tab := { tab with ibMrs := ibMrs }
    let frmr : IbMr := ⟨block, lkey, rkey, iova⟩
    match env.mapMrSg with
    | .error e => (.error e, tab.deregIbMr frmr)
    | .ok nrMapped =>
      if nrMapped < sgt.pages.length then (.error Errno.EIO, tab.deregIbMr frmr)
      else
        match env.postSend with
        | some e => (.error e, tab.deregIbMr frmr)
        | none =>
          match env.pollCq with
          | .timeout => (.error .ETIMEDOUT, tab.deregIbMr frmr)
          | .error e => (.error e, tab.deregIbMr frmr)
          | .cqe false => (.error Errno.EIO, tab.deregIbMr frmr)
          | .cqe true => (.ok frmr, tab)

namespace MrRes

def withTab (s : MrRes) (tab : MrTable) : MrRes := { s with tab := tab }

/-- `kvfree(pages_copy)`. -/
def kvfree (s : MrRes) (copy : Nat) : MrRes := { s with pageCopies := s.pageCopies.free copy }

/-- The slot search and what follows it. -/
def publish (s : MrRes) (snap : RegSnapshot) (sgt : SgTable) (frmr : Option IbMr) :
    Except Errno (BitVec 32) × MrRes :=
  let (r, tab) := registerPublish s.ctx s.tab snap sgt frmr
  (r, { s with
    tab := tab
    flags := match s.tab.freeMrSlot with
      | some slot => Function.update s.flags slot snap.accessFlags
      | none => s.flags })

end MrRes

/-- `rdma_engine_register_mr` from the mapping of the pages on. -/
def registerMapped (s : MrRes) (snap : RegSnapshot) (env : RegisterEnv) (copy : Nat) :
    Except Errno (BitVec 32) × MrRes :=
  let (r, tab) := registerMrBuildSgt s.tab snap.pages env
  let s := (s.withTab tab).kvfree copy
  match r with
  | .error e => (.error e, s)
  | .ok sgt =>
    if needFastreg snap.accessFlags then
      match registerMrFastreg s.tab sgt env with
      | (.error e, tab) => (.error e, s.withTab (tab.freeSgt sgt))
      | (.ok frmr, tab) => (s.withTab tab).publish snap sgt (some frmr)
    else s.publish snap sgt none

/-- `rdma_engine_register_mr`. -/
def rdmaEngineRegisterMr (dev : BufTable) (bufId accessFlags : BitVec 32) (env : RegisterEnv)
    (s : MrRes) : Except Errno (BitVec 32) × MrRes :=
  if !s.ctx.initialized then (.error .EINVAL, s)
  else
    match dmabufRdmaFindBuffer dev bufId with
    | none => (.error .ENOENT, s)
    | some slot =>
      let buf := dev.buffers slot
      match buf.allocType, buf.pages with
      | .pages, some array =>
        if buf.nrPages = 0 then (.error .EINVAL, s)
        else if !env.kvmalloc then (.error .ENOMEM, s)
        else
          let (copy, pageCopies) := s.pageCopies.alloc
          let s := { s with pageCopies := pageCopies }
          match buf.vaddr with
          | none => (.error .EINVAL, s.kvfree copy)
          | some vaddr =>
            registerMapped s
              ⟨bufId, accessFlags, vaddr, buf.size, array.pages.take buf.nrPages⟩ env copy
      | _, _ => (.error .EINVAL, s)

/-- `dmaplane_gpu_register_mr`. -/
def dmaplaneGpuRegisterMr (gpu : GpuTable) (handle : BitVec 32) (env : GpuRegisterEnv)
    (s : MrRes) : Except Errno (BitVec 32) × MrRes :=
  match gpuRegisterLookup s.ctx gpu handle with
  | .error e => (.error e, s)
  | .ok slot =>
    if !env.kzalloc then (.error .ENOMEM, s)
    else
      let (block, sgts) := s.tab.sgts.alloc
      let tab := { s.tab with sgts := sgts }
      let sgt : SgTable := ⟨block, [], (gpu.gpuBuffers slot).numPages⟩
      if !env.sgAllocTable then (.error .ENOMEM, s.withTab (tab.freeSgt sgt))
      else
        let (r, tab) := gpuRegisterPublish s.ctx gpu tab slot sgt
        (r, { s with
          tab := tab
          flags := match s.tab.freeMrSlot with
            | some slot => Function.update s.flags slot 0
            | none => s.flags })

/-! ## The system -/

inductive MrOp where
  /-- SETUP_RDMA; `ok` if the verbs layer grants it, `copyOk` if the result reaches user space. -/
  | setup (lkey : BitVec 32) (ok copyOk : Bool)
  | teardown
  | register (dev : BufTable) (bufId accessFlags : BitVec 32) (env : RegisterEnv) (copyOk : Bool)
  | gpuRegister (gpu : GpuTable) (handle : BitVec 32) (env : GpuRegisterEnv) (copyOk : Bool)
  | deregister (mrId : BitVec 32)

/-- `rdma_engine_deregister_mr`. -/
def rdmaEngineDeregisterMr (mrId : BitVec 32) (s : MrRes) : MrRes :=
  s.withTab (deregister s.ctx s.tab mrId).2

/-- A registration whose result does not reach user space is undone. -/
def undoUnless (copyOk : Bool) : Except Errno (BitVec 32) × MrRes → MrRes
  | (.ok mrId, s) => if copyOk then s else rdmaEngineDeregisterMr mrId s
  | (.error _, s) => s

def mrOp (s : MrRes) : MrOp → MrRes
  | .setup lkey ok copyOk =>
    if s.ctx.initialized || !ok then s
    else
      let ctx := { s.ctx with initialized := true, ibDev := true, localDmaLkey := lkey }
      { s with ctx := if copyOk then ctx else ctx.teardown }
  | .teardown =>
    { s with
      tab := deregisterAll s.ctx s.tab (List.finRange maxMrs), ctx := s.ctx.teardown }
  | .register dev bufId accessFlags env copyOk =>
    undoUnless copyOk (rdmaEngineRegisterMr dev bufId accessFlags env s)
  | .gpuRegister gpu handle env copyOk => undoUnless copyOk (dmaplaneGpuRegisterMr gpu handle env s)
  | .deregister mrId => rdmaEngineDeregisterMr mrId s

def mrResSys : Transition.Sys MrRes MrOp where
  init := mrResInit
  step := fun s op => some (mrOp s op)

end Dmaplane
