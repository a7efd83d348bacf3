import Dmaplane.Mr

/-!
# Dmaplane.DataOp

The operations that post work requests from an MR (`driver/benchmark.c`, `driver/flow_control.c`,
`driver/gpu_p2p.c`, `driver/rdma_engine.c`), up to the post: the checks on entry (`entryCheck`), the MR
lookup, the check of the size against the backing buffer that five of them make (`validate`), and
the work requests (`wrs`).
-/

namespace Dmaplane

inductive DataOp where
  | loopbackTest (mrId size : BitVec 32)
  | pingpong (mrId msgSize iterations : BitVec 32)
  | streaming (mrId msgSize iterations queueDepth : BitVec 32)
  | sustainedStream (mrId msgSize queueDepth durationSecs : BitVec 32)
  | qdepthSweep (mrId msgSize iterations minQdepth maxQdepth step : BitVec 32)
  | gpuLoopback (gpuMrId hostMrId size : BitVec 32)
  | remoteSend (mrId size : BitVec 32)
  | remoteRecv (mrId size : BitVec 32)
  | writeImm (localMrId : BitVec 32) (localOffset : BitVec 64) (length : BitVec 32) (usePeerQp : Bool)
  | postRecv (mrId size : BitVec 32) (usePeerQp : Bool)
  deriving DecidableEq, Repr

namespace DataOp

/-- The check of WRITE_IMM and POST_RECV. -/
def entryCheckPeer (ctx : MrCtx) (usePeerQp : Bool) : Except Errno Unit :=
  if !ctx.initialized then .error .EINVAL
  else if usePeerQp && !ctx.peerConnected then .error .ENOTCONN
  else .ok ()

/-- The check of PINGPONG and STREAMING. -/
def entryCheckBench (ctx : MrCtx) (msgSize iterations : BitVec 32) : Except Errno Unit :=
  if !ctx.initialized || iterations == 0 || msgSize == 0 then .error .EINVAL else .ok ()

def entryCheck (ctx : MrCtx) : DataOp → Except Errno Unit
  | loopbackTest _ _ => if !ctx.initialized then .error .EINVAL else .ok ()
  | pingpong _ msgSize iterations => entryCheckBench ctx msgSize iterations
  | streaming _ msgSize iterations _ => entryCheckBench ctx msgSize iterations
  | sustainedStream _ msgSize queueDepth durationSecs =>
    if !ctx.initialized then .error .ENODEV
    else if durationSecs = 0 ∨ durationSecs.toNat > 600 then .error .EINVAL
    else if msgSize = 0 then .error .EINVAL
    else if queueDepth = 0 ∨ queueDepth.toNat > 64 then .error .EINVAL
    else .ok ()
  | qdepthSweep _ msgSize iterations minQdepth maxQdepth step =>
    if !ctx.initialized then .error .ENODEV
    else if minQdepth.toNat < 1 ∨ maxQdepth.toNat > 64 ∨ minQdepth.toNat > maxQdepth.toNat ∨
        step.toNat < 1 ∨ iterations = 0 ∨ msgSize = 0 then .error .EINVAL
    else .ok ()
  | gpuLoopback _ _ size =>
    if !ctx.initialized then .error .EINVAL
    else if size = 0 then .error .EINVAL
    else .ok ()
  | remoteSend _ _ | remoteRecv _ _ => if !ctx.peerConnected then .error .EINVAL else .ok ()
  | writeImm _ _ _ usePeerQp => entryCheckPeer ctx usePeerQp
  | postRecv _ _ usePeerQp => entryCheckPeer ctx usePeerQp

/-- The MRs, in the order of the work requests: GPU_LOOPBACK posts the receive first. -/
def mrIds : DataOp → List (BitVec 32)
  | loopbackTest mrId _ | pingpong mrId _ _ | streaming mrId _ _ _ | sustainedStream mrId _ _ _
  | qdepthSweep mrId _ _ _ _ _ | remoteSend mrId _ | remoteRecv mrId _ | writeImm mrId _ _ _
  | postRecv mrId _ _ => [mrId]
  | gpuLoopback gpuMrId hostMrId _ => [hostMrId, gpuMrId]

/-- The operation checks its size against the backing buffer. -/
def validates : DataOp → Bool
  | loopbackTest .. | pingpong .. | streaming .. | sustainedStream .. | qdepthSweep .. => true
  | gpuLoopback .. | remoteSend .. | remoteRecv .. | writeImm .. | postRecv .. => false

/-- LOOPBACK_TEST writes a pattern through the buffer's `vaddr`. -/
def needsVaddr : DataOp → Bool
  | loopbackTest .. => true
  | _ => false

def size : DataOp → BitVec 32
  | loopbackTest _ size | pingpong _ size _ | streaming _ size _ _ | sustainedStream _ size _ _
  | qdepthSweep _ size _ _ _ _ | gpuLoopback _ _ size | remoteSend _ size | remoteRecv _ size
  | writeImm _ _ size _ | postRecv _ size _ => size

def offset : DataOp → BitVec 64
  | writeImm _ localOffset _ _ => localOffset
  | _ => 0

end DataOp

/-- A work request: an MR entry copied by value, and what the operation adds to it. -/
structure WorkRequest where
  mr : DmaplaneMrEntry
  offset : BitVec 64
  length : BitVec 32
  deriving DecidableEq

/-- `sge.addr`. -/
def WorkRequest.addr (wr : WorkRequest) : BitVec 64 := wr.mr.sgeAddr + wr.offset

/-- `[sge.addr, sge.addr + sge.length)` lies in the memory the MR was registered from. -/
def WorkRequest.InRegion (wr : WorkRequest) : Prop :=
  wr.mr.sgeAddr.toNat ≤ wr.addr.toNat ∧
    wr.addr.toNat + wr.length.toNat ≤ wr.mr.sgeAddr.toNat + wr.mr.region.size

/-- The distinct work requests of an operation; the benchmarks post theirs again and again. -/
def DataOp.wrs (op : DataOp) (mrs : List DmaplaneMrEntry) : List WorkRequest :=
  mrs.map fun mr => ⟨mr, op.offset, op.size⟩

/-- The MRs, copied under `mr_lock`. -/
def DataOp.lookup (tab : MrTable) (op : DataOp) : Option (List DmaplaneMrEntry) :=
  op.mrIds.mapM fun mrId => (dmabufRdmaFindMr tab mrId).map tab.mrs

/-- The buffer's fields, copied under `buf_lock`. -/
structure BufSnapshot where
  vaddr : Option Ptr
  size : BitVec 64
  deriving DecidableEq

/-- The lookup of the backing buffer by `buf_id` and the check of the size against it. -/
def DataOp.validate (dev : BufTable) (op : DataOp) (mr : DmaplaneMrEntry) :
    Except Errno BufSnapshot :=
  match dmabufRdmaFindBuffer dev mr.bufId with
  | none => .error .ENOENT
  | some slot =>
    let buf := dev.buffers slot
    if op.needsVaddr && buf.vaddr.isNone then .error .ENOENT
    else if op.size.toNat > buf.size.toNat then .error .EINVAL
    else .ok ⟨buf.vaddr, buf.size⟩

/-! ## What the checks give -/

theorem DataOp.validate_ok {dev : BufTable} {op : DataOp} {mr : DmaplaneMrEntry}
    {snap : BufSnapshot} (h : op.validate dev mr = .ok snap) :
    ∃ slot, (dev.buffers slot).inUse = true ∧ (dev.buffers slot).id = mr.bufId ∧
      snap = ⟨(dev.buffers slot).vaddr, (dev.buffers slot).size⟩ ∧
      op.size.toNat ≤ snap.size.toNat := by
  unfold DataOp.validate at h
  split at h
  · cases h
  · rename_i slot hfind
    obtain ⟨hin, hid⟩ := findBuffer_some hfind
    refine ⟨slot, hin, hid, ?_⟩
    simp only at h
    split at h
    · cases h
    · split at h
      · cases h
      · rename_i hle; cases h
        exact ⟨rfl, Nat.not_lt.mp hle⟩

theorem mem_wrs {op : DataOp} {mrs : List DmaplaneMrEntry} {wr : WorkRequest}
    (h : wr ∈ op.wrs mrs) : wr.mr ∈ mrs ∧ wr.offset = op.offset ∧ wr.length = op.size := by
  obtain ⟨mr, hmr, rfl⟩ := List.mem_map.mp h
  exact ⟨hmr, rfl, rfl⟩

theorem findMr_some {tab : MrTable} {mrId : BitVec 32} {slot : Fin maxMrs}
    (h : dmabufRdmaFindMr tab mrId = some slot) :
    (tab.mrs slot).inUse = true ∧ (tab.mrs slot).id = mrId := by
  unfold dmabufRdmaFindMr at h
  have hp := List.find?_some h
  simpa using hp

theorem lookup_mem {tab : MrTable} {op : DataOp} {mrs : List DmaplaneMrEntry}
    (h : op.lookup tab = some mrs) :
    ∀ mr ∈ mrs, ∃ slot, (tab.mrs slot).inUse = true ∧ mr = tab.mrs slot := by
  unfold DataOp.lookup at h
  generalize op.mrIds = ids at h
  induction ids generalizing mrs with
  | nil =>
    intro mr hmr
    simp only [List.mapM_nil, Option.pure_def, Option.some.injEq] at h
    rw [← h] at hmr; cases hmr
  | cons mrId ids ih =>
    intro mr hmr
    simp only [List.mapM_cons, Option.bind_eq_bind, Option.pure_def, Option.bind_eq_some_iff,
      Option.map_eq_some_iff, Option.some.injEq] at h
    obtain ⟨_, ⟨slot, hfind, rfl⟩, rest, hrest, rfl⟩ := h
    rcases List.mem_cons.mp hmr with rfl | hmr
    · exact ⟨slot, (findMr_some hfind).1, rfl⟩
    · exact ih hrest mr hmr

/-- Without wrap-around the request is in bounds exactly if `offset + length` is. -/
theorem inRegion_iff {wr : WorkRequest}
    (hfit : wr.mr.sgeAddr.toNat + wr.mr.region.size < 2 ^ 64) :
    wr.InRegion ↔ wr.offset.toNat + wr.length.toNat ≤ wr.mr.region.size := by
  have hoff : wr.offset.toNat < 2 ^ 64 := wr.offset.isLt
  have hlo : wr.mr.sgeAddr.toNat < 2 ^ 64 := wr.mr.sgeAddr.isLt
  unfold WorkRequest.InRegion WorkRequest.addr
  rw [BitVec.toNat_add]
  by_cases hwrap : wr.mr.sgeAddr.toNat + wr.offset.toNat < 2 ^ 64
  · rw [Nat.mod_eq_of_lt hwrap]; omega
  · -- the address has wrapped to below `sge_addr`
    have hlt : (wr.mr.sgeAddr.toNat + wr.offset.toNat) % 2 ^ 64 < wr.mr.sgeAddr.toNat := by
      rw [Nat.mod_eq_sub_mod (by omega), Nat.mod_eq_of_lt (by omega)]
      omega
    refine ⟨fun h => absurd h.1 (Nat.not_le.mpr hlt), fun h => ?_⟩
    omega

end Dmaplane
