import Dmaplane.Lib.System
import Dmaplane.Lib.Heap
import Dmaplane.Channel

/-!
# Dmaplane.Peer

The peer queue pair of `driver/rdma_engine.c`: INIT_PEER, CONNECT_PEER, DESTROY_PEER and the
transfers on it, under the locks that `dmaplane_ioctl` takes.

* `rdma_sem` is read by INIT_PEER, CONNECT_PEER and the transfers: `readers` are its holders. They
  interleave, so each access to the shared context is a step of its own.
* SETUP_RDMA, TEARDOWN_RDMA and DESTROY_PEER hold it for writing: each is one step, taken while
  nobody reads. The teardown that undoes a failed SETUP_RDMA is the same step.
* The verbs layer owns the CQs and QPs that INIT_PEER has created; a label says how a call into it
  turned out. It moves a QP to RTR from INIT only, and to RTS from RTR only.
-/

namespace Dmaplane

/-- A field of the context that points to an object of the verbs layer. -/
inductive VerbsPtr where
  | null
  -- the `ERR_PTR` of a failed call, until the `IS_ERR` check resets the field
  | err
  | obj (n : Nat)
  deriving DecidableEq, Repr

inductive QpState where
  | reset | init | rtr | rts | err
  deriving DecidableEq, Repr

/-- `struct dmaplane_rdma_peer_info`. -/
structure PeerInfo where
  qpNum : BitVec 32
  lid : BitVec 16
  gid : BitVec 128
  mac : BitVec 48
  status : BitVec 32
  deriving DecidableEq, Repr

/-- A QP that INIT_PEER has created. -/
structure PeerQp where
  qpNum : BitVec 32
  /-- Its send and receive CQ. -/
  cq : VerbsPtr
  state : QpState
  /-- The remote end, known from RTR on. -/
  remote : Option PeerInfo
  /-- It has been moved to RTS. -/
  toRts : Bool
  deriving DecidableEq

/-- What INIT_PEER and CONNECT_PEER use of `struct dmaplane_rdma_ctx`. -/
structure PeerCtx where
  initialized : Bool
  lid : BitVec 16
  gid : BitVec 128
  cqPeer : VerbsPtr
  qpPeer : VerbsPtr
  peerConnected : Bool
  deriving DecidableEq

inductive PeerPc where
  | idle
  -- `rdma_engine_init_peer`
  | initAlloc
  | initCqStored
  | initCreate
  | initQpStored
  | initModify
  | initFill
  | initDestroyQp
  | initFreeCq
  -- `rdma_engine_connect_peer`
  | connectRtr (remote : PeerInfo)
  | connectRts (remote : PeerInfo)
  | connectPublish (remote : PeerInfo)
  -- WRITE_IMM picks its QP and CQ at once, REMOTE_SEND and REMOTE_RECV read the fields again
  | xferPost (picked : Option (VerbsPtr × VerbsPtr))
  | xferPoll (picked : Option (VerbsPtr × VerbsPtr))
  -- `rdma_sem` is released, the result is copied to user space
  | copyOut (info : PeerInfo)
  deriving DecidableEq

/-- The thread holds `rdma_sem` for reading. -/
def PeerPc.reading : PeerPc → Bool
  | .idle | .copyOut _ => false
  | _ => true

structure PeerSt (Tid : Type) where
  ctx : PeerCtx
  cqs : Heap
  qps : Heap
  qp : Nat → PeerQp
  /-- A call got a CQ or QP that does not exist. -/
  badUse : Bool
  pc : Tid → PeerPc
  readers : Finset Tid

inductive PeerAct (Tid : Type) where
  | initPeer (t : Tid)
  | initAlloc (t : Tid) (ok : Bool)
  | initCheckCq (t : Tid)
  | initCreate (t : Tid) (qpNum : Option (BitVec 32))
  | initCheckQp (t : Tid)
  | initModify (t : Tid) (ok : Bool)
  /-- `mac = none`: `rdma_get_gid_attr` fails; `mac = some none`: no net device. -/
  | initFill (t : Tid) (mac : Option (Option (BitVec 48)))
  | initDestroyQp (t : Tid)
  | initFreeCq (t : Tid)
  | connectPeer (t : Tid) (remote : PeerInfo) (gidOk : Bool)
  | connectRtr (t : Tid) (ok : Bool)
  | connectRts (t : Tid) (ok : Bool)
  | connectPublish (t : Tid)
  | copyOut (t : Tid)
  | xfer (t : Tid) (writeImm : Bool)
  | xferPost (t : Tid) (ok : Bool)
  | xferPoll (t : Tid)
  /-- The transport gives up on a QP. -/
  | qpError (q : Nat)
  | setupRdma (lid : BitVec 16) (gid : BitVec 128)
  | teardownRdma
  | destroyPeer

variable {Tid : Type}

namespace PeerSt

/-- The object behind a pointer, when a call with it is sound. -/
def live? (h : Heap) : VerbsPtr → Option Nat
  | .obj n => if n ∈ h.live then some n else none
  | _ => none

/-- `ib_modify_qp` on a QP that is in state `old`. -/
def modifyQp (s : PeerSt Tid) (q : Nat) (f : PeerQp → PeerQp) : PeerSt Tid :=
  { s with qp := Function.update s.qp q (f (s.qp q)) }

def fault (s : PeerSt Tid) : PeerSt Tid := { s with badUse := true }

def destroyQp (s : PeerSt Tid) : VerbsPtr → PeerSt Tid
  | .obj q => { s with qps := s.qps.free q }
  | _ => s.fault

def freeCq (s : PeerSt Tid) : VerbsPtr → PeerSt Tid
  | .obj c => { s with cqs := s.cqs.free c }
  | _ => s.fault

def setQpPeer (s : PeerSt Tid) (q : VerbsPtr) : PeerSt Tid :=
  { s with ctx := { s.ctx with qpPeer := q } }

def setCqPeer (s : PeerSt Tid) (c : VerbsPtr) : PeerSt Tid :=
  { s with ctx := { s.ctx with cqPeer := c } }

def setConnected (s : PeerSt Tid) (b : Bool) : PeerSt Tid :=
  { s with ctx := { s.ctx with peerConnected := b } }

variable [DecidableEq Tid]

def goto (s : PeerSt Tid) (t : Tid) (pc : PeerPc) : PeerSt Tid :=
  { s with
    pc := Function.update s.pc t pc
    readers := if pc.reading then insert t s.readers else s.readers.erase t }

end PeerSt

open PeerSt

/-- `rdma_engine_teardown_peer`. -/
def teardownPeer (s : PeerSt Tid) : PeerSt Tid :=
  if !s.ctx.peerConnected && s.ctx.qpPeer = .null then s
  else
    let s := if s.ctx.qpPeer = .null then s else (s.destroyQp s.ctx.qpPeer).setQpPeer .null
    let s := if s.ctx.cqPeer = .null then s else (s.freeCq s.ctx.cqPeer).setCqPeer .null
    s.setConnected false

/-- `rdma_engine_teardown`, as far as the peer is concerned. -/
def rdmaTeardown (s : PeerSt Tid) : PeerSt Tid :=
  if s.ctx.initialized then
    let s := teardownPeer s
    { s with ctx := { s.ctx with initialized := false } }
  else s

variable [DecidableEq Tid]

/-- The steps of `rdma_engine_init_peer`. -/
def initStep (s : PeerSt Tid) : PeerAct Tid → Option (PeerSt Tid)
  | .initPeer t =>
    if s.pc t = .idle then
      if !s.ctx.initialized then some s
      else if s.ctx.qpPeer ≠ .null then some s
      else some (s.goto t .initAlloc)
    else none
  | .initAlloc t ok =>
    if s.pc t = .initAlloc then
      if ok then
        let (c, cqs) := s.cqs.alloc
        some (({ s with cqs := cqs }.setCqPeer (.obj c)).goto t .initCqStored)
      else some ((s.setCqPeer .err).goto t .initCqStored)
    else none
  | .initCheckCq t =>
    if s.pc t = .initCqStored then
      if s.ctx.cqPeer = .err then some ((s.setCqPeer .null).goto t .idle)
      else some (s.goto t .initCreate)
    else none
  | .initCreate t qpNum =>
    if s.pc t = .initCreate then
      match qpNum with
      | some qpNum =>
        let (q, qps) := s.qps.alloc
        let qp := { qpNum := qpNum, cq := s.ctx.cqPeer, state := .reset, remote := none, toRts := false }
        -- creating a QP on a CQ that does not exist
        let s := if (live? s.cqs s.ctx.cqPeer).isSome then s else s.fault
        some (({ s with qps := qps, qp := Function.update s.qp q qp }.setQpPeer (.obj q)).goto t
          .initQpStored)
      | none => some ((s.setQpPeer .err).goto t .initQpStored)
    else none
  | .initCheckQp t =>
    if s.pc t = .initQpStored then
      if s.ctx.qpPeer = .err then some ((s.setQpPeer .null).goto t .initFreeCq)
      else some (s.goto t .initModify)
    else none
  | .initModify t ok =>
    if s.pc t = .initModify then
      match live? s.qps s.ctx.qpPeer with
      | some q =>
        if ok && ((s.qp q).state = .reset || (s.qp q).state = .init) then
          some ((s.modifyQp q fun qp => { qp with state := .init }).goto t .initFill)
        else some (s.goto t .initDestroyQp)
      | none => some (s.fault.goto t .initDestroyQp)
    else none
  | .initFill t mac =>
    if s.pc t = .initFill then
      match live? s.qps s.ctx.qpPeer with
      | some q =>
        match mac with
        | some mac =>
          some (s.goto t (.copyOut
            { qpNum := (s.qp q).qpNum, lid := s.ctx.lid, gid := s.ctx.gid, mac := mac.getD 0
              status := 0 }))
        | none => some (s.goto t .initDestroyQp)
      | none => some (s.fault.goto t .initDestroyQp)
    else none
  | .initDestroyQp t =>
    if s.pc t = .initDestroyQp then
      some (((s.destroyQp s.ctx.qpPeer).setQpPeer .null).goto t .initFreeCq)
    else none
  | .initFreeCq t =>
    if s.pc t = .initFreeCq then
      some (((s.freeCq s.ctx.cqPeer).setCqPeer .null).goto t .idle)
    else none
  | _ => none

/-- The steps of `rdma_engine_connect_peer`. -/
def connectStep (s : PeerSt Tid) : PeerAct Tid → Option (PeerSt Tid)
  | .connectPeer t remote gidOk =>
    if s.pc t = .idle then
      if s.ctx.qpPeer = .null then some s
      else if gidOk then some (s.goto t (.connectRtr remote))
      else some s
    else none
  | .connectRtr t ok =>
    match s.pc t with
    | .connectRtr remote =>
      match live? s.qps s.ctx.qpPeer with
      | some q =>
        if ok && (s.qp q).state = .init then
          some ((s.modifyQp q fun qp => { qp with state := .rtr, remote := some remote }).goto t
            (.connectRts remote))
        else some (s.goto t .idle)
      | none => some (s.fault.goto t .idle)
    | _ => none
  | .connectRts t ok =>
    match s.pc t with
    | .connectRts remote =>
      match live? s.qps s.ctx.qpPeer with
      | some q =>
        if ok && (s.qp q).state = .rtr then
          some ((s.modifyQp q fun qp => { qp with state := .rts, toRts := true }).goto t
            (.connectPublish remote))
        else some (s.goto t .idle)
      | none => some (s.fault.goto t .idle)
    | _ => none
  | .connectPublish t =>
    match s.pc t with
    | .connectPublish remote =>
      some ((s.setConnected true).goto t (.copyOut { remote with status := 0 }))
    | _ => none
  | _ => none

/-- A transfer on the peer QP: the check of `peer_connected`, the post and the poll. POST_RECV
ends after the post, as a transfer does whose post fails. -/
def xferStep (s : PeerSt Tid) : PeerAct Tid → Option (PeerSt Tid)
  | .xfer t writeImm =>
    if s.pc t = .idle then
      if s.ctx.peerConnected && (!writeImm || s.ctx.initialized) then
        some (s.goto t (.xferPost (if writeImm then some (s.ctx.qpPeer, s.ctx.cqPeer) else none)))
      else some s
    else none
  | .xferPost t ok =>
    match s.pc t with
    | .xferPost picked =>
      match live? s.qps (picked.getD (s.ctx.qpPeer, s.ctx.cqPeer)).1 with
      | some _ => some (s.goto t (if ok then .xferPoll picked else .idle))
      | none => some (s.fault.goto t .idle)
    | _ => none
  | .xferPoll t =>
    match s.pc t with
    | .xferPoll picked =>
      match live? s.cqs (picked.getD (s.ctx.qpPeer, s.ctx.cqPeer)).2 with
      | some _ => some (s.goto t .idle)
      | none => some (s.fault.goto t .idle)
    | _ => none
  | _ => none

def peerStep (s : PeerSt Tid) (a : PeerAct Tid) : Option (PeerSt Tid) :=
  match a with
  | .copyOut t =>
    match s.pc t with
    | .copyOut _ => some (s.goto t .idle)
    | _ => none
  | .qpError q =>
    if q ∈ s.qps.live then some (s.modifyQp q fun qp => { qp with state := .err }) else none
  | .setupRdma lid gid =>
    if s.readers = ∅ ∧ s.ctx.initialized = false then
      some { s with ctx := { s.ctx with initialized := true, lid := lid, gid := gid } }
    else none
  | .teardownRdma => if s.readers = ∅ then some (rdmaTeardown s) else none
  | .destroyPeer => if s.readers = ∅ then some (teardownPeer s) else none
  | .connectPeer .. | .connectRtr .. | .connectRts .. | .connectPublish .. => connectStep s a
  | .xfer .. | .xferPost .. | .xferPoll .. => xferStep s a
  | _ => initStep s a

def peerInit (Tid : Type) : PeerSt Tid :=
  { ctx := { initialized := false, lid := 0, gid := 0, cqPeer := .null, qpPeer := .null,
             peerConnected := false }
    cqs := .empty, qps := .empty
    qp := fun _ => { qpNum := 0, cq := .null, state := .reset, remote := none, toRts := false }
    badUse := false, pc := fun _ => .idle, readers := ∅ }

def peerSys (Tid : Type) [DecidableEq Tid] : Transition.Sys (PeerSt Tid) (PeerAct Tid) where
  init := peerInit Tid
  step := peerStep

end Dmaplane
