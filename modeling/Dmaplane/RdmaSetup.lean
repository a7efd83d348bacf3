import Dmaplane.Lib.System
import Dmaplane.Lib.Objects
import Dmaplane.Peer

/-!
# Dmaplane.RdmaSetup

The life cycle of the RDMA context in `driver/rdma_engine.c`: `rdma_engine_setup` with its error
ladder, `rdma_engine_teardown`, and the peer functions, one call after the other.

The verbs layer answers each call as the environment of the operation says. The attributes of the
QP transitions and the depths of the queues are left out: they decide nothing here. The copies of
the ioctl handlers to and from user space are taken to succeed.
-/

namespace Dmaplane

/-- The fields of `struct dmaplane_rdma_ctx` that hold a verbs object. -/
inductive RdmaField where
  | ibDev | pd | cqA | cqB | qpA | qpB | cqPeer | qpPeer
  deriving DecidableEq, Repr

/-- What an object is made with. -/
def rdmaDeps : RdmaField → List RdmaField
  | .ibDev => []
  | .pd | .cqA | .cqB | .cqPeer => [.ibDev]
  | .qpA => [.pd, .cqA]
  | .qpB => [.pd, .cqB]
  | .qpPeer => [.pd, .cqPeer]

/-- `struct dmaplane_rdma_ctx`, and the references held on GID attributes. -/
structure RdmaSt where
  objs : Objects RdmaField
  initialized : Bool
  peerConnected : Bool
  port : BitVec 8
  lid : BitVec 16
  gid : BitVec 128
  gidIndex : Nat
  gidRefs : Int

def rdmaInit : RdmaSt :=
  { objs := .empty, initialized := false, peerConnected := false, port := 0, lid := 0, gid := 0
    gidIndex := 0, gidRefs := 0 }

/-- An entry of the GID table, as far as `scan_gid_table` looks at it. -/
structure GidAttr where
  roceUdpEncap : Bool
  any : Bool
  v4mapped : Bool
  linklocal : Bool
  gid : BitVec 128
  deriving DecidableEq, Repr

/-- What the verbs layer answers during a setup; `none` is success. -/
structure SetupEnv where
  /-- `ib_device_get_by_name` finds the device. -/
  device : Bool
  queryPort : Except Errno (BitVec 16)
  gidTable : Nat → Option GidAttr
  /-- The entry that was chosen can be read again. -/
  gidAgain : Bool
  queryGid : Except Errno (BitVec 128)
  pd : Option Errno
  cqA : Option Errno
  cqB : Option Errno
  qpA : Option Errno
  qpB : Option Errno
  sgidAttr : Option Errno
  /-- The GID has a net device. -/
  ndev : Bool
  aInit : Option Errno
  aRtr : Option Errno
  aRts : Option Errno
  bInit : Option Errno
  bRtr : Option Errno
  bRts : Option Errno

structure InitPeerEnv where
  cq : Option Errno
  /-- The QP gets a number. -/
  qp : Except Errno (BitVec 32)
  init : Option Errno
  sgidAttr : Option Errno
  ndev : Option (BitVec 48)

structure ConnectEnv where
  sgidAttr : Option Errno
  rtr : Option Errno
  rts : Option Errno

namespace RdmaSt

/-- A verbs call with the object of `f`. -/
def touch (s : RdmaSt) (f : RdmaField) : RdmaSt := { s with objs := s.objs.touch f }

/-- Allocation of the object of `f`; on an `ERR_PTR` the field is reset to NULL. -/
def alloc (s : RdmaSt) (f : RdmaField) (err : Option Errno) : RdmaSt :=
  { s with objs := s.objs.tryCreate rdmaDeps f err.isNone }

def destroy (s : RdmaSt) (f : RdmaField) : RdmaSt := { s with objs := s.objs.destroy f }

def destroyAll (s : RdmaSt) (fs : List RdmaField) : RdmaSt :=
  { s with objs := s.objs.destroyAll fs }

/-- `rdma_get_gid_attr`. -/
def getGid (s : RdmaSt) : RdmaSt := { s.touch .ibDev with gidRefs := s.gidRefs + 1 }

/-- `rdma_put_gid_attr`. -/
def putGid (s : RdmaSt) : RdmaSt := { s with gidRefs := s.gidRefs - 1 }

/-! ## Setup -/

def errPutDev (s : RdmaSt) : RdmaSt := s.destroy .ibDev
def errDeallocPd (s : RdmaSt) : RdmaSt := (s.destroy .pd).errPutDev
def errDestroyCqA (s : RdmaSt) : RdmaSt := (s.destroy .cqA).errDeallocPd
def errDestroyCqB (s : RdmaSt) : RdmaSt := (s.destroy .cqB).errDestroyCqA
def errDestroyQpA (s : RdmaSt) : RdmaSt := (s.destroy .qpA).errDestroyCqB
def errDestroyQpB (s : RdmaSt) : RdmaSt := (s.destroy .qpB).errDestroyQpA

/-- The loop of `scan_gid_table`: `n` entries are left from `idx` on. Gives `first_v4mapped` and
`last_linklocal`. -/
def scanGids (table : Nat → Option GidAttr) (s : RdmaSt) (idx : Nat) (v4 ll : Option Nat) :
    Nat → Option Nat × Option Nat × RdmaSt
  | 0 => (v4, ll, s)
  | n + 1 =>
    match table idx with
    | none => (v4, ll, s.touch .ibDev)
    | some a =>
      let s := s.getGid.putGid
      if a.roceUdpEncap && !a.any then
        scanGids table s (idx + 1) (if a.v4mapped && v4.isNone then some idx else v4)
          (if a.linklocal then some idx else ll) n
      else scanGids table s (idx + 1) v4 ll n

/-- `rdma_query_gid` on index 0. -/
def queryGidZero (env : SetupEnv) (s : RdmaSt) : Option Errno × RdmaSt :=
  match env.queryGid with
  | .error e => (some e, s.touch .ibDev)
  | .ok gid => (none, { s.touch .ibDev with gid := gid, gidIndex := 0 })

/-- `scan_gid_table`. -/
def scanGidTable (env : SetupEnv) (s : RdmaSt) : Option Errno × RdmaSt :=
  let (v4, ll, s) := scanGids env.gidTable s 0 none none 16
  match v4.or ll with
  | none => queryGidZero env s
  | some idx =>
    match env.gidTable idx with
    | some a =>
      if env.gidAgain then
        (none, { s.getGid with gid := a.gid, gidIndex := idx }.putGid)
      else queryGidZero env (s.touch .ibDev)
    | none => queryGidZero env (s.touch .ibDev)

/-- `ib_modify_qp` for each, up to the first that fails. -/
def modifyQps (s : RdmaSt) : List (RdmaField × Option Errno) → Option Errno × RdmaSt
  | [] => (none, s)
  | (f, none) :: rest => modifyQps (s.touch f) rest
  | (f, some e) :: _ => (some e, s.touch f)

/-- `connect_loopback_qps`. -/
def connectLoopbackQps (env : SetupEnv) (s : RdmaSt) : Option Errno × RdmaSt :=
  match env.sgidAttr with
  | some e => (some e, s.touch .ibDev)
  | none =>
    let s := s.getGid
    if env.ndev then
      let (err, s) := s.modifyQps
        [(.qpA, env.aInit), (.qpA, env.aRtr), (.qpA, env.aRts),
         (.qpB, env.bInit), (.qpB, env.bRtr), (.qpB, env.bRts)]
      (err, s.putGid)
    else (some .ENODEV, s.putGid)

end RdmaSt

open RdmaSt

/-- `rdma_engine_setup`. -/
def rdmaEngineSetup (port : BitVec 8) (env : SetupEnv) (s : RdmaSt) : Option Errno × RdmaSt :=
  if s.initialized then (some .EBUSY, s)
  else if !env.device then (some .ENODEV, s.alloc .ibDev (some .ENODEV))
  else
    let s := { s.alloc .ibDev none with port := if port = 0 then 1 else port }
    match env.queryPort with
    | .error e => (some e, (s.touch .ibDev).errPutDev)
    | .ok lid =>
      match scanGidTable env { s.touch .ibDev with lid := lid } with
      | (some e, s) => (some e, s.errPutDev)
      | (none, s) =>
        let s := s.alloc .pd env.pd
        match env.pd with
        | some e => (some e, s.errPutDev)
        | none =>
          let s := s.alloc .cqA env.cqA
          match env.cqA with
          | some e => (some e, s.errDeallocPd)
          | none =>
            let s := s.alloc .cqB env.cqB
            match env.cqB with
            | some e => (some e, s.errDestroyCqA)
            | none =>
              let s := s.alloc .qpA env.qpA
              match env.qpA with
              | some e => (some e, s.errDestroyCqB)
              | none =>
                let s := s.alloc .qpB env.qpB
                match env.qpB with
                | some e => (some e, s.errDestroyQpA)
                | none =>
                  match connectLoopbackQps env s with
                  | (some e, s) => (some e, s.errDestroyQpB)
                  | (none, s) => (none, { s with initialized := true })

/-! ## Teardown and peer -/

/-- `rdma_engine_teardown_peer`. The move to the error state may fail unnoticed. -/
def rdmaEngineTeardownPeer (s : RdmaSt) : RdmaSt :=
  if !s.peerConnected && s.objs.ptr .qpPeer = none then s
  else
    let s := if s.objs.ptr .qpPeer = none then s else s.touch .qpPeer
    { s.destroyAll [.qpPeer, .cqPeer] with peerConnected := false }

/-- `rdma_engine_teardown`. -/
def rdmaEngineTeardown (s : RdmaSt) : RdmaSt :=
  if s.initialized then
    let s := rdmaEngineTeardownPeer s
    let s := if s.objs.ptr .qpB = none then s else s.touch .qpB
    let s := if s.objs.ptr .qpA = none then s else s.touch .qpA
    { s.destroyAll [.qpB, .qpA, .cqB, .cqA, .pd, .ibDev] with initialized := false }
  else s

/-- `err_destroy_qp` of `rdma_engine_init_peer`. -/
def errDestroyQpPeer (s : RdmaSt) : RdmaSt := (s.destroy .qpPeer).destroy .cqPeer

/-- `rdma_engine_init_peer`. -/
def rdmaEngineInitPeer (env : InitPeerEnv) (s : RdmaSt) : Except Errno PeerInfo × RdmaSt :=
  if !s.initialized then (.error .EINVAL, s)
  else if s.objs.ptr .qpPeer ≠ none then (.error .EBUSY, s)
  else
    let s := s.alloc .cqPeer env.cq
    match env.cq with
    | some e => (.error e, s)
    | none =>
      match env.qp with
      | .error e => (.error e, (s.alloc .qpPeer (some e)).destroy .cqPeer)
      | .ok qpNum =>
        let s := (s.alloc .qpPeer none).touch .qpPeer
        match env.init with
        | some e => (.error e, errDestroyQpPeer s)
        | none =>
          let info : PeerInfo := { qpNum := qpNum, lid := s.lid, gid := s.gid, mac := 0, status := 0 }
          match env.sgidAttr with
          | some e => (.error e, errDestroyQpPeer (s.touch .ibDev))
          | none => (.ok { info with mac := env.ndev.getD 0 }, s.getGid.putGid)

/-- `rdma_engine_connect_peer`. -/
def rdmaEngineConnectPeer (env : ConnectEnv) (remote : PeerInfo) (s : RdmaSt) :
    Except Errno PeerInfo × RdmaSt :=
  if s.objs.ptr .qpPeer = none then (.error .EINVAL, s)
  else
    match env.sgidAttr with
    | some e => (.error e, s.touch .ibDev)
    | none =>
      let s := s.getGid.touch .qpPeer
      match env.rtr with
      | some e => (.error e, s.putGid)
      | none =>
        let s := (s.touch .qpPeer).putGid
        match env.rts with
        | some e => (.error e, s)
        | none => (.ok { remote with status := 0 }, { s with peerConnected := true })

/-! ## The system -/

inductive RdmaOp where
  | setup (port : BitVec 8) (env : SetupEnv)
  | teardown
  | initPeer (env : InitPeerEnv)
  | connectPeer (env : ConnectEnv) (remote : PeerInfo)
  | destroyPeer

def errOf {α : Type} : Except Errno α → Option Errno
  | .error e => some e
  | .ok _ => none

/-- The error an operation returns, and the state after it. -/
def rdmaOp (s : RdmaSt) : RdmaOp → Option Errno × RdmaSt
  | .setup port env => rdmaEngineSetup port env s
  | .teardown => (none, rdmaEngineTeardown s)
  | .initPeer env => (errOf (rdmaEngineInitPeer env s).1, (rdmaEngineInitPeer env s).2)
  | .connectPeer env remote =>
    (errOf (rdmaEngineConnectPeer env remote s).1, (rdmaEngineConnectPeer env remote s).2)
  | .destroyPeer => (none, rdmaEngineTeardownPeer s)

def rdmaSys : Transition.Sys RdmaSt RdmaOp where
  init := rdmaInit
  step := fun s op => some (rdmaOp s op).2

end Dmaplane
