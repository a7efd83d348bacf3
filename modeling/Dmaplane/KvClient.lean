import Dmaplane.Lib.Record

/-!
# Dmaplane.KvClient

The ioctl interface of `include/dmaplane_uapi.h` and its Python client, `DmaplaneClient` of
`examples/kvcache/dmaplane_py.py`. The C side names a struct for each command; the Python side has
a format string, and lists the values of a request and the items of a reply by position.

* `IoctlCmd`      — the commands of the driver's `switch`, with their numbers and structs.
* `ClientMethod`  — a method of the client: its command number, its request and its reply.
* `agrees_of`     — what has to be compared for one method.
* `client_agrees` — the driver takes every call of the client as meant, and every reply is read as
  the driver left it.
-/

namespace Dmaplane

open Layout Signed

/-! ## The structs of the interface -/

/-- The members of the structs that the client uses. -/
inductive UapiField where
  | bufId | allocType | size | numaNode | actualNumaNode
  | pad | pad1 | pad2 | pad3 | mmapOffset | mmapSize
  | ibDevName | port | cqDepth | maxSendWr | maxRecvWr | status
  | mrId | accessFlags | lkey | rkey | addr
  | gpuVa | handle | gpuNumaNode | numPages | bar1Consumed | gpuHandle
  | qpNum | lid | gid | mac
  | localMrId | length | localOffset | remoteAddr | remoteRkey | immData | usePeerQp | elapsedNs
  | timeoutMs | wcFlags | byteLen
  deriving DecidableEq, Repr

abbrev UapiStruct := Record UapiField

/-- `struct dmaplane_buf_params`. -/
def uapiBufParams : UapiStruct :=
  [(.bufId, .u32), (.allocType, .u32), (.size, .u64), (.numaNode, .s32), (.actualNumaNode, .s32)]

/-- `struct dmaplane_mmap_info`. -/
def uapiMmapInfo : UapiStruct :=
  [(.bufId, .u32), (.pad, .u32), (.mmapOffset, .u64), (.mmapSize, .u64)]

/-- `struct dmaplane_rdma_setup`. -/
def uapiRdmaSetup : UapiStruct :=
  [(.ibDevName, .u8s 32), (.port, .u32), (.cqDepth, .u32), (.maxSendWr, .u32), (.maxRecvWr, .u32),
   (.status, .u32)]

/-- `struct dmaplane_mr_params`. -/
def uapiMrParams : UapiStruct :=
  [(.mrId, .u32), (.bufId, .u32), (.accessFlags, .u32), (.lkey, .u32), (.rkey, .u32), (.pad, .u32),
   (.addr, .u64)]

/-- `struct dmaplane_gpu_pin_params`. -/
def uapiGpuPinParams : UapiStruct :=
  [(.gpuVa, .u64), (.size, .u64), (.handle, .u32), (.gpuNumaNode, .s32), (.numPages, .u32),
   (.pad, .u32), (.bar1Consumed, .u64)]

/-- `struct dmaplane_gpu_unpin_params`. -/
def uapiGpuUnpinParams : UapiStruct := [(.handle, .u32)]

/-- `struct dmaplane_gpu_mr_params`. -/
def uapiGpuMrParams : UapiStruct :=
  [(.gpuHandle, .u32), (.mrId, .u32), (.lkey, .u32), (.rkey, .u32)]

/-- `struct dmaplane_rdma_peer_info`. -/
def uapiPeerInfo : UapiStruct :=
  [(.qpNum, .u32), (.lid, .u16), (.pad1, .u16), (.gid, .u8s 16), (.mac, .u8s 6), (.pad2, .u8s 2),
   (.status, .u32), (.pad3, .u32)]

/-- `struct dmaplane_write_imm_params`. -/
def uapiWriteImmParams : UapiStruct :=
  [(.localMrId, .u32), (.length, .u32), (.localOffset, .u64), (.remoteAddr, .u64),
   (.remoteRkey, .u32), (.immData, .u32), (.usePeerQp, .u32), (.status, .u32), (.elapsedNs, .u64)]

/-- `struct dmaplane_post_recv_params`. -/
def uapiPostRecvParams : UapiStruct :=
  [(.mrId, .u32), (.size, .u32), (.usePeerQp, .u32), (.status, .u32)]

/-- `struct dmaplane_poll_recv_params`. -/
def uapiPollRecvParams : UapiStruct :=
  [(.usePeerQp, .u32), (.timeoutMs, .u32), (.status, .u32), (.wcFlags, .u32), (.immData, .u32),
   (.byteLen, .u32), (.elapsedNs, .u64)]

/-! ## The commands -/

inductive IoctlCmd where
  | createChannel | submit | complete | getStats
  | createBuffer | destroyBuffer | getMmapInfo | getBufStats | exportDmabuf | getDmabufStats
  | setupRdma | teardownRdma | registerMr | deregisterMr
  | loopbackTest | pingpongBench | streamingBench | getRdmaStats
  | configureFlow | sustainedStream | qdepthSweep | getFlowStats
  | queryNumaTopo | numaBench
  | gpuPin | gpuUnpin | gpuDmaToHost | gpuDmaFromHost | gpuBench | gpuRegisterMr | gpuLoopback
  | getGpuStats
  | getHistogram
  | rdmaWriteImm | rdmaPostRecv | rdmaPollRecv
  | rdmaInitPeer | rdmaConnectPeer | rdmaRemoteSend | rdmaRemoteRecv | rdmaDestroyPeer
  deriving DecidableEq, Repr

/-- `_IOC` of `<linux/ioctl.h>`. -/
def ioc (dir type nr size : Nat) : Nat :=
  dir <<< 30 ||| type <<< 8 ||| nr <<< 0 ||| size <<< 16

/-- `DMAPLANE_IOC_MAGIC`. -/
abbrev iocMagic : Nat := 0xE4

def ioIo (nr : Nat) : Nat := ioc 0 iocMagic nr 0

def ioW (nr size : Nat) : Nat := ioc 1 iocMagic nr size

def ioR (nr size : Nat) : Nat := ioc 2 iocMagic nr size

def ioWR (nr size : Nat) : Nat := ioc 3 iocMagic nr size

/-- `sizeof` of a struct that only the size is used of. -/
def sizeofTypes (ts : List MType) : Nat := Record.sizeof (ts.map ((), ·))

/-- `sizeof(struct dmaplane_bench_params)`. -/
def benchSize : Nat := sizeofTypes (List.replicate 4 .u32 ++ List.replicate 5 .u64)

/-- `sizeof(struct dmaplane_gpu_dma_params)`. -/
def gpuDmaSize : Nat := sizeofTypes [.u32, .u32, .u64, .u64, .u64, .u64]

/-- `sizeof(struct dmaplane_rdma_remote_xfer_params)`. -/
def remoteXferSize : Nat := sizeofTypes [.u32, .u32, .u64, .u64, .u32, .u32]

/-- The `#define`s of the commands. -/
def IoctlCmd.number : IoctlCmd → Nat
  | .createChannel => ioR 0x01 (sizeofTypes [.u32, .u32])
  | .submit => ioW 0x02 (sizeofTypes [.u64, .u32, .u32])
  | .complete => ioWR 0x03 (sizeofTypes [.u64, .u32, .u32])
  | .getStats => ioR 0x04 (sizeofTypes [.u64, .u64, .u32, .u32])
  | .createBuffer => ioWR 0x05 uapiBufParams.sizeof
  | .destroyBuffer => ioW 0x06 (sizeofTypes [.u32])
  | .getMmapInfo => ioWR 0x08 uapiMmapInfo.sizeof
  | .getBufStats => ioR 0x09 (sizeofTypes (List.replicate 5 .u64))
  | .exportDmabuf => ioWR 0x0A (sizeofTypes [.u32, .s32])
  | .getDmabufStats => ioR 0x0B (sizeofTypes (List.replicate 6 .u64))
  | .setupRdma => ioWR 0x10 uapiRdmaSetup.sizeof
  | .teardownRdma => ioIo 0x11
  | .registerMr => ioWR 0x20 uapiMrParams.sizeof
  | .deregisterMr => ioW 0x21 (sizeofTypes [.u32])
  | .loopbackTest => ioWR 0x30 (sizeofTypes [.u32, .u32, .u32, .u32, .u64])
  | .pingpongBench => ioWR 0x31 benchSize
  | .streamingBench => ioWR 0x32 benchSize
  | .getRdmaStats => ioR 0x33 (sizeofTypes (List.replicate 8 .u64))
  | .configureFlow => ioWR 0x40 (sizeofTypes (List.replicate 4 .u32))
  | .sustainedStream => ioWR 0x41 (sizeofTypes
      (List.replicate 4 .u32 ++ List.replicate 7 .u64 ++ List.replicate 2 .u32))
  | .qdepthSweep => ioWR 0x42 (sizeofTypes
      (List.replicate 6 .u32 ++ List.replicate (3 * 32) .u64 ++ List.replicate 4 .u32))
  | .getFlowStats => ioR 0x43 (sizeofTypes (List.replicate 6 .u64))
  | .queryNumaTopo => ioR 0x50 (sizeofTypes
      (List.replicate 18 .u32 ++ List.replicate 16 .u64 ++ List.replicate 64 .u32))
  | .numaBench => ioWR 0x51 (sizeofTypes
      ([.u64, .u32, .u32] ++ List.replicate (2 * 64) .u64 ++ [.u32, .u32]))
  | .gpuPin => ioWR 0x60 uapiGpuPinParams.sizeof
  | .gpuUnpin => ioW 0x61 uapiGpuUnpinParams.sizeof
  | .gpuDmaToHost => ioWR 0x62 gpuDmaSize
  | .gpuDmaFromHost => ioWR 0x63 gpuDmaSize
  | .gpuBench => ioWR 0x64 (sizeofTypes [.u32, .u32, .u64, .u32, .u32, .u64, .u64])
  | .gpuRegisterMr => ioWR 0x65 uapiGpuMrParams.sizeof
  | .gpuLoopback => ioWR 0x66 (sizeofTypes [.u32, .u32, .u32, .u32, .u64, .u32, .u32])
  | .getGpuStats => ioR 0x67 (sizeofTypes (List.replicate 6 .u64))
  | .getHistogram => ioWR 0x70 (sizeofTypes
      (List.replicate (16 + 7) .u64 ++ [.u32, .u32]))
  | .rdmaWriteImm => ioWR 0x80 uapiWriteImmParams.sizeof
  | .rdmaPostRecv => ioWR 0x81 uapiPostRecvParams.sizeof
  | .rdmaPollRecv => ioWR 0x82 uapiPollRecvParams.sizeof
  | .rdmaInitPeer => ioR 0x90 uapiPeerInfo.sizeof
  | .rdmaConnectPeer => ioW 0x91 uapiPeerInfo.sizeof
  | .rdmaRemoteSend => ioWR 0x92 remoteXferSize
  | .rdmaRemoteRecv => ioWR 0x93 remoteXferSize
  | .rdmaDestroyPeer => ioIo 0x94

def ioctlCmds : List IoctlCmd :=
  [.createChannel, .submit, .complete, .getStats,
   .createBuffer, .destroyBuffer, .getMmapInfo, .getBufStats, .exportDmabuf, .getDmabufStats,
   .setupRdma, .teardownRdma, .registerMr, .deregisterMr,
   .loopbackTest, .pingpongBench, .streamingBench, .getRdmaStats,
   .queryNumaTopo, .numaBench,
   .configureFlow, .sustainedStream, .qdepthSweep, .getFlowStats, .getHistogram,
   .gpuPin, .gpuUnpin, .gpuDmaToHost, .gpuDmaFromHost, .gpuBench, .gpuRegisterMr, .gpuLoopback,
   .getGpuStats,
   .rdmaInitPeer, .rdmaConnectPeer, .rdmaRemoteSend, .rdmaRemoteRecv, .rdmaDestroyPeer,
   .rdmaWriteImm, .rdmaPostRecv, .rdmaPollRecv]

/-- The `switch` of `dmaplane_ioctl`: the case a command number selects. -/
def switchCase (cmd : Nat) : Option IoctlCmd := ioctlCmds.find? fun c => c.number == cmd

/-- No two commands have one number. -/
theorem switchCase_number (c : IoctlCmd) : switchCase c.number = some c := by
  cases c <;> decide +kernel

/-- The struct that the handler copies, for the commands that the client passes one to. -/
def IoctlCmd.record : IoctlCmd → UapiStruct
  | .createBuffer => uapiBufParams
  | .destroyBuffer => [(.bufId, .u32)]
  | .getMmapInfo => uapiMmapInfo
  | .setupRdma => uapiRdmaSetup
  | .registerMr => uapiMrParams
  | .deregisterMr => [(.mrId, .u32)]
  | .gpuPin => uapiGpuPinParams
  | .gpuUnpin => uapiGpuUnpinParams
  | .gpuRegisterMr => uapiGpuMrParams
  | .rdmaInitPeer | .rdmaConnectPeer => uapiPeerInfo
  | .rdmaWriteImm => uapiWriteImmParams
  | .rdmaPostRecv => uapiPostRecvParams
  | .rdmaPollRecv => uapiPollRecvParams
  | _ => []

/-! ## The client -/

/-- `_IOC` of the client. -/
def pyIoc (d t nr sz : Nat) : Nat := d <<< 30 ||| sz <<< 16 ||| t <<< 8 ||| nr

/-- `DMAPLANE_MAGIC`. -/
abbrev pyMagic : Nat := 0xE4

/-- The arguments of a call, under the names of the members they are for. -/
abbrev ClientArgs := UapiField → Value

/-- A method of `DmaplaneClient` that passes a buffer to `fcntl.ioctl`. -/
structure ClientMethod where
  /-- The command that the method is for. -/
  ioctl : IoctlCmd
  /-- The arguments of `_IOC`. -/
  dir : Nat
  nr : Nat
  sz : Nat
  fmt : List Item
  /-- The values for `struct.pack`; without them the buffer is `bytearray(sz)`. -/
  request : Option (ClientArgs → List Value)
  /-- What is read of the reply: the name it is returned under, and its place in the tuple. -/
  reply : List (UapiField × Nat)
  /-- The parameters of the method. -/
  params : List UapiField
  /-- The members that the method sets by itself. -/
  consts : List (UapiField × Value)

namespace ClientMethod

/-- The command number that is passed to `fcntl.ioctl`. -/
def cmd (m : ClientMethod) : Nat := pyIoc m.dir pyMagic m.nr m.sz

/-- The buffer that is passed to `fcntl.ioctl`; `none` is an error of `struct.pack`. -/
def buffer (m : ClientMethod) (a : ClientArgs) : Option (List Byte) :=
  match m.request with
  | some vals => pack m.fmt (vals a)
  | none => some (List.replicate m.sz 0)

end ClientMethod

def fmtBufParams : List Item := [.I, .I, .Q, .i, .i]

def fmtRdmaSetup : List Item := [.s 32, .I, .I, .I, .I, .I]

def fmtMrParams : List Item := [.I, .I, .I, .I, .I, .I, .Q]

def fmtMmapInfo : List Item := [.I, .I, .Q, .Q]

def fmtGpuPin : List Item := [.Q, .Q, .I, .i, .I, .I, .Q]

def fmtGpuUnpin : List Item := [.I]

def fmtGpuMr : List Item := [.I, .I, .I, .I]

def fmtWriteImm : List Item := [.I, .I, .Q, .Q, .I, .I, .I, .I, .Q]

def fmtPostRecv : List Item := [.I, .I, .I, .I]

def fmtPollRecv : List Item := [.I, .I, .I, .I, .I, .I, .Q]

def fmtPeerInfo : List Item := [.I, .H, .H, .s 16, .s 6, .s 2, .I, .I]

def createBufferMethod : ClientMethod where
  ioctl := .createBuffer
  dir := 3
  nr := 0x05
  sz := size fmtBufParams
  fmt := fmtBufParams
  request := some fun a => [.int 0, a .allocType, a .size, a .numaNode, .int 0]
  reply := [(.bufId, 0), (.actualNumaNode, 4)]
  params := [.size, .numaNode, .allocType]
  consts := []

def destroyBufferMethod : ClientMethod where
  ioctl := .destroyBuffer
  dir := 1
  nr := 0x06
  sz := 4
  fmt := [.I]
  request := some fun a => [a .bufId]
  reply := []
  params := [.bufId]
  consts := []

def getMmapInfoMethod : ClientMethod where
  ioctl := .getMmapInfo
  dir := 3
  nr := 0x08
  sz := size fmtMmapInfo
  fmt := fmtMmapInfo
  request := some fun a => [a .bufId, .int 0, .int 0, .int 0]
  reply := [(.mmapOffset, 2), (.mmapSize, 3)]
  params := [.bufId]
  consts := []

/-- The argument `ib_dev` is the encoded name; `dev_bytes` cuts or fills it as the format does. -/
def setupRdmaMethod : ClientMethod where
  ioctl := .setupRdma
  dir := 3
  nr := 0x10
  sz := size fmtRdmaSetup
  fmt := fmtRdmaSetup
  request := some fun a =>
    [(Item.s 32).cut (a .ibDevName), .int 1, a .cqDepth, a .maxSendWr, a .maxRecvWr, .int 0]
  reply := []
  params := [.ibDevName, .cqDepth, .maxSendWr, .maxRecvWr]
  consts := [(.port, .int 1)]

def registerMrMethod : ClientMethod where
  ioctl := .registerMr
  dir := 3
  nr := 0x20
  sz := size fmtMrParams
  fmt := fmtMrParams
  request := some fun a => [.int 0, a .bufId, a .accessFlags, .int 0, .int 0, .int 0, .int 0]
  reply := [(.mrId, 0), (.bufId, 1), (.accessFlags, 2), (.lkey, 3), (.rkey, 4), (.addr, 6)]
  params := [.bufId, .accessFlags]
  consts := []

def deregisterMrMethod : ClientMethod where
  ioctl := .deregisterMr
  dir := 1
  nr := 0x21
  sz := 4
  fmt := [.I]
  request := some fun a => [a .mrId]
  reply := []
  params := [.mrId]
  consts := []

def gpuPinMethod : ClientMethod where
  ioctl := .gpuPin
  dir := 3
  nr := 0x60
  sz := size fmtGpuPin
  fmt := fmtGpuPin
  request := some fun a => [a .gpuVa, a .size, .int 0, .int 0, .int 0, .int 0, .int 0]
  reply := [(.gpuVa, 0), (.size, 1), (.handle, 2), (.gpuNumaNode, 3), (.numPages, 4),
    (.bar1Consumed, 6)]
  params := [.gpuVa, .size]
  consts := []

def gpuUnpinMethod : ClientMethod where
  ioctl := .gpuUnpin
  dir := 1
  nr := 0x61
  sz := size fmtGpuUnpin
  fmt := fmtGpuUnpin
  request := some fun a => [a .handle]
  reply := []
  params := [.handle]
  consts := []

def gpuRegisterMrMethod : ClientMethod where
  ioctl := .gpuRegisterMr
  dir := 3
  nr := 0x65
  sz := size fmtGpuMr
  fmt := fmtGpuMr
  request := some fun a => [a .gpuHandle, .int 0, .int 0, .int 0]
  reply := [(.gpuHandle, 0), (.mrId, 1), (.lkey, 2), (.rkey, 3)]
  params := [.gpuHandle]
  consts := []

def writeImmMethod : ClientMethod where
  ioctl := .rdmaWriteImm
  dir := 3
  nr := 0x80
  sz := size fmtWriteImm
  fmt := fmtWriteImm
  request := some fun a => [a .localMrId, a .length, a .localOffset, a .remoteAddr, a .remoteRkey,
    a .immData, a .usePeerQp, .int 0, .int 0]
  reply := [(.status, 7), (.elapsedNs, 8)]
  params := [.localMrId, .localOffset, .remoteAddr, .remoteRkey, .length, .immData, .usePeerQp]
  consts := []

def postRecvMethod : ClientMethod where
  ioctl := .rdmaPostRecv
  dir := 3
  nr := 0x81
  sz := size fmtPostRecv
  fmt := fmtPostRecv
  request := some fun a => [a .mrId, a .size, a .usePeerQp, .int 0]
  reply := [(.status, 3)]
  params := [.mrId, .size, .usePeerQp]
  consts := []

def pollRecvMethod : ClientMethod where
  ioctl := .rdmaPollRecv
  dir := 3
  nr := 0x82
  sz := size fmtPollRecv
  fmt := fmtPollRecv
  request := some fun a => [a .usePeerQp, a .timeoutMs, .int 0, .int 0, .int 0, .int 0, .int 0]
  reply := [(.status, 2), (.wcFlags, 3), (.immData, 4), (.byteLen, 5), (.elapsedNs, 6)]
  params := [.usePeerQp, .timeoutMs]
  consts := []

def initPeerMethod : ClientMethod where
  ioctl := .rdmaInitPeer
  dir := 2
  nr := 0x90
  sz := size fmtPeerInfo
  fmt := fmtPeerInfo
  request := none
  reply := [(.qpNum, 0), (.lid, 1), (.gid, 3), (.mac, 4)]
  params := []
  consts := []

def connectPeerMethod : ClientMethod where
  ioctl := .rdmaConnectPeer
  dir := 1
  nr := 0x91
  sz := size fmtPeerInfo
  fmt := fmtPeerInfo
  request := some fun a => [a .qpNum, a .lid, .int 0, a .gid, a .mac, .bytes [0, 0], .int 0, .int 0]
  reply := []
  params := [.qpNum, .lid, .gid, .mac]
  consts := []

/-- `teardown_rdma` and `destroy_peer` pass no buffer. -/
def clientMethods : List ClientMethod :=
  [createBufferMethod, destroyBufferMethod, getMmapInfoMethod, setupRdmaMethod, registerMrMethod,
   deregisterMrMethod, gpuPinMethod, gpuUnpinMethod, gpuRegisterMrMethod, writeImmMethod,
   postRecvMethod, pollRecvMethod, initPeerMethod, connectPeerMethod]

/-! ## The agreement -/

/-- All bytes of the member are zero. -/
def zeroOf : MType → Value
  | .u8s n => .bytes (List.replicate n 0)
  | _ => .int 0

namespace ClientMethod

/-- What a member has to be: the argument of its name, what the method sets it to, or zero. -/
def given (m : ClientMethod) (a : ClientArgs) (p : UapiField × MType) : Value :=
  if p.1 ∈ m.params then a p.1 else ((m.consts.find? (·.1 = p.1)).map Prod.snd).getD (zeroOf p.2)

/-- What is compared without looking at the arguments. -/
structure Matches (m : ClientMethod) : Prop where
  cmd : m.cmd = m.ioctl.number
  describes : Describes m.fmt m.ioctl.record
  names : (m.ioctl.record.map Prod.fst).Nodup
  reply : ∀ r ∈ m.reply, (m.ioctl.record.map Prod.fst)[r.2]? = some r.1

/-- A call of the method and the driver mean the same. -/
structure Agrees (m : ClientMethod) : Prop where
  /-- The driver selects the command. -/
  dispatched : switchCase m.cmd = some m.ioctl
  /-- The struct that the driver reads has what the caller gave in the members of these names. -/
  sent : ∀ a bs, m.buffer a = some bs → bs.length = m.ioctl.record.sizeof ∧
    ∀ p ∈ m.ioctl.record, m.ioctl.record.value bs p.1 = some (p.2.item.cut (m.given a p))
  /-- Arguments that fit their members are sent. -/
  accepted : ∀ a, (∀ p ∈ m.ioctl.record, p.1 ∈ m.params → p.2.item.Fits (a p.1)) →
    ∃ bs, m.buffer a = some bs
  /-- What the driver leaves in the members is returned under their names. -/
  received : ∀ bs, bs.length = m.ioctl.record.sizeof → ∃ fields, unpack m.fmt bs = some fields ∧
    ∀ r ∈ m.reply, fields[r.2]? = m.ioctl.record.value bs r.1

instance (m : ClientMethod) : Decidable m.Matches :=
  decidable_of_iff (m.cmd = m.ioctl.number ∧ Describes m.fmt m.ioctl.record ∧
      (m.ioctl.record.map Prod.fst).Nodup ∧
      ∀ r ∈ m.reply, (m.ioctl.record.map Prod.fst)[r.2]? = some r.1)
    ⟨fun h => ⟨h.1, h.2.1, h.2.2.1, h.2.2.2⟩, fun h => ⟨h.cmd, h.describes, h.names, h.reply⟩⟩

theorem zipWith_cut {m : ClientMethod} (h : m.Matches) (a : ClientArgs) :
    List.zipWith Item.cut m.fmt (m.ioctl.record.map (m.given a)) =
      m.ioctl.record.map fun p => p.2.item.cut (m.given a p) := by
  rw [h.describes.items, List.zipWith_map, List.zipWith_self]

/-- The numbers, the layouts and the order of the values are all that has to be compared. -/
theorem agrees_of {m : ClientMethod} (h : m.Matches)
    (hb : ∀ a, m.buffer a = pack m.fmt (m.ioctl.record.map (m.given a)))
    (hfix : ∀ a, ∀ p ∈ m.ioctl.record, p.1 ∉ m.params → p.2.item.Fits (m.given a p)) :
    m.Agrees where
  dispatched := h.cmd ▸ switchCase_number m.ioctl
  sent a bs hbs := by
    obtain ⟨hlen, hmem⟩ := members_pack h.describes ((hb a).symm.trans hbs)
    rw [zipWith_cut h] at hmem
    exact ⟨hlen, fun p hp => value_of_map h.names hmem hp⟩
  accepted a ha := by
    have hfits : List.Forall₂ Item.Fits m.fmt (m.ioctl.record.map (m.given a)) := by
      rw [h.describes.items, List.forall₂_map_left_iff, List.forall₂_map_right_iff,
        List.forall₂_same]
      intro p hp
      by_cases hin : p.1 ∈ m.params
      · have hg : m.given a p = a p.1 := if_pos hin
        exact hg ▸ ha p hp hin
      · exact hfix a p hp hin
    obtain ⟨bs, hpack, -, -⟩ := unpack_pack hfits
    exact ⟨bs, (hb a).trans hpack⟩
  received bs hbs := by
    refine ⟨_, unpack_members h.describes hbs, fun r hr => ?_⟩
    exact (value_at h.names (h.reply r hr)).symm

/-! ## Every method -/

theorem methods_match : ∀ m ∈ clientMethods, m.Matches := by
  decide +kernel

/-- `dev_bytes` is what the format makes of the name. -/
theorem pack_dev_bytes (n : Nat) (fmt : List Item) (v : Value) (vs : List Value) :
    pack (.s n :: fmt) ((Item.s n).cut v :: vs) = pack (.s n :: fmt) (v :: vs) := by
  rw [pack_cons, pack_cons, Item.pack_cut]

/-- The values are listed in the order of the members. -/
theorem buffer_given : ∀ m ∈ clientMethods, ∀ a,
    m.buffer a = pack m.fmt (m.ioctl.record.map (m.given a)) := by
  intro m hm a
  simp only [clientMethods, List.mem_cons, List.not_mem_nil, or_false] at hm
  rcases hm with rfl | rfl | rfl | rfl | rfl | rfl | rfl | rfl | rfl | rfl | rfl | rfl | rfl | rfl
  case inr.inr.inr.inl => exact pack_dev_bytes 32 _ _ _
  all_goals rfl

theorem zeroOf_fits (t : MType) : t.item.Fits (zeroOf t) := by
  cases t with
  | u8s n => exact congrArg Code.s List.length_replicate.symm
  | u16 => exact ⟨.inl rfl, by decide⟩
  | u32 => exact ⟨.inr (.inl rfl), by decide⟩
  | s32 => exact ⟨0, rfl, by decide⟩
  | u64 => exact ⟨.inr (.inr rfl), by decide⟩

/-- The only constant is the port. -/
theorem consts_typed : ∀ m ∈ clientMethods, ∀ q ∈ m.consts, ∀ p ∈ m.ioctl.record, q.1 = p.1 →
    p.2 = .u32 ∧ q.2 = .int 1 := by
  decide +kernel

theorem fixed_fit : ∀ m ∈ clientMethods, ∀ a, ∀ p ∈ m.ioctl.record, p.1 ∉ m.params →
    p.2.item.Fits (m.given a p) := by
  intro m hm a p hp hin
  rw [given, if_neg hin]
  cases hf : m.consts.find? (·.1 = p.1) with
  | none => exact zeroOf_fits p.2
  | some q =>
    have hq := List.mem_of_find?_eq_some hf
    have hname : q.1 = p.1 := by simpa using List.find?_some hf
    obtain ⟨ht, hv⟩ := consts_typed m hm q hq p hp hname
    rw [ht, Option.map_some, Option.getD_some, hv]
    exact ⟨.inr (.inl rfl), by decide⟩

end ClientMethod

/-- Every call of the client reaches the case of the driver's `switch` it is meant for, with the
struct filled as its parameters say, and what the driver writes is returned under its names. -/
theorem client_agrees (m : ClientMethod) (hm : m ∈ clientMethods) : m.Agrees :=
  ClientMethod.agrees_of (ClientMethod.methods_match m hm) (ClientMethod.buffer_given m hm)
    (ClientMethod.fixed_fit m hm)

/-- A page on any node. -/
def anyNodeArgs : ClientArgs
  | .size => .int 4096
  | .allocType => .int 1
  | .numaNode => .int (-1)
  | _ => .int 0

/-- The negative node arrives, in the 24 bytes of the struct. -/
theorem client_agrees_any_node : ∃ bs, createBufferMethod.buffer anyNodeArgs = some bs ∧
    bs.length = 24 ∧ uapiBufParams.value bs .numaNode = some (.int (-1)) := by
  have h := client_agrees createBufferMethod List.mem_cons_self
  obtain ⟨bs, hbs⟩ := h.accepted anyNodeArgs (by
    intro p hp hin
    simp only [createBufferMethod, List.mem_cons, List.not_mem_nil, or_false] at hin
    simp only [createBufferMethod, IoctlCmd.record, uapiBufParams, List.mem_cons,
      List.not_mem_nil, or_false] at hp
    rcases hp with rfl | rfl | rfl | rfl | rfl
    · exact absurd hin (by decide)
    · exact ⟨.inr (.inl rfl), by decide⟩
    · exact ⟨.inr (.inr rfl), by decide⟩
    · exact ⟨-1, rfl, by decide⟩
    · exact absurd hin (by decide))
  obtain ⟨hlen, hmem⟩ := h.sent anyNodeArgs bs hbs
  exact ⟨bs, hbs, hlen, hmem (.numaNode, .s32) (by decide)⟩

end Dmaplane
