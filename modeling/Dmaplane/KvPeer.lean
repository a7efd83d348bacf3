import Dmaplane.Lib.System
import Dmaplane.KvBitmap

/-!
# Dmaplane.KvPeer

The KVCache transfer between two machines: `run_peer` of `examples/kvcache/kvcache_sender.c` and
of `kvcache_receiver.c`, from the wait for the ready byte on, as a transition system.

The parties share two channels. RDMA writes with immediate are delivered in order, each into one
posted receive; the sender waits for the completion of each before it goes on. In the other
direction the receiver sends single bytes over TCP: one "ready", one credit a chunk, one "done".
All of them have the value 1, so the bytes carry their meaning only in the model; `reads` records
as what the sender has read each of them.
-/

namespace Dmaplane

structure KvConfig extends KvGrid where
  creditWindow : Nat
  iterations : Nat

/-- What a TCP byte was sent as. On the wire each is the byte 1. -/
inductive TcpByte where
  | ready | credit | done
  deriving DecidableEq, Repr

/-- Where the sender is; `i` is the chunk of the two send loops. -/
inductive SenderPc where
  | waitReady
  /-- `if (ct.credits <= 0)`. -/
  | checkCredits (i : Nat)
  /-- The blocking `recv` of one byte in `tcp_recv_credits_blocking`. -/
  | stall (i : Nat)
  /-- The non-blocking read that follows it. -/
  | stallDrain (i : Nat)
  /-- `tcp_recv_credits_nonblock`. -/
  | drain (i : Nat)
  | write (i : Nat)
  /-- In `dmaplane_write_imm`: the write is posted, its completion not yet polled. -/
  | writeWait (i : Nat)
  | sentinel
  | sentinelWait
  /-- `tcp_recv_all(tcp_fd, &done, 1)`. -/
  | waitDone
  | finished
  /-- A call failed: `goto out`. -/
  | failed
  deriving DecidableEq, Repr

inductive ReceiverPc where
  /-- `n` receives are pre-posted. -/
  | prePost (n : Nat)
  | sendReady
  /-- `while (!bitmap_all_complete(&bm))`. -/
  | loopCheck
  | poll
  | replenish
  | sendCredit
  /-- The poll that takes the sentinel's completion, if there is one. -/
  | drain
  | sendDone
  | closed
  | failed
  deriving DecidableEq, Repr

structure KvSt where
  sender : SenderPc
  credits : Int
  iter : Nat
  receiver : ReceiverPc
  bm : LayerBitmap
  recvPosted : Nat
  /-- Posted and not yet delivered, then delivered and not yet polled. -/
  inflight : List (BitVec 32)
  cq : List (BitVec 32)
  /-- Sent and not yet delivered, then delivered and not yet read. -/
  wire : List TcpByte
  sock : List TcpByte
  /-- What each byte was read as, and what it had been sent as. -/
  reads : List (TcpByte × TcpByte)

inductive KvAct where
  | sender
  | senderFail
  | receiver
  /-- The 1 s poll for the sentinel's completion finds none. -/
  | drainTimeout
  | receiverFail
  | deliverWrite
  | deliverByte
  deriving DecidableEq, Repr

/-- Reads the first `n` bytes of the socket as `x`. -/
def KvSt.readBytes (s : KvSt) (x : TcpByte) (n : Nat) : KvSt :=
  { s with
    sock := s.sock.drop n
    reads := s.reads ++ (s.sock.take n).map fun b => (x, b) }

/-- What `recv(buf, 64, MSG_DONTWAIT)` takes. -/
def KvSt.available (s : KvSt) : Nat := min 64 s.sock.length

namespace KvConfig

variable (cfg : KvConfig)

/-- The head of the send loops: the next chunk, or the sentinel after the last one. -/
def nextChunk (i : Nat) : SenderPc := if i < cfg.total then .checkCredits i else .sentinel

/-- The head of the iteration loop, with `credit_init`. -/
def startIter (s : KvSt) : KvSt :=
  if s.iter < cfg.iterations then
    { s with credits := cfg.creditWindow, sender := cfg.nextChunk 0 }
  else { s with sender := .finished }

/-- The receives posted before the ready byte is sent. -/
def initialRecvs : Nat := min cfg.creditWindow (cfg.total + 1)

/-- The sender's next step; `none` while it blocks and after its end. -/
def senderStep (s : KvSt) : Option KvSt :=
  match s.sender with
  | .waitReady => if s.sock = [] then none else some (cfg.startIter (s.readBytes .ready 1))
  | .checkCredits i => some { s with sender := if s.credits ≤ 0 then .stall i else .drain i }
  | .stall i =>
    if s.sock = [] then none
    else some { s.readBytes .credit 1 with sender := .stallDrain i, credits := s.credits + 1 }
  | .stallDrain i =>
    let n := s.available
    some { s.readBytes .credit n with sender := .drain i, credits := s.credits + n }
  | .drain i =>
    let n := s.available
    some { s.readBytes .credit n with sender := .write i, credits := s.credits + n }
  | .write i => some { s with sender := .writeWait i, inflight := s.inflight ++ [cfg.imm i] }
  | .writeWait i =>
    if s.inflight = [] then
      some { s with sender := cfg.nextChunk (i + 1), credits := s.credits - 1 }
    else none
  | .sentinel => some { s with sender := .sentinelWait, inflight := s.inflight ++ [kvSentinel] }
  | .sentinelWait => if s.inflight = [] then some { s with sender := .waitDone } else none
  | .waitDone =>
    if s.sock = [] then none
    else some (cfg.startIter { s.readBytes .done 1 with iter := s.iter + 1 })
  | .finished | .failed => none

/-- The receiver's next step. -/
def receiverStep (s : KvSt) : Option KvSt :=
  match s.receiver with
  | .prePost n =>
    if n < cfg.initialRecvs then
      some { s with receiver := .prePost (n + 1), recvPosted := s.recvPosted + 1 }
    else some { s with receiver := .sendReady }
  | .sendReady => some { s with receiver := .loopCheck, wire := s.wire ++ [.ready] }
  | .loopCheck =>
    some { s with receiver := if bitmapAllComplete s.bm then .drain else .poll }
  | .poll =>
    match s.cq with
    | [] => none
    | imm :: rest =>
      if imm = kvSentinel then some { s with receiver := .drain, cq := rest }
      else
        some { s with
          receiver := .replenish
          cq := rest
          bm := bitmapSet s.bm (immLayer imm).toNat (immChunk imm).toNat }
  | .replenish => some { s with receiver := .sendCredit, recvPosted := s.recvPosted + 1 }
  | .sendCredit => some { s with receiver := .loopCheck, wire := s.wire ++ [.credit] }
  | .drain =>
    match s.cq with
    | [] => none
    | _ :: rest => some { s with receiver := .sendDone, cq := rest }
  | .sendDone => some { s with receiver := .closed, wire := s.wire ++ [.done] }
  | .closed | .failed => none

def kvStep (s : KvSt) : KvAct → Option KvSt
  | .sender => cfg.senderStep s
  | .senderFail => if s.sender = .finished then none else some { s with sender := .failed }
  | .receiver => cfg.receiverStep s
  | .drainTimeout =>
    if s.receiver = .drain then some { s with receiver := .sendDone } else none
  | .receiverFail => if s.receiver = .closed then none else some { s with receiver := .failed }
  | .deliverWrite =>
    match s.inflight with
    | [] => none
    | imm :: rest =>
      if 0 < s.recvPosted then
        some { s with recvPosted := s.recvPosted - 1, inflight := rest, cq := s.cq ++ [imm] }
      else none
  | .deliverByte =>
    match s.wire with
    | [] => none
    | b :: rest => some { s with wire := rest, sock := s.sock ++ [b] }

/-- Both parties have connected their QPs; nothing is posted or sent yet. -/
def kvSys : Transition.Sys KvSt KvAct where
  init :=
    { sender := .waitReady, credits := 0, iter := 0, receiver := .prePost 0
      bm := bitmapInit cfg.layers cfg.chunksPerLayer, recvPosted := 0
      inflight := [], cq := [], wire := [], sock := [], reads := [] }
  step := cfg.kvStep

end KvConfig

/-- All bytes the receiver has sent, in order. -/
def KvSt.bytesSent (s : KvSt) : List TcpByte := s.reads.map (·.2) ++ s.sock ++ s.wire

/-- How often the sender has passed its wait for the done byte. -/
def KvSt.passes (s : KvSt) : Nat := s.reads.countP (·.1 = .done)

/-- What the acknowledgement promises: the sender passes its wait only when the done byte has
been sent and every chunk been seen, it reads every byte as what it was sent as, and when it
passes, no byte is left over. -/
structure Acknowledged (s : KvSt) : Prop where
  sent : s.passes ≤ s.bytesSent.count .done
  seen : 0 < s.passes → bitmapAllComplete s.bm = true
  matched : ∀ x ∈ s.reads, x.1 = x.2
  clean : 0 < s.passes → s.receiver = .closed ∧ s.wire = [] ∧ s.sock = []

end Dmaplane
