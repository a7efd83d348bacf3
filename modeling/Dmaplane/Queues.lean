import Dmaplane.FlowSys

/-!
# Dmaplane.Queues

The queues of the loopback pair under STREAMING_BENCH, QDEPTH_SWEEP and SUSTAINED_STREAM: the send
queue of QP-A, the receive queue of QP-B, CQ-A and CQ-B, with the depths chosen at SETUP_RDMA.

`runStep` is one step of a call, on the queues and the flow record. A post is accepted whatever
the queue holds, so that what is posted is the choice of the loops alone; it may also be refused.
The verbs layer delivers, acknowledges and fails work requests in between, in any order. What a
call validates about its MR is left out.
-/

namespace Dmaplane

/-- The numbers of `dmaplane_rdma_setup` the queues are created with. -/
structure SetupParams where
  cqDepth : UInt32
  maxSendWr : UInt32
  maxRecvWr : UInt32
  deriving DecidableEq, Repr

structure QueueCaps where
  cqDepth : Nat
  maxSendWr : Nat
  maxRecvWr : Nat
  deriving DecidableEq, Repr

/-- As `rdma_engine_setup` passes them on; zero is the default. -/
def setupCaps (p : SetupParams) : QueueCaps :=
  { cqDepth := if p.cqDepth = 0 then 128 else p.cqDepth.toNat
    maxSendWr := if p.maxSendWr = 0 then 64 else p.maxSendWr.toNat
    maxRecvWr := if p.maxRecvWr = 0 then 64 else p.maxRecvWr.toNat }

structure StreamParams where
  queueDepth : UInt32
  iterations : UInt32
  deriving DecidableEq, Repr

structure SweepParams where
  minQdepth : UInt32
  maxQdepth : UInt32
  step : UInt32
  iterations : UInt32
  deriving DecidableEq, Repr

/-- The checks of `dmaplane_qdepth_sweep`. -/
def sweepRejected (p : SweepParams) : Bool :=
  p.minQdepth < 1 || p.maxQdepth > 64 || p.minQdepth > p.maxQdepth || p.step < 1 ||
    p.iterations = 0

/-- `nr_points`. -/
def nrPoints (p : SweepParams) : Nat :=
  let n := (p.maxQdepth.toNat - p.minQdepth.toNat) / p.step.toNat + 1
  if n > 32 then 32 else n

/-- Which loop a run is in. -/
inductive RunKind where
  | streaming
  | sweep (p : SweepParams) (point : Nat)
  | sustained
  deriving DecidableEq, Repr

/-- The locals of a run: of `benchmark_streaming`, of a point of the sweep or of
`dmaplane_sustained_stream`, which has no `iterations`. -/
structure Run where
  kind : RunKind
  qdepth : Nat
  iterations : Nat
  prePost : Nat := 0
  sent : Nat := 0
  completed : Nat := 0
  recvPosted : Nat := 0
  recvDrained : Nat := 0
  outstanding : Nat := 0
  deriving DecidableEq, Repr

/-- `x++` on an `unsigned int`. -/
def incU32 (n : Nat) : Nat := (n + 1) % 2 ^ 32

def streamRun (p : StreamParams) : Run :=
  { kind := .streaming
    qdepth := if p.queueDepth = 0 then 16 else p.queueDepth.toNat
    iterations := p.iterations.toNat }

def sweepRun (p : SweepParams) (point : Nat) : Run :=
  { kind := .sweep p point
    qdepth := (p.minQdepth.toNat + point * p.step.toNat) % 2 ^ 32
    iterations := p.iterations.toNat }

def sustainedRun (q : Nat) : Run := { kind := .sustained, qdepth := q, iterations := 0 }

/-- `pre_post`. -/
def prePostCount (flow : FlowCtl) (r : Run) : Nat :=
  let n := r.qdepth * 2 % 2 ^ 32
  match r.kind with
  | .sustained => if n > flow.maxCredits then flow.maxCredits else n
  | _ => if n > r.iterations then r.iterations else n

/-- Where a thread is. -/
inductive QueuePc where
  | idle
  /-- Storing a flow configuration; then the sustained run of depth `q`, if there is one. -/
  | writing (ws : List FlowWrite) (q : Option Nat)
  | start (q : Nat)
  | alloc (q : Nat)
  | resetCredits (q : Nat)
  | resetPaused (q : Nat)
  | begin (r : Run)
  | flushA (r : Run)
  | flushB (r : Run)
  | prePost (r : Run)
  /-- `while (completed < params->iterations)`. -/
  | head (r : Run)
  | post (r : Run)
  | poll (r : Run)
  | drainB (r : Run)
  | replenish (r : Run)
  /-- `while (recv_drained < completed)`. -/
  | recvDrain (r : Run)
  /-- `while (!ktime_after(ktime_get(), deadline))`, and the body of the sustained loop. -/
  | loop (r : Run)
  | decide (r : Run) (c : Option Int)
  | checked (r : Run) (b : Bool)
  | posted (r : Run)
  | pollA (r : Run)
  | credit (r : Run)
  | replenishRecv (r : Run)
  | drainRecv (r : Run)
  /-- The loop after `done:` of the sustained run. -/
  | drain (r : Run)
  | drainCredit (r : Run)
  | drainRest (r : Run)
  /-- The final flushes. -/
  | doneA
  | doneB
  deriving DecidableEq, Repr

/-- The queues and the flow. A send of QP-A is uncompleted until its CQE; a CQE says if its work
request succeeded. -/
structure QueueDev where
  initialized : Bool
  caps : QueueCaps
  flow : FlowCtl
  /-- Sends posted on QP-A, not yet at QP-B. -/
  undelivered : Nat
  /-- Sends that have consumed a receive of QP-B and are not completed. -/
  delivered : Nat
  /-- Receives posted on QP-B and not consumed. -/
  rq : Nat
  cqA : List Bool
  cqB : List Bool
  deriving DecidableEq, Repr

/-! ## Steps of a run -/

/-- Where a streaming run or a point of the sweep goes on an error. -/
def benchFail (r : Run) : QueuePc :=
  match r.kind with
  | .streaming => .doneA
  | _ => .idle

/-- Where it goes when the point is done. -/
def benchEnd (r : Run) : QueuePc :=
  match r.kind with
  | .sweep p point => if point + 1 < nrPoints p then .begin (sweepRun p (point + 1)) else .idle
  | _ => .doneA

/-- The loop that follows the pre-posted receives. -/
def runLoop (r : Run) : QueuePc :=
  match r.kind with
  | .sustained => .loop r
  | _ => .head r

def QueueDev.postSend (d : QueueDev) : QueueDev := { d with undelivered := d.undelivered + 1 }

def QueueDev.postRecv (d : QueueDev) : QueueDev := { d with rq := d.rq + 1 }

def QueueDev.setFlow (d : QueueDev) (flow : FlowCtl) : QueueDev := { d with flow := flow }

/-- Polls CQ-A. -/
def QueueDev.popA (d : QueueDev) : Option (Bool × QueueDev) :=
  match d.cqA with
  | [] => none
  | x :: rest => some (x, { d with cqA := rest })

/-- Polls CQ-B. -/
def QueueDev.popB (d : QueueDev) : Option (Bool × QueueDev) :=
  match d.cqB with
  | [] => none
  | x :: rest => some (x, { d with cqB := rest })

/-- A step of a call at `pc`; the verbs calls in it succeed. -/
def runStep (d : QueueDev) : QueuePc → Option (QueueDev × QueuePc)
  | .idle => none
  | .writing (w :: ws) q => some (d.setFlow (d.flow.write w), .writing ws q)
  | .writing [] none => some (d, .idle)
  | .writing [] (some q) => some (d, .alloc q)
  | .start q =>
    some (d, if d.flow.configured then .alloc q else .writing (autoConfigureWrites q) (some q))
  | .alloc q => some (d, .resetCredits q)
  | .resetCredits q =>
    some (d.setFlow { d.flow with credits := d.flow.maxCredits }, .resetPaused q)
  | .resetPaused q => some (d.setFlow { d.flow with paused := false }, .begin (sustainedRun q))
  | .begin r => some (d, .flushA r)
  | .flushA r =>
    match d.popA with
    | none => some (d, .flushB r)
    | some (_, d') => some (d', .flushA r)
  | .flushB r =>
    match d.popB with
    | none => some (d, .prePost { r with prePost := prePostCount d.flow r })
    | some (_, d') => some (d', .flushB r)
  | .prePost r =>
    if r.recvPosted < r.prePost then
      some (d.postRecv, .prePost { r with recvPosted := incU32 r.recvPosted })
    else some (d, runLoop r)
  | .head r => some (d, if r.completed < r.iterations then .post r else .recvDrain r)
  | .post r =>
    if r.sent < r.iterations ∧ r.outstanding < r.qdepth then
      some (d.postSend,
        .post { r with sent := incU32 r.sent, outstanding := incU32 r.outstanding })
    else some (d, .poll r)
  | .poll r =>
    match d.popA with
    | none => none
    | some (true, d') =>
      some (d', .drainB { r with outstanding := decU32 r.outstanding
                                 completed := incU32 r.completed })
    | some (false, d') => some (d', benchFail r)
  | .drainB r =>
    match d.popB with
    | none => some (d, .replenish r)
    | some (ok, d') =>
      some (d', .drainB { r with
        recvDrained := if ok then incU32 r.recvDrained else r.recvDrained })
  | .replenish r =>
    if r.recvPosted < r.iterations then
      some (d.postRecv, .head { r with recvPosted := incU32 r.recvPosted })
    else some (d, .head r)
  | .recvDrain r =>
    if r.recvDrained < r.completed then
      match d.popB with
      | none => none
      | some (true, d') => some (d', .recvDrain { r with recvDrained := incU32 r.recvDrained })
      | some (false, d') => some (d', benchEnd r)
    else some (d, benchEnd r)
  | .loop r => some (d, .decide r (flowRead d.flow))
  | .decide r c => some (d.setFlow (flowDecide d.flow c).2, .checked r (flowDecide d.flow c).1)
  | .checked r b =>
    if b ∧ r.outstanding < r.qdepth then some (d.postSend, .posted r) else some (d, .pollA r)
  | .posted r =>
    some (d.setFlow (flowOnSend d.flow),
      .pollA { r with sent := incU32 r.sent, outstanding := incU32 r.outstanding })
  | .pollA r =>
    match d.popA with
    | none => some (d, .drainRecv r)
    | some (true, d') =>
      some (d', .credit { r with completed := incU32 r.completed
                                 outstanding := decU32 r.outstanding })
    | some (false, d') => some (d', .drain r)
  | .credit r => some (d.setFlow (flowOnCompletion d.flow), .replenishRecv r)
  | .replenishRecv r =>
    if r.recvPosted < (r.sent + r.qdepth) % 2 ^ 32 then
      some (d.postRecv, .drainRecv { r with recvPosted := incU32 r.recvPosted })
    else some (d, .drainRecv r)
  | .drainRecv r =>
    match d.popB with
    | none => some (d, .loop r)
    | some (ok, d') =>
      some (d', .drainRecv { r with
        recvDrained := if ok then incU32 r.recvDrained else r.recvDrained })
  | .drain r =>
    if r.outstanding = 0 then some (d, .doneA)
    else
      match d.popA with
      | none => some (d, .drainRest r)
      | some (true, d') => some (d', .drainCredit { r with outstanding := decU32 r.outstanding })
      | some (false, d') => some (d', .drainRest { r with outstanding := decU32 r.outstanding })
  | .drainCredit r => some (d.setFlow (flowOnCompletion d.flow), .drainRest r)
  | .drainRest r =>
    match d.popB with
    | none => some (d, .drain r)
    | some (_, d') => some (d', .drainRest { r with recvDrained := incU32 r.recvDrained })
  | .doneA =>
    match d.popA with
    | none => some (d, .doneB)
    | some (_, d') => some (d', .doneA)
  | .doneB =>
    match d.popB with
    | none => some (d, .idle)
    | some (_, d') => some (d', .doneB)

/-- Where a call goes if the allocation, the post or the poll at `pc` fails. -/
def runFail (flow : FlowCtl) : QueuePc → Option QueuePc
  | .alloc _ => some .idle
  | .flushA r => some (.flushB r)
  | .flushB r => some (.prePost { r with prePost := prePostCount flow r })
  | .prePost r =>
    if r.recvPosted < r.prePost then
      some (match r.kind with | .sustained => .idle | _ => benchFail r)
    else none
  | .post r =>
    if r.sent < r.iterations ∧ r.outstanding < r.qdepth then some (benchFail r) else none
  -- Neither a completion nor a timeout: the loop goes on.
  | .poll r => some (.head r)
  | .drainB r => some (.replenish r)
  | .replenish r =>
    if r.recvPosted < r.iterations then
      some (match r.kind with | .sweep _ _ => .head r | _ => .doneA)
    else none
  | .recvDrain r => if r.recvDrained < r.completed then some (benchEnd r) else none
  | .checked r b => if b ∧ r.outstanding < r.qdepth then some (.drain r) else none
  | .pollA r => some (.drain r)
  | .replenishRecv r =>
    if r.recvPosted < (r.sent + r.qdepth) % 2 ^ 32 then some (.drain r) else none
  | .drainRecv r => some (.loop r)
  | .drain r => if r.outstanding = 0 then none else some (.drainRest r)
  | .drainRest r => some (.drain r)
  | .doneA => some .doneB
  | .doneB => some .idle
  | _ => none

/-- Where a call goes if its deadline has passed at `pc`. -/
def runTimeout : QueuePc → Option QueuePc
  | .poll r => some (benchFail r)
  | .recvDrain r => if r.recvDrained < r.completed then some (benchEnd r) else none
  | .loop r => some (.drain r)
  | .drain _ => some .doneA
  | _ => none

/-- What the verbs layer does on its own. -/
inductive WireAct where
  /-- The oldest send consumes a receive of QP-B. -/
  | deliver
  /-- A delivered send completes. -/
  | ack
  | sendError (delivered : Bool)
  | recvError
  deriving DecidableEq, Repr

def wireStep (d : QueueDev) : WireAct → Option QueueDev
  | .deliver =>
    if 0 < d.undelivered ∧ 0 < d.rq then
      some { d with
        undelivered := d.undelivered - 1, delivered := d.delivered + 1
        rq := d.rq - 1, cqB := d.cqB ++ [true] }
    else none
  | .ack =>
    if 0 < d.delivered then
      some { d with delivered := d.delivered - 1, cqA := d.cqA ++ [true] }
    else none
  | .sendError true =>
    if 0 < d.delivered then
      some { d with delivered := d.delivered - 1, cqA := d.cqA ++ [false] }
    else none
  | .sendError false =>
    if 0 < d.undelivered then
      some { d with undelivered := d.undelivered - 1, cqA := d.cqA ++ [false] }
    else none
  | .recvError =>
    if 0 < d.rq then some { d with rq := d.rq - 1, cqB := d.cqB ++ [false] } else none

/-! ## The system -/

/-- The call at `pc` holds the read side of `rdma_sem`. -/
def QueuePc.reading : QueuePc → Bool
  | .idle | .writing _ none => false
  | _ => true

structure QueueSt (Tid : Type) where
  dev : QueueDev
  /-- The readers of `rdma_sem`. -/
  readers : Nat
  pc : Tid → QueuePc

inductive QueueAct (Tid : Type) where
  /-- A SETUP_RDMA that succeeds. -/
  | setup (p : SetupParams)
  | teardown
  | configureCall (t : Tid) (p : FlowParams)
  | streamCall (t : Tid) (p : StreamParams)
  | sweepCall (t : Tid) (p : SweepParams)
  | sustainedCall (t : Tid) (queueDepth : UInt32)
  | step (t : Tid)
  | fail (t : Tid)
  | timeout (t : Tid)
  | wire (w : WireAct)
  deriving DecidableEq, Repr

/-- No queue exists. -/
def noQueues (flow : FlowCtl) : QueueDev :=
  { initialized := false, caps := { cqDepth := 0, maxSendWr := 0, maxRecvWr := 0 }, flow := flow
    undelivered := 0, delivered := 0, rq := 0, cqA := [], cqB := [] }

variable {Tid : Type} [DecidableEq Tid]

/-- Thread `t` goes on at `pc'` with the queues `d'`. -/
def QueueSt.goto (s : QueueSt Tid) (t : Tid) (d' : QueueDev) (pc' : QueuePc) : QueueSt Tid :=
  { dev := d'
    readers := if (s.pc t).reading && !pc'.reading then s.readers - 1 else s.readers
    pc := Function.update s.pc t pc' }

/-- Thread `t` takes the read side of `rdma_sem` and goes to `pc'`, unless the call is rejected. -/
def QueueSt.enter (s : QueueSt Tid) (t : Tid) (rejected : Bool) (pc' : QueuePc) :
    Option (QueueSt Tid) :=
  if s.pc t = .idle then
    if !s.dev.initialized || rejected then some s
    else some { s with readers := s.readers + 1, pc := Function.update s.pc t pc' }
  else none

def queueStep (s : QueueSt Tid) : QueueAct Tid → Option (QueueSt Tid)
  | .setup p =>
    if s.readers = 0 ∧ s.dev.initialized = false then
      some { s with dev := { noQueues s.dev.flow with initialized := true, caps := setupCaps p } }
    else none
  | .teardown => if s.readers = 0 then some { s with dev := noQueues s.dev.flow } else none
  | .configureCall t p =>
    if s.pc t = .idle then
      match flowCheck p with
      | .ok () => some (s.goto t s.dev (.writing (configureWrites p) none))
      | .error _ => some s
    else none
  | .streamCall t p => s.enter t (p.iterations = 0) (.begin (streamRun p))
  | .sweepCall t p => s.enter t (sweepRejected p) (.begin (sweepRun p 0))
  | .sustainedCall t q => s.enter t (q = 0 || q > 64) (.start q.toNat)
  | .step t => (runStep s.dev (s.pc t)).map fun r => s.goto t r.1 r.2
  | .fail t => (runFail s.dev.flow (s.pc t)).map fun pc' => s.goto t s.dev pc'
  | .timeout t => (runTimeout (s.pc t)).map fun pc' => s.goto t s.dev pc'
  | .wire w => (wireStep s.dev w).map fun d' => { s with dev := d' }

def queueSys (Tid : Type) [DecidableEq Tid] : Transition.Sys (QueueSt Tid) (QueueAct Tid) where
  init := { dev := noQueues flowInit, readers := 0, pc := fun _ => .idle }
  step := queueStep

/-! ## Runs that fit -/

/-- The sends a run has out at most. -/
def window (flow : FlowCtl) (r : Run) : Nat :=
  match r.kind with
  | .sustained => min r.qdepth flow.highWatermark
  | _ => min r.qdepth r.iterations

/-- The sustained loop replenishes before it drains CQ-B, the others after. -/
def Run.slack (r : Run) : Nat :=
  match r.kind with
  | .sustained => 1
  | _ => 0

/-- `n` receives, posted or completed, fit the receive queue of QP-B and CQ-B. -/
def RecvFits (caps : QueueCaps) (slack n : Nat) : Prop :=
  n ≤ caps.maxRecvWr ∧ n + slack ≤ caps.cqDepth

/-- The run finds no send under way, and its window and its receives fit, with the receives left
from earlier runs. -/
structure RunFits (d : QueueDev) (r : Run) : Prop where
  idle : d.undelivered + d.delivered = 0
  send : window d.flow r ≤ d.caps.maxSendWr
  cq : window d.flow r ≤ d.caps.cqDepth
  recv : RecvFits d.caps r.slack (d.rq + prePostCount d.flow r)

/-- One call at a time; every run and every point of a sweep fits where it begins; a poll that is
to empty a CQ fails on an empty one only. -/
def FitsAt (s : QueueSt Tid) : QueueAct Tid → Prop
  | .configureCall _ _ | .streamCall _ _ | .sweepCall _ _ | .sustainedCall _ _ =>
    ∀ u, s.pc u = .idle
  | .step t =>
    match s.pc t with
    | .begin r => RunFits s.dev r
    | _ => True
  | .fail t =>
    match s.pc t with
    | .flushA _ => s.dev.cqA = []
    | .flushB _ | .drainB _ | .drainRecv _ => s.dev.cqB = []
    | _ => True
  | _ => True

end Dmaplane
