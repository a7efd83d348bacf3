import Dmaplane.Lib.Exits
import Dmaplane.Lib.Ring
import Dmaplane.FlowWatermarks
import Dmaplane.Histogram
import Dmaplane.QueueRuns

/-!
# Dmaplane.Sustained

`dmaplane_sustained_stream` of `driver/flow_control.c`, alone on the device.

A step is one iteration of the main loop or of the drain loop after `done:`. Its label holds what
the clock and the verbs layer answer in it, so that every clock and every schedule of completions
is a run. CQ-A has the completions of this run's sends and no others: those of earlier runs are
flushed before the first send. The counters of `dev->stats` that only add up over the runs are
left out.

* `sustainedBegin` — the call up to its main loop.
* `mainIteration`, `drainIteration`, `sustainedResults` — the rest.
* `sustained_invariant` — what one iteration keeps, the whole run does.
-/

namespace Dmaplane

open WrapRing Exits

/-- `ktime_t`, in ns. -/
abbrev Ktime := BitVec 64

/-- `ktime_after`, a signed comparison. -/
def ktimeAfter (t u : Ktime) : Bool := u.slt t

def ktimeAddMs (t : Ktime) (ms : BitVec 64) : Ktime := t + ms * 1000000

/-- `WINDOW_NS`. -/
abbrev windowNsMin : BitVec 64 := 1000000000

/-- `DRAIN_TIMEOUT_MS`. -/
abbrev drainTimeoutMs : BitVec 64 := 5000

/-- `TS_RING_SIZE`. -/
abbrev tsRingSize : Nat := 128

/-- What `struct dmaplane_sustained_params` asks for, but for the memory region. -/
structure SustainedParams where
  msgSize : UInt32
  queueDepth : UInt32
  durationSecs : UInt32
  deriving DecidableEq, Repr

/-- What it returns. -/
structure SustainedResults where
  totalBytes : BitVec 64
  totalOps : BitVec 64
  avgThroughputMbps : BitVec 64
  minWindowMbps : BitVec 64
  maxWindowMbps : BitVec 64
  stallCount : BitVec 64
  cqOverflowCount : BitVec 64
  status : Nat
  deriving DecidableEq, Repr

/-- What has happened in a run, in order; the code keeps none of it. -/
structure SustainedLog where
  /-- The timestamp stored for each send. -/
  stamps : List Ktime := []
  /-- The poll time of each success of the main loop. -/
  polls : List Ktime := []
  /-- The value recorded for it. -/
  recorded : List Ktime := []
  /-- `now` of each iteration of the main loop. -/
  nows : List Ktime := []
  /-- The throughput of each full window. -/
  windows : List (BitVec 64) := []
  /-- Successes polled. -/
  successes : Nat := 0
  /-- Completions polled with an error, in the main loop and in the drain. -/
  mainErrors : Nat := 0
  drainErrors : Nat := 0
  deriving DecidableEq, Repr

/-- The flow and the histogram of the device, and the locals. -/
structure Sustained where
  flow : FlowCtl
  stats : FlowStats
  rdmaHist : Histogram
  sent : Nat := 0
  completed : Nat := 0
  recvPosted : Nat
  recvCompleted : Nat := 0
  outstanding : Nat := 0
  /-- `send_ts`, `ts_head` and `ts_tail`. -/
  ts : Ring tsRingSize 32 Ktime := { entries := fun _ => 0, head := 0, tail := 0 }
  windowStart : Ktime
  totalBytes : BitVec 64 := 0
  totalOps : BitVec 64 := 0
  windowBytes : BitVec 64 := 0
  minWindowMbps : BitVec 64 := u64Max
  maxWindowMbps : BitVec 64 := 0
  stallCount : BitVec 64 := 0
  cqOverflowCount : BitVec 64 := 0
  /-- The sends posted whose completion is not polled. -/
  due : Nat := 0
  log : SustainedLog := {}

/-! ## Up to the main loop -/

structure SustainedDev where
  initialized : Bool
  flow : FlowCtl
  stats : FlowStats
  rdmaHist : Histogram

/-- What the call meets before its main loop. -/
structure SustainedEnv where
  /-- The size of the buffer of the memory region, if both are there. -/
  bufSize : Option Nat
  /-- `kvcalloc` succeeds. -/
  alloc : Bool
  /-- The error of the `i`-th pre-posted receive, if it has one. -/
  postRecv : Nat → Option Errno
  start : Ktime

/-- The flow of a run: configured if it was not, with all its credits. -/
def sustainedFlow (flow : FlowCtl) (queueDepth : Nat) : FlowCtl :=
  let flow :=
    if flow.configured then flow else (autoConfigureWrites queueDepth).foldl FlowCtl.write flow
  { flow with credits := flow.maxCredits, paused := false }

/-- The checks of the parameters. -/
def sustainedCheck (p : SustainedParams) : Except Errno Unit :=
  if p.durationSecs = 0 ∨ p.durationSecs > 600 then .error .EINVAL
  else if p.msgSize = 0 then .error .EINVAL
  else if p.queueDepth = 0 ∨ p.queueDepth > 64 then .error .EINVAL
  else .ok ()

/-- The memory region is found, `msg_size` fits its buffer, and the timestamp ring is there. -/
def sustainedPrepare (p : SustainedParams) (env : SustainedEnv) : Except Errno Unit :=
  match env.bufSize with
  | none => .error .ENOENT
  | some bufSize =>
    if p.msgSize.toNat > bufSize then .error .EINVAL
    else if !env.alloc then .error .ENOMEM
    else .ok ()

def sustainedBegin (dev : SustainedDev) (p : SustainedParams) (env : SustainedEnv) :
    Except Errno Sustained := do
  if !dev.initialized then throw .ENODEV
  sustainedCheck p
  sustainedPrepare p env
  let flow := sustainedFlow dev.flow p.queueDepth.toNat
  let prePost := prePostCount flow (sustainedRun p.queueDepth.toNat)
  match (List.range prePost).findSome? env.postRecv with
  | some err => throw err
  | none =>
    return { flow := flow, stats := dev.stats, rdmaHist := dev.rdmaHist
             recvPosted := prePost, windowStart := env.start }

theorem sustainedCheck_ok {p : SustainedParams} (h : sustainedCheck p = .ok ()) :
    0 < p.queueDepth.toNat ∧ p.queueDepth.toNat ≤ 64 := by
  unfold sustainedCheck at h
  split at h
  · cases h
  · split at h
    · cases h
    · split at h
      · cases h
      · rename_i hq
        rw [not_or] at hq
        exact ⟨Nat.pos_of_ne_zero fun h0 => hq.1 (UInt32.toNat_inj.mp h0), Nat.not_lt.mp hq.2⟩

/-- A call that gets to its main loop. -/
structure Begun (dev : SustainedDev) (p : SustainedParams) (env : SustainedEnv) (s : Sustained) :
    Prop where
  pos : 0 < p.queueDepth.toNat
  depth : p.queueDepth.toNat ≤ 64
  state : s = {
    flow := sustainedFlow dev.flow p.queueDepth.toNat, stats := dev.stats
    rdmaHist := dev.rdmaHist, windowStart := env.start
    recvPosted :=
      prePostCount (sustainedFlow dev.flow p.queueDepth.toNat) (sustainedRun p.queueDepth.toNat) }

theorem sustainedBegin_ok {dev : SustainedDev} {p : SustainedParams} {env : SustainedEnv}
    {s : Sustained} (h : sustainedBegin dev p env = .ok s) : Begun dev p env s := by
  unfold sustainedBegin at h
  split at h
  · cases h
  · cases hc : sustainedCheck p with
    | error err => rw [hc] at h; cases h
    | ok u =>
      cases hp : sustainedPrepare p env with
      | error err => rw [hc, hp] at h; cases h
      | ok u =>
        rw [hc, hp] at h
        obtain ⟨hpos, hle⟩ := sustainedCheck_ok hc
        change (match (List.range _).findSome? env.postRecv with
          | some err => _
          | none => _) = _ at h
        split at h <;> cases h
        exact ⟨hpos, hle, rfl⟩

/-! ## An iteration -/

/-- What `ib_poll_cq` on CQ-A returns: nothing, a completion, or an error of its own. -/
inductive CqPoll where
  | empty | success | error | fail
  deriving DecidableEq, Repr

/-- A completion comes only if one is due. -/
def pollAnswer (due : Nat) : CqPoll → CqPoll
  | .success => if due = 0 then .empty else .success
  | .error => if due = 0 then .empty else .error
  | r => r

/-- The clock and the verbs layer in an iteration of the main loop, as far as it asks them. -/
structure Iteration where
  now : Ktime
  /-- The error of the send, if it has one. -/
  postSend : Option Errno
  sendTime : Ktime
  poll : CqPoll
  pollTime : Ktime
  postRecv : Option Errno
  /-- The completions on CQ-B; a success is true. -/
  cqB : List Bool
  deriving DecidableEq, Repr

/-- The per-second window check. -/
def windowCheck (now : Ktime) (s : Sustained) : Sustained :=
  let windowNs := now - s.windowStart
  let s := { s with log := { s.log with nows := s.log.nows ++ [now] } }
  if windowNs ≥ windowNsMin then
    let windowMbps :=
      if windowNs > 0 ∧ s.windowBytes > 0 then s.windowBytes * 1000 / windowNs else 0
    { s with
      minWindowMbps := if windowMbps < s.minWindowMbps then windowMbps else s.minWindowMbps
      maxWindowMbps := if windowMbps > s.maxWindowMbps then windowMbps else s.maxWindowMbps
      windowBytes := 0
      windowStart := now
      log := { s.log with windows := s.log.windows ++ [windowMbps] } }
  else s

/-- The send phase. A stall is only counted. -/
def sendPhase (p : SustainedParams) (e : Iteration) (s : Sustained) :
    Except (Sustained × Errno) Sustained :=
  let r := dmaplaneFlowCanSend s.flow s.stats
  let s := { s with flow := r.2.1, stats := r.2.2 }
  if r.1 ∧ s.outstanding < p.queueDepth.toNat then
    match e.postSend with
    | some err => .error (s, err)
    | none =>
      .ok { s with
        flow := flowOnSend s.flow
        ts := s.ts.push e.sendTime
        sent := incU32 s.sent
        outstanding := incU32 s.outstanding
        due := s.due + 1
        log := { s.log with stamps := s.log.stamps ++ [e.sendTime] } }
  else if !r.1 then .ok { s with stallCount := s.stallCount + 1 }
  else .ok s

/-- A success of CQ-A, up to the receive that replaces the one it used. -/
def completeSend (p : SustainedParams) (pollTime : Ktime) (s : Sustained) : Sustained :=
  let lat := pollTime - s.ts.front
  { s with
    ts := s.ts.pop
    rdmaHist := histogramRecord s.rdmaHist lat
    completed := incU32 s.completed
    outstanding := decU32 s.outstanding
    flow := flowOnCompletion s.flow
    totalBytes := s.totalBytes + BitVec.ofNat 64 p.msgSize.toNat
    totalOps := s.totalOps + 1
    windowBytes := s.windowBytes + BitVec.ofNat 64 p.msgSize.toNat
    due := s.due - 1
    log := { s.log with
      polls := s.log.polls ++ [pollTime]
      recorded := s.log.recorded ++ [lat]
      successes := s.log.successes + 1 } }

/-- The replacement: never beyond `sent + qdepth`. -/
def replenishRecv (p : SustainedParams) (e : Iteration) (s : Sustained) :
    Except (Sustained × Errno) Sustained :=
  if s.recvPosted < (s.sent + p.queueDepth.toNat) % 2 ^ 32 then
    match e.postRecv with
    | some err => .error (s, err)
    | none => .ok { s with recvPosted := incU32 s.recvPosted }
  else .ok s

/-- The poll of CQ-A. -/
def pollPhase (p : SustainedParams) (e : Iteration) (s : Sustained) :
    Except (Sustained × Errno) Sustained :=
  match pollAnswer s.due e.poll with
  | .success => replenishRecv p e (completeSend p e.pollTime s)
  | .error =>
    .error ({ s with
      cqOverflowCount := s.cqOverflowCount + 1
      due := s.due - 1
      log := { s.log with mainErrors := s.log.mainErrors + 1 } }, Errno.EIO)
  | .fail => .error (s, Errno.EIO)
  | .empty => .ok s

/-- CQ-B is drained eagerly. -/
def drainCqB (cqB : List Bool) (s : Sustained) : Sustained :=
  { s with
    recvCompleted := cqB.foldl (fun n ok => if ok then incU32 n else n) s.recvCompleted
    cqOverflowCount := cqB.foldl (fun n ok => if ok then n else n + 1) s.cqOverflowCount }

def mainIteration (p : SustainedParams) (e : Iteration) (s : Sustained) :
    Except (Sustained × Errno) Sustained := do
  let s ← sendPhase p e (windowCheck e.now s)
  let s ← pollPhase p e s
  return drainCqB e.cqB s

/-- The poll of CQ-A after `done:`. -/
def drainPoll (p : SustainedParams) (poll : CqPoll) (s : Sustained) : Sustained :=
  match pollAnswer s.due poll with
  | .success =>
    { s with
      outstanding := decU32 s.outstanding
      flow := flowOnCompletion s.flow
      totalBytes := s.totalBytes + BitVec.ofNat 64 p.msgSize.toNat
      totalOps := s.totalOps + 1
      due := s.due - 1
      log := { s.log with successes := s.log.successes + 1 } }
  | .error =>
    { s with
      outstanding := decU32 s.outstanding
      due := s.due - 1
      log := { s.log with drainErrors := s.log.drainErrors + 1 } }
  | _ => s

/-- An iteration of the drain loop, with `cqB` completions on CQ-B. -/
def drainIteration (p : SustainedParams) (poll : CqPoll) (cqB : Nat) (s : Sustained) :
    Sustained :=
  let s := drainPoll p poll s
  { s with recvCompleted := incU32^[cqB] s.recvCompleted }

/-- The results, `elapsedNs` after the start. -/
def sustainedResults (elapsedNs : BitVec 64) (ret : Option Errno) (s : Sustained) :
    SustainedResults :=
  let avg := if elapsedNs > 0 then s.totalBytes * 1000 / elapsedNs else 0
  { totalBytes := s.totalBytes
    totalOps := s.totalOps
    avgThroughputMbps := avg
    minWindowMbps := if s.minWindowMbps = u64Max then avg else s.minWindowMbps
    maxWindowMbps := s.maxWindowMbps
    stallCount := s.stallCount
    cqOverflowCount := s.cqOverflowCount
    status := if ret.isSome then 1 else 0 }

/-! ## Runs -/

/-- `ret` is the error a loop was left with. -/
inductive SustainedPhase where
  | main
  | drain (deadline : Ktime) (ret : Option Errno)
  | done (endAt : Ktime) (ret : Option Errno) (r : SustainedResults)
  deriving DecidableEq, Repr

structure SustainedSt where
  s : Sustained
  phase : SustainedPhase

inductive SustainedAct where
  /-- `head` is the clock at the loop condition, `doneAt` the one at `done:`. -/
  | iteration (head : Ktime) (e : Iteration) (doneAt : Ktime)
  | drain (head : Ktime) (poll : CqPoll) (cqB : Nat) (endAt : Ktime)
  deriving DecidableEq, Repr

def sustainedDeadline (p : SustainedParams) (start : Ktime) : Ktime :=
  ktimeAddMs start (BitVec.ofNat 64 p.durationSecs.toNat * 1000)

def sustainedStep (p : SustainedParams) (start : Ktime) (st : SustainedSt) :
    SustainedAct → Option SustainedSt
  | .iteration head e doneAt =>
    match st.phase with
    | .main =>
      if ktimeAfter head (sustainedDeadline p start) then
        some { st with phase := .drain (ktimeAddMs doneAt drainTimeoutMs) none }
      else
        match mainIteration p e st.s with
        | .ok s => some { s := s, phase := .main }
        | .error (s, err) =>
          some { s := s, phase := .drain (ktimeAddMs doneAt drainTimeoutMs) (some err) }
    | _ => none
  | .drain head poll cqB endAt =>
    match st.phase with
    | .drain deadline ret =>
      if 0 < st.s.outstanding ∧ !ktimeAfter head deadline then
        some { st with s := drainIteration p poll cqB st.s }
      else some { st with phase := .done endAt ret (sustainedResults (endAt - start) ret st.s) }
    | _ => none

/-- The run from the state `s₀` before the main loop. -/
def sustainedSys (p : SustainedParams) (start : Ktime) (s₀ : Sustained) :
    Transition.Sys SustainedSt SustainedAct where
  init := { s := s₀, phase := .main }
  step := sustainedStep p start

/-- `I` at the start of an iteration of the main loop, `D` from `done:` on. -/
def SustainedSt.Holds (I D : Sustained → Prop) (st : SustainedSt) : Prop :=
  match st.phase with
  | .main => I st.s
  | _ => D st.s

section Invariant

variable {p : SustainedParams} {start : Ktime} {s₀ : Sustained} {st st' : SustainedSt}
  {I D : Sustained → Prop}

theorem holds_step (hiter : ∀ e s, I s → Ends I D (mainIteration p e s))
    (hstop : ∀ s, I s → D s)
    (hdrain : ∀ poll cqB s, 0 < s.outstanding → D s → D (drainIteration p poll cqB s))
    (hi : st.Holds I D) {a : SustainedAct} (hs : sustainedStep p start st a = some st') :
    st'.Holds I D := by
  obtain ⟨s, phase⟩ := st
  cases a with
  | iteration head e doneAt =>
    cases phase with
    | main =>
      simp only [sustainedStep] at hs
      have he := hiter e s hi
      split at hs
      · cases hs; exact hstop s hi
      · split at hs <;> cases hs
        · rename_i hr; rw [hr] at he; exact he
        · rename_i hr; rw [hr] at he; exact he
    | drain | done => cases hs
  | drain head poll cqB endAt =>
    cases phase with
    | drain deadline ret =>
      simp only [sustainedStep] at hs
      split at hs <;> cases hs
      · rename_i hc; exact hdrain poll cqB s hc.1 hi
      · exact hi
    | main | done => cases hs

/-- What holds before the main loop, is kept by its iterations and by those of the drain. -/
theorem sustained_invariant (h0 : I s₀) (hiter : ∀ e s, I s → Ends I D (mainIteration p e s))
    (hstop : ∀ s, I s → D s)
    (hdrain : ∀ poll cqB s, 0 < s.outstanding → D s → D (drainIteration p poll cqB s))
    (h : (sustainedSys p start s₀).Reachable st) : st.Holds I D :=
  h.invariant (I := fun st => st.Holds I D) h0 fun _ _ _ hi hs =>
    holds_step hiter hstop hdrain hi hs

/-- The results are those of the state in which the drain ended. -/
theorem done_results {endAt : Ktime} {ret : Option Errno} {r : SustainedResults}
    (h : (sustainedSys p start s₀).Reachable st) (hd : st.phase = .done endAt ret r) :
    r = sustainedResults (endAt - start) ret st.s := by
  refine h.invariant (I := fun st => ∀ endAt ret r, st.phase = .done endAt ret r →
    r = sustainedResults (endAt - start) ret st.s) (fun _ _ _ h0 => by cases h0) ?_ _ _ _ hd
  intro st a st' hi (hs : sustainedStep p start st a = some st') endAt ret r hd
  cases a with
  | iteration head e doneAt =>
    simp only [sustainedStep] at hs
    split at hs
    · split at hs
      · cases hs; cases hd
      · split at hs <;> cases hs <;> cases hd
    · cases hs
  | drain head poll cqB t =>
    simp only [sustainedStep] at hs
    split at hs
    · rename_i deadline ret' hphase
      split at hs <;> cases hs
      · rw [hphase] at hd; cases hd
      · cases hd; rfl
    · cases hs

end Invariant

end Dmaplane
