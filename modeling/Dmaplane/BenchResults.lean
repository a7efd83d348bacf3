import Dmaplane.BenchLoops
import Dmaplane.Sustained

/-!
# Dmaplane.BenchResults

What `benchmark_pingpong`, `benchmark_streaming` and `dmaplane_qdepth_sweep` report
(`driver/benchmark.c`, `driver/flow_control.c`), on given answers of the verbs layer and a given
clock.

The pipelined two are the runs of `BenchLoops` with what they keep about time: `prev_time` and the
latencies, one at each successful completion (`Timed`). `timedRun_erase`: without the clock they
are those runs. `timedRun_spec`: the latencies are the intervals between the completions, whichever
exit the run takes.

The counters of `edev->stats`, which only add up over the calls, are left out.
-/

namespace Dmaplane.Bench

/-! ## Parameters and devices -/

/-- `struct dmaplane_bench_params`. -/
structure BenchParams where
  mrId : UInt32
  msgSize : UInt32
  iterations : UInt32
  queueDepth : UInt32
  totalNs : BitVec 64
  avgLatencyNs : BitVec 64
  p99LatencyNs : BitVec 64
  throughputMbps : BitVec 64
  mrRegNs : BitVec 64
  deriving DecidableEq, Repr

/-- What a benchmark uses of its copy of the MR. -/
structure BenchMr where
  bufId : UInt32
  regTime : Ktime
  deriving DecidableEq, Repr

/-- The device as a benchmark finds it; of a buffer it reads the size. -/
structure BenchDev where
  initialized : Bool
  findMr : UInt32 → Option BenchMr
  findBuffer : UInt32 → Option (BitVec 64)
  rdmaHist : Histogram

/-- The lookups under `mr_lock` and `buf_lock`, and the check of the size. -/
def benchTarget (dev : BenchDev) (mrId msgSize : UInt32) : Except Errno BenchMr :=
  match dev.findMr mrId with
  | none => .error .ENOENT
  | some mr =>
    match dev.findBuffer mr.bufId with
    | none => .error .ENOENT
    | some bufSize => if msgSize.toNat > bufSize.toNat then .error .EINVAL else .ok mr

/-- The checks of `benchmark_pingpong` and `benchmark_streaming`. -/
def benchCheck (dev : BenchDev) (p : BenchParams) : Except Errno BenchMr :=
  if !dev.initialized || p.iterations = 0 || p.msgSize = 0 then .error .EINVAL
  else benchTarget dev p.mrId p.msgSize

/-- `rdma_engine_cmp_u64`. -/
def rdmaEngineCmpU64 (va vb : BitVec 64) : Int :=
  if va < vb then -1 else if va > vb then 1 else 0

/-- `sort` of the kernel with that comparator. -/
def sortU64 (latencies : List (BitVec 64)) : List (BitVec 64) :=
  latencies.mergeSort fun va vb => rdmaEngineCmpU64 va vb ≤ 0

/-- How a call ends: its error, if it has one, with what it leaves in the parameters and in
`rdma_hist`. -/
structure BenchCall where
  ret : Option Errno
  params : BenchParams
  rdmaHist : Histogram

/-! ## `benchmark_pingpong` -/

/-- What the kernel and the verbs layer answer, by iteration. -/
structure PingEnv where
  kvcalloc : Bool
  postRecv : Nat → Option Errno
  postSend : Nat → Option Errno
  pollA : Nat → PollResult
  pollB : Nat → PollResult
  iterStart : Nat → Ktime
  iterEnd : Nat → Ktime

/-- The work requests of iteration `i` and their completions. -/
def pingIteration (env : PingEnv) (i : Nat) : Option Errno :=
  match env.postRecv i with
  | some e => some e
  | none =>
    match env.postSend i with
    | some e => some e
    | none =>
      if env.pollA i ≠ .cqe true then some Errno.EIO
      else if env.pollB i ≠ .cqe true then some Errno.EIO
      else none

/-- The entries of `latencies` written so far, `total_ns` and `rdma_hist`. -/
structure PingRun where
  latencies : List (BitVec 64) := []
  totalNs : BitVec 64 := 0
  rdmaHist : Histogram

/-- `for (i = 0; i < params->iterations; i++)` from `i` on, with `n` iterations to go. -/
def pingLoop (env : PingEnv) : Nat → Nat → PingRun → Option Errno × PingRun
  | 0, _, s => (none, s)
  | n + 1, i, s =>
    match pingIteration env i with
    | some e => (some e, s)
    | none =>
      let latency := env.iterEnd i - env.iterStart i
      pingLoop env n (i + 1)
        { latencies := s.latencies ++ [latency]
          totalNs := s.totalNs + latency
          rdmaHist := histogramRecord s.rdmaHist latency }

/-- The results. `params->iterations * 99` is an `unsigned int`, `bytes_total * 1000` a `__u64`. -/
def pingResults (mr : BenchMr) (s : PingRun) (p : BenchParams) : BenchParams :=
  let iterations := p.iterations.toNat
  let bytesTotal := BitVec.ofNat 64 (p.msgSize.toNat * iterations)
  { p with
    totalNs := s.totalNs
    avgLatencyNs := s.totalNs / BitVec.ofNat 64 iterations
    p99LatencyNs := (sortU64 s.latencies).getD (iterations * 99 % 2 ^ 32 / 100) 0
    throughputMbps :=
      if s.totalNs > 0 then bytesTotal * 1000 / s.totalNs else p.throughputMbps
    mrRegNs := mr.regTime }

def benchmarkPingpong (dev : BenchDev) (env : PingEnv) (p : BenchParams) : BenchCall :=
  match benchCheck dev p with
  | .error e => ⟨some e, p, dev.rdmaHist⟩
  | .ok mr =>
    if !env.kvcalloc then ⟨some .ENOMEM, p, dev.rdmaHist⟩
    else
      match pingLoop env p.iterations.toNat 0 { rdmaHist := dev.rdmaHist } with
      | (some e, s) => ⟨some e, p, s.rdmaHist⟩
      | (none, s) => ⟨none, pingResults mr s p, s.rdmaHist⟩

/-! ## Runs with a clock -/

/-- The readings of `ktime_get` in a run. -/
structure BenchClock where
  /-- What `start` holds where it is not set. -/
  unset : Ktime
  start : Ktime
  /-- `now` at completion `k`. -/
  now : Nat → Ktime
  stop : Ktime

/-- The locals of a run with its `prev_time` and the entries of `latencies` written so far, if the
array could be allocated. -/
structure Timed where
  run : Run
  prevTime : Ktime
  latencies : Option (List (BitVec 64))

/-- `latencies[completed] = now - prev_time; prev_time = now`. -/
def Timed.stamp (now : Ktime) (t : Timed) : Timed :=
  { t with latencies := t.latencies.map (· ++ [now - t.prevTime]), prevTime := now }

/-- The branch of a successful completion: `onCompletion` with the clock. A failure leaves with the
completion counted. -/
def timedCompletion (env : BenchEnv) (clk : BenchClock) (t : Timed) :
    Timed ⊕ (Option Errno × Timed) :=
  let k := t.run.completed
  let t := t.stamp (clk.now k)
  let r : Run := { t.run with
    outstanding := decU32 t.run.outstanding, completed := incU32 t.run.completed
    recvDrained := drainAll (env.drained k) t.run.recvDrained }
  if r.recvPosted < r.iterations then
    match env.replenish k with
    | none => .inl { t with run := { r with recvPosted := incU32 r.recvPosted } }
    | some e =>
      match r.kind with
      | .sweep _ _ => .inl { t with run := r }
      | _ => .inr (some e, { t with run := r })
  else .inl { t with run := r }

/-- Iteration `j` of the outer loop. What a failing send leaves in `sent` and `outstanding` is read
no more. -/
def timedBody (env : BenchEnv) (clk : BenchClock) (j : Nat) (t : Timed) :
    Timed ⊕ (Option Errno × Timed) :=
  if t.run.completed < t.run.iterations then
    match postSends env (t.run.qdepth - t.run.outstanding) t.run with
    | .error e => .inr (some e, t)
    | .ok r =>
      match env.poll j with
      | .cqe true => timedCompletion env clk { t with run := r }
      | .cqe false => .inr (some Errno.EIO, { t with run := r })
      | .timeout => .inr (some .ETIMEDOUT, { t with run := r })
      | .error _ => .inl { t with run := r }
  else .inr (none, t)

/-- A run at its end: its error, if it has one, the locals and `start`. -/
structure TimedEnd where
  ret : Option Errno
  timed : Timed
  start : Ktime

/-- `while (recv_drained < completed)` after a run without an error. -/
def timedDrain (env : BenchEnv) (start : Ktime) : Option Errno × Timed → TimedEnd
  | (some e, t) => ⟨some e, t, start⟩
  | (none, t) =>
    ⟨none, { t with run := recvDrain env (t.run.completed - t.run.recvDrained) 0 t.run }, start⟩

/-- One run, from the flushed CQs to the end of its loops; `none` if `fuel` iterations of the outer
loop are not enough. -/
def timedRun (env : BenchEnv) (clk : BenchClock) (kvcalloc : Bool) (fuel : Nat) (r : Run) :
    Option TimedEnd :=
  let t : Timed :=
    { run := r, prevTime := clk.unset, latencies := if kvcalloc then some [] else none }
  match prePosts env (benchPrePost r) r with
  | .error e => some ⟨some e, t, clk.unset⟩
  | .ok r =>
    (Loop.run (timedBody env clk) fuel 0 { t with run := r, prevTime := clk.start }).map
      (timedDrain env clk.start)

/-! ## `benchmark_streaming` -/

/-- What follows `done:`, on every exit. -/
def streamResults (mr : BenchMr) (clk : BenchClock) (e : TimedEnd) (p : BenchParams) :
    BenchParams :=
  let totalNs := clk.stop - e.start
  let completed := e.timed.run.completed
  let bytesTotal := BitVec.ofNat 64 (p.msgSize.toNat * completed)
  { p with
    totalNs := totalNs
    avgLatencyNs :=
      if completed > 0 then totalNs / BitVec.ofNat 64 completed else p.avgLatencyNs
    throughputMbps := if totalNs > 0 then bytesTotal * 1000 / totalNs else p.throughputMbps
    p99LatencyNs :=
      match e.timed.latencies with
      | some latencies =>
        if completed > 0 then (sortU64 latencies).getD (completed * 99 % 2 ^ 32 / 100) 0
        else p.p99LatencyNs
      | none => p.p99LatencyNs
    mrRegNs := mr.regTime }

/-- The latencies go into the histogram, if there are any. -/
def recordAll (t : Timed) (hist : Histogram) : Histogram :=
  (t.latencies.getD []).foldl histogramRecord hist

def benchmarkStreaming (dev : BenchDev) (env : BenchEnv) (clk : BenchClock) (kvcalloc : Bool)
    (fuel : Nat) (p : BenchParams) : Option BenchCall :=
  match benchCheck dev p with
  | .error e => some ⟨some e, p, dev.rdmaHist⟩
  | .ok mr =>
    (timedRun env clk kvcalloc fuel (streamRun ⟨p.queueDepth, p.iterations⟩)).map fun e =>
      ⟨e.ret, streamResults mr clk e p, recordAll e.timed dev.rdmaHist⟩

/-! ## `dmaplane_qdepth_sweep` -/

/-- `DMAPLANE_MAX_SWEEP_POINTS`. -/
abbrev maxSweepPoints : Nat := 32

/-- What `struct dmaplane_sweep_params` asks for. -/
structure SweepRequest where
  mrId : UInt32
  msgSize : UInt32
  sweep : SweepParams
  deriving DecidableEq, Repr

/-- What it returns. The caller hands in values for all of it. -/
structure SweepResults where
  throughputMbps : List (BitVec 64)
  avgLatencyNs : List (BitVec 64)
  p99LatencyNs : List (BitVec 64)
  nrPoints : Nat
  saturationQdepth : Nat
  status : Nat
  deriving DecidableEq, Repr

/-- The arrays have the length of their declaration. -/
structure SweepResults.Sized (out : SweepResults) : Prop where
  throughput : out.throughputMbps.length = maxSweepPoints
  avg : out.avgLatencyNs.length = maxSweepPoints
  p99 : out.p99LatencyNs.length = maxSweepPoints

/-- Why a sweep does not return 0: an error, or an access outside an array. -/
inductive SweepStop where
  | error (e : Errno)
  | fault
  deriving DecidableEq, Repr

/-- `a[i] = v`; `none` outside the array. -/
def writeAt (a : List (BitVec 64)) (i : Nat) (v : BitVec 64) : Option (List (BitVec 64)) :=
  if i < a.length then some (a.set i v) else none

/-- `params->throughput_mbps[point]`, where it is written. -/
def pointThroughput (msgSize : UInt32) (clk : BenchClock) (t : Timed) : Option (BitVec 64) :=
  let totalNs := clk.stop - clk.start
  let bytesTotal := BitVec.ofNat 64 (msgSize.toNat * t.run.completed)
  if totalNs > 0 then some (bytesTotal * 1000 / totalNs) else none

/-- `params->avg_latency_ns[point]`, where it is written. -/
def pointAvg (clk : BenchClock) (t : Timed) : Option (BitVec 64) :=
  let totalNs := clk.stop - clk.start
  if t.run.completed > 0 then some (totalNs / BitVec.ofNat 64 t.run.completed) else none

/-- `params->p99_latency_ns[point]`, where it is written. -/
def pointP99 (t : Timed) : Option (BitVec 64) :=
  match t.latencies with
  | some latencies =>
    if t.run.completed > 0 then
      some ((sortU64 latencies).getD (t.run.completed * 99 % 2 ^ 32 / 100) 0)
    else none
  | none => none

/-- A write that is made only where there is a value. -/
def writePoint (a : List (BitVec 64)) (i : Nat) : Option (BitVec 64) → Option (List (BitVec 64))
  | none => some a
  | some v => writeAt a i v

/-- The parameters, `max_throughput` and `rdma_hist` between two points. -/
structure SweepState where
  out : SweepResults
  maxThroughput : BitVec 64
  rdmaHist : Histogram

/-- The stats of a point; `none` is an access outside an array. -/
def pointResults (msgSize : UInt32) (clk : BenchClock) (t : Timed) (point : Nat) (s : SweepState) :
    Option SweepState := do
  let throughput ← writePoint s.out.throughputMbps point (pointThroughput msgSize clk t)
  let avg ← writePoint s.out.avgLatencyNs point (pointAvg clk t)
  let p99 ← writePoint s.out.p99LatencyNs point (pointP99 t)
  let mbps ← throughput[point]?
  return {
    out := { s.out with throughputMbps := throughput, avgLatencyNs := avg, p99LatencyNs := p99 }
    maxThroughput := if mbps > s.maxThroughput then mbps else s.maxThroughput
    rdmaHist := recordAll t s.rdmaHist }

/-- What the kernel and the verbs layer answer to the points. -/
structure SweepEnv where
  verbs : Nat → BenchEnv
  clock : Nat → BenchClock
  kvcalloc : Nat → Bool

/-- The points from `point` on, `n` in number. -/
def sweepLoop (env : SweepEnv) (q : SweepRequest) (fuel : Nat) :
    Nat → Nat → SweepState → Option (Option SweepStop × SweepState)
  | 0, _, s => some (none, s)
  | n + 1, point, s =>
    match timedRun (env.verbs point) (env.clock point) (env.kvcalloc point) fuel
        (sweepRun q.sweep point) with
    | none => none
    | some e =>
      match e.ret with
      | some err => some (some (.error err), s)
      | none =>
        match pointResults q.msgSize (env.clock point) e.timed point s with
        | none => some (some .fault, s)
        | some s => sweepLoop env q fuel n (point + 1) s

/-- The loop over the points before the last one, `n` in number: the depth of the first whose
throughput is at least `threshold`. `none` is an access outside the array. -/
def saturationLoop (p : SweepParams) (threshold : BitVec 64) (throughput : List (BitVec 64)) :
    Nat → Nat → Option Nat
  | 0, _ => some 0
  | n + 1, point =>
    match throughput[point]? with
    | none => none
    | some mbps =>
      if mbps ≥ threshold then some ((p.minQdepth.toNat + point * p.step.toNat) % 2 ^ 32)
      else saturationLoop p threshold throughput n (point + 1)

/-- `saturation_qdepth`. -/
def saturationQdepth (p : SweepParams) (maxThroughput : BitVec 64)
    (throughput : List (BitVec 64)) : Option Nat :=
  if maxThroughput > 0 ∧ nrPoints p ≥ 2 then
    saturationLoop p (maxThroughput * 95 / 100) throughput (nrPoints p - 1) 0
  else some 0

def dmaplaneQdepthSweep (dev : BenchDev) (env : SweepEnv) (fuel : Nat) (q : SweepRequest)
    (out : SweepResults) : Option (Option SweepStop × SweepState) :=
  let s : SweepState := { out := out, maxThroughput := 0, rdmaHist := dev.rdmaHist }
  if !dev.initialized then some (some (.error .ENODEV), s)
  else if sweepRejected q.sweep || q.msgSize = 0 then some (some (.error .EINVAL), s)
  else
    match benchTarget dev q.mrId q.msgSize with
    | .error e => some (some (.error e), s)
    | .ok _ =>
      match sweepLoop env q fuel (nrPoints q.sweep) 0 s with
      | none => none
      | some (some stop, s) => some (some stop, s)
      | some (none, s) =>
        match saturationQdepth q.sweep s.maxThroughput s.out.throughputMbps with
        | none => some (some .fault, s)
        | some depth =>
          some (none, { s with out := { s.out with
            nrPoints := nrPoints q.sweep, saturationQdepth := depth, status := 0 } })

/-! ## What a run keeps -/

theorem postSends_locals {env : BenchEnv} : ∀ {n : Nat} {r r' : Run}, postSends env n r = .ok r' →
    r'.completed = r.completed ∧ r'.iterations = r.iterations := by
  intro n
  induction n with
  | zero => intro r r' h; cases h; exact ⟨rfl, rfl⟩
  | succ n ih =>
    intro r r' h
    rw [postSends] at h
    split at h
    · split at h
      · cases h
      · exact ⟨(ih h).1, (ih h).2⟩
    · cases h; exact ⟨rfl, rfl⟩

theorem prePosts_locals {env : BenchEnv} : ∀ {n : Nat} {r r' : Run}, prePosts env n r = .ok r' →
    r'.completed = r.completed ∧ r'.iterations = r.iterations := by
  intro n
  induction n with
  | zero => intro r r' h; cases h; exact ⟨rfl, rfl⟩
  | succ n ih =>
    intro r r' h
    rw [prePosts] at h
    split at h
    · cases h
    · exact ⟨(ih h).1, (ih h).2⟩

/-- `prev_time` after `k` completions. -/
def BenchClock.before (clk : BenchClock) : Nat → Ktime
  | 0 => clk.start
  | k + 1 => clk.now k

/-- The intervals that end at the first `n` completions. -/
def BenchClock.intervals (clk : BenchClock) (n : Nat) : List (BitVec 64) :=
  (List.range n).map fun k => clk.now k - clk.before k

@[simp] theorem intervals_length (clk : BenchClock) (n : Nat) : (clk.intervals n).length = n := by
  rw [BenchClock.intervals, List.length_map, List.length_range]

theorem intervals_succ (clk : BenchClock) (n : Nat) :
    clk.intervals (n + 1) = clk.intervals n ++ [clk.now n - clk.before n] := by
  rw [BenchClock.intervals, List.range_succ, List.map_append]
  rfl

/-- What a run has recorded: an interval for each completion. -/
def Timed.recorded (clk : BenchClock) (kvcalloc : Bool) (t : Timed) : Prop :=
  t.latencies = if kvcalloc then some (clk.intervals t.run.completed) else none

/-- The locals between two iterations of the outer loop. -/
structure TimedAt (clk : BenchClock) (kvcalloc : Bool) (n : Nat) (t : Timed) : Prop where
  iterations : t.run.iterations = n
  completed : t.run.completed ≤ n
  recorded : t.recorded clk kvcalloc
  prevTime : t.prevTime = clk.before t.run.completed

section Run

variable {env : BenchEnv} {clk : BenchClock} {kvcalloc : Bool} {n : Nat} {t : Timed}

/-- After a completion, whatever its branch does with the other locals. -/
theorem TimedAt.stamp (h : TimedAt clk kvcalloc n t) (hlt : t.run.completed < n)
    (hn : n < 2 ^ 32) {r : Run} (hc : r.completed = incU32 t.run.completed)
    (hit : r.iterations = t.run.iterations) :
    TimedAt clk kvcalloc n { t.stamp (clk.now t.run.completed) with run := r } := by
  have hinc : r.completed = t.run.completed + 1 := by rw [hc]; exact incU32_eq hlt hn
  refine ⟨hit.trans h.iterations, by show r.completed ≤ n; omega, ?_, ?_⟩
  · show t.latencies.map (· ++ [clk.now t.run.completed - t.prevTime]) =
      if kvcalloc then some (clk.intervals r.completed) else none
    have hrec := h.recorded
    rw [Timed.recorded] at hrec
    rw [hrec, h.prevTime, hinc, intervals_succ]
    cases kvcalloc <;> rfl
  · show clk.now t.run.completed = clk.before r.completed
    rw [hinc]
    rfl

theorem TimedAt.sent (h : TimedAt clk kvcalloc n t) {r : Run} {k : Nat}
    (hr : postSends env k t.run = .ok r) : TimedAt clk kvcalloc n { t with run := r } := by
  obtain ⟨hc, hit⟩ := postSends_locals hr
  refine ⟨hit.trans h.iterations, ?_, ?_, ?_⟩
  · show r.completed ≤ n
    rw [hc]
    exact h.completed
  · show t.latencies = if kvcalloc then some (clk.intervals r.completed) else none
    rw [hc]
    exact h.recorded
  · show t.prevTime = clk.before r.completed
    rw [hc]
    exact h.prevTime

/-- The branch of a completion, either way it leaves. -/
theorem TimedAt.completion (env : BenchEnv) (h : TimedAt clk kvcalloc n t) (hlt : t.run.completed < n)
    (hn : n < 2 ^ 32) :
    (∃ t', timedCompletion env clk t = .inl t' ∧ TimedAt clk kvcalloc n t') ∨
      ∃ e t', timedCompletion env clk t = .inr (some e, t') ∧ TimedAt clk kvcalloc n t' := by
  unfold timedCompletion
  dsimp only
  split
  · split
    · exact .inl ⟨_, rfl, h.stamp hlt hn rfl rfl⟩
    · split
      · exact .inl ⟨_, rfl, h.stamp hlt hn rfl rfl⟩
      · exact .inr ⟨_, _, rfl, h.stamp hlt hn rfl rfl⟩
  · exact .inl ⟨_, rfl, h.stamp hlt hn rfl rfl⟩

/-- How a run may leave its outer loop: the locals are as between two iterations, and without an
error all iterations are completed. -/
def TimedLeft (clk : BenchClock) (kvcalloc : Bool) (n : Nat) (x : Option Errno × Timed) : Prop :=
  TimedAt clk kvcalloc n x.2 ∧ (x.1 = none → x.2.run.completed = n)

/-- One iteration of the outer loop. -/
theorem TimedAt.body (env : BenchEnv) (h : TimedAt clk kvcalloc n t) (hn : n < 2 ^ 32) (j : Nat) :
    (∃ t', timedBody env clk j t = .inl t' ∧ TimedAt clk kvcalloc n t') ∨
      ∃ x, timedBody env clk j t = .inr x ∧ TimedLeft clk kvcalloc n x := by
  rw [timedBody]
  by_cases hunf : t.run.completed < t.run.iterations
  · rw [if_pos hunf]
    rw [h.iterations] at hunf
    cases hs : postSends env (t.run.qdepth - t.run.outstanding) t.run with
    | error e => exact .inr ⟨_, rfl, h, fun he => by cases he⟩
    | ok r =>
      have hsent := h.sent hs
      have hlt : r.completed < n := by rw [(postSends_locals hs).1]; exact hunf
      cases env.poll j with
      | cqe ok =>
        cases ok with
        | true =>
          rcases hsent.completion env hlt hn with ⟨t', ht, hat⟩ | ⟨e, t', ht, hat⟩
          · exact .inl ⟨t', ht, hat⟩
          · exact .inr ⟨_, ht, hat, fun he => by cases he⟩
        | false => exact .inr ⟨_, rfl, hsent, fun he => by cases he⟩
      | timeout => exact .inr ⟨_, rfl, hsent, fun he => by cases he⟩
      | error e => exact .inl ⟨_, rfl, hsent⟩
  · rw [if_neg hunf]
    rw [h.iterations] at hunf
    have hle := h.completed
    exact .inr ⟨_, rfl, h, fun _ => by show t.run.completed = n; omega⟩

/-- What is known of a run at its end. -/
structure EndOk (clk : BenchClock) (kvcalloc : Bool) (n : Nat) (e : TimedEnd) : Prop where
  completed : e.timed.run.completed ≤ n
  recorded : e.timed.recorded clk kvcalloc
  all : e.ret = none → e.timed.run.completed = n ∧ e.start = clk.start

theorem TimedLeft.endOk {x : Option Errno × Timed} (h : TimedLeft clk kvcalloc n x) :
    EndOk clk kvcalloc n (timedDrain env clk.start x) := by
  obtain ⟨hat, hall⟩ := h
  cases hx : x with
  | mk ret t =>
    rw [hx] at hat hall
    cases ret with
    | some e => exact ⟨hat.completed, hat.recorded, fun he => by cases he⟩
    | none =>
      have hc : (recvDrain env (t.run.completed - t.run.recvDrained) 0 t.run).completed =
          t.run.completed := recvDrain_completed
      have hrec := hat.recorded
      refine ⟨?_, ?_, fun _ => ⟨?_, rfl⟩⟩
      · show (recvDrain env _ 0 t.run).completed ≤ n
        rw [hc]
        exact hat.completed
      · show t.latencies =
          if kvcalloc then some (clk.intervals (recvDrain env _ 0 t.run).completed) else none
        rw [hc]
        exact hrec
      · show (recvDrain env _ 0 t.run).completed = n
        rw [hc]
        exact hall rfl

/-- Whatever the verbs layer answers and the clock shows. -/
theorem timedRun_spec {fuel : Nat} {r : Run} {e : TimedEnd} (hr : BenchRun r)
    (h : timedRun env clk kvcalloc fuel r = some e) : EndOk clk kvcalloc r.iterations e := by
  have hzero := hr.zero.2.1
  have hrec : ∀ r' : Run, r'.completed = 0 → (if kvcalloc then some [] else none) =
      if kvcalloc then some (clk.intervals r'.completed) else none := by
    intro r' h'
    rw [h']
    rfl
  rw [timedRun] at h
  cases hp : prePosts env (benchPrePost r) r with
  | error err =>
    rw [hp] at h
    obtain rfl := Option.some.inj h
    exact ⟨by show r.completed ≤ _; omega, hrec r hzero, fun he => by cases he⟩
  | ok r' =>
    rw [hp] at h
    obtain ⟨hc, hit⟩ := prePosts_locals hp
    rw [hzero] at hc
    obtain ⟨x, hrun, rfl⟩ := Option.map_eq_some_iff.mp h
    have hstart : TimedAt clk kvcalloc r.iterations
        { run := r', prevTime := clk.start, latencies := if kvcalloc then some [] else none } :=
      ⟨hit, by show r'.completed ≤ _; omega, hrec r' hc, by show clk.start = _; rw [hc]; rfl⟩
    refine TimedLeft.endOk (Loop.run_post (I := TimedAt clk kvcalloc r.iterations) ?_ ?_ hstart hrun)
    · intro j t t' hat hb
      rcases hat.body env hr.iterations j with ⟨t'', ht, hat'⟩ | ⟨x, hx, -⟩
      · rw [ht] at hb
        cases hb
        exact hat'
      · rw [hx] at hb
        cases hb
    · intro j t x hat hb
      rcases hat.body env hr.iterations j with ⟨t', ht, -⟩ | ⟨x', hx, hleft⟩
      · rw [ht] at hb
        cases hb
      · rw [hx] at hb
        cases hb
        exact hleft

/-! ## Without the clock -/

/-- What `BenchLoops` keeps of a run that has left its outer loop. -/
def eraseLeft : Option Errno × Timed → Except Errno Run
  | (some e, _) => .error e
  | (none, t) => .ok t.run

def TimedEnd.erase (e : TimedEnd) : Except Errno Run :=
  match e.ret with
  | some err => .error err
  | none => .ok e.timed.run

theorem timedCompletion_erase (env : BenchEnv) (clk : BenchClock) (t : Timed) :
    onCompletion env t.run = (timedCompletion env clk t).map Timed.run eraseLeft := by
  unfold onCompletion timedCompletion
  dsimp only [Timed.stamp]
  split
  · cases env.replenish t.run.completed with
    | none => rfl
    | some e => cases t.run.kind <;> rfl
  · rfl

theorem timedBody_erase (env : BenchEnv) (clk : BenchClock) (j : Nat) (t : Timed) :
    benchBody env j t.run = (timedBody env clk j t).map Timed.run eraseLeft := by
  rw [benchBody, timedBody]
  by_cases hunf : t.run.completed < t.run.iterations
  · rw [if_pos hunf, if_pos hunf]
    cases postSends env (t.run.qdepth - t.run.outstanding) t.run with
    | error e => rfl
    | ok r =>
      cases env.poll j with
      | cqe ok =>
        cases ok with
        | true => exact timedCompletion_erase env clk { t with run := r }
        | false => rfl
      | timeout => rfl
      | error e => rfl
  · rw [if_neg hunf, if_neg hunf]
    rfl

/-- A run with a clock is the run without it. -/
theorem timedRun_erase (env : BenchEnv) (clk : BenchClock) (kvcalloc : Bool) (fuel : Nat)
    (r : Run) : (timedRun env clk kvcalloc fuel r).map TimedEnd.erase = benchRun env fuel r := by
  rw [timedRun, benchRun]
  cases prePosts env (benchPrePost r) r with
  | error e => rfl
  | ok r' =>
    have hmap := Loop.run_map (timedBody_erase env clk) fuel 0
      ⟨r', clk.start, if kvcalloc then some [] else none⟩
    dsimp only at hmap ⊢
    rw [hmap, Option.map_map, Option.map_map]
    congr 1
    funext x
    cases x with
    | mk ret t => cases ret <;> rfl

/-- The streaming call returns what the run of `BenchLoops` returns. -/
theorem benchmarkStreaming_ret {dev : BenchDev} {p : BenchParams} {mr : BenchMr} {fuel : Nat}
    (h : benchCheck dev p = .ok mr) :
    (benchmarkStreaming dev env clk kvcalloc fuel p).map (·.ret) =
      (Dmaplane.benchmarkStreaming env ⟨p.queueDepth, p.iterations⟩ fuel).map fun
        | .error e => some e
        | .ok _ => none := by
  rw [benchmarkStreaming, h, Dmaplane.benchmarkStreaming, ← timedRun_erase env clk kvcalloc,
    Option.map_map, Option.map_map]
  congr 1
  funext e
  simp only [Function.comp, TimedEnd.erase]
  cases e.ret <;> rfl

end Run

/-! ## Runs that complete -/

theorem successes_pollSucceeds (j : Nat) : pollSucceeds.successes j = j := by
  induction j with
  | zero => exact Nat.count_zero _
  | succ j ih => rw [successes_succ, ih]; rfl

theorem completes_pollSucceeds (r : Run) : Completes pollSucceeds r := by
  refine ⟨fun i _ => rfl, r.iterations, successes_pollSucceeds _, fun j hj => ?_⟩
  exact ⟨by rw [successes_pollSucceeds]; exact hj, fun i _ => rfl, .inl rfl, fun _ _ _ => rfl⟩

/-- Where the verbs layer answers well, the run returns without an error on every clock. -/
theorem timedRun_succeeds {r : Run} (hr : BenchRun r) (clk : BenchClock) (kvcalloc : Bool) :
    ∃ fuel e, timedRun pollSucceeds clk kvcalloc fuel r = some e ∧ e.ret = none := by
  rcases benchRun_cases pollSucceeds hr with ⟨hs, -⟩ | ⟨hc, -⟩ | ⟨-, -, fuel, r', hok, -⟩
  · have := (hs.2 r.iterations).unfinished
    rw [successes_pollSucceeds] at this
    exact absurd this (Nat.lt_irrefl _)
  · exact absurd (completes_pollSucceeds r) hc
  · rw [← timedRun_erase pollSucceeds clk kvcalloc] at hok
    obtain ⟨e, he, herase⟩ := Option.map_eq_some_iff.mp hok
    refine ⟨fuel, e, he, ?_⟩
    rw [TimedEnd.erase] at herase
    cases hret : e.ret with
    | none => rfl
    | some err => rw [hret] at herase; cases herase

end Dmaplane.Bench
