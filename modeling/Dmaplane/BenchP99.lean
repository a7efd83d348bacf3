import Dmaplane.BenchSweep
import Dmaplane.Lib.Rank

/-!
# Dmaplane.BenchP99

The `p99_latency_ns` of the benchmarks. The code sorts the latencies and takes the entry at
`(n * 99) / 100`, computed in `unsigned int`: the right one exactly if `99 * n` fits
(`p99Index_eq_iff`). From there on every benchmark reports a wrong one for some latencies, for
instance for those of a clock under which no two are equal.
-/

namespace Dmaplane.Bench

open Rank

/-- `v` is the entry at `⌊99 n / 100⌋` of the ascending sort of the `n` latencies. -/
def IsP99 (latencies : List (BitVec 64)) (v : BitVec 64) : Prop :=
  Ranked (99 * latencies.length / 100) latencies v

/-! ## The index and the sort -/

theorem cmpU64_le_zero (va vb : BitVec 64) : decide (rdmaEngineCmpU64 va vb ≤ 0) = true ↔ va ≤ vb := by
  rw [decide_eq_true_eq, rdmaEngineCmpU64]
  split
  · exact iff_of_true (by decide) (BitVec.le_of_lt ‹_›)
  · split
    · exact iff_of_false (by decide) (BitVec.not_le.mpr ‹_›)
    · exact iff_of_true (by decide) (BitVec.not_lt.mp ‹_›)

/-- In 32 bits the index is the right one until the product wraps. -/
theorem p99Index_eq_iff (n : Nat) : n * 99 % 2 ^ 32 / 100 = 99 * n / 100 ↔ 99 * n < 2 ^ 32 := by
  omega

theorem ranked_sortU64 {k : Nat} {latencies : List (BitVec 64)} {v : BitVec 64} :
    Ranked k latencies v ↔ (sortU64 latencies)[k]? = some v := ranked_mergeSort cmpU64_le_zero

theorem length_sortU64 (latencies : List (BitVec 64)) :
    (sortU64 latencies).length = latencies.length := List.length_mergeSort _

/-- What the code takes, where the index is right. -/
theorem isP99_of_fits {latencies : List (BitVec 64)} {n : Nat} (hlen : latencies.length = n)
    (hn : 1 ≤ n) (hfit : 99 * n < 2 ^ 32) :
    IsP99 latencies ((sortU64 latencies).getD (n * 99 % 2 ^ 32 / 100) 0) := by
  have hlt : 99 * n / 100 < (sortU64 latencies).length := by rw [length_sortU64, hlen]; omega
  rw [IsP99, ranked_sortU64, (p99Index_eq_iff n).mpr hfit, hlen, List.getD_eq_getElem?_getD,
    List.getElem?_eq_getElem hlt]
  rfl

/-- The latencies `0, 1, …, n - 1`. -/
def ascending (n : Nat) : List (BitVec 64) := (List.range n).map (BitVec.ofNat 64)

theorem ranked_ascending {n k : Nat} {v : BitVec 64} (hn : n < 2 ^ 32) :
    Ranked k (ascending n) v ↔ k < n ∧ v = BitVec.ofNat 64 k := by
  have hsorted : (ascending n).Pairwise (· ≤ ·) := by
    rw [ascending, List.pairwise_map]
    refine (List.pairwise_lt_range (n := n)).imp_of_mem fun ha hb hab => ?_
    have := List.mem_range.mp ha
    have := List.mem_range.mp hb
    show (BitVec.ofNat 64 _).toNat ≤ (BitVec.ofNat 64 _).toNat
    rw [BitVec.toNat_ofNat, BitVec.toNat_ofNat]
    omega
  rw [ranked_iff (List.Perm.refl _) hsorted, ascending, List.getElem?_map]
  rcases Nat.lt_or_ge k n with hlt | hge
  · rw [List.getElem?_range hlt]
    simp only [Option.map_some, Option.some.injEq, hlt, true_and]
    exact eq_comm
  · rw [List.getElem?_eq_none (by rw [List.length_range]; exact hge)]
    simp only [Option.map_none, reduceCtorEq, false_iff, not_and]
    intro h
    omega

/-- Where the product wraps, the code takes another entry, and no two are equal. -/
theorem not_isP99_ascending {n : Nat} (hn : n < 2 ^ 32) (hwrap : 2 ^ 32 ≤ 99 * n) :
    ¬ IsP99 (ascending n) ((sortU64 (ascending n)).getD (n * 99 % 2 ^ 32 / 100) 0) := by
  have hlen : (ascending n).length = n := by rw [ascending, List.length_map, List.length_range]
  have hlt : n * 99 % 2 ^ 32 / 100 < n := by omega
  have htake : Ranked (n * 99 % 2 ^ 32 / 100) (ascending n)
      ((sortU64 (ascending n)).getD (n * 99 % 2 ^ 32 / 100) 0) := by
    rw [ranked_sortU64, List.getD_eq_getElem?_getD,
      List.getElem?_eq_getElem (by rw [length_sortU64, hlen]; exact hlt)]
    rfl
  intro h
  rw [IsP99, hlen] at h
  have hv := ((ranked_ascending hn).mp htake).2
  have hv' := ((ranked_ascending hn).mp h).2
  rw [hv] at hv'
  have hnat := congrArg BitVec.toNat hv'
  have hfit : n * 99 % 2 ^ 32 / 100 < 2 ^ 64 := by omega
  have hfit' : 99 * n / 100 < 2 ^ 64 := by omega
  rw [BitVec.toNat_ofNat, BitVec.toNat_ofNat, Nat.mod_eq_of_lt hfit,
    Nat.mod_eq_of_lt hfit'] at hnat
  exact absurd ((p99Index_eq_iff n).mp hnat) (Nat.not_lt.mpr hwrap)

/-! ## The latencies of a run -/

/-- The latencies of the first `n` iterations of `benchmark_pingpong`. -/
def PingEnv.latencies (env : PingEnv) (n : Nat) : List (BitVec 64) :=
  (List.range n).map fun i => env.iterEnd i - env.iterStart i

theorem pingLoop_ok {env : PingEnv} : ∀ {n i : Nat} {s s' : PingRun},
    pingLoop env n i s = (none, s') → s.latencies = env.latencies i →
    s'.latencies = env.latencies (i + n) := by
  intro n
  induction n with
  | zero => intro i s s' h hs; cases h; exact hs
  | succ n ih =>
    intro i s s' h hs
    rw [pingLoop] at h
    split at h
    · cases h
    · have hrest := ih h (by
        show s.latencies ++ [env.iterEnd i - env.iterStart i] = _
        rw [hs, PingEnv.latencies, PingEnv.latencies, List.range_succ, List.map_append]
        rfl)
      rwa [Nat.add_right_comm] at hrest

theorem pingLoop_succeeds (env : PingEnv) (h : ∀ i, pingIteration env i = none) :
    ∀ (n i : Nat) (s : PingRun), ∃ s', pingLoop env n i s = (none, s') := by
  intro n
  induction n with
  | zero => intro i s; exact ⟨s, rfl⟩
  | succ n ih =>
    intro i s
    rw [pingLoop, h i]
    exact ih _ _

/-- What a call that returns 0 reports. -/
theorem benchmarkPingpong_ok {dev : BenchDev} {env : PingEnv} {p : BenchParams}
    (h : (benchmarkPingpong dev env p).ret = none) :
    ∃ mr s, s.latencies = env.latencies p.iterations.toNat ∧
      (benchmarkPingpong dev env p).params = pingResults mr s p := by
  rw [benchmarkPingpong] at h ⊢
  cases hc : benchCheck dev p with
  | error e => rw [hc] at h; cases h
  | ok mr =>
    rw [hc] at h
    dsimp only at h ⊢
    split at h
    · cases h
    · rename_i halloc
      rw [if_neg halloc]
      split at h
      · cases h
      · rename_i s hloop
        have hlat := pingLoop_ok hloop rfl
        rw [Nat.zero_add] at hlat
        exact ⟨mr, s, hlat, rfl⟩

/-- What a streaming call reports, whichever exit it takes. -/
theorem benchmarkStreaming_spec {dev : BenchDev} {env : BenchEnv} {clk : BenchClock}
    {kvcalloc : Bool} {fuel : Nat} {p : BenchParams} {mr : BenchMr} {call : BenchCall}
    (hc : benchCheck dev p = .ok mr)
    (h : benchmarkStreaming dev env clk kvcalloc fuel p = some call) :
    ∃ e, timedRun env clk kvcalloc fuel (streamRun ⟨p.queueDepth, p.iterations⟩) = some e ∧
      EndOk clk kvcalloc p.iterations.toNat e ∧ call.ret = e.ret ∧
      call.params = streamResults mr clk e p := by
  rw [benchmarkStreaming, hc] at h
  obtain ⟨e, he, rfl⟩ := Option.map_eq_some_iff.mp h
  exact ⟨e, he, timedRun_spec (benchRun_stream _) he, rfl, rfl⟩

/-! ## The three benchmarks -/

/-- PINGPONG of `n` iterations reports the right entry. -/
def PingpongP99 (n : Nat) : Prop :=
  ∀ (dev : BenchDev) (env : PingEnv) (p : BenchParams), p.iterations.toNat = n →
    (benchmarkPingpong dev env p).ret = none →
    IsP99 (env.latencies n) (benchmarkPingpong dev env p).params.p99LatencyNs

/-- Every streaming call that has completed `n` iterations and recorded their latencies does, also
one that ends with an error. -/
def StreamingP99 (n : Nat) : Prop :=
  ∀ (dev : BenchDev) (env : BenchEnv) (clk : BenchClock) (fuel : Nat) (p : BenchParams)
    (e : TimedEnd) (mr : BenchMr) (call : BenchCall),
    timedRun env clk true fuel (streamRun ⟨p.queueDepth, p.iterations⟩) = some e →
    e.timed.run.completed = n → benchCheck dev p = .ok mr →
    benchmarkStreaming dev env clk true fuel p = some call →
    IsP99 (clk.intervals n) call.params.p99LatencyNs

/-- A sweep of `n` iterations does at each of its points that has recorded their latencies. -/
def SweepP99 (n : Nat) : Prop :=
  ∀ (dev : BenchDev) (env : SweepEnv) (fuel : Nat) (q : SweepRequest) (out : SweepResults)
    (s : SweepState), out.Sized → sweepRejected q.sweep = false → q.sweep.iterations.toNat = n →
    dmaplaneQdepthSweep dev env fuel q out = some (none, s) →
    ∀ i, i < nrPoints q.sweep → env.kvcalloc i = true →
      ∃ v, s.out.p99LatencyNs[i]? = some v ∧ IsP99 ((env.clock i).intervals n) v

section Fits

variable {n : Nat}

theorem pingpongP99_of_fits (hn : 1 ≤ n) (hfit : 99 * n < 2 ^ 32) : PingpongP99 n := by
  rintro dev env p rfl hret
  obtain ⟨mr, s, hlat, hp⟩ := benchmarkPingpong_ok hret
  rw [hp, ← hlat]
  exact isP99_of_fits (by rw [hlat, PingEnv.latencies, List.length_map, List.length_range]) hn hfit

theorem streamResults_p99 {mr : BenchMr} {clk : BenchClock} {e : TimedEnd} {p : BenchParams}
    (hn : 0 < e.timed.run.completed) (hrec : e.timed.recorded clk true) :
    (streamResults mr clk e p).p99LatencyNs =
      (sortU64 (clk.intervals e.timed.run.completed)).getD
        (e.timed.run.completed * 99 % 2 ^ 32 / 100) 0 := by
  rw [Timed.recorded, if_pos rfl] at hrec
  simp only [streamResults, hrec]
  rw [if_pos hn]

theorem streamingP99_of_fits (hn : 1 ≤ n) (hfit : 99 * n < 2 ^ 32) : StreamingP99 n := by
  rintro dev env clk fuel p e mr call he rfl hc h
  obtain ⟨e', he', hok, -, hp⟩ := benchmarkStreaming_spec hc h
  obtain rfl := Option.some.inj (he.symm.trans he')
  rw [hp, streamResults_p99 hn hok.recorded]
  exact isP99_of_fits (intervals_length _ _) hn hfit

theorem pointP99_eq {clk : BenchClock} {t : Timed} (hn : 0 < t.run.completed)
    (hrec : t.recorded clk true) :
    pointP99 t = some ((sortU64 (clk.intervals t.run.completed)).getD
      (t.run.completed * 99 % 2 ^ 32 / 100) 0) := by
  rw [Timed.recorded, if_pos rfl] at hrec
  simp only [pointP99, hrec]
  rw [if_pos hn]

/-- What a sweep reports at a point that has recorded its latencies. -/
theorem sweep_p99 {dev : BenchDev} {env : SweepEnv} {fuel : Nat} {q : SweepRequest}
    {out : SweepResults} {s : SweepState} (hout : out.Sized) (hq : sweepRejected q.sweep = false)
    (hit : q.sweep.iterations.toNat = n) (hn : 1 ≤ n)
    (h : dmaplaneQdepthSweep dev env fuel q out = some (none, s)) {i : Nat}
    (hi : i < nrPoints q.sweep) (halloc : env.kvcalloc i = true) :
    s.out.p99LatencyNs[i]? =
      some ((sortU64 ((env.clock i).intervals n)).getD (n * 99 % 2 ^ 32 / 100) 0) := by
  obtain ⟨s₁, hswept, -, -, -, hent⟩ := (dmaplaneQdepthSweep_spec hout hq h).2 rfl
  obtain ⟨e, he, hpoint⟩ := hswept.points i hi
  have hok := he.endOk hq hi
  have hc := he.completed hq hi
  rw [hit] at hc
  have hrec := hok.recorded
  rw [halloc] at hrec
  have hlt : i < out.p99LatencyNs.length := by
    have := nrPoints_le q.sweep
    rw [hout.p99]
    omega
  have hget : s.out.p99LatencyNs[i]? = out.p99LatencyNs[i]?.map (pointP99 e.timed).getD :=
    congrArg PointEntries.p99 ((hent i).trans hpoint)
  rw [hget, pointP99_eq (by omega) hrec, hc, List.getElem?_eq_getElem hlt]
  rfl

theorem sweepP99_of_fits (hn : 1 ≤ n) (hfit : 99 * n < 2 ^ 32) : SweepP99 n := by
  intro dev env fuel q out s hout hq hit h i hi halloc
  exact ⟨_, sweep_p99 hout hq hit hn h hi halloc, isP99_of_fits (intervals_length _ _) hn hfit⟩

end Fits

/-! ## Runs whose latencies ascend -/

/-- Iteration `i` takes `i` ns, and everything succeeds. -/
def ascendingPing : PingEnv :=
  { kvcalloc := true, postRecv := fun _ => none, postSend := fun _ => none
    pollA := fun _ => .cqe true, pollB := fun _ => .cqe true
    iterStart := fun _ => 0, iterEnd := fun i => BitVec.ofNat 64 i }

/-- The clock under which completion `k` comes `k` ns after the one before it. -/
def ascendingClock : BenchClock :=
  { unset := 0, start := 0, now := fun k => BitVec.ofNat 64 (∑ i ∈ Finset.range (k + 1), i)
    stop := 1 }

theorem latencies_ascendingPing (n : Nat) : ascendingPing.latencies n = ascending n := by
  refine List.map_congr_left fun i _ => ?_
  show BitVec.ofNat 64 i - 0 = BitVec.ofNat 64 i
  exact BitVec.sub_zero _

theorem intervals_ascendingClock (n : Nat) : ascendingClock.intervals n = ascending n := by
  refine List.map_congr_left fun k _ => ?_
  cases k with
  | zero => rfl
  | succ k =>
    show BitVec.ofNat 64 (∑ i ∈ Finset.range (k + 1 + 1), i) -
      BitVec.ofNat 64 (∑ i ∈ Finset.range (k + 1), i) = BitVec.ofNat 64 (k + 1)
    rw [Finset.sum_range_succ, BitVec.ofNat_add, BitVec.add_comm, BitVec.add_sub_cancel]

/-- A request of `n` iterations of one byte. -/
def benchOf (n : Nat) : BenchParams :=
  { mrId := 7, msgSize := 1, iterations := UInt32.ofNat n, queueDepth := 0, totalNs := 0
    avgLatencyNs := 0, p99LatencyNs := 0, throughputMbps := 0, mrRegNs := 0 }

theorem iterations_ofNat {n : Nat} (hn : n < 2 ^ 32) : (UInt32.ofNat n).toNat = n := by
  rw [UInt32.toNat_ofNat']
  exact Nat.mod_eq_of_lt hn

theorem benchCheck_benchOf {n : Nat} (h1 : 1 ≤ n) (hn : n < 2 ^ 32) :
    benchCheck steadyDev (benchOf n) = .ok ⟨1, 0⟩ := by
  have hne : UInt32.ofNat n ≠ 0 := by
    intro h
    have := congrArg UInt32.toNat h
    rw [iterations_ofNat hn] at this
    exact absurd this (by show n ≠ 0; omega)
  rw [benchCheck, if_neg]
  · rfl
  · simp [steadyDev, benchOf, hne]

/-- A sweep of one point with `n` iterations of one byte. -/
def sweepOf (n : Nat) : SweepRequest := ⟨7, 1, ⟨1, 1, 1, UInt32.ofNat n⟩⟩

/-- Its points succeed and take the ascending clock. -/
def ascendingSweep : SweepEnv :=
  { verbs := fun _ => pollSucceeds, clock := fun _ => ascendingClock, kvcalloc := fun _ => true }

theorem nrPoints_sweepOf (n : Nat) : nrPoints (sweepOf n).sweep = 1 :=
  show nrPoints ⟨1, 1, 1, 0⟩ = 1 by decide

theorem sweepOf_accepted {n : Nat} (h1 : 1 ≤ n) (hn : n < 2 ^ 32) :
    sweepRejected (sweepOf n).sweep = false := by
  have hne : UInt32.ofNat n ≠ 0 := by
    intro h
    have := congrArg UInt32.toNat h
    rw [iterations_ofNat hn] at this
    exact absurd this (by show n ≠ 0; omega)
  simp [sweepRejected, sweepOf, hne]

section Wraps

variable {n : Nat}

/-- PINGPONG succeeds with the ascending latencies. -/
theorem pingpong_ascending (h1 : 1 ≤ n) (hn : n < 2 ^ 32) :
    (benchmarkPingpong steadyDev ascendingPing (benchOf n)).ret = none ∧
      (benchmarkPingpong steadyDev ascendingPing (benchOf n)).params.p99LatencyNs =
        (sortU64 (ascending n)).getD (n * 99 % 2 ^ 32 / 100) 0 := by
  have hit : (benchOf n).iterations.toNat = n := iterations_ofNat hn
  obtain ⟨s, hs⟩ := pingLoop_succeeds ascendingPing (fun _ => rfl) n 0
    { rdmaHist := steadyDev.rdmaHist }
  have hret : (benchmarkPingpong steadyDev ascendingPing (benchOf n)).ret = none := by
    rw [benchmarkPingpong, benchCheck_benchOf h1 hn]
    dsimp only
    rw [if_neg (by decide), hit, hs]
  obtain ⟨mr, s', hlat, hp⟩ := benchmarkPingpong_ok hret
  rw [hit, latencies_ascendingPing] at hlat
  refine ⟨hret, ?_⟩
  rw [hp, pingResults, hit, hlat]

theorem streaming_ascending (h1 : 1 ≤ n) (hn : n < 2 ^ 32) :
    ∃ fuel e call, timedRun pollSucceeds ascendingClock true fuel
        (streamRun ⟨(benchOf n).queueDepth, (benchOf n).iterations⟩) = some e ∧
      e.timed.run.completed = n ∧
      benchmarkStreaming steadyDev pollSucceeds ascendingClock true fuel (benchOf n) =
        some call ∧
      call.params.p99LatencyNs = (sortU64 (ascending n)).getD (n * 99 % 2 ^ 32 / 100) 0 := by
  have hit : (benchOf n).iterations.toNat = n := iterations_ofNat hn
  obtain ⟨fuel, e, he, hret⟩ := timedRun_succeeds
    (benchRun_stream ⟨(benchOf n).queueDepth, (benchOf n).iterations⟩) ascendingClock true
  have hcheck := benchCheck_benchOf h1 hn
  have hcall : benchmarkStreaming steadyDev pollSucceeds ascendingClock true fuel (benchOf n) =
      some ⟨e.ret, streamResults ⟨1, 0⟩ ascendingClock e (benchOf n),
        recordAll e.timed steadyDev.rdmaHist⟩ := by
    rw [benchmarkStreaming, hcheck]
    dsimp only
    rw [he]
    rfl
  have hok := timedRun_spec (benchRun_stream _) he
  have hc : e.timed.run.completed = n := ((hok.all hret).1).trans hit
  refine ⟨fuel, e, _, he, hc, hcall, ?_⟩
  show (streamResults _ _ _ _).p99LatencyNs = _
  rw [streamResults_p99 (by omega) hok.recorded, hc, intervals_ascendingClock]

theorem sweep_ascending (h1 : 1 ≤ n) (hn : n < 2 ^ 32) :
    ∃ fuel s, dmaplaneQdepthSweep steadyDev ascendingSweep fuel (sweepOf n) zeroResults =
        some (none, s) ∧
      s.out.p99LatencyNs[0]? = some ((sortU64 (ascending n)).getD (n * 99 % 2 ^ 32 / 100) 0) := by
  have hq := sweepOf_accepted h1 hn
  have hit : (sweepOf n).sweep.iterations.toNat = n := iterations_ofNat hn
  have hnr := nrPoints_sweepOf n
  obtain ⟨fuel, e, he, hret⟩ := timedRun_succeeds
    (benchRun_sweep hq 0 (by rw [hnr]; exact Nat.one_pos)) ascendingClock true
  have hzero := swept_zero ascendingSweep (sweepOf n) fuel zeroResults_sized steadyDev.rdmaHist
  obtain ⟨s₁, hpoint, hswept⟩ := hzero.step (by decide) ⟨he, hret⟩
  have hloop : sweepLoop ascendingSweep (sweepOf n) fuel 1 0
      { out := zeroResults, maxThroughput := 0, rdmaHist := steadyDev.rdmaHist } =
        some (none, s₁) := by
    rw [sweepLoop]
    simp only [ascendingSweep] at hpoint ⊢
    rw [he]
    simp only [hret, hpoint]
    rfl
  have hcall : dmaplaneQdepthSweep steadyDev ascendingSweep fuel (sweepOf n) zeroResults =
      some (none, { s₁ with out := { s₁.out with
        nrPoints := nrPoints (sweepOf n).sweep, saturationQdepth := 0, status := 0 } }) := by
    have hsize : (sweepOf n).msgSize = 1 := rfl
    rw [dmaplaneQdepthSweep, if_neg (by decide), hq, hsize, if_neg (by decide)]
    obtain ⟨mr, hmr⟩ : ∃ mr, benchTarget steadyDev (sweepOf n).mrId 1 = .ok mr := ⟨_, rfl⟩
    rw [hmr]
    dsimp only
    rw [hnr, hloop]
    dsimp only
    rw [saturationQdepth, if_neg (by rw [hnr]; omega)]
  have hp99 := sweep_p99 zeroResults_sized hq hit h1 hcall (i := 0)
    (by rw [hnr]; exact Nat.one_pos) rfl
  rw [show (ascendingSweep.clock 0).intervals n = ascending n from
    intervals_ascendingClock n] at hp99
  exact ⟨fuel, _, hcall, hp99⟩

end Wraps

/-- **P99.** For every number `n` of completed iterations, each of the benchmarks reports the entry
at `⌊99 n / 100⌋` of the sorted latencies, whatever these are, exactly if `99 * n` fits 32 bits. -/
theorem p99_iff_fits {n : Nat} (h1 : 1 ≤ n) (hn : n < 2 ^ 32) :
    (PingpongP99 n ↔ 99 * n < 2 ^ 32) ∧ (StreamingP99 n ↔ 99 * n < 2 ^ 32) ∧
      (SweepP99 n ↔ 99 * n < 2 ^ 32) := by
  refine ⟨⟨fun h => ?_, pingpongP99_of_fits h1⟩, ⟨fun h => ?_, streamingP99_of_fits h1⟩,
    ⟨fun h => ?_, sweepP99_of_fits h1⟩⟩ <;> by_contra hwrap <;>
    refine not_isP99_ascending hn (Nat.not_lt.mp hwrap) ?_
  · obtain ⟨hret, hp⟩ := pingpong_ascending h1 hn
    have hbad := h steadyDev ascendingPing (benchOf n) (iterations_ofNat hn) hret
    rwa [hp, latencies_ascendingPing] at hbad
  · obtain ⟨fuel, e, call, he, hc, hcall, hp⟩ := streaming_ascending h1 hn
    have hbad := h _ _ _ fuel _ e _ call he hc (benchCheck_benchOf h1 hn) hcall
    rwa [hp, intervals_ascendingClock] at hbad
  · obtain ⟨fuel, s, hcall, hp⟩ := sweep_ascending h1 hn
    obtain ⟨v, hv, hbad⟩ := h steadyDev ascendingSweep fuel (sweepOf n) zeroResults s
      zeroResults_sized (sweepOf_accepted h1 hn) (iterations_ofNat hn) hcall 0
      (by rw [nrPoints_sweepOf]; exact Nat.one_pos) rfl
    rw [hp] at hv
    rw [Option.some.inj hv]
    rwa [show (ascendingSweep.clock 0).intervals n = ascending n from
      intervals_ascendingClock n] at hbad

/-- All three report the right entry of 1000 latencies. -/
theorem p99_fits_thousand : PingpongP99 1000 ∧ StreamingP99 1000 ∧ SweepP99 1000 := by
  obtain ⟨h1, h2, h3⟩ := p99_iff_fits (n := 1000) (by omega) (by omega)
  exact ⟨h1.mpr (by omega), h2.mpr (by omega), h3.mpr (by omega)⟩

/-- What the sort has at an index of the ascending latencies. -/
theorem getD_ascending {n k : Nat} (hn : n < 2 ^ 32) (hk : k < n) :
    (sortU64 (ascending n)).getD k 0 = BitVec.ofNat 64 k := by
  have hlt : k < (sortU64 (ascending n)).length := by
    rw [length_sortU64, ascending, List.length_map, List.length_range]
    exact hk
  have hranked : Ranked k (ascending n) ((sortU64 (ascending n)).getD k 0) := by
    rw [ranked_sortU64, List.getD_eq_getElem?_getD, List.getElem?_eq_getElem hlt]
    rfl
  exact ((ranked_ascending hn).mp hranked).2

/-- A call of PINGPONG in which the index has wrapped. -/
theorem pingpong_wraps {n : Nat} (hn : n < 2 ^ 32) (hwrap : 2 ^ 32 ≤ 99 * n) :
    (benchmarkPingpong steadyDev ascendingPing (benchOf n)).ret = none ∧
      (benchmarkPingpong steadyDev ascendingPing (benchOf n)).params.p99LatencyNs =
        BitVec.ofNat 64 (n * 99 % 2 ^ 32 / 100) ∧
      ¬ IsP99 (ascendingPing.latencies n)
        (benchmarkPingpong steadyDev ascendingPing (benchOf n)).params.p99LatencyNs := by
  obtain ⟨hret, hp⟩ := pingpong_ascending (n := n) (by omega) hn
  refine ⟨hret, hp.trans (getD_ascending hn (by omega)), ?_⟩
  rw [hp, latencies_ascendingPing]
  exact not_isP99_ascending hn hwrap

/-- Of the latencies `0, …, 43383508` PINGPONG reports the smallest: `43383509 * 99` is
`2 ^ 32 + 95`. -/
theorem p99_wraps :
    (benchmarkPingpong steadyDev ascendingPing (benchOf 43383509)).ret = none ∧
      (benchmarkPingpong steadyDev ascendingPing (benchOf 43383509)).params.p99LatencyNs = 0 ∧
      ¬ IsP99 (ascendingPing.latencies 43383509)
        (benchmarkPingpong steadyDev ascendingPing (benchOf 43383509)).params.p99LatencyNs := by
  obtain ⟨hret, hp, hbad⟩ := pingpong_wraps (n := 43383509) (by omega) (by omega)
  have hindex : 43383509 * 99 % 2 ^ 32 / 100 = 0 := by omega
  rw [hindex] at hp
  exact ⟨hret, hp, hbad⟩

end Dmaplane.Bench
