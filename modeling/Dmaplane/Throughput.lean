import Dmaplane.BenchP99
import Dmaplane.GpuCalls
import Dmaplane.NumaBench
import Mathlib.Tactic.Ring

/-!
# Dmaplane.Throughput

The MB/s of the five benchmarks, `bytes * 1000 / ns` in 64 bits. The quotient is the one over the
integers exactly if the product fits (`mbps_toNat_iff`): a product that wraps is too small by at
least `2 ^ 64`, more than any divisor.

Of the five only the NUMA benchmark bounds its inputs so that it always fits.
-/

namespace Dmaplane.Bench

/-! ## The quotient -/

/-- A dividend that has wrapped gives another quotient, whatever the divisor. -/
theorem mod_div_eq_iff {x m d : Nat} (hd : 0 < d) (hdm : d ≤ m) :
    x % m / d = x / d ↔ x < m := by
  refine ⟨fun h => ?_, fun h => by rw [Nat.mod_eq_of_lt h]⟩
  by_contra hge
  have hmul : m ≤ m * (x / m) :=
    Nat.le_mul_of_pos_right m (Nat.div_pos (Nat.not_lt.mp hge) (hd.trans_le hdm))
  have hdecomp := Nat.mod_add_div x m
  have hle : (x % m + d) / d ≤ x / d := Nat.div_le_div_right (by omega)
  rw [Nat.add_div_right _ hd, h] at hle
  omega

/-- The report of `bytes` in `ns`, where the bytes have been computed in 64 bits too. -/
theorem mbps_toNat_iff {total ns : BitVec 64} {bytes : Nat} (hns : ns ≠ 0)
    (htotal : total.toNat = bytes % 2 ^ 64) :
    (total * 1000 / ns).toNat = bytes * 1000 / ns.toNat ↔ bytes * 1000 < 2 ^ 64 := by
  have hpos : 0 < ns.toNat := Nat.pos_of_ne_zero fun h => hns (BitVec.eq_of_toNat_eq h)
  have hmul : (total * 1000).toNat = bytes * 1000 % 2 ^ 64 := by
    rw [BitVec.toNat_mul, htotal]
    exact Nat.mod_mul_mod bytes 1000 (2 ^ 64)
  rw [BitVec.toNat_udiv, hmul]
  exact mod_div_eq_iff hpos ns.isLt.le

/-- `(__u64)msg_size * count`. -/
theorem toNat_bytes (msgSize : UInt32) (count : Nat) :
    (BitVec.ofNat 64 (msgSize.toNat * count)).toNat = msgSize.toNat * count % 2 ^ 64 :=
  BitVec.toNat_ofNat ..

theorem pos_iff {ns : BitVec 64} : ns > 0 ↔ ns ≠ 0 := by
  constructor
  · rintro h rfl
    exact absurd h (by decide)
  · intro h
    exact Nat.pos_of_ne_zero fun h0 => h (BitVec.eq_of_toNat_eq h0)

/-! ## `dmaplane_gpu_benchmark` -/

/-- What the clock shows and the revocation flag says in one direction. -/
structure GpuTransfer where
  start : Ktime
  stop : Ktime
  revoked : Nat → Bool

/-- `*h2g_mbps` and `*g2h_mbps`. -/
def gpuMbps (transferSize : BitVec 64) (iterations : BitVec 32) (t : GpuTransfer) : BitVec 64 :=
  let totalNs := t.stop - t.start
  if totalNs > 0 then transferSize * iterations.setWidth 64 * 1000 / totalNs else 0

/-- `gpu_revoked` is read before each iteration. -/
def GpuTransfer.stopped (t : GpuTransfer) (iterations : BitVec 32) : Bool :=
  (List.range iterations.toNat).any t.revoked

/-- The smaller of the two buffers. -/
def transferSize (gpuBuf : DmaplaneGpuBuffer) (hostBuf : DmaplaneBuffer) : BitVec 64 :=
  if hostBuf.size < gpuBuf.size then hostBuf.size else gpuBuf.size

/-- `dmaplane_gpu_benchmark` with what it measures. -/
def gpuBenchmark (dev : BufTable) (gpuHandle hostHandle iterations : BitVec 32)
    (h2g g2h : GpuTransfer) (d : GpuDev) : Except GpuOops (Except Errno (BitVec 64 × BitVec 64)) :=
  if iterations = 0 then .ok (.error .EINVAL)
  else do
    match ← gpuLookup gpuHandle d with
    | .error e => return .error e
    | .ok gpuBuf =>
      match hostLookup dev hostHandle with
      | .error e => return .error e
      | .ok hostBuf =>
        let size := transferSize gpuBuf hostBuf
        if size = 0 then return .error .EINVAL
        else if h2g.stopped iterations then return .error .ENODEV
        else if g2h.stopped iterations then return .error .ENODEV
        else return .ok (gpuMbps size iterations h2g, gpuMbps size iterations g2h)

theorem transferSize_toNat (gpuBuf : DmaplaneGpuBuffer) (hostBuf : DmaplaneBuffer) :
    (transferSize gpuBuf hostBuf).toNat = min gpuBuf.size.toNat hostBuf.size.toNat := by
  rw [transferSize]
  split
  · rename_i h
    exact (Nat.min_eq_right (Nat.le_of_lt h)).symm
  · rename_i h
    exact (Nat.min_eq_left (Nat.not_lt.mp h)).symm

/-- Its checks are those of `dmaplaneGpuBenchmark`; beyond them it can only meet a revocation. -/
theorem gpuBenchmark_checks (dev : BufTable) (gpuHandle hostHandle iterations : BitVec 32)
    (h2g g2h : GpuTransfer) (d : GpuDev) :
    (∀ e, dmaplaneGpuBenchmark dev gpuHandle hostHandle iterations d = .ok (.error e) →
      gpuBenchmark dev gpuHandle hostHandle iterations h2g g2h d = .ok (.error e)) ∧
    (dmaplaneGpuBenchmark dev gpuHandle hostHandle iterations d = .ok (.ok ()) →
      gpuBenchmark dev gpuHandle hostHandle iterations h2g g2h d = .ok (.error .ENODEV) ∨
        ∃ r, gpuBenchmark dev gpuHandle hostHandle iterations h2g g2h d = .ok (.ok r)) := by
  rw [dmaplaneGpuBenchmark, gpuBenchmark]
  simp only [bind, Except.bind, pure, Except.pure]
  by_cases hit : iterations = 0
  · rw [if_pos hit, if_pos hit]
    exact ⟨fun e h => (by cases h; rfl), fun h => (by cases h)⟩
  · rw [if_neg hit, if_neg hit]
    cases gpuLookup gpuHandle d with
    | error o => exact ⟨fun e h => (by cases h), fun h => (by cases h)⟩
    | ok r =>
      cases r with
      | error e => exact ⟨fun e' h => (by cases h; rfl), fun h => (by cases h)⟩
      | ok gpuBuf =>
        dsimp only
        cases hostLookup dev hostHandle with
        | error e => exact ⟨fun e' h => (by cases h; rfl), fun h => (by cases h)⟩
        | ok hostBuf =>
          have hzero : transferSize gpuBuf hostBuf = 0 ↔
              min gpuBuf.size.toNat hostBuf.size.toNat = 0 := by
            rw [← transferSize_toNat]
            exact ⟨fun h => by rw [h]; rfl, fun h => BitVec.eq_of_toNat_eq h⟩
          dsimp only
          by_cases hsize : min gpuBuf.size.toNat hostBuf.size.toNat = 0
          · rw [if_pos hsize, if_pos (hzero.mpr hsize)]
            exact ⟨fun e h => (by cases h; rfl), fun h => (by cases h)⟩
          · rw [if_neg hsize, if_neg fun h => hsize (hzero.mp h)]
            refine ⟨fun e h => (by cases h), fun _ => ?_⟩
            split
            · exact .inl rfl
            · split
              · exact .inl rfl
              · exact .inr ⟨_, rfl⟩

/-- What a call that returns 0 reports. -/
theorem gpuBenchmark_ok {dev : BufTable} {gpuHandle hostHandle iterations : BitVec 32}
    {h2g g2h : GpuTransfer} {d : GpuDev} {r : BitVec 64 × BitVec 64}
    (h : gpuBenchmark dev gpuHandle hostHandle iterations h2g g2h d = .ok (.ok r)) :
    ∃ gpuBuf hostBuf, gpuLookup gpuHandle d = .ok (.ok gpuBuf) ∧
      hostLookup dev hostHandle = .ok hostBuf ∧
      r = (gpuMbps (transferSize gpuBuf hostBuf) iterations h2g,
        gpuMbps (transferSize gpuBuf hostBuf) iterations g2h) := by
  rw [gpuBenchmark] at h
  simp only [bind, Except.bind, pure, Except.pure] at h
  split at h
  · cases h
  · cases hg : gpuLookup gpuHandle d with
    | error o => rw [hg] at h; cases h
    | ok g =>
      rw [hg] at h
      cases g with
      | error e => cases h
      | ok gpuBuf =>
        dsimp only at h
        cases hh : hostLookup dev hostHandle with
        | error e => rw [hh] at h; cases h
        | ok hostBuf =>
          rw [hh] at h
          dsimp only at h
          split at h
          · cases h
          · split at h
            · cases h
            · split at h
              · cases h
              · cases h
                exact ⟨gpuBuf, hostBuf, rfl, rfl, rfl⟩

theorem gpuMbps_toNat_iff {size : BitVec 64} {iterations : BitVec 32} {t : GpuTransfer}
    (hns : t.stop - t.start ≠ 0) :
    (gpuMbps size iterations t).toNat =
        size.toNat * iterations.toNat * 1000 / (t.stop - t.start).toNat ↔
      size.toNat * iterations.toNat * 1000 < 2 ^ 64 := by
  rw [gpuMbps, if_pos (pos_iff.mpr hns)]
  refine mbps_toNat_iff hns ?_
  rw [BitVec.toNat_mul, BitVec.toNat_setWidth, Nat.mod_eq_of_lt (by omega : iterations.toNat < _)]

/-! ## The other four -/

theorem pingpong_mbps_iff {dev : BenchDev} {env : PingEnv} {p : BenchParams}
    (h : (benchmarkPingpong dev env p).ret = none)
    (hns : (benchmarkPingpong dev env p).params.totalNs ≠ 0) :
    (benchmarkPingpong dev env p).params.throughputMbps.toNat =
        p.msgSize.toNat * p.iterations.toNat * 1000 /
          (benchmarkPingpong dev env p).params.totalNs.toNat ↔
      p.msgSize.toNat * p.iterations.toNat * 1000 < 2 ^ 64 := by
  obtain ⟨mr, s, -, hp⟩ := benchmarkPingpong_ok h
  rw [hp] at hns ⊢
  have hput : (pingResults mr s p).throughputMbps =
      BitVec.ofNat 64 (p.msgSize.toNat * p.iterations.toNat) * 1000 /
        (pingResults mr s p).totalNs := if_pos (pos_iff.mpr hns)
  rw [hput]
  exact mbps_toNat_iff hns (toNat_bytes _ _)

/-- On every exit, with the iterations completed by then. -/
theorem streaming_mbps_iff {dev : BenchDev} {env : BenchEnv} {clk : BenchClock} {kvcalloc : Bool}
    {fuel : Nat} {p : BenchParams} {e : TimedEnd} {mr : BenchMr} {call : BenchCall}
    (he : timedRun env clk kvcalloc fuel (streamRun ⟨p.queueDepth, p.iterations⟩) = some e)
    (hc : benchCheck dev p = .ok mr)
    (h : benchmarkStreaming dev env clk kvcalloc fuel p = some call)
    (hns : call.params.totalNs ≠ 0) :
    call.params.throughputMbps.toNat =
        p.msgSize.toNat * e.timed.run.completed * 1000 / call.params.totalNs.toNat ↔
      p.msgSize.toNat * e.timed.run.completed * 1000 < 2 ^ 64 := by
  obtain ⟨e', he', -, -, hp⟩ := benchmarkStreaming_spec hc h
  obtain rfl := Option.some.inj (he.symm.trans he')
  rw [hp] at hns ⊢
  have hput : (streamResults mr clk e p).throughputMbps =
      BitVec.ofNat 64 (p.msgSize.toNat * e.timed.run.completed) * 1000 /
        (streamResults mr clk e p).totalNs := if_pos (pos_iff.mpr hns)
  rw [hput]
  exact mbps_toNat_iff hns (toNat_bytes _ _)

/-- At each point. -/
theorem sweep_mbps_iff {dev : BenchDev} {env : SweepEnv} {fuel : Nat} {q : SweepRequest}
    {out : SweepResults} {s : SweepState} (hout : out.Sized) (hq : sweepRejected q.sweep = false)
    (h : dmaplaneQdepthSweep dev env fuel q out = some (none, s)) {i : Nat}
    (hi : i < nrPoints q.sweep) (hns : (env.clock i).stop - (env.clock i).start ≠ 0) :
    ∃ v, s.out.throughputMbps[i]? = some v ∧
      (v.toNat = q.msgSize.toNat * q.sweep.iterations.toNat * 1000 /
          ((env.clock i).stop - (env.clock i).start).toNat ↔
        q.msgSize.toNat * q.sweep.iterations.toNat * 1000 < 2 ^ 64) := by
  obtain ⟨s₁, hswept, -, -, -, hent⟩ := (dmaplaneQdepthSweep_spec hout hq h).2 rfl
  obtain ⟨e, he, hpoint⟩ := hswept.points i hi
  have hlt : i < out.throughputMbps.length := by
    have := nrPoints_le q.sweep
    rw [hout.throughput]
    omega
  have hget : s.out.throughputMbps[i]? = out.throughputMbps[i]?.map
      (pointThroughput q.msgSize (env.clock i) e.timed).getD :=
    congrArg PointEntries.throughput ((hent i).trans hpoint)
  have hput : pointThroughput q.msgSize (env.clock i) e.timed = some (env.mbps q i) := by
    rw [pointThroughput, he.completed hq hi]
    exact if_pos (pos_iff.mpr hns)
  refine ⟨env.mbps q i, ?_, mbps_toNat_iff hns (toNat_bytes _ _)⟩
  rw [hget, hput, List.getElem?_eq_getElem hlt]
  rfl

/-- The NUMA benchmark is limited to 64 MB and 100000 iterations. -/
theorem numa_bytes_lt {cfg : NumaConfig} (h : cfg.rejected = false) :
    cfg.bufferSize.toNat * cfg.iterations.toNat * 1000 < 2 ^ 64 := by
  simp only [NumaConfig.rejected, Bool.or_eq_false_iff, decide_eq_false_iff_not] at h
  obtain ⟨⟨⟨-, hsize⟩, -⟩, hit⟩ := h
  have hsize' : cfg.bufferSize.toNat ≤ 2 ^ 26 := Nat.not_lt.mp hsize
  have hit' : cfg.iterations.toNat ≤ 100000 :=
    Nat.not_lt.mp fun h => hit (UInt32.lt_iff_toNat_lt.mpr h)
  have := Nat.mul_le_mul hsize' hit'
  omega

theorem numa_mbps {cfg : NumaConfig} (h : cfg.rejected = false) {cell : NumaBenchCell}
    (hsize : cell.size = cfg.bufferSize) (hit : cell.iterations = cfg.iterations)
    {ns : BitVec 64} (hns : ns ≠ 0) :
    (cell.measured ns).bwMbps.toNat =
      cfg.bufferSize.toNat * cfg.iterations.toNat * 1000 / ns.toNat := by
  have hput : (cell.measured ns).bwMbps =
      cell.size * BitVec.ofNat 64 cell.iterations.toNat * 1000 / ns := if_pos (pos_iff.mpr hns)
  rw [hput, hsize, hit]
  refine (mbps_toNat_iff hns ?_).mpr (numa_bytes_lt h)
  have := cfg.iterations.toNat_lt
  rw [BitVec.toNat_mul, BitVec.toNat_ofNat, Nat.mod_eq_of_lt (by omega : cfg.iterations.toNat < _)]

/-- **Throughput.** Where a benchmark has taken some time, its report is the quotient over the
integers exactly if `bytes * 1000` fits 64 bits; in the NUMA benchmark it always does. -/
theorem mbps_exact_iff (dev : BenchDev) (p : BenchParams) :
    (∀ env : PingEnv,
      (benchmarkPingpong dev env p).ret = none →
      (benchmarkPingpong dev env p).params.totalNs ≠ 0 →
      ((benchmarkPingpong dev env p).params.throughputMbps.toNat =
          p.msgSize.toNat * p.iterations.toNat * 1000 /
            (benchmarkPingpong dev env p).params.totalNs.toNat ↔
        p.msgSize.toNat * p.iterations.toNat * 1000 < 2 ^ 64)) ∧
    (∀ (env : BenchEnv) (clk : BenchClock) (kvcalloc : Bool) (fuel : Nat) (e : TimedEnd)
      (mr : BenchMr) (call : BenchCall),
      timedRun env clk kvcalloc fuel (streamRun ⟨p.queueDepth, p.iterations⟩) = some e →
      benchCheck dev p = .ok mr → benchmarkStreaming dev env clk kvcalloc fuel p = some call →
      call.params.totalNs ≠ 0 →
      (call.params.throughputMbps.toNat =
          p.msgSize.toNat * e.timed.run.completed * 1000 / call.params.totalNs.toNat ↔
        p.msgSize.toNat * e.timed.run.completed * 1000 < 2 ^ 64)) ∧
    (∀ (env : SweepEnv) (fuel : Nat) (q : SweepRequest) (out : SweepResults) (s : SweepState),
      out.Sized → sweepRejected q.sweep = false →
      dmaplaneQdepthSweep dev env fuel q out = some (none, s) →
      ∀ i, i < nrPoints q.sweep → (env.clock i).stop - (env.clock i).start ≠ 0 →
        ∃ v, s.out.throughputMbps[i]? = some v ∧
          (v.toNat = q.msgSize.toNat * q.sweep.iterations.toNat * 1000 /
              ((env.clock i).stop - (env.clock i).start).toNat ↔
            q.msgSize.toNat * q.sweep.iterations.toNat * 1000 < 2 ^ 64)) ∧
    (∀ (tab : BufTable) (gpuHandle hostHandle iterations : BitVec 32) (h2g g2h : GpuTransfer)
      (d : GpuDev) (h2gMbps g2hMbps : BitVec 64),
      gpuBenchmark tab gpuHandle hostHandle iterations h2g g2h d = .ok (.ok (h2gMbps, g2hMbps)) →
      h2g.stop - h2g.start ≠ 0 → g2h.stop - g2h.start ≠ 0 →
      ∃ gpuBuf hostBuf, gpuLookup gpuHandle d = .ok (.ok gpuBuf) ∧
        hostLookup tab hostHandle = .ok hostBuf ∧
        let bytes := min gpuBuf.size.toNat hostBuf.size.toNat * iterations.toNat
        (h2gMbps.toNat = bytes * 1000 / (h2g.stop - h2g.start).toNat ↔ bytes * 1000 < 2 ^ 64) ∧
          (g2hMbps.toNat = bytes * 1000 / (g2h.stop - g2h.start).toNat ↔
            bytes * 1000 < 2 ^ 64)) ∧
    ∀ (cfg : NumaConfig) (cell : NumaBenchCell) (ns : BitVec 64), cfg.rejected = false →
      cell.size = cfg.bufferSize → cell.iterations = cfg.iterations → ns ≠ 0 →
      (cell.measured ns).bwMbps.toNat =
          cfg.bufferSize.toNat * cfg.iterations.toNat * 1000 / ns.toNat ∧
        cfg.bufferSize.toNat * cfg.iterations.toNat * 1000 < 2 ^ 64 := by
  refine ⟨fun _ => pingpong_mbps_iff, fun _ _ _ _ _ _ _ => streaming_mbps_iff,
    fun _ _ _ _ _ hout hq h i hi hns => sweep_mbps_iff hout hq h hi hns, ?_,
    fun cfg cell ns h hsize hit hns => ⟨numa_mbps h hsize hit hns, numa_bytes_lt h⟩⟩
  intro tab gpuHandle hostHandle iterations h2g g2h d h2gMbps g2hMbps h hh2g hg2h
  obtain ⟨gpuBuf, hostBuf, hg, hh, hr⟩ := gpuBenchmark_ok h
  obtain ⟨rfl, rfl⟩ := Prod.mk.inj hr
  refine ⟨gpuBuf, hostBuf, hg, hh, ?_⟩
  dsimp only
  rw [← transferSize_toNat]
  exact ⟨gpuMbps_toNat_iff hh2g, gpuMbps_toNat_iff hg2h⟩

/-! ## A run of PINGPONG -/

/-- Every iteration takes `ns`, and everything succeeds. -/
def steadyPing (ns : Ktime) : PingEnv :=
  { ascendingPing with iterStart := fun _ => 0, iterEnd := fun _ => ns }

/-- A device with a buffer of 1 GB, the largest there is. -/
def largeDev : BenchDev := { steadyDev with findBuffer := fun _ => some (BitVec.ofNat 64 maxBufSize) }

theorem pingLoop_total {ns : Ktime} : ∀ {n i : Nat} {s s' : PingRun},
    pingLoop (steadyPing ns) n i s = (none, s') →
    s'.totalNs = s.totalNs + BitVec.ofNat 64 n * ns := by
  intro n
  induction n with
  | zero => intro i s s' h; cases h; rw [BitVec.zero_mul, BitVec.add_zero]
  | succ n ih =>
    intro i s s' h
    rw [pingLoop] at h
    have hrest := ih h
    rw [hrest]
    show s.totalNs + (ns - 0) + BitVec.ofNat 64 n * ns = _
    have hsucc : BitVec.ofNat 64 (n + 1) = BitVec.ofNat 64 n + 1 := BitVec.ofNat_add n 1
    rw [hsucc]
    ring

theorem steadyPing_call {p : BenchParams} (mr : BenchMr) (hc : benchCheck largeDev p = .ok mr)
    (ns : Ktime) :
    (benchmarkPingpong largeDev (steadyPing ns) p).ret = none ∧
      (benchmarkPingpong largeDev (steadyPing ns) p).params.totalNs =
        BitVec.ofNat 64 p.iterations.toNat * ns ∧
      (BitVec.ofNat 64 p.iterations.toNat * ns ≠ 0 →
        (benchmarkPingpong largeDev (steadyPing ns) p).params.throughputMbps =
          BitVec.ofNat 64 (p.msgSize.toNat * p.iterations.toNat) * 1000 /
            (BitVec.ofNat 64 p.iterations.toNat * ns)) := by
  obtain ⟨s, hs⟩ := pingLoop_succeeds (steadyPing ns) (fun _ => rfl) p.iterations.toNat 0
    { rdmaHist := largeDev.rdmaHist }
  have htotal : s.totalNs = BitVec.ofNat 64 p.iterations.toNat * ns := by
    rw [pingLoop_total hs]
    exact BitVec.zero_add _
  have hcall : benchmarkPingpong largeDev (steadyPing ns) p =
      ⟨none, pingResults mr s p, s.rdmaHist⟩ := by
    have halloc : (steadyPing ns).kvcalloc = true := rfl
    rw [benchmarkPingpong, hc]
    dsimp only
    rw [halloc, if_neg (by decide), hs]
  rw [hcall]
  refine ⟨rfl, htotal, fun hne => ?_⟩
  rw [← htotal] at hne ⊢
  exact if_pos (pos_iff.mpr hne)

/-- `count` messages of `msgSize` bytes. -/
def benchRequest (msgSize count : UInt32) : BenchParams :=
  { benchOf 0 with msgSize := msgSize, iterations := count }

/-- PINGPONG with two messages of 4 KB, 1 µs each; and one cell of the NUMA benchmark. -/
theorem mbps_exact_two :
    (benchmarkPingpong largeDev (steadyPing 1000) (benchRequest 4096 2)).params.throughputMbps.toNat =
        4096 * 2 * 1000 / 2000 ∧
      ({ cellZero with size := 4096, iterations := 1 }.measured 500).bwMbps.toNat =
        4096 * 1 * 1000 / 500 := by
  obtain ⟨hping, -, -, -, hnuma⟩ := mbps_exact_iff largeDev (benchRequest 4096 2)
  obtain ⟨hret, htotal, -⟩ := steadyPing_call (p := benchRequest 4096 2) ⟨1, 0⟩ rfl 1000
  have htotal' : (benchmarkPingpong largeDev (steadyPing 1000)
      (benchRequest 4096 2)).params.totalNs = 2000 := htotal
  have hne : (benchmarkPingpong largeDev (steadyPing 1000)
      (benchRequest 4096 2)).params.totalNs ≠ 0 := by rw [htotal']; decide
  refine ⟨?_, (hnuma numaConfigOne _ 500 (by decide) rfl rfl (by decide)).1⟩
  have hput := (hping (steadyPing 1000) hret hne).mpr (by decide)
  rw [htotal'] at hput
  exact hput

/-- PINGPONG with `2 ^ 25` messages of 1 GB, 100 ms each, reports 5239 MB/s instead of 10737. -/
theorem mbps_wraps :
    (benchmarkPingpong largeDev (steadyPing 100000000) (benchRequest 1073741824 33554432)).ret =
        none ∧
      (benchmarkPingpong largeDev (steadyPing 100000000)
        (benchRequest 1073741824 33554432)).params.totalNs = 3355443200000000 ∧
      (benchmarkPingpong largeDev (steadyPing 100000000)
        (benchRequest 1073741824 33554432)).params.throughputMbps = 5239 ∧
      1073741824 * 33554432 * 1000 / 3355443200000000 = 10737 := by
  obtain ⟨hret, htotal, hput⟩ := steadyPing_call (p := benchRequest 1073741824 33554432)
    ⟨1, 0⟩ rfl 100000000
  have hcount : (benchRequest 1073741824 33554432).iterations.toNat = 33554432 := rfl
  have hsize : (benchRequest 1073741824 33554432).msgSize.toNat = 1073741824 := rfl
  rw [hcount] at htotal hput
  rw [hsize] at hput
  refine ⟨hret, htotal.trans (by decide), (hput (by decide)).trans (by decide), by omega⟩

end Dmaplane.Bench
