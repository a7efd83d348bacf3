import Mathlib.Order.Bounds.Basic
import Dmaplane.BenchResults

/-!
# Dmaplane.BenchSweep

The points of `dmaplane_qdepth_sweep` and its saturation depth.

* `Swept` — the parameters after the first `k` points: what is written at each of them and nothing
  else, inside the arrays.
* `saturationLoop_spec` — the loop over the points finds the first one at the threshold.
* `qdepth_sweep_saturation` — the two together: the depths measured, and the saturation depth as a
  function of the throughputs alone.
-/

namespace Dmaplane.Bench

/-! ## Writes -/

theorem writePoint_in {a : List (BitVec 64)} {i : Nat} (h : i < a.length)
    (v : Option (BitVec 64)) :
    ∃ a', writePoint a i v = some a' ∧ a'.length = a.length ∧
      a'[i]? = a[i]?.map v.getD ∧ ∀ j, j ≠ i → a'[j]? = a[j]? := by
  cases v with
  | none => exact ⟨a, rfl, rfl, (Option.map_id_fun' ▸ rfl), fun _ _ => rfl⟩
  | some v =>
    refine ⟨a.set i v, if_pos h, List.length_set, ?_, fun j hj => ?_⟩
    · rw [List.getElem?_set_self h, List.getElem?_eq_getElem h]
      rfl
    · exact List.getElem?_set_ne (Ne.symm hj)

/-- The entries of the three arrays at a point. -/
structure PointEntries where
  throughput : Option (BitVec 64)
  avg : Option (BitVec 64)
  p99 : Option (BitVec 64)

def SweepResults.entries (out : SweepResults) (i : Nat) : PointEntries :=
  ⟨out.throughputMbps[i]?, out.avgLatencyNs[i]?, out.p99LatencyNs[i]?⟩

/-- What a point makes of them. -/
def pointEntries (msgSize : UInt32) (clk : BenchClock) (t : Timed) (old : PointEntries) :
    PointEntries :=
  { throughput := old.throughput.map (pointThroughput msgSize clk t).getD
    avg := old.avg.map (pointAvg clk t).getD
    p99 := old.p99.map (pointP99 t).getD }

/-- The step lemma of a point: it writes its own entries, and `max_throughput` is updated with the
throughput that then stands there. -/
theorem pointResults_spec {s : SweepState} {point : Nat} (hs : s.out.Sized)
    (hp : point < maxSweepPoints) (msgSize : UInt32) (clk : BenchClock) (t : Timed) :
    ∃ s', pointResults msgSize clk t point s = some s' ∧ s'.out.Sized ∧
      s'.out.entries point = pointEntries msgSize clk t (s.out.entries point) ∧
      (∀ j, j ≠ point → s'.out.entries j = s.out.entries j) ∧
      ∃ mbps, s'.out.throughputMbps[point]? = some mbps ∧
        s'.maxThroughput = if mbps > s.maxThroughput then mbps else s.maxThroughput := by
  obtain ⟨htput, havg, hp99⟩ := hs
  obtain ⟨a, ha, halen, haat, haelse⟩ :=
    writePoint_in (by omega) (pointThroughput msgSize clk t) (a := s.out.throughputMbps) (i := point)
  obtain ⟨b, hb, hblen, hbat, hbelse⟩ :=
    writePoint_in (by omega) (pointAvg clk t) (a := s.out.avgLatencyNs) (i := point)
  obtain ⟨c, hc, hclen, hcat, hcelse⟩ :=
    writePoint_in (by omega) (pointP99 t) (a := s.out.p99LatencyNs) (i := point)
  have hlt : point < a.length := by omega
  refine ⟨{
      out := { s.out with throughputMbps := a, avgLatencyNs := b, p99LatencyNs := c }
      maxThroughput := if a[point] > s.maxThroughput then a[point] else s.maxThroughput
      rdmaHist := recordAll t s.rdmaHist }, ?_,
    ⟨halen.trans htput, hblen.trans havg, hclen.trans hp99⟩, ?_, ?_, a[point], ?_, ?_⟩
  · rw [pointResults, ha, hb, hc]
    simp only [Option.bind_eq_bind, Option.bind_some, List.getElem?_eq_getElem hlt]
    rfl
  · simp only [SweepResults.entries, pointEntries, haat, hbat, hcat]
  · intro j hj
    simp only [SweepResults.entries, haelse j hj, hbelse j hj, hcelse j hj]
  · exact List.getElem?_eq_getElem hlt
  · rfl

/-! ## The loop over the points -/

section Sweep

variable {env : SweepEnv} {q : SweepRequest} {fuel k : Nat} {out : SweepResults} {s : SweepState}

/-- The run of point `i` returns without an error, as `e`. -/
def PointRun (env : SweepEnv) (q : SweepRequest) (fuel i : Nat) (e : TimedEnd) : Prop :=
  timedRun (env.verbs i) (env.clock i) (env.kvcalloc i) fuel (sweepRun q.sweep i) = some e ∧
    e.ret = none

/-- The state before point `k`, of a sweep that was handed `out`. -/
structure Swept (env : SweepEnv) (q : SweepRequest) (fuel : Nat) (out : SweepResults) (k : Nat)
    (s : SweepState) : Prop where
  sized : s.out.Sized
  points : ∀ i, i < k → ∃ e, PointRun env q fuel i e ∧
    s.out.entries i = pointEntries q.msgSize (env.clock i) e.timed (out.entries i)
  rest : ∀ i, k ≤ i → s.out.entries i = out.entries i
  upper : ∀ i mbps, i < k → s.out.throughputMbps[i]? = some mbps → mbps ≤ s.maxThroughput
  attained : s.maxThroughput = 0 ∨ ∃ i, i < k ∧ s.out.throughputMbps[i]? = some s.maxThroughput

theorem entries_throughput {out out' : SweepResults} {i j : Nat}
    (h : out.entries i = out'.entries j) : out.throughputMbps[i]? = out'.throughputMbps[j]? :=
  congrArg PointEntries.throughput h

/-- A point more. -/
theorem Swept.step (h : Swept env q fuel out k s) (hk : k < maxSweepPoints) {e : TimedEnd}
    (he : PointRun env q fuel k e) :
    ∃ s', pointResults q.msgSize (env.clock k) e.timed k s = some s' ∧
      Swept env q fuel out (k + 1) s' := by
  obtain ⟨s', hs', hsized, hat, helse, mbps, hmbps, hmax⟩ :=
    pointResults_spec h.sized hk q.msgSize (env.clock k) e.timed
  have hold : ∀ i, i < k → s'.out.throughputMbps[i]? = s.out.throughputMbps[i]? := fun i hi =>
    entries_throughput (helse i (Nat.ne_of_lt hi))
  have hge : s.maxThroughput ≤ s'.maxThroughput := by rw [hmax]; split <;> bv_omega
  refine ⟨s', hs', hsized, fun i hi => ?_, fun i hi => ?_, fun i v hi hv => ?_, ?_⟩
  · rcases Nat.lt_succ_iff_lt_or_eq.mp hi with hlt | rfl
    · obtain ⟨e', he', hent⟩ := h.points i hlt
      exact ⟨e', he', by rw [helse i (Nat.ne_of_lt hlt), hent]⟩
    · exact ⟨e, he, by rw [hat, h.rest i (Nat.le_refl i)]⟩
  · rw [helse i (by omega), h.rest i (by omega)]
  · rcases Nat.lt_succ_iff_lt_or_eq.mp hi with hlt | rfl
    · rw [hold i hlt] at hv
      exact BitVec.le_trans (h.upper i v hlt hv) hge
    · obtain rfl : mbps = v := Option.some.inj (hmbps.symm.trans hv)
      rw [hmax]
      split <;> bv_omega
  · by_cases hgt : mbps > s.maxThroughput
    · rw [if_pos hgt] at hmax
      exact .inr ⟨k, Nat.lt_succ_self k, by rw [hmbps, hmax]⟩
    · rw [if_neg hgt] at hmax
      rw [hmax]
      rcases h.attained with h0 | ⟨i, hi, hv⟩
      · exact .inl h0
      · exact .inr ⟨i, Nat.lt_succ_of_lt hi, by rw [hold i hi, hv]⟩

/-- The loop stops with an error or has swept all its points; it makes no access outside the
arrays. -/
theorem sweepLoop_spec : ∀ {n k : Nat} {s s' : SweepState} {stop : Option SweepStop},
    Swept env q fuel out k s → k + n ≤ maxSweepPoints →
    sweepLoop env q fuel n k s = some (stop, s') →
    stop ≠ some .fault ∧ (stop = none → Swept env q fuel out (k + n) s') := by
  intro n
  induction n with
  | zero =>
    intro k s s' stop hs _ h
    cases h
    exact ⟨Option.some_ne_none _ ∘ Eq.symm, fun _ => hs⟩
  | succ n ih =>
    intro k s s' stop hs hle h
    rw [sweepLoop] at h
    split at h
    · cases h
    · rename_i e he
      split at h
      · cases h
        exact ⟨fun hf => (by cases hf), fun hn => (by cases hn)⟩
      · rename_i hret
        obtain ⟨s₁, hpoint, hs₁⟩ := hs.step (by omega) ⟨he, hret⟩
        rw [hpoint] at h
        have hrest := ih hs₁ (by omega) h
        rwa [Nat.add_right_comm] at hrest

theorem swept_zero (env : SweepEnv) (q : SweepRequest) (fuel : Nat) (h : out.Sized)
    (hist : Histogram) :
    Swept env q fuel out 0 { out := out, maxThroughput := 0, rdmaHist := hist } :=
  ⟨h, fun i hi => absurd hi (Nat.not_lt_zero i), fun _ _ => rfl,
    fun i _ hi => absurd hi (Nat.not_lt_zero i), .inl rfl⟩

end Sweep

/-! ## Depths -/

theorem nrPoints_le (p : SweepParams) : nrPoints p ≤ maxSweepPoints := by
  simp only [nrPoints, maxSweepPoints]
  split <;> omega

/-- An accepted sweep has a point exactly for each of the first 32 depths up to the maximum. -/
theorem lt_nrPoints {p : SweepParams} (h : sweepRejected p = false) (k : Nat) :
    k < nrPoints p ↔
      k < maxSweepPoints ∧ p.minQdepth.toNat + k * p.step.toNat ≤ p.maxQdepth.toNat := by
  simp only [sweepRejected, Bool.or_eq_false_iff, decide_eq_false_iff_not] at h
  obtain ⟨⟨⟨-, hle⟩, hstep⟩, -⟩ := h
  have hle' : p.minQdepth.toNat ≤ p.maxQdepth.toNat :=
    Nat.not_lt.mp fun h => hle (UInt32.lt_iff_toNat_lt.mpr h)
  have hstep' : 0 < p.step.toNat := Nat.pos_of_ne_zero fun h0 =>
    hstep (UInt32.lt_iff_toNat_lt.mpr (by rw [h0]; decide))
  have hdiv : k ≤ (p.maxQdepth.toNat - p.minQdepth.toNat) / p.step.toNat ↔
      k * p.step.toNat ≤ p.maxQdepth.toNat - p.minQdepth.toNat := Nat.le_div_iff_mul_le hstep'
  simp only [nrPoints, maxSweepPoints]
  split <;> omega

theorem sweepRun_qdepth {p : SweepParams} (h : sweepRejected p = false) {k : Nat}
    (hk : k < nrPoints p) :
    (sweepRun p k).qdepth = p.minQdepth.toNat + k * p.step.toNat := by
  have hmax := p.maxQdepth.toNat_lt
  exact Nat.mod_eq_of_lt (by have := ((lt_nrPoints h k).mp hk).2; omega)

/-- The depths the points are measured at. -/
def measuredDepths (p : SweepParams) : List Nat :=
  (List.range (nrPoints p)).map fun point => (sweepRun p point).qdepth

/-- Among the first 32 depths `min`, `min + step`, … those up to `max`. -/
theorem measuredDepths_eq {p : SweepParams} (h : sweepRejected p = false) :
    measuredDepths p = ((List.range maxSweepPoints).map fun k =>
      p.minQdepth.toNat + k * p.step.toNat).filter (· ≤ p.maxQdepth.toNat) := by
  have hrange : List.range (nrPoints p) = (List.range maxSweepPoints).filter (· < nrPoints p) := by
    have hle := nrPoints_le p
    obtain ⟨d, hd⟩ := Nat.exists_eq_add_of_le hle
    rw [hd, List.range_add, List.filter_append, List.filter_eq_self.mpr, List.filter_eq_nil_iff.mpr,
      List.append_nil]
    · intro k hk
      obtain ⟨j, -, rfl⟩ := List.mem_map.mp hk
      simp
    · intro k hk
      simpa using hk
  rw [measuredDepths, hrange, List.filter_map]
  have hfilter : (List.range maxSweepPoints).filter (· < nrPoints p) =
      (List.range maxSweepPoints).filter
        ((· ≤ p.maxQdepth.toNat) ∘ fun k => p.minQdepth.toNat + k * p.step.toNat) := by
    refine List.filter_congr fun k hk => ?_
    have hk' : k < maxSweepPoints := List.mem_range.mp hk
    simp only [Function.comp, decide_eq_decide]
    rw [lt_nrPoints h k]
    exact ⟨fun h => h.2, fun h => ⟨hk', h⟩⟩
  rw [← hfilter]
  refine List.map_congr_left fun k hk => ?_
  obtain ⟨-, hlt⟩ := List.mem_filter.mp hk
  exact sweepRun_qdepth h (of_decide_eq_true hlt)

/-! ## Saturation -/

/-- The points before the last one whose throughput is at least `threshold`, by depth. -/
def saturated (p : SweepParams) (ts : Nat → Nat) (threshold : Nat) : Set Nat :=
  {d | ∃ i, i + 1 < nrPoints p ∧ d = p.minQdepth.toNat + i * p.step.toNat ∧ threshold ≤ ts i}

/-- `d` is the smallest depth of the set, or 0 if it has none. -/
def FirstDepth (S : Set Nat) (d : Nat) : Prop := IsLeast S d ∨ S = ∅ ∧ d = 0

/-- The saturation depth of the throughputs `ts`: `max` is the greatest of them, and the threshold
95 percent of it, rounded down. -/
def Saturation (p : SweepParams) (ts : Nat → Nat) (max d : Nat) : Prop :=
  if max = 0 then d = 0 else FirstDepth (saturated p ts (95 * max / 100)) d

/-- The loop over the points, from `k` on: it finds the first at the threshold and makes no access
outside the array. -/
theorem saturationLoop_spec {p : SweepParams} (hp : sweepRejected p = false)
    (threshold : BitVec 64) {throughput : List (BitVec 64)} {ts : Nat → BitVec 64}
    (hts : ∀ i, i < nrPoints p → throughput[i]? = some (ts i)) :
    ∀ n k : Nat, k + n + 1 = nrPoints p → (∀ i, i < k → (ts i).toNat < threshold.toNat) →
      ∃ d, saturationLoop p threshold throughput n k = some d ∧
        FirstDepth (saturated p (fun i => (ts i).toNat) threshold.toNat) d := by
  intro n
  induction n with
  | zero =>
    intro k hk hbelow
    refine ⟨0, rfl, .inr ⟨?_, rfl⟩⟩
    ext d
    refine ⟨?_, fun h => absurd h (Set.notMem_empty d)⟩
    rintro ⟨i, hi, -, hge⟩
    exact absurd hge (Nat.not_le.mpr (hbelow i (by omega)))
  | succ n ih =>
    intro k hk hbelow
    rw [saturationLoop, hts k (by omega)]
    by_cases hge : ts k ≥ threshold
    · refine ⟨p.minQdepth.toNat + k * p.step.toNat, ?_, .inl ⟨⟨k, by omega, rfl, hge⟩, ?_⟩⟩
      · dsimp only
        rw [if_pos hge]
        exact congrArg some (sweepRun_qdepth hp (k := k) (by omega))
      · rintro d ⟨i, -, rfl, hi⟩
        have hik : k ≤ i := Nat.not_lt.mp fun h => absurd hi (Nat.not_le.mpr (hbelow i h))
        exact Nat.add_le_add_left (Nat.mul_le_mul_right _ hik) _
    · dsimp only
      rw [if_neg hge]
      refine ih (k + 1) (by omega) fun i hi => ?_
      rcases Nat.lt_succ_iff_lt_or_eq.mp hi with hlt | rfl
      · exact hbelow i hlt
      · exact Nat.not_le.mp hge

/-- `max_throughput * 95 / 100` where the product does not wrap. -/
theorem threshold_toNat {max : BitVec 64} (h : 95 * max.toNat < 2 ^ 64) :
    (max * 95 / 100).toNat = 95 * max.toNat / 100 := by
  rw [BitVec.toNat_udiv, BitVec.toNat_mul]
  show max.toNat * 95 % 2 ^ 64 / 100 = _
  rw [Nat.mul_comm, Nat.mod_eq_of_lt h]

theorem saturationQdepth_spec {p : SweepParams} (hp : sweepRejected p = false) (max : BitVec 64)
    {throughput : List (BitVec 64)} {ts : Nat → BitVec 64}
    (hts : ∀ i, i < nrPoints p → throughput[i]? = some (ts i)) :
    ∃ d, saturationQdepth p max throughput = some d ∧
      (95 * max.toNat < 2 ^ 64 → Saturation p (fun i => (ts i).toNat) max.toNat d) := by
  rw [saturationQdepth]
  by_cases hmax : max > 0 ∧ nrPoints p ≥ 2
  · obtain ⟨d, hd, hfirst⟩ := saturationLoop_spec hp (max * 95 / 100) hts
      (nrPoints p - 1) 0 (by omega) fun i hi => absurd hi (Nat.not_lt_zero i)
    refine ⟨d, by rw [if_pos hmax, hd], fun hfit => ?_⟩
    have hpos : 0 < max.toNat := hmax.1
    rwa [Saturation, if_neg (by omega), ← threshold_toNat hfit]
  · refine ⟨0, by rw [if_neg hmax], fun _ => ?_⟩
    rw [Saturation]
    split
    · rfl
    · -- a single point: it is the last one
      rename_i hne
      refine .inr ⟨?_, rfl⟩
      have hpos : max > 0 := Nat.pos_of_ne_zero hne
      have hone : nrPoints p < 2 := by
        by_contra h
        exact hmax ⟨hpos, Nat.not_lt.mp h⟩
      ext d
      refine ⟨?_, fun h => absurd h (Set.notMem_empty d)⟩
      rintro ⟨i, hi, -⟩
      omega

/-! ## The sweep -/

/-- The throughput of point `i`, when all its iterations are completed. -/
def SweepEnv.mbps (env : SweepEnv) (q : SweepRequest) (i : Nat) : BitVec 64 :=
  BitVec.ofNat 64 (q.msgSize.toNat * q.sweep.iterations.toNat) * 1000 /
    ((env.clock i).stop - (env.clock i).start)

theorem PointRun.endOk {env : SweepEnv} {q : SweepRequest} {fuel i : Nat} {e : TimedEnd}
    (h : PointRun env q fuel i e) (hq : sweepRejected q.sweep = false) (hi : i < nrPoints q.sweep) :
    EndOk (env.clock i) (env.kvcalloc i) q.sweep.iterations.toNat e :=
  timedRun_spec (benchRun_sweep hq i hi) h.1

theorem PointRun.completed {env : SweepEnv} {q : SweepRequest} {fuel i : Nat} {e : TimedEnd}
    (h : PointRun env q fuel i e) (hq : sweepRejected q.sweep = false) (hi : i < nrPoints q.sweep) :
    e.timed.run.completed = q.sweep.iterations.toNat := ((h.endOk hq hi).all h.2).1

section Call

variable {dev : BenchDev} {env : SweepEnv} {q : SweepRequest} {fuel : Nat}
  {out : SweepResults} {s : SweepState} {stop : Option SweepStop}

/-- What a call of an accepted sweep can come to: it makes no access outside the arrays, and where
it returns 0, all points are swept and the saturation depth is computed from what stands in the
array. -/
theorem dmaplaneQdepthSweep_spec (hout : out.Sized) (hq : sweepRejected q.sweep = false)
    (h : dmaplaneQdepthSweep dev env fuel q out = some (stop, s)) :
    stop ≠ some .fault ∧ (stop = none →
      ∃ s₁, Swept env q fuel out (nrPoints q.sweep) s₁ ∧
        saturationQdepth q.sweep s₁.maxThroughput s₁.out.throughputMbps =
          some s.out.saturationQdepth ∧
        s.out.nrPoints = nrPoints q.sweep ∧ s.out.status = 0 ∧
        ∀ i, s.out.entries i = s₁.out.entries i) := by
  rw [dmaplaneQdepthSweep] at h
  split at h
  · cases h
    exact ⟨fun hf => (by cases hf), fun hn => (by cases hn)⟩
  · split at h
    · cases h
      exact ⟨fun hf => (by cases hf), fun hn => (by cases hn)⟩
    · split at h
      · cases h
        exact ⟨fun hf => (by cases hf), fun hn => (by cases hn)⟩
      · have hzero := swept_zero env q fuel hout dev.rdmaHist
        have hle := nrPoints_le q.sweep
        split at h
        · cases h
        · rename_i stop' s' hloop
          cases h
          exact ⟨(sweepLoop_spec hzero (by omega) hloop).1, fun hn => (by cases hn)⟩
        · rename_i s₁ hloop
          have hswept := (sweepLoop_spec hzero (by omega) hloop).2 rfl
          rw [Nat.zero_add] at hswept
          have hentry : ∀ i, i < nrPoints q.sweep → s₁.out.throughputMbps[i]? =
              some (s₁.out.throughputMbps.getD i 0) := by
            intro i hi
            have hlt : i < s₁.out.throughputMbps.length := by rw [hswept.sized.throughput]; omega
            rw [List.getD_eq_getElem?_getD, List.getElem?_eq_getElem hlt]
            rfl
          obtain ⟨d, hd, -⟩ := saturationQdepth_spec hq s₁.maxThroughput hentry
          rw [hd] at h
          cases h
          exact ⟨fun hf => (by cases hf), fun _ => ⟨s₁, hswept, hd, rfl, rfl, fun _ => rfl⟩⟩

/-- The throughputs of a swept sweep whose points have all taken some time. -/
theorem Swept.throughput (h : Swept env q fuel out (nrPoints q.sweep) s) (hout : out.Sized)
    (hq : sweepRejected q.sweep = false)
    (htime : ∀ i, i < nrPoints q.sweep → (env.clock i).stop ≠ (env.clock i).start) (i : Nat)
    (hi : i < nrPoints q.sweep) : s.out.throughputMbps[i]? = some (env.mbps q i) := by
  obtain ⟨e, he, hent⟩ := h.points i hi
  have hle := nrPoints_le q.sweep
  have hlt : i < out.throughputMbps.length := by rw [hout.throughput]; omega
  have hpos : (env.clock i).stop - (env.clock i).start > 0 := by
    have hne := htime i hi
    bv_omega
  have hput : pointThroughput q.msgSize (env.clock i) e.timed = some (env.mbps q i) := by
    rw [pointThroughput, he.completed hq hi]
    exact if_pos hpos
  have hent' : s.out.throughputMbps[i]? = out.throughputMbps[i]?.map
      (pointThroughput q.msgSize (env.clock i) e.timed).getD := congrArg PointEntries.throughput hent
  rw [hent', hput, List.getElem?_eq_getElem hlt]
  rfl

/-- **Sweep points and saturation.** A sweep measures the depths `min`, `min + step`, … up to `max`,
32 at most, and makes no access outside its arrays. Where it returns 0 and every point has taken
some time, the saturation depth is the one of the throughputs measured, whatever the caller's
arrays held. -/
theorem qdepth_sweep_saturation (hout : out.Sized) (hq : sweepRejected q.sweep = false)
    (h : dmaplaneQdepthSweep dev env fuel q out = some (stop, s)) :
    measuredDepths q.sweep = ((List.range maxSweepPoints).map fun k =>
        q.sweep.minQdepth.toNat + k * q.sweep.step.toNat).filter
          (· ≤ q.sweep.maxQdepth.toNat) ∧
      stop ≠ some .fault ∧
      (stop = none → s.out.nrPoints = (measuredDepths q.sweep).length ∧
        ((∀ i, i < nrPoints q.sweep → (env.clock i).stop ≠ (env.clock i).start) →
          (∀ i, i < nrPoints q.sweep → s.out.throughputMbps[i]? = some (env.mbps q i)) ∧
          ∃ max, IsGreatest {v | ∃ i, i < nrPoints q.sweep ∧ v = (env.mbps q i).toNat} max ∧
            (95 * max < 2 ^ 64 →
              Saturation q.sweep (fun i => (env.mbps q i).toNat) max s.out.saturationQdepth))) := by
  obtain ⟨hfault, hret⟩ := dmaplaneQdepthSweep_spec hout hq h
  refine ⟨measuredDepths_eq hq, hfault, fun hnone => ?_⟩
  obtain ⟨s₁, hswept, hsat, hnr, -, hent⟩ := hret hnone
  refine ⟨by rw [hnr, measuredDepths, List.length_map, List.length_range], fun htime => ?_⟩
  have hput := hswept.throughput hout hq htime
  refine ⟨fun i hi => by rw [entries_throughput (hent i), hput i hi], s₁.maxThroughput.toNat, ?_, ?_⟩
  · have hpoint : 0 < nrPoints q.sweep :=
      (lt_nrPoints hq 0).mpr ⟨by decide, by
        simp only [sweepRejected, Bool.or_eq_false_iff, decide_eq_false_iff_not] at hq
        have := Nat.not_lt.mp fun h => hq.1.1.2 (UInt32.lt_iff_toNat_lt.mpr h)
        omega⟩
    have hupper : ∀ i, i < nrPoints q.sweep → env.mbps q i ≤ s₁.maxThroughput := fun i hi =>
      hswept.upper i _ hi (hput i hi)
    refine ⟨?_, ?_⟩
    · rcases hswept.attained with h0 | ⟨i, hi, hat⟩
      · have hle := hupper 0 hpoint
        rw [h0] at hle ⊢
        exact ⟨0, hpoint, by bv_omega⟩
      · exact ⟨i, hi, by rw [Option.some.inj (hat.symm.trans (hput i hi))]⟩
    · rintro v ⟨i, hi, rfl⟩
      exact hupper i hi
  · intro hfit
    obtain ⟨d, hd, hspec⟩ := saturationQdepth_spec hq s₁.maxThroughput hput
    rw [hsat] at hd
    rw [Option.some.inj hd]
    exact hspec hfit

end Call

/-- A device with one MR and one buffer, and a sweep on it whose verbs layer answers well; point `i`
takes `ns i`. -/
def steadyDev : BenchDev :=
  { initialized := true, findMr := fun _ => some ⟨1, 0⟩, findBuffer := fun _ => some 4096
    rdmaHist := histogramInit }

def steadySweep (ns : Nat → Ktime) : SweepEnv :=
  { verbs := fun _ => pollSucceeds, kvcalloc := fun _ => false
    clock := fun i => { unset := 0, start := 0, now := fun _ => 0, stop := ns i } }

def zeroResults : SweepResults :=
  { throughputMbps := List.replicate 32 0, avgLatencyNs := List.replicate 32 0
    p99LatencyNs := List.replicate 32 0, nrPoints := 0, saturationQdepth := 0, status := 0 }

theorem zeroResults_sized : zeroResults.Sized := ⟨rfl, rfl, rfl⟩

/-- 80, 100 and 90 MB/s at depths 1, 2 and 3. -/
theorem qdepth_sweep_saturation_three :
    ∃ s, dmaplaneQdepthSweep steadyDev
        (steadySweep fun i => if i = 0 then 100 else if i = 1 then 80 else 88)
        4 ⟨7, 4, ⟨1, 3, 1, 2⟩⟩ zeroResults = some (none, s) ∧
      s.out.saturationQdepth = 2 ∧ s.out.nrPoints = (measuredDepths ⟨1, 3, 1, 2⟩).length := by
  obtain ⟨s, hs, hd⟩ : ∃ s, dmaplaneQdepthSweep steadyDev
      (steadySweep fun i => if i = 0 then 100 else if i = 1 then 80 else 88)
      4 ⟨7, 4, ⟨1, 3, 1, 2⟩⟩ zeroResults = some (none, s) ∧ s.out.saturationQdepth = 2 :=
    ⟨_, rfl, rfl⟩
  exact ⟨s, hs, hd, ((qdepth_sweep_saturation zeroResults_sized (by decide) hs).2.2 rfl).1⟩

/-- The threshold as a comparison of rationals, and no exception for an all-zero sweep. -/
def RationalSaturation (p : SweepParams) (ts : Nat → Nat) (d : Nat) : Prop :=
  FirstDepth {d | ∃ i, i + 1 < nrPoints p ∧ d = p.minQdepth.toNat + i * p.step.toNat ∧
    ∀ j, j < nrPoints p → 95 * ts j ≤ 100 * ts i} d

/-- Two points, with 1000 bytes per µs at most. -/
abbrev twoPoints : SweepRequest := ⟨7, 1, ⟨1, 2, 1, 1⟩⟩

/-- Nothing but zeroes saturates nowhere; zero saturates if the maximum is 1. -/
theorem qdepth_sweep_not_rational :
    (∃ s, dmaplaneQdepthSweep steadyDev (steadySweep fun _ => 2000) 4 twoPoints zeroResults =
        some (none, s) ∧
      ¬ RationalSaturation twoPoints.sweep
        (fun i => ((steadySweep fun _ => 2000).mbps twoPoints i).toNat) s.out.saturationQdepth) ∧
    ∃ s, dmaplaneQdepthSweep steadyDev (steadySweep fun i => if i = 0 then 2000 else 1000) 4
        twoPoints zeroResults = some (none, s) ∧
      ¬ RationalSaturation twoPoints.sweep
        (fun i => ((steadySweep fun i => if i = 0 then 2000 else 1000).mbps twoPoints i).toNat)
        s.out.saturationQdepth := by
  constructor
  · obtain ⟨s, hs, hd⟩ : ∃ s, dmaplaneQdepthSweep steadyDev (steadySweep fun _ => 2000) 4 twoPoints
        zeroResults = some (none, s) ∧ s.out.saturationQdepth = 0 := ⟨_, rfl, rfl⟩
    refine ⟨s, hs, ?_⟩
    rw [hd]
    rintro (⟨⟨i, -, h, -⟩, -⟩ | ⟨hempty, -⟩)
    · have : 0 = 1 + i * 1 := h
      omega
    · have hzero : ∀ j, ((steadySweep fun _ => 2000).mbps twoPoints j).toNat = 0 := fun j =>
        congrArg BitVec.toNat (show (BitVec.ofNat 64 1 * 1000 / (2000 - 0) : BitVec 64) = 0 by decide)
      refine Set.eq_empty_iff_forall_notMem.mp hempty 1 ⟨0, by decide, rfl, fun j _ => ?_⟩
      simp only [hzero]
      decide
  · obtain ⟨s, hs, hd⟩ : ∃ s, dmaplaneQdepthSweep steadyDev
        (steadySweep fun i => if i = 0 then 2000 else 1000) 4 twoPoints zeroResults =
          some (none, s) ∧ s.out.saturationQdepth = 1 := ⟨_, rfl, rfl⟩
    refine ⟨s, hs, ?_⟩
    rw [hd]
    rintro (⟨⟨i, hi, -, h⟩, -⟩ | ⟨-, h⟩)
    · have hi' : i + 1 < 2 := hi
      obtain rfl : i = 0 := by omega
      exact absurd (h 1 (by decide)) (by decide)
    · cases h

end Dmaplane.Bench
