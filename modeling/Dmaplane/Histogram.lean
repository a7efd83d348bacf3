import Dmaplane.Lib.Numerals
import Mathlib.Algebra.BigOperators.Fin
import Mathlib.Data.BitVec

/-!
# Dmaplane.Histogram

The log₂ latency histogram of `driver/dmaplane_histogram.c`: 16 buckets, of which bucket `i`
counts the samples of `[2^i, 2^(i+1))` µs, with the count, sum, minimum and maximum of all
samples. Every field is a 64-bit atomic and wraps.

`Sampled`: the buckets always add up to the count.
-/

namespace Dmaplane

/-- `DMAPLANE_HIST_BUCKETS`. -/
abbrev histBuckets : Nat := 16

/-- `U64_MAX`. -/
abbrev u64Max : BitVec 64 := BitVec.allOnes 64

structure Histogram where
  buckets : Fin histBuckets → BitVec 64
  count : BitVec 64
  sumNs : BitVec 64
  minNs : BitVec 64
  maxNs : BitVec 64
  deriving DecidableEq

/-- `dmaplane_histogram_init`. -/
def histogramInit : Histogram :=
  { buckets := fun _ => 0, count := 0, sumNs := 0, minNs := u64Max, maxNs := 0 }

/-- `dmaplane_histogram_reset`, whatever was there. -/
def histogramReset (_ : Histogram) : Histogram :=
  { buckets := fun _ => 0, count := 0, sumNs := 0, minNs := u64Max, maxNs := 0 }

/-- The bucket of a sample: `min(ilog2(us), 15)`, and 0 below a microsecond. -/
def histBucket (latencyNs : BitVec 64) : Fin histBuckets :=
  let us := latencyNs.toNat / 1000
  if us = 0 then 0 else ⟨min (Nat.log2 us) (histBuckets - 1), by simp only [histBuckets]; omega⟩

/-- `dmaplane_histogram_record`, run without interruption. -/
def histogramRecord (hist : Histogram) (latencyNs : BitVec 64) : Histogram :=
  let bucket := histBucket latencyNs
  { buckets := Function.update hist.buckets bucket (hist.buckets bucket + 1)
    count := hist.count + 1
    sumNs := hist.sumNs + latencyNs
    minNs := if latencyNs < hist.minNs then latencyNs else hist.minNs
    maxNs := if latencyNs > hist.maxNs then latencyNs else hist.maxNs }

/-! ## Summary -/

structure HistSummary where
  p50Ns : BitVec 64
  p99Ns : BitVec 64
  p999Ns : BitVec 64
  avgNs : BitVec 64
  minNs : BitVec 64
  maxNs : BitVec 64
  count : BitVec 64
  deriving DecidableEq, Repr

/-- Upper bound of bucket `i` in ns; the last one is open. -/
def bucketUpperNs (i : Fin histBuckets) : BitVec 64 :=
  if (i : Nat) < histBuckets - 1 then (1#64 <<< ((i : Nat) + 1)) * 1000 else u64Max

/-- The loop of `dmaplane_histogram_summarize` for one percentile: the upper bound of the first
bucket at which `cumulative * scale >= total * target`, in 64-bit arithmetic; 0 if none. -/
def percentileNs (hist : Histogram) (scale target : BitVec 64) : BitVec 64 :=
  go 0 (List.finRange histBuckets)
where
  go (cumulative : BitVec 64) : List (Fin histBuckets) → BitVec 64
    | [] => 0
    | i :: is =>
      let cumulative := cumulative + hist.buckets i
      if cumulative * scale ≥ hist.count * target then bucketUpperNs i else go cumulative is

/-- `dmaplane_histogram_summarize`. -/
def histogramSummarize (hist : Histogram) : HistSummary :=
  let total := hist.count
  { count := total
    avgNs := if total > 0 then hist.sumNs / total else 0
    minNs := if total > 0 then hist.minNs else 0
    maxNs := hist.maxNs
    p50Ns := if total = 0 then 0 else percentileNs hist 1000 500
    p99Ns := if total = 0 then 0 else percentileNs hist 1000 990
    p999Ns := if total = 0 then 0 else percentileNs hist 10000 9990 }

/-! ## Buckets and count -/

/-- The buckets add up to the count. -/
def Histogram.Sampled (hist : Histogram) : Prop := ∑ i, hist.buckets i = hist.count

theorem sampled_init : histogramInit.Sampled := by
  simp [Histogram.Sampled, histogramInit]

theorem sampled_record {hist : Histogram} (h : hist.Sampled) (latencyNs : BitVec 64) :
    (histogramRecord hist latencyNs).Sampled := by
  have hs : ∑ i, Function.update hist.buckets (histBucket latencyNs)
      (hist.buckets (histBucket latencyNs) + 1) i = (∑ i, hist.buckets i) + 1 := by
    rw [Finset.sum_update_of_mem (Finset.mem_univ _), ← Finset.add_sum_erase _ _
      (Finset.mem_univ (histBucket latencyNs)), Finset.sdiff_singleton_eq_erase]
    exact add_right_comm _ _ _
  simp only [Histogram.Sampled, histogramRecord] at h ⊢
  rw [hs, h]

end Dmaplane
