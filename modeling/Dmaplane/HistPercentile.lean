import Dmaplane.Histogram
import Dmaplane.Lib.Rank
import Mathlib.Algebra.Order.Group.Nat
import Mathlib.Order.Bounds.Basic
import Mathlib.Data.List.Count

/-!
# Dmaplane.HistPercentile

What `dmaplane_histogram_summarize` says of the samples recorded into a fresh histogram.

* `histBucket_lt_iff` — the buckets up to `k` hold what is below the upper bound of bucket `k`.
* `percentileNs_spec` — hence the walk stops at the first upper bound below which enough samples
  lie; nothing wraps for fewer than `10 ^ 15` of them.
* `summarize_tight`   — the bounds are tight, the extremes exact, and every bucket counts the samples
  of the range that `dmaplane_histogram_show` prints for it.
-/

namespace Dmaplane

/-- The samples of a finished run, in a histogram that was fresh before. -/
def recordSamples (samples : List (BitVec 64)) : Histogram :=
  samples.foldl histogramRecord histogramInit

/-- `lower` and `upper` of `dmaplane_histogram_show`, in µs; an upper bound of zero is printed as
infinite. -/
def reportedRange (i : Fin histBuckets) : Nat × Nat :=
  (if (i : Nat) = 0 then 0 else 1 <<< (i : Nat),
    if (i : Nat) < histBuckets - 1 then 1 <<< ((i : Nat) + 1) else 0)

/-- The sample lies in the range. -/
def inRange (r : Nat × Nat) (ns : BitVec 64) : Prop :=
  r.1 * 1000 ≤ ns.toNat ∧ (r.2 > 0 → ns.toNat < r.2 * 1000)

instance (r : Nat × Nat) (ns : BitVec 64) : Decidable (inRange r ns) :=
  inferInstanceAs (Decidable (_ ∧ _))

/-! ## Buckets -/

theorem histBucket_val (ns : BitVec 64) :
    (histBucket ns : Nat) = if ns.toNat / 1000 = 0 then 0 else min (Nat.log2 (ns.toNat / 1000)) 15 := by
  rw [histBucket]
  split <;> rfl

/-- A bucket but the last holds the samples below a power of two, in µs. -/
theorem histBucket_lt_iff (ns : BitVec 64) {k : Nat} (h0 : 0 < k) (hk : k ≤ 15) :
    (histBucket ns : Nat) < k ↔ ns.toNat < 2 ^ k * 1000 := by
  have hdiv : ns.toNat / 1000 < 2 ^ k ↔ ns.toNat < 2 ^ k * 1000 :=
    Nat.div_lt_iff_lt_mul (by omega)
  rw [histBucket_val, ← hdiv]
  split
  · rename_i hz
    exact iff_of_true h0 (by rw [hz]; exact Nat.two_pow_pos k)
  · rename_i hz
    rw [← Nat.log2_lt hz]
    omega

theorem histBucket_le (ns : BitVec 64) : (histBucket ns : Nat) ≤ 15 :=
  Nat.le_of_lt_succ (histBucket ns).isLt

theorem bucketUpper_toNat (i : Fin histBuckets) (hi : (i : Nat) < 15) :
    (bucketUpperNs i).toNat = 2 ^ ((i : Nat) + 1) * 1000 := by
  obtain ⟨k, hk⟩ := i
  have hk' : k < 15 := hi
  have hpow : 2 ^ (k + 1) ≤ 2 ^ 15 := Nat.pow_le_pow_right (by decide) hk'
  rw [bucketUpperNs, if_pos (by exact hk'), BitVec.toNat_mul, BitVec.toNat_shiftLeft]
  show 1 <<< (k + 1) % 2 ^ 64 * 1000 % 2 ^ 64 = 2 ^ (k + 1) * 1000
  rw [Nat.one_shiftLeft, Nat.mod_eq_of_lt (by omega : 2 ^ (k + 1) < 2 ^ 64),
    Nat.mod_eq_of_lt (by omega)]

theorem bucketUpper_last : bucketUpperNs ⟨15, by decide⟩ = u64Max := rfl

/-- What a bucket holds is what its printed range contains. -/
theorem histBucket_eq_iff (ns : BitVec 64) (i : Fin histBuckets) :
    histBucket ns = i ↔ inRange (reportedRange i) ns := by
  obtain ⟨k, hk⟩ := i
  have hk' : k < 16 := hk
  have hle := histBucket_le ns
  rw [Fin.ext_iff]
  show (histBucket ns : Nat) = k ↔ _
  have hlow : (if k = 0 then 0 else 1 <<< k) * 1000 ≤ ns.toNat ↔ ¬ (histBucket ns : Nat) < k := by
    split
    · rename_i h0
      rw [h0]
      omega
    · rename_i h0
      rw [histBucket_lt_iff ns (by omega) (by omega), Nat.one_shiftLeft]
      omega
  rw [inRange]
  show _ ↔ (if k = 0 then 0 else 1 <<< k) * 1000 ≤ ns.toNat ∧
    ((if k < 15 then 1 <<< (k + 1) else 0) > 0 → ns.toNat < (if k < 15 then 1 <<< (k + 1) else 0) * 1000)
  rw [hlow]
  split
  · rename_i hlast
    have hup := histBucket_lt_iff ns (Nat.succ_pos k) (by omega : k + 1 ≤ 15)
    rw [Nat.one_shiftLeft]
    have hpos := Nat.two_pow_pos (k + 1)
    constructor
    · intro h
      exact ⟨by omega, fun _ => hup.mp (by omega)⟩
    · rintro ⟨h1, h2⟩
      have := hup.mpr (h2 hpos)
      omega
  · constructor
    · intro h
      exact ⟨by omega, fun h => by omega⟩
    · rintro ⟨h1, -⟩
      omega

/-! ## What is recorded -/

section Recorded

variable {samples : List (BitVec 64)}

theorem foldl_record_buckets (samples : List (BitVec 64)) (i : Fin histBuckets) : ∀ hist : Histogram,
    (samples.foldl histogramRecord hist).buckets i =
      hist.buckets i + BitVec.ofNat 64 (samples.countP (histBucket · = i)) := by
  induction samples with
  | nil => intro hist; exact (BitVec.add_zero _).symm
  | cons x xs ih =>
    intro hist
    rw [List.foldl_cons, ih, List.countP_cons]
    show Function.update hist.buckets (histBucket x) (hist.buckets (histBucket x) + 1) i + _ = _
    by_cases h : histBucket x = i
    · subst h
      rw [Function.update_self, if_pos (decide_eq_true rfl), BitVec.ofNat_add, BitVec.add_assoc,
        BitVec.add_comm (BitVec.ofNat 64 _)]
      rfl
    · rw [Function.update_of_ne (Ne.symm h), if_neg (by rw [decide_eq_true_eq]; exact h), Nat.add_zero]

theorem foldl_record_count (samples : List (BitVec 64)) : ∀ hist : Histogram,
    (samples.foldl histogramRecord hist).count = hist.count + BitVec.ofNat 64 samples.length := by
  induction samples with
  | nil => intro hist; exact (BitVec.add_zero _).symm
  | cons x xs ih =>
    intro hist
    rw [List.foldl_cons, ih, List.length_cons]
    show hist.count + 1 + _ = _
    rw [BitVec.ofNat_add, BitVec.add_assoc, BitVec.add_comm (BitVec.ofNat 64 _)]
    rfl

/-- Fewer samples than a percentile can take. -/
def maxSamples : Nat := 10 ^ 15

theorem toNat_count (h : samples.length < maxSamples) :
    (recordSamples samples).count.toNat = samples.length := by
  rw [recordSamples, foldl_record_count]
  show ((0 : BitVec 64) + _).toNat = _
  rw [zero_add, BitVec.toNat_ofNat]
  exact Nat.mod_eq_of_lt (by rw [maxSamples] at h; omega)

theorem toNat_bucket (h : samples.length < maxSamples) (i : Fin histBuckets) :
    ((recordSamples samples).buckets i).toNat = samples.countP (histBucket · = i) := by
  rw [recordSamples, foldl_record_buckets]
  show ((0 : BitVec 64) + _).toNat = _
  have hle := List.countP_le_length (p := fun x => decide (histBucket x = i)) (l := samples)
  rw [zero_add, BitVec.toNat_ofNat]
  exact Nat.mod_eq_of_lt (by rw [maxSamples] at h; omega)

/-! ## Percentiles -/

/-- `num / den` of the samples lie strictly below the bound, or it is open. -/
def EnoughBelow (samples : List (BitVec 64)) (num den : Nat) (bound : BitVec 64) : Prop :=
  samples.length * num ≤ samples.countP (· < bound) * den ∨ bound = u64Max

/-- A bucket's upper bound with enough below it, and no smaller one. -/
structure TightBound (samples : List (BitVec 64)) (num den : Nat) (bound : BitVec 64) : Prop where
  bucket : ∃ i, bound = bucketUpperNs i
  enough : EnoughBelow samples num den bound
  tight : ∀ j, bucketUpperNs j < bound → ¬ EnoughBelow samples num den (bucketUpperNs j)

theorem TightBound.congr {num den num' den' : Nat} {bound : BitVec 64}
    (h : TightBound samples num den bound)
    (hiff : ∀ b, EnoughBelow samples num den b ↔ EnoughBelow samples num' den' b) :
    TightBound samples num' den' bound :=
  ⟨h.bucket, (hiff bound).mp h.enough, fun j hj hj' => h.tight j hj ((hiff _).mpr hj')⟩

/-- A smaller fraction has a smaller bound. -/
theorem TightBound.mono {num den num' den' : Nat} {b b' : BitVec 64}
    (h : TightBound samples num den b) (h' : TightBound samples num' den' b')
    (hfrac : EnoughBelow samples num' den' b' → EnoughBelow samples num den b') : b ≤ b' := by
  by_contra hlt
  obtain ⟨i, rfl⟩ := h'.bucket
  exact h.tight i (BitVec.not_le.mp hlt) (hfrac h'.enough)

theorem bucketUpper_lt (i j : Fin histBuckets) (h : bucketUpperNs i < bucketUpperNs j) :
    (i : Nat) < j := by
  by_contra hle
  rcases Nat.lt_or_ge i 15 with hi | hi
  · have hpow := Nat.pow_le_pow_right (n := 2) (by decide) (by omega : (j : Nat) + 1 ≤ i + 1)
    rw [BitVec.lt_def, bucketUpper_toNat i hi, bucketUpper_toNat j (by omega)] at h
    omega
  · have hlast : i = ⟨15, by decide⟩ := Fin.ext (Nat.le_antisymm (Nat.le_of_lt_succ i.isLt) hi)
    rw [hlast, bucketUpper_last, BitVec.lt_def, BitVec.toNat_allOnes] at h
    have := (bucketUpperNs j).isLt
    omega

/-- The samples in the first `k` buckets. -/
def upTo (samples : List (BitVec 64)) (k : Nat) : Nat :=
  samples.countP fun ns => (histBucket ns : Nat) < k

theorem upTo_zero : upTo samples 0 = 0 :=
  List.countP_eq_zero.mpr fun _ _ h => Nat.not_lt_zero _ (of_decide_eq_true h)

theorem upTo_succ {k : Nat} (hk : k < histBuckets) :
    upTo samples (k + 1) = upTo samples k + samples.countP (histBucket · = ⟨k, hk⟩) := by
  induction samples with
  | nil => rfl
  | cons x xs ih =>
    simp only [upTo, List.countP_cons, decide_eq_true_eq, Fin.ext_iff] at ih ⊢
    split_ifs <;> omega

theorem upTo_all : upTo samples 16 = samples.length :=
  List.countP_eq_length.mpr fun ns _ => decide_eq_true (histBucket ns).isLt

theorem upTo_le (k : Nat) : upTo samples k ≤ samples.length := List.countP_le_length

/-- Before the last bucket: the samples below the upper bound. -/
theorem upTo_eq_below (i : Fin histBuckets) (hi : (i : Nat) < 15) :
    upTo samples (i + 1) = samples.countP (· < bucketUpperNs i) := by
  refine List.countP_congr fun ns _ => ?_
  rw [decide_eq_true_eq, decide_eq_true_eq, histBucket_lt_iff ns (Nat.succ_pos _) hi,
    BitVec.lt_def, bucketUpper_toNat i hi]

theorem not_enough_of_upTo {num den : Nat} (i : Fin histBuckets) (hi : (i : Nat) < 15)
    (h : upTo samples (i + 1) * den < samples.length * num) :
    ¬ EnoughBelow samples num den (bucketUpperNs i) := by
  rintro (hle | hmax)
  · rw [upTo_eq_below i hi] at h
    omega
  · have hnat := congrArg BitVec.toNat hmax
    rw [bucketUpper_toNat i hi, BitVec.toNat_allOnes] at hnat
    have := Nat.pow_le_pow_right (n := 2) (by decide) (by omega : (i : Nat) + 1 ≤ 15)
    omega

/-- What the walk compares at bucket `k`; it cannot wrap. -/
theorem walk_test (h : samples.length < maxSamples) {num den : Nat} (hfrac : num ≤ den)
    (hden : den ≤ 10000) {k : Nat} :
    BitVec.ofNat 64 (upTo samples k) * BitVec.ofNat 64 den ≥
        (recordSamples samples).count * BitVec.ofNat 64 num ↔
      samples.length * num ≤ upTo samples k * den := by
  rw [maxSamples] at h
  have hk : upTo samples k ≤ samples.length := upTo_le k
  have hcount : (recordSamples samples).count.toNat = samples.length := toNat_count h
  have hl : samples.length * num ≤ samples.length * 10000 :=
    Nat.mul_le_mul_left _ (hfrac.trans hden)
  have hr : upTo samples k * den ≤ samples.length * 10000 := Nat.mul_le_mul hk hden
  rw [ge_iff_le, BitVec.le_def, BitVec.toNat_mul, BitVec.toNat_mul, hcount, BitVec.toNat_ofNat,
    BitVec.toNat_ofNat, BitVec.toNat_ofNat, Nat.mod_eq_of_lt (by omega : den < 2 ^ 64),
    Nat.mod_eq_of_lt (by omega : num < 2 ^ 64), Nat.mod_eq_of_lt (by omega : upTo samples k < 2 ^ 64),
    Nat.mod_eq_of_lt (by omega), Nat.mod_eq_of_lt (by omega)]

theorem cumulative_succ (h : samples.length < maxSamples) {k : Nat} (hk : k < histBuckets) :
    BitVec.ofNat 64 (upTo samples k) + (recordSamples samples).buckets ⟨k, hk⟩ =
      BitVec.ofNat 64 (upTo samples (k + 1)) := by
  have hb := toNat_bucket h ⟨k, hk⟩
  rw [upTo_succ hk, BitVec.ofNat_add, ← hb, BitVec.ofNat_toNat, BitVec.setWidth_eq]

theorem drop_finRange {k : Nat} (hk : k < histBuckets) :
    (List.finRange histBuckets).drop k = ⟨k, hk⟩ :: (List.finRange histBuckets).drop (k + 1) := by
  have hlt : k < (List.finRange histBuckets).length := by rwa [List.length_finRange]
  rw [List.drop_eq_getElem_cons hlt, List.getElem_finRange]
  rfl

/-- From bucket `k` on, where no bucket before it was enough. -/
theorem percentile_go (h : samples.length < maxSamples) {num den : Nat} (hfrac : num ≤ den)
    (hden : den ≤ 10000) (n : Nat) : ∀ k, k + n = 15 →
    (∀ i : Fin histBuckets, (i : Nat) < k → ¬ EnoughBelow samples num den (bucketUpperNs i)) →
    TightBound samples num den (percentileNs.go (recordSamples samples) (BitVec.ofNat 64 den)
      (BitVec.ofNat 64 num) (BitVec.ofNat 64 (upTo samples k))
      ((List.finRange histBuckets).drop k)) := by
  induction n with
  | zero =>
    intro k hk hbefore
    obtain rfl : k = 15 := hk
    have htest := (walk_test h hfrac hden (k := 16)).mpr
      (by rw [upTo_all]; exact Nat.mul_le_mul_left _ hfrac)
    show TightBound samples num den (percentileNs.go _ _ _ _ [⟨15, by decide⟩])
    rw [percentileNs.go, cumulative_succ h, if_pos htest]
    exact ⟨⟨_, rfl⟩, .inr bucketUpper_last, fun j hj => hbefore j (bucketUpper_lt _ _ hj)⟩
  | succ n ih =>
    intro k hk hbefore
    have hk' : k < histBuckets := by
      show k < 16
      omega
    rw [drop_finRange hk', percentileNs.go, cumulative_succ h]
    have hupto : upTo samples (k + 1) = samples.countP (· < bucketUpperNs ⟨k, hk'⟩) :=
      upTo_eq_below ⟨k, hk'⟩ (by show k < 15; omega)
    split
    · rename_i htest
      have hin := (walk_test h hfrac hden).mp htest
      exact ⟨⟨_, rfl⟩, .inl (hupto ▸ hin), fun j hj => hbefore j (bucketUpper_lt _ _ hj)⟩
    · rename_i htest
      have hout : ¬ EnoughBelow samples num den (bucketUpperNs ⟨k, hk'⟩) :=
        not_enough_of_upTo _ (by show k < 15; omega)
          (Nat.not_le.mp fun hle => htest ((walk_test h hfrac hden).mpr hle))
      refine ih (k + 1) (by omega) fun i hi => ?_
      rcases Nat.lt_succ_iff_lt_or_eq.mp hi with hi | hi
      · exact hbefore i hi
      · rwa [show i = ⟨k, hk'⟩ from Fin.ext hi]

theorem percentileNs_spec (h : samples.length < maxSamples) {num den : Nat} (hfrac : num ≤ den)
    (hden : den ≤ 10000) :
    TightBound samples num den
      (percentileNs (recordSamples samples) (BitVec.ofNat 64 den) (BitVec.ofNat 64 num)) := by
  have hgo := percentile_go h hfrac hden 15 0 rfl fun _ hi => absurd hi (Nat.not_lt_zero _)
  rwa [upTo_zero] at hgo

/-! ## Summary -/

/-- `p50_ns`, `p99_ns` and `p999_ns` are tight bounds in this order, `min_ns` and `max_ns` the
extremes, and each bucket counts the samples of its printed range. -/
structure TightSummary (samples : List (BitVec 64)) (hist : Histogram) (out : HistSummary) : Prop where
  p50 : TightBound samples 1 2 out.p50Ns
  p99 : TightBound samples 99 100 out.p99Ns
  p999 : TightBound samples 999 1000 out.p999Ns
  ordered : out.p50Ns ≤ out.p99Ns ∧ out.p99Ns ≤ out.p999Ns
  min : IsLeast {ns | ns ∈ samples} out.minNs
  max : IsGreatest {ns | ns ∈ samples} out.maxNs
  ranges : ∀ ns, ∃! i, inRange (reportedRange i) ns
  counted : ∀ i, (hist.buckets i).toNat = samples.countP (inRange (reportedRange i) ·)

theorem min_exact (hne : samples ≠ []) :
    IsLeast {ns | ns ∈ samples} (recordSamples samples).minNs := by
  refine Rank.foldl_extreme_mem (fun a b => a ≤ b) Histogram.minNs histogramRecord BitVec.le_refl
    (fun _ _ _ => BitVec.le_trans) (fun _ _ => BitVec.le_antisymm) ?_ hne ?_
  · intro hist x
    have hnew : (histogramRecord hist x).minNs = if x < hist.minNs then x else hist.minNs := rfl
    rw [hnew]
    split
    · exact ⟨.inr rfl, by bv_omega, BitVec.le_refl _⟩
    · exact ⟨.inl rfl, BitVec.le_refl _, by bv_omega⟩
  · -- the initial value is `U64_MAX`
    intro x
    exact Nat.le_of_lt_succ x.isLt

theorem max_exact (hne : samples ≠ []) :
    IsGreatest {ns | ns ∈ samples} (recordSamples samples).maxNs := by
  refine Rank.foldl_extreme_mem (fun a b => b ≤ a) Histogram.maxNs histogramRecord BitVec.le_refl
    (fun _ _ _ hab hbc => BitVec.le_trans hbc hab) (fun _ _ hab hba => BitVec.le_antisymm hba hab)
    ?_ hne ?_
  · intro hist x
    have hnew : (histogramRecord hist x).maxNs = if x > hist.maxNs then x else hist.maxNs := rfl
    rw [hnew]
    split
    · exact ⟨.inr rfl, by bv_omega, BitVec.le_refl _⟩
    · exact ⟨.inl rfl, BitVec.le_refl _, by bv_omega⟩
  · intro x
    exact Nat.zero_le x.toNat

theorem count_pos (hne : samples ≠ []) (h : samples.length < maxSamples) :
    0 < (recordSamples samples).count := by
  rw [BitVec.lt_def, toNat_count h]
  exact List.length_pos_iff.mpr hne

theorem summarize_tight (samples : List (BitVec 64)) (hne : samples ≠ [])
    (h : samples.length < maxSamples) :
    TightSummary samples (recordSamples samples) (histogramSummarize (recordSamples samples)) := by
  have hpos := count_pos hne h
  have hzero : (recordSamples samples).count ≠ 0 := fun h0 => by
    rw [h0] at hpos
    exact BitVec.lt_irrefl _ hpos
  have h50 : TightBound samples 500 1000 _ := percentileNs_spec h (by decide) (by decide)
  have h99 : TightBound samples 990 1000 _ := percentileNs_spec h (by decide) (by decide)
  have h999 : TightBound samples 9990 10000 _ := percentileNs_spec h (by decide) (by decide)
  have hout : histogramSummarize (recordSamples samples) =
      { count := (recordSamples samples).count
        avgNs := (recordSamples samples).sumNs / (recordSamples samples).count
        minNs := (recordSamples samples).minNs
        maxNs := (recordSamples samples).maxNs
        p50Ns := percentileNs (recordSamples samples) 1000 500
        p99Ns := percentileNs (recordSamples samples) 1000 990
        p999Ns := percentileNs (recordSamples samples) 10000 9990 } := by
    simp only [histogramSummarize, gt_iff_lt, hpos, hzero, if_true, if_false]
  rw [hout]
  exact
    { p50 := h50.congr fun b => or_congr_left (by omega)
      p99 := h99.congr fun b => or_congr_left (by omega)
      p999 := h999.congr fun b => or_congr_left (by omega)
      ordered := ⟨h50.mono h99 (Or.imp_left (by omega)), h99.mono h999 (Or.imp_left (by omega))⟩
      min := min_exact hne
      max := max_exact hne
      ranges := fun ns => ⟨histBucket ns, (histBucket_eq_iff ns _).mp rfl,
        fun i hi => ((histBucket_eq_iff ns i).mpr hi).symm⟩
      counted := fun i => by
        rw [toNat_bucket h i]
        exact List.countP_congr fun ns _ => by
          rw [decide_eq_true_eq, decide_eq_true_eq, histBucket_eq_iff] }

theorem summarize_tight_three :
    [999#64, 1999000, u64Max] ≠ [] ∧ [999#64, 1999000, u64Max].length < maxSamples ∧
      TightSummary [999, 1999000, u64Max] (recordSamples [999, 1999000, u64Max])
        (histogramSummarize (recordSamples [999, 1999000, u64Max])) :=
  ⟨List.cons_ne_nil _ _, by decide,
    summarize_tight _ (List.cons_ne_nil _ _) (by decide)⟩

end Recorded

end Dmaplane
