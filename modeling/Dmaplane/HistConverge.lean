import Dmaplane.HistCalls
import Dmaplane.Lib.CasLoop

/-!
# Dmaplane.HistConverge

Concurrent `dmaplane_histogram_record` calls without a reset. Once all calls have returned the
histogram is the one that the same samples give one after another, in whatever order.

* Sums: at every state a field is the tally of the increments made so far.
* Minimum and maximum: both loops are `CasLoop`, the second one in the dual order. The atomics are
  signed but compared as `u64`, so the order is that of the unsigned values throughout.
-/

namespace Dmaplane

open CasLoop

/-! ## One after another -/

def HistReq.sample : HistReq → Option (BitVec 64)
  | .record latencyNs => some latencyNs
  | .getHistogram _ _ => none

theorem sample_eq_some {req : HistReq} {v : BitVec 64} :
    req.sample = some v ↔ req = .record v := by
  cases req <;> simp [HistReq.sample]

/-- The `dmaplane_histogram_record` calls in some order. -/
def Lists {ι : Type} (req : ι → HistReq) (order : List ι) : Prop :=
  order.Nodup ∧ ∀ i, i ∈ order ↔ ∃ v, req i = .record v

/-- The samples recorded in this order, on an initialised histogram. -/
def recordAll {ι : Type} (req : ι → HistReq) (order : List ι) : Histogram :=
  (order.filterMap fun i => (req i).sample).foldl histogramRecord histogramInit

theorem exists_lists {ι : Type} [Fintype ι] (req : ι → HistReq) :
    ∃ order, Lists req order := by
  classical
  refine ⟨(Finset.univ.filter fun i => ∃ v, req i = .record v).toList, Finset.nodup_toList _, ?_⟩
  intro i
  simp

theorem get_foldl_record {ι : Type} (req : ι → HistReq) (order : List ι) (hist : Histogram)
    (f : HistField) :
    ((order.filterMap fun i => (req i).sample).foldl histogramRecord hist).get f =
      hist.get f + (order.map fun i => (req i).contrib f).sum := by
  induction order generalizing hist with
  | nil => simp
  | cons i order ih =>
    cases hr : req i with
    | record v =>
      have hs : (req i).sample = some v := by rw [hr]; rfl
      have hc : (req i).contrib f = histContrib v f := by rw [hr]; rfl
      simp only [List.filterMap_cons, hs, List.foldl_cons, ih, get_histogramRecord,
        List.map_cons, List.sum_cons, hc]
      exact BitVec.add_assoc _ _ _
    | getHistogram copyFrom copyTo =>
      have hs : (req i).sample = none := by rw [hr]; rfl
      have hc : (req i).contrib f = 0 := by rw [hr]; rfl
      simp only [List.filterMap_cons, hs, ih, List.map_cons, List.sum_cons, hc, zero_add]

theorem get_recordAll {ι : Type} [Fintype ι] [DecidableEq ι] {req : ι → HistReq} {order : List ι}
    (ho : Lists req order) (f : HistField) :
    (recordAll req order).get f = ∑ i, (req i).contrib f := by
  rw [recordAll, get_foldl_record, get_histogramInit, zero_add,
    ← List.sum_toFinset (fun i => (req i).contrib f) ho.1]
  refine Finset.sum_subset (Finset.subset_univ _) fun i _ hi => ?_
  cases hr : req i with
  | record v => exact absurd (List.mem_toFinset.mpr ((ho.2 i).mpr ⟨v, hr⟩)) hi
  | getHistogram copyFrom copyTo => rfl

/-- A measure that each sample lowers to its own value ends at the least of them all. -/
theorem foldl_isLeast {α : Type} [LinearOrder α] {g : Histogram → α} {k : BitVec 64 → α}
    (hg : ∀ hist v, g (histogramRecord hist v) = min (g hist) (k v)) (vs : List (BitVec 64))
    (hist : Histogram) :
    IsLeast (insert (g hist) (k '' {v | v ∈ vs})) (g (vs.foldl histogramRecord hist)) := by
  induction vs generalizing hist with
  | nil => simp
  | cons v vs ih =>
    have h := ih (histogramRecord hist v)
    rw [hg] at h
    constructor
    · rcases h.1 with he | ⟨w, hw, he⟩
      · rcases min_choice (g hist) (k v) with hm | hm
        · exact .inl (he.trans hm)
        · exact .inr ⟨v, by simp, (he.trans hm).symm⟩
      · exact .inr ⟨w, List.mem_cons_of_mem _ hw, he⟩
    · have hstart : g ((v :: vs).foldl histogramRecord hist) ≤ min (g hist) (k v) :=
        h.2 (.inl rfl)
      rintro x (rfl | ⟨w, hw, rfl⟩)
      · exact hstart.trans (min_le_left _ _)
      · rcases List.mem_cons.mp hw with rfl | hw
        · exact hstart.trans (min_le_right _ _)
        · exact h.2 (.inr ⟨w, hw, rfl⟩)

/-- The minimum, as the loops compare it. -/
def minKey (hist : Histogram) : Nat := hist.minNs.toNat

/-- The maximum, in the dual order. -/
def maxKey (hist : Histogram) : Natᵒᵈ := OrderDual.toDual hist.maxNs.toNat

theorem minKey_record (hist : Histogram) (v : BitVec 64) :
    minKey (histogramRecord hist v) = min (minKey hist) v.toNat := by
  simp only [minKey, histogramRecord, BitVec.lt_def]
  split <;> omega

theorem maxKey_record (hist : Histogram) (v : BitVec 64) :
    maxKey (histogramRecord hist v) = min (maxKey hist) (OrderDual.toDual v.toNat) := by
  simp only [maxKey, ← toDual_max, histogramRecord, GT.gt, BitVec.lt_def]
  congr 1
  split <;> omega

/-! ## Interleaved -/

/-- A record in its minimum loop. -/
def minPhase : HistCall → Phase Nat
  | .record pc => match pc with
    | .bucket | .count | .sum | .minRead => .before
    | .minLoop old => .loop old.toNat
    | .maxRead | .maxLoop _ | .done => .past
  | .get _ => .before

/-- A record in its maximum loop. -/
def maxPhase : HistCall → Phase Natᵒᵈ
  | .record pc => match pc with
    | .maxLoop old => .loop (OrderDual.toDual old.toNat)
    | .done => .past
    | _ => .before
  | .get _ => .before

/-- The sample of a call, as the loops compare it. -/
def HistReq.key : HistReq → Nat
  | .record latencyNs => latencyNs.toNat
  | .getHistogram _ _ => 0

theorem getStep_hist {hist hist' : Histogram} {copyFrom : Option HistParams} {copyTo : Bool}
    {g g' : HistGet} (h : getStep hist copyFrom copyTo g = some (hist', g'))
    (hf : g.pc.rank < 37 ∨ 57 ≤ g.pc.rank) : hist' = hist := by
  rcases g with ⟨pc, r, b⟩
  cases pc with
  | clearBucket i => have := bucket_lt i; simp only [GetPc.rank] at hf; omega
  | clearCount | clearSum | clearMin | clearMax => simp only [GetPc.rank] at hf; omega
  | rejected | done copied => cases h
  | _ => cases h; rfl

theorem recordStep_min {hist hist' : Histogram} {v : BitVec 64} {pc pc' : RecordPc}
    (h : recordStep hist v pc = some (hist', pc')) :
    Move v.toNat (minKey hist) (minPhase (.record pc)) (minKey hist') (minPhase (.record pc')) ∨
      minKey hist' = minKey hist ∧ minPhase (.record pc') = minPhase (.record pc) := by
  cases pc with
  | minRead => cases h; exact .inl .read
  | minLoop old =>
    simp only [recordStep] at h
    split at h
    · rename_i hlt
      split at h
      · rename_i he
        cases h
        left
        rw [minKey, he]
        exact .win hlt
      · rename_i hne
        cases h
        exact .inl (.lose hlt fun he => hne (BitVec.eq_of_toNat_eq he))
    · rename_i hnlt
      cases h
      exact .inl (.leave hnlt)
  | maxLoop old =>
    simp only [recordStep] at h
    split at h
    · split at h <;> cases h <;> exact .inr ⟨rfl, rfl⟩
    · cases h; exact .inr ⟨rfl, rfl⟩
  | bucket | count | sum => cases h; exact .inr ⟨by simp [minKey], rfl⟩
  | maxRead => cases h; exact .inr ⟨rfl, rfl⟩
  | done => cases h

theorem recordStep_max {hist hist' : Histogram} {v : BitVec 64} {pc pc' : RecordPc}
    (h : recordStep hist v pc = some (hist', pc')) :
    Move (OrderDual.toDual v.toNat) (maxKey hist) (maxPhase (.record pc)) (maxKey hist')
        (maxPhase (.record pc')) ∨
      maxKey hist' = maxKey hist ∧ maxPhase (.record pc') = maxPhase (.record pc) := by
  cases pc with
  | maxRead => cases h; exact .inl .read
  | maxLoop old =>
    simp only [recordStep] at h
    split at h
    · rename_i hlt
      split at h
      · rename_i he
        cases h
        left
        rw [maxKey, he]
        exact .win (OrderDual.toDual_lt_toDual.mpr hlt)
      · rename_i hne
        cases h
        exact .inl (.lose (OrderDual.toDual_lt_toDual.mpr hlt)
          fun he => hne (BitVec.eq_of_toNat_eq (OrderDual.toDual.injective he)))
    · rename_i hnlt
      cases h
      exact .inl (.leave fun hlt => hnlt (OrderDual.toDual_lt_toDual.mp hlt))
  | minLoop old =>
    simp only [recordStep] at h
    split at h
    · split at h <;> cases h <;> exact .inr ⟨rfl, rfl⟩
    · cases h; exact .inr ⟨rfl, rfl⟩
  | bucket | count | sum => cases h; exact .inr ⟨by simp [maxKey], rfl⟩
  | minRead => cases h; exact .inr ⟨rfl, rfl⟩
  | done => cases h

section Run

variable {ι : Type} [DecidableEq ι] {req : ι → HistReq} {s s' : HistSt ι} {i : ι}

/-- A step of a call without reset is an operation of both loops, or of neither. -/
theorem histSys_moves (hreq : (req i).resets = false) (hf : (req i).Fits (s.calls i))
    (hs : (histSys req).step s i = some s') :
    (Move (req i).key (minKey s.hist) (minPhase (s.calls i)) (minKey s'.hist)
        (minPhase (s'.calls i)) ∨
      minKey s'.hist = minKey s.hist ∧ minPhase (s'.calls i) = minPhase (s.calls i)) ∧
    (Move (OrderDual.toDual (req i).key) (maxKey s.hist) (maxPhase (s.calls i)) (maxKey s'.hist)
        (maxPhase (s'.calls i)) ∨
      maxKey s'.hist = maxKey s.hist ∧ maxPhase (s'.calls i) = maxPhase (s.calls i)) := by
  have h := histSys_callStep hs
  generalize s.calls i = c at h hf
  generalize s'.calls i = c' at h
  generalize s'.hist = hist' at h
  generalize req i = r at h hf hreq
  cases r with
  | record v => cases c with
    | record pc =>
      simp only [callStep, Option.map_eq_some_iff] at h
      obtain ⟨⟨hist1, pc'⟩, hr, he⟩ := h
      cases he
      exact ⟨recordStep_min hr, recordStep_max hr⟩
    | get g => exact hf.elim
  | getHistogram copyFrom copyTo => cases c with
    | record pc => exact hf.elim
    | get g =>
      simp only [callStep, Option.map_eq_some_iff] at h
      obtain ⟨⟨hist1, g'⟩, hr, he⟩ := h
      cases he
      rw [getStep_hist hr (hf.1 hreq)]
      exact ⟨.inr ⟨rfl, rfl⟩, .inr ⟨rfl, rfl⟩⟩

/-- One of the two loops over a whole run. -/
theorem lowered_of_reachable {α : Type} [LinearOrder α] {key : Histogram → α} {v : ι → α}
    {phase : HistCall → Phase α} (hstart : ∀ r : HistReq, phase r.start = .before)
    (hmove : ∀ s i s', (req i).Fits (s.calls i) → (histSys req).step s i = some s' →
      Move (v i) (key s.hist) (phase (s.calls i)) (key s'.hist) (phase (s'.calls i)) ∨
        key s'.hist = key s.hist ∧ phase (s'.calls i) = phase (s.calls i))
    (h : (histSys req).Reachable s) :
    Lowered (key histogramInit) v (key s.hist) (fun i => phase (s.calls i)) := by
  refine h.invariant₂ (I := fun s => ∀ i, (req i).Fits (s.calls i))
    (J := fun s => Lowered (key histogramInit) v (key s.hist) (fun i => phase (s.calls i)))
    (fun s (hr : (histSys req).Reachable s) => fits_of_reachable hr) ?_ ?_
  · exact Lowered.init fun i => hstart (req i)
  · intro s i s' hf hJ _ hs
    have hother : ∀ j, j ≠ i → phase (s'.calls j) = phase (s.calls j) :=
      fun j hj => by rw [(histSys_step hs).2 j hj]
    rcases hmove s i s' (hf i) hs with hm | ⟨hk, hp⟩
    · exact hJ.move hm hother
    · have hph : (fun j => phase (s'.calls j)) = fun j => phase (s.calls j) := by
        funext j
        by_cases hj : j = i
        · subst hj; exact hp
        · exact hother j hj
      rw [hk, hph]
      exact hJ

theorem lowered_min (hreq : ∀ i, (req i).resets = false) (h : (histSys req).Reachable s) :
    Lowered (minKey histogramInit) (fun i => (req i).key) (minKey s.hist)
      (fun i => minPhase (s.calls i)) :=
  lowered_of_reachable (fun r => by cases r <;> rfl)
    (fun _ i _ hf hs => (histSys_moves (hreq i) hf hs).1) h

theorem lowered_max (hreq : ∀ i, (req i).resets = false) (h : (histSys req).Reachable s) :
    Lowered (maxKey histogramInit) (fun i => OrderDual.toDual (req i).key) (maxKey s.hist)
      (fun i => maxPhase (s.calls i)) :=
  lowered_of_reachable (fun r => by cases r <;> rfl)
    (fun _ i _ hf hs => (histSys_moves (hreq i) hf hs).2) h

/-- No increment is lost: each field is the tally of the increments made. -/
theorem get_eq_tally [Fintype ι] (hreq : ∀ i, (req i).resets = false)
    (h : (histSys req).Reachable s) (f : HistField) :
    s.hist.get f = s.tally req (fun _ => True) f := by
  refine h.invariant₂ (I := fun s => ∀ i, (req i).Fits (s.calls i))
    (J := fun s => s.hist.get f = s.tally req (fun _ => True) f)
    (fun s (hr : (histSys req).Reachable s) => fits_of_reachable hr) ?_ ?_
  · refine (get_histogramInit f).trans (Finset.sum_eq_zero fun i _ => ?_).symm
    show (if (req i).counted (req i).start f = true ∧ True then _ else _) = _
    cases req i <;> cases f <;> simp [HistReq.counted, HistReq.start]
  · intro s i s' hf hJ _ hs
    rw [histTally_step hs (fun _ _ => Iff.rfl) fun _ => Iff.rfl, ← hJ, (histSys_step hs).1.get f]
    cases hop : (req i).op (s.calls i) with
    | add f' =>
      by_cases hff : f = f'
      · subst hff; simp [HistOp.apply]
      · simp [HistOp.apply, hff, Ne.symm hff]
    | clear f' =>
      have := (hf i).clears hop
      rw [hreq i] at this
      cases this
    | _ => simp [HistOp.apply]

/-! ## All returned -/

omit [DecidableEq ι] in
theorem past_of_finished (hf : (req i).Fits (s.calls i)) (hdone : (s.calls i).finished = true) :
    (minPhase (s.calls i) = .past ↔ ∃ v, req i = .record v) ∧
      (maxPhase (s.calls i) = .past ↔ ∃ v, req i = .record v) := by
  generalize s.calls i = c at hf hdone ⊢
  generalize req i = r at hf ⊢
  cases r with
  | record v => cases c with
    | record pc =>
      have hpc : pc = .done := by simpa [HistCall.finished] using hdone
      subst hpc
      exact ⟨⟨fun _ => ⟨v, rfl⟩, fun _ => rfl⟩, ⟨fun _ => ⟨v, rfl⟩, fun _ => rfl⟩⟩
    | get g => exact hf.elim
  | getHistogram copyFrom copyTo => cases c with
    | record pc => exact hf.elim
    | get g =>
      have hno : ¬ ∃ v, HistReq.getHistogram copyFrom copyTo = .record v := by
        rintro ⟨v, hv⟩
        cases hv
      exact ⟨iff_of_false (fun h => by cases h) hno, iff_of_false (fun h => by cases h) hno⟩

omit [DecidableEq ι] in
/-- The values of the threads past the loop are the samples. -/
theorem image_past {α : Type} {k : Nat → α} {phase : HistCall → Phase α} {order : List ι}
    (ho : Lists req order) (hpast : ∀ i, phase (s.calls i) = .past ↔ ∃ v, req i = .record v) :
    (fun i => k (req i).key) '' {i | phase (s.calls i) = .past} =
      (fun v : BitVec 64 => k v.toNat) '' {v | v ∈ order.filterMap fun i => (req i).sample} := by
  ext x
  constructor
  · rintro ⟨i, hi, rfl⟩
    obtain ⟨v, hv⟩ := (hpast i).mp hi
    refine ⟨v, List.mem_filterMap.mpr ⟨i, (ho.2 i).mpr ⟨v, hv⟩, sample_eq_some.mpr hv⟩, ?_⟩
    simp [hv, HistReq.key]
  · rintro ⟨v, hv, rfl⟩
    obtain ⟨i, -, hs⟩ := List.mem_filterMap.mp hv
    have hr := sample_eq_some.mp hs
    refine ⟨i, (hpast i).mpr ⟨v, hr⟩, ?_⟩
    simp [hr, HistReq.key]

/-- The histogram after concurrent calls is that of the same samples one after another. -/
theorem hist_eq_recordAll [Fintype ι] (hreq : ∀ i, (req i).resets = false)
    (h : (histSys req).Reachable s) (hdone : ∀ i, (s.calls i).finished = true)
    {order : List ι} (ho : Lists req order) : s.hist = recordAll req order := by
  have hf := fits_of_reachable h
  apply Histogram.ext_get
  · intro f
    rw [get_eq_tally hreq h f, histTally_finished hf hdone, get_recordAll ho]
    simp
  · have hl := (lowered_min hreq h).isLeast
    have hr := foldl_isLeast minKey_record (order.filterMap fun i => (req i).sample) histogramInit
    have himage : (fun i => (req i).key) '' {i | minPhase (s.calls i) = .past} =
        BitVec.toNat '' {v | v ∈ order.filterMap fun i => (req i).sample} :=
      image_past (k := id) ho fun i => (past_of_finished (hf i) (hdone i)).1
    rw [himage] at hl
    exact BitVec.eq_of_toNat_eq (hl.unique hr)
  · have hl := (lowered_max hreq h).isLeast
    have hr := foldl_isLeast maxKey_record (order.filterMap fun i => (req i).sample) histogramInit
    rw [image_past (k := OrderDual.toDual) ho fun i => (past_of_finished (hf i) (hdone i)).2] at hl
    exact BitVec.eq_of_toNat_eq (OrderDual.toDual.injective (hl.unique hr))

omit [DecidableEq ι] in
theorem sampled_recordAll (order : List ι) : (recordAll req order).Sampled := by
  unfold recordAll
  generalize order.filterMap (fun i => (req i).sample) = vs
  have h : ∀ hist : Histogram, hist.Sampled → (vs.foldl histogramRecord hist).Sampled := by
    induction vs with
    | nil => intro hist hi; exact hi
    | cons v vs ih => intro hist hi; exact ih _ (sampled_record hi v)
  exact h _ sampled_init

theorem key_le (req : HistReq) : req.key ≤ 2 ^ 64 - 1 := by
  cases req with
  | record v => have := v.isLt; simp only [HistReq.key]; omega
  | getHistogram copyFrom copyTo => simp [HistReq.key]

theorem record_of_key {r : HistReq} {x : BitVec 64} (hr : ∃ v, r = .record v)
    (hk : r.key = x.toNat) : r = .record x := by
  obtain ⟨v, rfl⟩ := hr
  exact congrArg _ (BitVec.eq_of_toNat_eq hk)

/-- **Concurrent recording converges.** Without a reset, when all calls have returned, the
histogram equals that of the same samples recorded one after another in any order; its buckets add
up to its count, and its minimum and maximum are those of the samples. On the way the minimum only
falls and the maximum only rises. -/
theorem concurrent_records_converge [Fintype ι] (hreq : ∀ i, (req i).resets = false) :
    (∀ s, (histSys req).Reachable s → (∀ i, (s.calls i).finished = true) →
      (∀ order, Lists req order → s.hist = recordAll req order) ∧ s.hist.Sampled ∧
      (∀ i v, req i = .record v → s.hist.minNs ≤ v ∧ v ≤ s.hist.maxNs) ∧
      ((∃ i v, req i = .record v) →
        (∃ i, req i = .record s.hist.minNs) ∧ ∃ i, req i = .record s.hist.maxNs)) ∧
    ∀ s i s', (histSys req).Reachable s → (histSys req).step s i = some s' →
      s'.hist.minNs ≤ s.hist.minNs ∧ s.hist.maxNs ≤ s'.hist.maxNs := by
  refine ⟨fun s h hdone => ?_, fun s i s' h hs => ?_⟩
  · have hpast := fun i => past_of_finished (fits_of_reachable h i) (hdone i)
    have hmin := lowered_min hreq h
    have hmax := lowered_max hreq h
    have heq : ∀ order, Lists req order → s.hist = recordAll req order :=
      fun order ho => hist_eq_recordAll hreq h hdone ho
    refine ⟨heq, ?_, ?_, ?_⟩
    · obtain ⟨order, ho⟩ : ∃ order, Lists req order := exists_lists req
      rw [heq order ho]
      exact sampled_recordAll order
    · intro i v hv
      have h1 := hmin.past i ((hpast i).1.mpr ⟨v, hv⟩)
      have h2 := hmax.past i ((hpast i).2.mpr ⟨v, hv⟩)
      rw [hv] at h1 h2
      exact ⟨h1, h2⟩
    · rintro ⟨i, v, hv⟩
      constructor
      · obtain ⟨j, hj, hk⟩ := hmin.attained (fun j => key_le _) ((hpast i).1.mpr ⟨v, hv⟩)
        exact ⟨j, record_of_key ((hpast j).1.mp hj) hk⟩
      · obtain ⟨j, hj, hk⟩ := hmax.attained (fun j => Nat.zero_le _) ((hpast i).2.mpr ⟨v, hv⟩)
        exact ⟨j, record_of_key ((hpast j).2.mp hj) (OrderDual.toDual.injective hk)⟩
  · obtain ⟨hmin, hmax⟩ := histSys_moves (hreq i) (fits_of_reachable h i) hs
    constructor
    · rcases hmin with hm | ⟨hk, -⟩
      · exact hm.le
      · exact hk.le
    · rcases hmax with hm | ⟨hk, -⟩
      · exact hm.le
      · exact hk.le

end Run

/-- 3 µs and 1 µs, recorded at once. -/
def twoRecords : Fin 2 → HistReq := ![.record 3000, .record 1000]

/-- Both read the initial minimum; the compare-and-exchange of the second fails once, and its
maximum loop finds a larger sample. -/
theorem concurrent_records_converge_two :
    ∃ s, (histSys twoRecords).Reachable s ∧ (∀ i, (s.calls i).finished = true) ∧
      s.hist = recordAll twoRecords [1, 0] := by
  obtain ⟨s, hr, hdone⟩ : ∃ s : HistSt (Fin 2), (histSys twoRecords).Reachable s ∧
      ∀ i, (s.calls i).finished = true :=
    Transition.Sys.exists_of_exec [0, 1, 0, 1, 0, 1, 0, 1, 0, 1, 1, 0, 1, 0, 1, 1]
      (by decide +kernel)
  have hreq : ∀ i, (twoRecords i).resets = false := by decide
  have horder : Lists twoRecords [1, 0] := by
    refine ⟨by decide, ?_⟩
    rw [Fin.forall_fin_two]
    simp [twoRecords]
  exact ⟨s, hr, hdone, ((concurrent_records_converge hreq).1 s hr hdone).1 _ horder⟩

end Dmaplane
