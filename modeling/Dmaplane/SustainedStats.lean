import Dmaplane.SustainedCredits

/-!
# Dmaplane.SustainedStats

What a sustained run measures: the latencies it records and the throughput of its windows.

* `Paired`    — the timestamp ring holds, oldest first, the timestamps of the sends that no success
  has been polled for, across the wrap of its two indices.
* `ThroughputInv` — the extremes are those of the full windows so far, and before the first one they
  are as at the start.
-/

namespace Dmaplane

open WrapRing Exits

/-! ## Latencies -/

theorem zipWith_prefix {α : Type} (g : α → α → α) {as bs : List α} (h : as.length = bs.length)
    (cs : List α) : List.zipWith g as (bs ++ cs) = List.zipWith g as bs :=
  calc List.zipWith g as (bs ++ cs)
      = List.zipWith g (as ++ []) (bs ++ cs) := by rw [List.append_nil]
    _ = List.zipWith g as bs ++ List.zipWith g [] cs := List.zipWith_append h
    _ = List.zipWith g as bs := by rw [List.zipWith_nil_left, List.append_nil]

/-- The first timestamps are paired with the successes, the others wait on the ring. -/
structure Paired (hist : Histogram) (s : Sustained) : Prop where
  stamps : ∃ paired, s.log.stamps = paired ++ s.ts.contents ∧
    paired.length = s.log.polls.length ∧
      s.log.recorded = List.zipWith (· - ·) s.log.polls paired
  tail : s.ts.tail = BitVec.ofNat 32 s.log.polls.length
  hist : s.rdmaHist = s.log.recorded.foldl histogramRecord hist

/-- In the main loop every outstanding send has its timestamp on the ring. -/
structure PairedLoop (hist : Histogram) (s : Sustained) : Prop extends Paired hist s where
  count : s.ts.count.toNat = s.outstanding

section Latency

variable {p : SustainedParams} {e : Iteration} {s : Sustained} {flow : FlowCtl} {hist : Histogram}

theorem PairedLoop.windowCheck (hp : PairedLoop hist s) (now : Ktime) :
    PairedLoop hist (windowCheck now s) := by
  obtain ⟨lo, top, bytes, start, windows, hw⟩ := windowCheck_frame now s
  rw [hw]
  exact ⟨⟨hp.stamps, hp.tail, hp.hist⟩, hp.count⟩

/-- A send finds a slot whose timestamp is not waited for. -/
theorem PairedLoop.push (hp : PairedLoop hist s) (hd : s.outstanding < 64) (t : Ktime) :
    PairedLoop hist { s with
      ts := s.ts.push t, outstanding := incU32 s.outstanding
      log := { s.log with stamps := s.log.stamps ++ [t] } } := by
  have hcount := hp.count
  have hinc : incU32 s.outstanding = s.outstanding + 1 := incU32_eq hd (by decide)
  have hfull : s.ts.count.toNat < tsRingSize := by
    show _ < 128
    omega
  obtain ⟨paired, hst, hlen, hrec⟩ := hp.stamps
  refine ⟨⟨⟨paired, ?_, hlen, hrec⟩, hp.tail, hp.hist⟩, ?_⟩
  · show s.log.stamps ++ [t] = paired ++ (s.ts.push t).contents
    rw [Ring.contents_push (by decide) (by decide) hfull, hst, List.append_assoc]
  · show (s.ts.push t).count.toNat = incU32 s.outstanding
    rw [hinc, Ring.count_push, Ring.toNat_add_one (by omega), hcount]

theorem PairedLoop.sendPhase (hq : p.queueDepth.toNat ≤ 64) (hp : PairedLoop hist s) :
    Ends (PairedLoop hist) (Paired hist) (sendPhase p e s) := by
  simp only [Dmaplane.sendPhase]
  split
  · rename_i hc
    cases e.postSend with
    | some err => exact ⟨hp.stamps, hp.tail, hp.hist⟩
    | none =>
      obtain ⟨⟨h1, h2, h3⟩, h4⟩ := hp.push (by omega) e.sendTime
      exact ⟨⟨h1, h2, h3⟩, h4⟩
  · split
    · exact ⟨⟨hp.stamps, hp.tail, hp.hist⟩, hp.count⟩
    · exact ⟨⟨hp.stamps, hp.tail, hp.hist⟩, hp.count⟩

/-- A success reads the timestamp of the oldest outstanding send. -/
theorem PairedLoop.completeSend (hp : PairedLoop hist s) (ho : 0 < s.outstanding)
    (hsm : s.outstanding < 2 ^ 32) (t : Ktime) : PairedLoop hist (completeSend p t s) := by
  have hcount := hp.count
  have hdec : decU32 s.outstanding = s.outstanding - 1 := decU32_eq ho hsm
  have hne : s.ts.head ≠ s.ts.tail := fun h => by
    have := Ring.count_eq_zero.mpr h
    omega
  obtain ⟨paired, hst, hlen, hrec⟩ := hp.stamps
  refine ⟨⟨⟨paired ++ [s.ts.front], ?_, ?_, ?_⟩, ?_, ?_⟩, ?_⟩
  · show s.log.stamps = paired ++ [s.ts.front] ++ s.ts.pop.contents
    rw [hst, Ring.contents_pop hne, List.append_assoc]
    rfl
  · show (paired ++ [s.ts.front]).length = (s.log.polls ++ [t]).length
    rw [List.length_append, List.length_append, hlen]
    rfl
  · show s.log.recorded ++ [t - s.ts.front] = List.zipWith _ (s.log.polls ++ [t]) _
    rw [List.zipWith_append hlen.symm, ← hrec]
    rfl
  · show s.ts.tail + 1 = BitVec.ofNat 32 (s.log.polls ++ [t]).length
    rw [hp.tail, List.length_append, BitVec.ofNat_add]
    rfl
  · show histogramRecord s.rdmaHist (t - s.ts.front) =
      (s.log.recorded ++ [t - s.ts.front]).foldl histogramRecord hist
    rw [List.foldl_append, ← hp.hist]
    rfl
  · show s.ts.pop.count.toNat = decU32 s.outstanding
    rw [hdec, Ring.count_pop, Ring.toNat_sub_one (by omega), hcount]

theorem PairedLoop.replenishRecv (hp : PairedLoop hist s) :
    Ends (PairedLoop hist) (Paired hist) (replenishRecv p e s) := by
  unfold Dmaplane.replenishRecv
  split
  · cases e.postRecv with
    | some err => exact hp.toPaired
    | none => exact ⟨⟨hp.stamps, hp.tail, hp.hist⟩, hp.count⟩
  · exact hp

theorem PairedLoop.pollPhase (hi : InLoop flow p s) (hp : PairedLoop hist s) :
    Ends (PairedLoop hist) (Paired hist) (pollPhase p e s) := by
  unfold Dmaplane.pollPhase
  cases hr : pollAnswer s.due e.poll with
  | success =>
    have hd := pollAnswer_due (.inl hr)
    have ho := hi.outstanding
    exact (hp.completeSend (by omega) hi.small e.pollTime).replenishRecv
  | error => exact ⟨hp.stamps, hp.tail, hp.hist⟩
  | fail => exact hp.toPaired
  | empty => exact hp

theorem PairedLoop.mainIteration (hset : FlowSet flow) (hq : p.queueDepth.toNat ≤ 64)
    (hi : InLoop flow p s) (hp : PairedLoop hist s) :
    Ends (PairedLoop hist) (Paired hist) (mainIteration p e s) := by
  have hsend := ((hi.windowCheck e.now).sendPhase (e := e) hset).and
    ((hp.windowCheck e.now).sendPhase (e := e) hq)
  refine (hsend.mono (fun _ h => h) fun _ h => h.2).bind fun s₁ h₁ =>
    (h₁.2.pollPhase h₁.1).bind fun s₂ h₂ => ?_
  exact ⟨⟨h₂.stamps, h₂.tail, h₂.hist⟩, h₂.count⟩

theorem Paired.drainIteration (hp : Paired hist s) (poll : CqPoll) (cqB : Nat) :
    Paired hist (drainIteration p poll cqB s) := by
  have h : Paired hist (drainPoll p poll s) := by
    unfold drainPoll
    split
    · exact ⟨hp.stamps, hp.tail, hp.hist⟩
    · exact ⟨hp.stamps, hp.tail, hp.hist⟩
    · exact hp
  exact ⟨h.stamps, h.tail, h.hist⟩

/-- The slot of send `i` is `i` modulo the ring size, whatever the index has wrapped to. -/
theorem Paired.slot (hp : Paired hist s) (j : Nat) :
    Ring.slot tsRingSize (s.ts.tail + BitVec.ofNat 32 j) =
      Fin.ofNat tsRingSize (s.log.polls.length + j) := by
  apply Fin.ext
  rw [hp.tail, Ring.slot_add (by decide), BitVec.toNat_ofNat]
  show (s.log.polls.length % 2 ^ 32 + j) % 128 = (s.log.polls.length + j) % 128
  omega

end Latency

section Runs

variable {dev : SustainedDev} {p : SustainedParams} {env : SustainedEnv} {s₀ : Sustained}
  {st : SustainedSt}

theorem paired_holds (hf : FlowOk dev.flow) (hb : Begun dev p env s₀)
    (h : (sustainedSys p env.start s₀).Reachable st) :
    st.Holds
      (fun s => InLoop (sustainedFlow dev.flow p.queueDepth.toNat) p s ∧ PairedLoop dev.rdmaHist s)
      (Paired dev.rdmaHist) := by
  have hset := flowSet_sustained hf p.queueDepth.toNat
  have h0 : PairedLoop dev.rdmaHist s₀ := by
    rw [hb.state]
    refine ⟨⟨⟨[], ?_, rfl, rfl⟩, rfl, rfl⟩, Ring.count_eq_zero.mpr rfl⟩
    exact (Ring.contents_eq_nil.mpr rfl).symm
  refine sustained_invariant ⟨hb.inLoop, h0⟩ (fun e s hi => ?_) (fun _ hi => hi.2.toPaired)
    (fun poll cqB _ _ hi => hi.drainIteration poll cqB) h
  exact ((hi.1.mainIteration hset).and (hi.2.mainIteration hset hb.depth hi.1)).mono
    (fun _ h => h) fun _ h => h.2

/-- What a run has recorded, and where the timestamps of its outstanding sends are. -/
structure LatenciesPaired (hist : Histogram) (st : SustainedSt) : Prop where
  /-- The `i`-th value is the `i`-th poll time minus the timestamp of the `i`-th send. -/
  recorded : st.s.log.recorded = List.zipWith (· - ·) st.s.log.polls st.s.log.stamps
  polled : st.s.log.polls.length = st.s.log.recorded.length
  hist : st.s.rdmaHist = st.s.log.recorded.foldl histogramRecord hist
  /-- `ts_head - ts_tail`. -/
  indices : st.phase = .main → (st.s.ts.head - st.s.ts.tail).toNat = st.s.outstanding
  /-- No slot is overwritten before the completion that reads it. -/
  intact : ∀ i (hi : i < st.s.log.stamps.length), st.s.log.polls.length ≤ i →
    st.s.ts.entries (Fin.ofNat tsRingSize i) = st.s.log.stamps[i]

/-- **Latency samples**, over runs of any length. -/
theorem latencies_paired (hf : FlowOk dev.flow) (hb : sustainedBegin dev p env = .ok s₀)
    (h : (sustainedSys p env.start s₀).Reachable st) : LatenciesPaired dev.rdmaHist st := by
  have hh := paired_holds hf (sustainedBegin_ok hb) h
  have hp : Paired dev.rdmaHist st.s := by
    unfold SustainedSt.Holds at hh
    split at hh
    · exact hh.2.toPaired
    · exact hh
  obtain ⟨paired, hst, hlen, hrec⟩ := hp.stamps
  have hzip : st.s.log.recorded = List.zipWith (· - ·) st.s.log.polls st.s.log.stamps := by
    rw [hst, zipWith_prefix _ hlen.symm, hrec]
  refine ⟨hzip, ?_, hp.hist, fun hmain => ?_, fun i hi hge => ?_⟩
  · rw [hrec, List.length_zipWith, hlen, Nat.min_self]
  · simp only [SustainedSt.Holds, hmain] at hh
    exact hh.2.count
  · obtain ⟨j, rfl⟩ := Nat.exists_eq_add_of_le hge
    have hj : j < st.s.ts.contents.length := by
      rw [hst, List.length_append] at hi
      omega
    have hget : st.s.log.stamps[st.s.log.polls.length + j] = st.s.ts.contents[j] := by
      simp only [hst, ← hlen, List.getElem_append_right (Nat.le_add_right _ _),
        Nat.add_sub_cancel_left]
    rw [hget, ← hp.slot j]
    simp [Ring.contents]

theorem latencies_paired_two : ∃ st : SustainedSt,
    st.s.log.recorded = [1020] ∧ st.s.ts.contents = [11, 31] ∧
      LatenciesPaired sampleDev.rdmaHist st := by
  obtain ⟨st, hr, hrec, hc⟩ : ∃ st,
      (sustainedSys sampleParams sampleEnv.start sampleBegun).Reachable st ∧
        st.s.log.recorded = [1020] ∧ st.s.ts.contents = [11, 31] :=
    Transition.Sys.exists_of_exec
      [.iteration 0 (sampleIteration 1 .empty) 0, .iteration 10 (sampleIteration 11 .empty) 0,
       .iteration 20 (sampleIteration 21 .success) 0, .iteration 30 (sampleIteration 31 .empty) 0]
      (by decide +kernel)
  exact ⟨st, hrec, hc, latencies_paired flowOk_init sample_begun hr⟩

end Runs

/-! ## Windows -/

/-- After a run that began at `start`. -/
structure ThroughputInv (p : SustainedParams) (start : Ktime) (s : Sustained) : Prop where
  least : ∀ w ∈ s.log.windows, s.minWindowMbps ≤ w
  greatest : ∀ w ∈ s.log.windows, w ≤ s.maxWindowMbps
  none : s.log.windows = [] →
    s.minWindowMbps = u64Max ∧ s.maxWindowMbps = 0 ∧ s.windowStart = start
  some : s.log.windows ≠ [] → s.minWindowMbps < u64Max
  /-- The first window to close is that of the first `now` a second from the start. -/
  closed : s.log.windows ≠ [] ↔ ∃ t ∈ s.log.nows, windowNsMin ≤ t - start
  bytes : s.totalBytes = BitVec.ofNat 64 p.msgSize.toNat * BitVec.ofNat 64 s.log.successes

section Windows

variable {p : SustainedParams} {e : Iteration} {s : Sustained} {start : Ktime}

/-- A quotient by a second or more is not `U64_MAX`. -/
theorem div_lt_u64Max {bytes ns : BitVec 64} (h : windowNsMin ≤ ns) : bytes / ns < u64Max := by
  have hns : 1000000000 ≤ ns.toNat := h
  have hb := bytes.isLt
  show (bytes / ns).toNat < 2 ^ 64 - 1
  rw [BitVec.toNat_udiv]
  have hle : bytes.toNat / ns.toNat ≤ bytes.toNat / 1000000000 :=
    Nat.div_le_div_left hns (by decide)
  omega

theorem ThroughputInv.windowCheck (hi : ThroughputInv p start s) (now : Ktime) :
    ThroughputInv p start (windowCheck now s) := by
  have hclosed : (∃ t ∈ s.log.nows ++ [now], windowNsMin ≤ t - start) ↔
      s.log.windows ≠ [] ∨ windowNsMin ≤ now - start := by
    rw [hi.closed]
    simp only [List.mem_append, List.mem_singleton, or_and_right, exists_or, exists_eq_left]
  simp only [Dmaplane.windowCheck]
  split
  · rename_i hfull
    have hw : (if now - s.windowStart > 0 ∧ s.windowBytes > 0 then
        s.windowBytes * 1000 / (now - s.windowStart) else 0) < u64Max := by
      split
      · exact div_lt_u64Max hfull
      · decide
    generalize hmbps : (if now - s.windowStart > 0 ∧ s.windowBytes > 0 then
      s.windowBytes * 1000 / (now - s.windowStart) else 0) = mbps at hw ⊢
    refine ⟨?_, ?_, ?_, ?_, ?_, hi.bytes⟩
    · intro w hmem
      show (if mbps < s.minWindowMbps then mbps else s.minWindowMbps) ≤ w
      rcases List.mem_append.mp hmem with hold | hnew
      · have := hi.least w hold
        split <;> bv_omega
      · obtain rfl := List.mem_singleton.mp hnew
        split <;> bv_omega
    · intro w hmem
      show w ≤ (if mbps > s.maxWindowMbps then mbps else s.maxWindowMbps)
      rcases List.mem_append.mp hmem with hold | hnew
      · have := hi.greatest w hold
        split <;> bv_omega
      · obtain rfl := List.mem_singleton.mp hnew
        split <;> bv_omega
    · intro h0
      exact absurd h0 (List.append_ne_nil_of_right_ne_nil _ (List.cons_ne_nil _ _))
    · intro _
      show (if mbps < s.minWindowMbps then mbps else s.minWindowMbps) < u64Max
      split
      · exact hw
      · bv_omega
    · refine iff_of_true (List.append_ne_nil_of_right_ne_nil _ (List.cons_ne_nil _ _)) ?_
      refine hclosed.mpr ?_
      by_cases h0 : s.log.windows = []
      · rw [(hi.none h0).2.2] at hfull
        exact .inr hfull
      · exact .inl h0
  · rename_i hfull
    refine ⟨hi.least, hi.greatest, hi.none, hi.some, ?_, hi.bytes⟩
    show s.log.windows ≠ [] ↔ ∃ t ∈ s.log.nows ++ [now], _
    rw [hclosed]
    refine ⟨.inl, fun h => h.elim id fun hnow h0 => ?_⟩
    rw [(hi.none h0).2.2] at hfull
    exact hfull hnow

theorem ThroughputInv.sendPhase (hi : ThroughputInv p start s) :
    Ends (ThroughputInv p start) (ThroughputInv p start) (sendPhase p e s) := by
  obtain ⟨h1, h2, h3, h4, h5, h6⟩ := hi
  simp only [Dmaplane.sendPhase]
  split
  · cases e.postSend with
    | some err => exact ⟨h1, h2, h3, h4, h5, h6⟩
    | none => exact ⟨h1, h2, h3, h4, h5, h6⟩
  · split
    · exact ⟨h1, h2, h3, h4, h5, h6⟩
    · exact ⟨h1, h2, h3, h4, h5, h6⟩

theorem bytes_add (msg : BitVec 64) (n : Nat) :
    msg * BitVec.ofNat 64 n + msg = msg * BitVec.ofNat 64 (n + 1) := by
  rw [BitVec.ofNat_add, BitVec.mul_add]
  congr 1
  exact (BitVec.mul_one msg).symm

theorem ThroughputInv.pollPhase (hi : ThroughputInv p start s) :
    Ends (ThroughputInv p start) (ThroughputInv p start) (pollPhase p e s) := by
  obtain ⟨h1, h2, h3, h4, h5, h6⟩ := hi
  unfold Dmaplane.pollPhase
  split
  · have h6' : s.totalBytes + BitVec.ofNat 64 p.msgSize.toNat =
        BitVec.ofNat 64 p.msgSize.toNat * BitVec.ofNat 64 (s.log.successes + 1) := by
      rw [h6, bytes_add]
    unfold replenishRecv
    split
    · cases e.postRecv with
      | some err => exact ⟨h1, h2, h3, h4, h5, h6'⟩
      | none => exact ⟨h1, h2, h3, h4, h5, h6'⟩
    · exact ⟨h1, h2, h3, h4, h5, h6'⟩
  · exact ⟨h1, h2, h3, h4, h5, h6⟩
  · exact ⟨h1, h2, h3, h4, h5, h6⟩
  · exact ⟨h1, h2, h3, h4, h5, h6⟩

theorem ThroughputInv.mainIteration (hi : ThroughputInv p start s) :
    Ends (ThroughputInv p start) (ThroughputInv p start) (mainIteration p e s) := by
  refine (hi.windowCheck e.now).sendPhase.bind fun s₁ h₁ => h₁.pollPhase.bind fun s₂ h₂ => ?_
  exact ⟨h₂.least, h₂.greatest, h₂.none, h₂.some, h₂.closed, h₂.bytes⟩

theorem ThroughputInv.drainIteration (hi : ThroughputInv p start s) (poll : CqPoll) (cqB : Nat) :
    ThroughputInv p start (drainIteration p poll cqB s) := by
  have h : ThroughputInv p start (drainPoll p poll s) := by
    obtain ⟨h1, h2, h3, h4, h5, h6⟩ := hi
    unfold drainPoll
    split
    · refine ⟨h1, h2, h3, h4, h5, ?_⟩
      show s.totalBytes + _ = _ * BitVec.ofNat 64 (s.log.successes + 1)
      rw [h6, bytes_add]
    · exact ⟨h1, h2, h3, h4, h5, h6⟩
    · exact ⟨h1, h2, h3, h4, h5, h6⟩
  exact ⟨h.least, h.greatest, h.none, h.some, h.closed, h.bytes⟩

theorem throughputInv_init {dev : SustainedDev} {env : SustainedEnv} {s₀ : Sustained}
    (hb : Begun dev p env s₀) : ThroughputInv p env.start s₀ := by
  rw [hb.state]
  refine ⟨fun w hw => (by cases hw), fun w hw => (by cases hw), fun _ => ⟨rfl, rfl, rfl⟩,
    fun h => absurd rfl h, ?_, (BitVec.mul_zero).symm⟩
  exact iff_of_false (fun h => h rfl) fun ⟨t, ht, _⟩ => by cases ht

theorem throughputInv {dev : SustainedDev} {env : SustainedEnv} {s₀ : Sustained} {st : SustainedSt}
    (hb : Begun dev p env s₀) (h : (sustainedSys p env.start s₀).Reachable st) :
    ThroughputInv p env.start st.s := by
  have hh : st.Holds (ThroughputInv p env.start) (ThroughputInv p env.start) :=
    sustained_invariant (throughputInv_init hb) (fun _ _ hi => hi.mainIteration) (fun _ hi => hi)
      (fun poll cqB _ _ hi => hi.drainIteration poll cqB) h
  unfold SustainedSt.Holds at hh
  split at hh <;> exact hh

/-- What the results say of the full windows of the run. -/
structure WindowsOrdered (windows : List (BitVec 64)) (r : SustainedResults) : Prop where
  ordered : r.minWindowMbps ≤ r.maxWindowMbps
  between : ∀ w ∈ windows, r.minWindowMbps ≤ w ∧ w ≤ r.maxWindowMbps
  none : windows = [] →
    r.minWindowMbps = r.avgThroughputMbps ∧ r.maxWindowMbps = r.avgThroughputMbps

theorem avg_eq_zero (total elapsed : BitVec 64) :
    (if elapsed > 0 then total * 1000 / elapsed else 0) = 0 ↔
      elapsed = 0 ∨ total * 1000 < elapsed := by
  by_cases h0 : elapsed = 0
  · subst h0
    exact iff_of_true rfl (.inl rfl)
  · have hne : elapsed.toNat ≠ 0 := fun h => h0 (BitVec.eq_of_toNat_eq h)
    have hpos : elapsed > 0 := Nat.pos_of_ne_zero hne
    rw [if_pos hpos, or_iff_right h0]
    constructor
    · intro h
      have hdiv := congrArg BitVec.toNat h
      rw [BitVec.toNat_udiv] at hdiv
      exact ((Nat.div_eq_zero_iff).mp hdiv).resolve_left hne
    · intro h
      refine BitVec.eq_of_toNat_eq ?_
      rw [BitVec.toNat_udiv, Nat.div_eq_of_lt h]
      rfl

/-- With a full window the extremes are ordered. -/
theorem ThroughputInv.ordered (hi : ThroughputInv p start s) (hne : s.log.windows ≠ [])
    (elapsedNs : BitVec 64) (ret : Option Errno) :
    WindowsOrdered s.log.windows (sustainedResults elapsedNs ret s) := by
  obtain ⟨w, hw⟩ := List.exists_mem_of_ne_nil _ hne
  have hsome := hi.some hne
  have hmin : (sustainedResults elapsedNs ret s).minWindowMbps = s.minWindowMbps := by
    show (if s.minWindowMbps = u64Max then _ else _) = _
    rw [if_neg fun h => ?_]
    rw [h] at hsome
    exact BitVec.lt_irrefl _ hsome
  refine ⟨?_, fun v hv => ⟨?_, hi.greatest v hv⟩, fun h0 => absurd h0 hne⟩
  · rw [hmin]
    exact BitVec.le_trans (hi.least w hw) (hi.greatest w hw)
  · rw [hmin]
    exact hi.least v hv

/-- Without one, exactly if the average is 0, as the maximum is. -/
theorem ThroughputInv.ordered_iff_avg (hi : ThroughputInv p start s) (h0 : s.log.windows = [])
    (elapsedNs : BitVec 64) (ret : Option Errno) :
    WindowsOrdered s.log.windows (sustainedResults elapsedNs ret s) ↔
      (sustainedResults elapsedNs ret s).avgThroughputMbps = 0 := by
  obtain ⟨hmin, hmax, _⟩ := hi.none h0
  have hmin' : (sustainedResults elapsedNs ret s).minWindowMbps =
      (sustainedResults elapsedNs ret s).avgThroughputMbps := if_pos hmin
  have hmax' : (sustainedResults elapsedNs ret s).maxWindowMbps = 0 := hmax
  constructor
  · intro h
    rw [← (h.none h0).2, hmax']
  · intro h
    rw [h0]
    refine ⟨?_, fun w hw => (by cases hw), fun _ => ⟨hmin', by rw [hmax', h]⟩⟩
    rw [hmin', hmax', h]
    exact BitVec.le_refl _

/-- **Window statistics**: they are in order exactly if an iteration of the main loop sees a
second or more from the start, or the average is 0: nothing elapsed, or less came through than
makes 1. -/
theorem windows_ordered_iff {dev : SustainedDev} {env : SustainedEnv} {s₀ : Sustained}
    {st : SustainedSt} {endAt : Ktime} {ret : Option Errno} {r : SustainedResults}
    (hb : sustainedBegin dev p env = .ok s₀) (h : (sustainedSys p env.start s₀).Reachable st)
    (hd : st.phase = .done endAt ret r) :
    WindowsOrdered st.s.log.windows r ↔
      (∃ t ∈ st.s.log.nows, windowNsMin ≤ t - env.start) ∨ endAt - env.start = 0 ∨
        BitVec.ofNat 64 p.msgSize.toNat * BitVec.ofNat 64 st.s.log.successes * 1000 <
          endAt - env.start := by
  have hi := throughputInv (sustainedBegin_ok hb) h
  have havg : (sustainedResults (endAt - env.start) ret st.s).avgThroughputMbps = 0 ↔ _ :=
    avg_eq_zero st.s.totalBytes (endAt - env.start)
  rw [done_results h hd, ← hi.closed, ← hi.bytes, ← havg]
  by_cases h0 : st.s.log.windows = []
  · rw [hi.ordered_iff_avg h0, or_iff_right (fun h => h h0)]
  · exact iff_of_true (hi.ordered h0 _ _) (.inl h0)

end Windows

/-- A full window of one message, and one of none. -/
def twoWindows : List SustainedAct :=
  [.iteration 0 (sampleIteration 1 .success) 0,
   .iteration 999999999 (sampleIteration 1000000000 .empty) 0,
   .iteration 1000000000 (sampleIteration 2000000000 .empty) 0,
   .iteration 2000001000 (sampleIteration 0 .empty) 2000002000,
   .drain 2000003000 .success 1 0, .drain 2000004000 .success 1 0, .drain 0 .empty 0 2000005000]

theorem windows_ordered_two : ∃ (st : SustainedSt) (r : SustainedResults),
    st.s.log.windows = [1, 0] ∧ r.maxWindowMbps = 1 ∧ WindowsOrdered st.s.log.windows r := by
  obtain ⟨st, hr, hw, hn, hd⟩ : ∃ st,
      (sustainedSys sampleParams sampleEnv.start sampleBegun).Reachable st ∧
        st.s.log.windows = [1, 0] ∧ 1000000000 ∈ st.s.log.nows ∧
          st.phase = .done 2000005000 none
            { totalBytes := 3145728, totalOps := 3, avgThroughputMbps := 1, minWindowMbps := 0
              maxWindowMbps := 1, stallCount := 0, cqOverflowCount := 0, status := 0 } :=
    Transition.Sys.exists_of_exec twoWindows (by decide +kernel)
  refine ⟨st, _, hw, rfl, (windows_ordered_iff sample_begun hr hd).mpr (.inl ?_)⟩
  exact ⟨_, hn, by decide⟩

/-- One second, in which no iteration sees the second full: the average is 1, and the maximum
is 0. -/
theorem windows_unordered :
    ¬ ∀ dev p env s₀ (st : SustainedSt) endAt ret r, sustainedBegin dev p env = .ok s₀ →
      (sustainedSys p env.start s₀).Reachable st → st.phase = .done endAt ret r →
        WindowsOrdered st.s.log.windows r := by
  intro h
  obtain ⟨st, hr, hw, hd⟩ : ∃ st,
      (sustainedSys sampleParams sampleEnv.start sampleBegun).Reachable st ∧
        st.s.log.windows = [] ∧
          st.phase = .done 1000000100 none
            { totalBytes := 1048576, totalOps := 1, avgThroughputMbps := 1, minWindowMbps := 1
              maxWindowMbps := 0, stallCount := 0, cqOverflowCount := 0, status := 0 } :=
    Transition.Sys.exists_of_exec
      [.iteration 0 (sampleIteration 1 .success) 0,
       .iteration 1000000001 (sampleIteration 0 .empty) 1000000002, .drain 0 .empty 0 1000000100]
      (by decide +kernel)
  have hmax := ((h _ _ _ _ st _ _ _ sample_begun hr hd).none hw).2
  exact absurd hmax (by decide)

end Dmaplane
