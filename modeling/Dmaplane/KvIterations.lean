import Dmaplane.KvAck
import Dmaplane.KvLoopback
import Mathlib.Data.List.Count

/-!
# Dmaplane.KvIterations

What `run_loopback` has taken from its completion queue when an iteration reports "Transfer
complete".

The completions are logged with the iteration that caused them. The bitmap is initialised once for
the run: from the second iteration on it is complete before the drain loop, which polls nothing, so
that `min total initialRecvs` completions an iteration stay in the queue (`backlog`).

* `FirstInv` — the first iteration polls its completions in the order of its writes.
* `LaterInv` — the queue at each place of the others.
* `iteration_clean_iff` — hence the first iteration is clean, and the others where there is no chunk.
-/

namespace Dmaplane

/-- The completions, each with the iteration that wrote it. -/
structure CqLog where
  waiting : List (Nat × BitVec 32)
  /-- Taken by `recv_loop_poll_and_track`. -/
  tracked : List (Nat × BitVec 32)
  /-- Taken by the poll for the sentinel. -/
  drained : List (Nat × BitVec 32)
  deriving DecidableEq, Repr

/-- The thread waits for the delivery of each write, so it is still in the iteration of the write. -/
def logCompletions (s : LoopSt) (a : LoopAct) (_ : LoopSt) (r : CqLog) : CqLog :=
  match a with
  | .deliverWrite =>
    { r with waiting := r.waiting ++ (s.inflight.take 1).map fun imm => (s.iter, imm) }
  | .sender =>
    match s.pc with
    | .stallPoll _ | .drainPoll =>
      { r with waiting := r.waiting.drop 1, tracked := r.tracked ++ r.waiting.take 1 }
    | .drainSentinel =>
      { r with waiting := r.waiting.drop 1, drained := r.drained ++ r.waiting.take 1 }
    | _ => r
  | .senderFail | .drainTimeout => r

/-- How many completions of iteration `k` there have been. -/
def CqLog.number (r : CqLog) (k : Nat) : Nat :=
  r.tracked.countP (·.1 = k) + r.drained.countP (·.1 = k) + r.waiting.countP (·.1 = k)

/-- A poll looks into the queue before it looks at the clock. -/
def PollsFind (x : LoopSt × CqLog) (a : LoopAct) : Prop := a = .drainTimeout → x.1.cq = []

namespace KvConfig

variable (cfg : KvConfig)

def loggedSys : Transition.Sys (LoopSt × CqLog) LoopAct :=
  cfg.loopSys.withHistory ⟨[], [], []⟩ logCompletions

/-- Iteration `k` has just reported "Transfer complete". -/
def Reports (s : LoopSt) (k : Nat) : Prop := s.pc = .iterHead ∧ s.iter = k + 1

/-- Every chunk of the iteration is tracked, its completions are consumed, and the queue is empty. -/
structure CleanIteration (k : Nat) (s : LoopSt) (r : CqLog) : Prop where
  chunks : ∀ i < cfg.total, (k, cfg.imm i) ∈ r.tracked
  consumed : r.tracked.countP (·.1 = k) + r.drained.countP (·.1 = k) = cfg.total + 1
  empty : s.cq = []

/-! ## Writes and completions -/

/-- The immediate of the `i`-th write of an iteration. -/
def writeImm (i : Nat) : BitVec 32 := if i < cfg.total then cfg.imm i else kvSentinel

/-- The writes that the current iteration has posted. -/
def written : LoopPc → Nat
  | .iterHead | .prePost _ | .finished | .failed => 0
  | .checkCredits i | .stallPoll i | .stallReplenish i | .write i => i
  | .writeWait i => i + 1
  | .sentinelRecv | .sentinel => cfg.total
  | .sentinelWait | .drainCheck | .drainPoll | .drainSentinel => cfg.total + 1

/-- What an iteration after the first leaves in the queue. -/
def leftBehind : Nat := min cfg.total cfg.initialRecvs

/-- What is left in the queue before iteration `k`. -/
def backlog (k : Nat) : Nat := (k - 1) * cfg.leftBehind

/-- The log agrees with the queue, and counts the writes that were delivered. -/
structure LogInv (s : LoopSt) (r : CqLog) : Prop where
  waiting : r.waiting.map (·.2) = s.cq
  before : ∀ k < s.iter, r.number k = cfg.total + 1
  current : r.number s.iter + s.inflight.length = cfg.written s.pc
  after : ∀ k, s.iter < k → r.number k = 0

/-- The first iteration, which has polled the completions of its first `n` writes. -/
structure FirstInv (n : Nat) (s : LoopSt) (r : CqLog) : Prop where
  n_le : n ≤ cfg.total
  queue : ∃ m, n + m = cfg.written s.pc ∧
    s.cq ++ s.inflight = (List.range' n m).map cfg.writeImm
  tracks : cfg.Tracks s.bm n
  tracked : r.tracked = (List.range n).map fun i => (0, cfg.imm i)
  poll : s.pc = .drainPoll → n < cfg.total
  last : s.pc = .drainSentinel → n = cfg.total

/-- How many completions are in the queue or on their way to it, at each place. -/
def LoadOk (b load : Nat) (credits : Int) : LoopPc → Prop
  | .iterHead | .prePost _ => load = b
  | .checkCredits _ | .stallPoll _ | .write _ | .sentinelRecv | .sentinel =>
    load + credits = b + cfg.initialRecvs
  | .stallReplenish _ => load + credits + 1 = b + cfg.initialRecvs
  | .writeWait _ => load + credits = b + cfg.initialRecvs + 1
  | .sentinelWait | .drainCheck | .drainSentinel => load = b + cfg.leftBehind + 1
  | .drainPoll | .finished | .failed => False

/-- An iteration after the first. -/
structure LaterInv (s : LoopSt) (r : CqLog) : Prop where
  complete : bitmapAllComplete s.bm = true
  chunks : s.bm.chunksPerLayer < 64
  tracked : ∀ i < cfg.total, (0, cfg.imm i) ∈ r.tracked
  load : cfg.LoadOk (cfg.backlog s.iter) (s.cq.length + s.inflight.length) s.credits s.pc

/-- A run that has not ended. -/
structure IterInv (s : LoopSt) (r : CqLog) : Prop where
  log : cfg.LogInv s r
  first : s.iter = 0 → ∃ n, cfg.FirstInv n s r
  later : 0 < s.iter → cfg.LaterInv s r

end KvConfig

variable {cfg : KvConfig} {s s' : LoopSt} {r : CqLog}

namespace CqLog

theorem number_poll {x : Nat × BitVec 32} {rest : List (Nat × BitVec 32)}
    (h : r.waiting = x :: rest) (k : Nat) :
    CqLog.number { r with waiting := rest, tracked := r.tracked ++ [x] } k = r.number k ∧
      CqLog.number { r with waiting := rest, drained := r.drained ++ [x] } k = r.number k := by
  simp only [number, h, List.countP_append, List.countP_cons, List.countP_nil]
  omega

theorem number_deliver (r : CqLog) (j k : Nat) (imm : BitVec 32) :
    CqLog.number { r with waiting := r.waiting ++ [(j, imm)] } k =
      r.number k + if j = k then 1 else 0 := by
  simp only [number, List.countP_append, List.countP_cons, List.countP_nil, decide_eq_true_eq]
  omega

end CqLog

/-- A set bit stays set. -/
theorem bitmapSet_mono (bm : LayerBitmap) (layer chunk l c : Nat)
    (h : (bm.bits l).getLsbD c = true) :
    ((bitmapSet bm layer chunk).bits l).getLsbD c = true := by
  rw [bitmapSet]
  split
  · dsimp only
    by_cases hl : l = layer
    · subst hl
      rw [Function.update_self, BitVec.getLsbD_or, h, Bool.true_or]
    · rw [Function.update_of_ne hl]
      exact h
  · exact h

theorem trackImm_counts (bm : LayerBitmap) (imm : BitVec 32) :
    (trackImm bm imm).chunksPerLayer = bm.chunksPerLayer ∧
      (trackImm bm imm).numLayers = bm.numLayers := by
  rw [trackImm, bitmapSet]
  split
  · exact ⟨rfl, rfl⟩
  · split <;> exact ⟨rfl, rfl⟩

/-- A complete bitmap stays complete, whatever is tracked. -/
theorem allComplete_track {bm : LayerBitmap} (hc : bm.chunksPerLayer < 64) (imm : BitVec 32)
    (h : bitmapAllComplete bm = true) : bitmapAllComplete (trackImm bm imm) = true := by
  obtain ⟨h1, h2⟩ := trackImm_counts bm imm
  simp only [bitmapAllComplete, List.all_eq_true, List.mem_range, h2] at h ⊢
  intro l hl
  rw [KvGrid.layerComplete_iff (h1 ▸ hc)]
  intro c hlt
  have hset := (KvGrid.layerComplete_iff hc).mp (h l hl) c (h1 ▸ hlt)
  rw [trackImm]
  split
  · exact hset
  · exact bitmapSet_mono bm _ _ l c hset

/-! ## One step -/

namespace KvConfig

theorem writeImm_of_lt {i : Nat} (h : i < cfg.total) : cfg.writeImm i = cfg.imm i := if_pos h

theorem writeImm_total : cfg.writeImm cfg.total = kvSentinel := if_neg (Nat.lt_irrefl _)

theorem backlog_succ (k : Nat) :
    cfg.backlog (k + 1 + 1) = cfg.backlog (k + 1) + cfg.leftBehind := Nat.succ_mul _ _

/-- A step that polls nothing and stays in the iteration. -/
theorem IterInv.goto (h : cfg.IterInv s r) (hcq : s'.cq = s.cq) (hbm : s'.bm = s.bm)
    (hiter : s'.iter = s.iter) (hle : cfg.written s.pc ≤ cfg.written s'.pc)
    (hfl : s'.inflight = s.inflight ++
      (List.range' (cfg.written s.pc) (cfg.written s'.pc - cfg.written s.pc)).map cfg.writeImm)
    (hpoll : s'.pc = .drainPoll → ¬ bitmapAllComplete s.bm = true)
    (hlast : s'.pc = .drainSentinel → bitmapAllComplete s.bm = true)
    (hload : bitmapAllComplete s.bm = true → ∀ b load,
      load = s.cq.length + s.inflight.length → cfg.LoadOk b load s.credits s.pc →
      cfg.LoadOk b (load + (cfg.written s'.pc - cfg.written s.pc)) s'.credits s'.pc) :
    cfg.IterInv s' r := by
  obtain ⟨⟨hwait, hbefore, hcur, hafter⟩, hfirst, hlater⟩ := h
  have hlen := congrArg List.length hfl
  rw [List.length_append, List.length_map, List.length_range'] at hlen
  refine ⟨⟨hcq ▸ hwait, hiter ▸ hbefore, ?_, hiter ▸ hafter⟩, fun h0 => ?_, fun h0 => ?_⟩
  · rw [hiter, hlen]
    omega
  · obtain ⟨n, hn, ⟨m, hm, hq⟩, htr, hlog, -, -⟩ := hfirst (hiter ▸ h0)
    refine ⟨n, hn, ⟨m + (cfg.written s'.pc - cfg.written s.pc), by omega, ?_⟩, hbm ▸ htr, hlog,
      fun hp => ?_, fun hp => (KvGrid.allComplete_iff htr hn).mp (hlast hp)⟩
    · rw [hcq, hfl, ← List.append_assoc, hq, ← List.map_append, ← hm, List.range'_append_1]
    · have hne := mt (KvGrid.allComplete_iff htr hn).mpr (hpoll hp)
      omega
  · obtain ⟨hcomp, hchunks, htr, hld⟩ := hlater (hiter ▸ h0)
    refine ⟨hbm ▸ hcomp, hbm ▸ hchunks, htr, ?_⟩
    have hld' := hload hcomp _ _ rfl hld
    rw [hiter, hcq, hlen]
    rwa [Nat.add_assoc] at hld'

/-- A poll by `recv_loop_poll_and_track`, in a stall or in the drain loop. -/
theorem IterInv.poll (h : cfg.IterInv s r) {imm : BitVec 32} {rest : List (BitVec 32)}
    (hcons : s.cq = imm :: rest) (hcq : s'.cq = rest) (hbm : s'.bm = trackImm s.bm imm)
    (hiter : s'.iter = s.iter) (hfl : s'.inflight = s.inflight)
    (hwr : cfg.written s'.pc = cfg.written s.pc)
    (hsrc : cfg.written s.pc ≤ cfg.total ∨ s.pc = .drainPoll) (hpoll : s'.pc ≠ .drainPoll)
    (hlast : s'.pc = .drainSentinel → imm = kvSentinel)
    (hload : ∀ b load, cfg.LoadOk b (load + 1) s.credits s.pc →
      cfg.LoadOk b load s'.credits s'.pc) :
    cfg.IterInv s' { r with waiting := r.waiting.drop 1, tracked := r.tracked ++ r.waiting.take 1 } := by
  obtain ⟨⟨hwait, hbefore, hcur, hafter⟩, hfirst, hlater⟩ := h
  obtain ⟨x, waiting, hx, rfl, hw⟩ := List.map_eq_cons_iff.mp (hwait.trans hcons)
  have hnum := fun k => (CqLog.number_poll (r := r) hx k).1
  rw [hx, List.drop_one, List.tail_cons, List.take_one, List.head?_cons]
  dsimp only [Option.toList]
  refine ⟨⟨hcq ▸ hw, fun k hk => ?_, ?_, fun k hk => ?_⟩, fun h0 => ?_, fun h0 => ?_⟩
  · rw [hnum]
    exact hbefore k (hiter ▸ hk)
  · rw [hnum, hiter, hfl, hwr]
    exact hcur
  · rw [hnum]
    exact hafter k (hiter ▸ hk)
  · have hiter0 : s.iter = 0 := hiter ▸ h0
    obtain ⟨n, hn, ⟨m, hm, hq⟩, htr, hlog, hdrain, -⟩ := hfirst hiter0
    -- The oldest completion in the queue is that of write `n`, a chunk.
    rw [hcons, List.cons_append] at hq
    obtain ⟨m, rfl⟩ : ∃ m', m = m' + 1 := by
      cases m with
      | zero => cases hq
      | succ m => exact ⟨m, rfl⟩
    rw [List.range'_succ, List.map_cons] at hq
    obtain ⟨himm, hq⟩ := List.cons.inj hq
    have hlt : n < cfg.total := by
      rcases hsrc with hsrc | hsrc
      · omega
      · exact hdrain hsrc
    rw [writeImm_of_lt hlt] at himm
    have hne : x.2 ≠ kvSentinel := himm ▸ cfg.imm_ne_sentinel hlt
    have htag : x.1 = 0 := by
      by_contra hpos
      have hzero := hafter x.1 (by omega)
      simp [CqLog.number, hx] at hzero
    refine ⟨n + 1, hlt, ⟨m, by omega, by rw [hcq, hfl]; exact hq⟩, ?_, ?_,
      fun hp => absurd hp hpoll, fun hp => absurd (hlast hp) hne⟩
    · rw [hbm, trackImm, if_neg hne, himm]
      exact htr.set hlt
    · rw [hlog, List.range_succ, List.map_append, List.map_singleton, ← himm, ← htag]
  · obtain ⟨hcomp, hchunks, htr, hld⟩ := hlater (hiter ▸ h0)
    refine ⟨hbm ▸ allComplete_track hchunks x.2 hcomp, ?_, fun i hi => List.mem_append_left _ (htr i hi), ?_⟩
    · rw [hbm, (trackImm_counts _ _).1]
      exact hchunks
    · rw [hiter, hcq, hfl]
      rw [hcons, List.length_cons, Nat.add_right_comm] at hld
      exact hload _ _ hld

/-- The poll for the sentinel, which ends the iteration. -/
theorem IterInv.finish (h : cfg.IterInv s r) (hpc : s.pc = .drainSentinel) (hfl : s.inflight = [])
    {imm : BitVec 32} {rest : List (BitVec 32)} (hcons : s.cq = imm :: rest) :
    cfg.IterInv { s with pc := .iterHead, iter := s.iter + 1, cq := rest }
      { r with waiting := r.waiting.drop 1, drained := r.drained ++ r.waiting.take 1 } := by
  obtain ⟨⟨hwait, hbefore, hcur, hafter⟩, hfirst, hlater⟩ := h
  obtain ⟨x, waiting, hx, rfl, hw⟩ := List.map_eq_cons_iff.mp (hwait.trans hcons)
  have hnum := fun k => (CqLog.number_poll (r := r) hx k).2
  rw [hx, List.drop_one, List.tail_cons, List.take_one, List.head?_cons]
  dsimp only [Option.toList]
  rw [hpc, hfl] at hcur
  refine ⟨⟨hw, fun k hk => ?_, ?_, fun k hk => ?_⟩, fun h0 => absurd h0 (Nat.succ_ne_zero _),
    fun _ => ?_⟩
  · rw [hnum]
    rcases Nat.lt_succ_iff_lt_or_eq.mp hk with hk | rfl
    · exact hbefore k hk
    · exact hcur
  · rw [hnum, hfl, hafter _ (Nat.lt_succ_self _)]
    rfl
  · rw [hnum]
    exact hafter k (Nat.lt_of_succ_lt hk)
  · rcases Nat.eq_zero_or_pos s.iter with h0 | h0
    · obtain ⟨n, hn, ⟨m, hm, hq⟩, htr, hlog, -, hlast⟩ := hfirst h0
      obtain rfl := hlast hpc
      rw [hpc] at hm
      obtain rfl : m = 1 := by
        simp only [written] at hm
        omega
      rw [hcons, hfl, List.append_nil] at hq
      have hrest : rest = [] := (List.cons.inj hq).2
      refine ⟨(KvGrid.allComplete_iff htr (le_refl _)).mpr rfl, htr.chunks ▸ cfg.chunks_lt,
        fun i hi => ?_, ?_⟩
      · rw [hlog]
        exact List.mem_map.mpr ⟨i, List.mem_range.mpr hi, rfl⟩
      · rw [hrest, hfl, h0]
        exact (Nat.zero_mul _).symm
    · obtain ⟨hcomp, hchunks, htr, hld⟩ := hlater h0
      refine ⟨hcomp, hchunks, htr, ?_⟩
      rw [hpc, hcons, hfl] at hld
      simp only [LoadOk, List.length_cons, List.length_nil] at hld
      obtain ⟨k, hk⟩ : ∃ k, s.iter = k + 1 := ⟨s.iter - 1, by omega⟩
      show rest.length + s.inflight.length = cfg.backlog (s.iter + 1)
      rw [hk] at hld
      rw [hfl, hk, backlog_succ, List.length_nil]
      omega

/-- A delivery puts the completion of the write in flight into the queue. -/
theorem IterInv.deliver (h : cfg.IterInv s r) {imm : BitVec 32} {rest : List (BitVec 32)}
    (hfl : s.inflight = imm :: rest) (recvPosted : Nat) :
    cfg.IterInv { s with recvPosted := recvPosted, inflight := rest, cq := s.cq ++ [imm] }
      { r with waiting := r.waiting ++ [(s.iter, imm)] } := by
  obtain ⟨⟨hwait, hbefore, hcur, hafter⟩, hfirst, hlater⟩ := h
  have hnum := fun k => CqLog.number_deliver r s.iter k imm
  refine ⟨⟨?_, fun k hk => ?_, ?_, fun k hk => ?_⟩, fun h0 => ?_, fun h0 => ?_⟩
  · rw [List.map_append, hwait]
    rfl
  · rw [hnum, if_neg (Nat.ne_of_gt hk)]
    exact hbefore k hk
  · rw [hnum, if_pos rfl]
    rw [hfl, List.length_cons] at hcur
    show r.number s.iter + 1 + rest.length = cfg.written s.pc
    omega
  · rw [hnum, if_neg (Nat.ne_of_lt hk)]
    exact hafter k hk
  · obtain ⟨n, hn, ⟨m, hm, hq⟩, htr, hlog, hp, hl⟩ := hfirst h0
    refine ⟨n, hn, ⟨m, hm, ?_⟩, htr, hlog, hp, hl⟩
    rw [hfl] at hq
    rw [← hq, List.append_assoc]
    rfl
  · obtain ⟨hcomp, hchunks, htr, hld⟩ := hlater h0
    refine ⟨hcomp, hchunks, htr, ?_⟩
    rw [hfl, List.length_cons] at hld
    show cfg.LoadOk _ ((s.cq ++ [imm]).length + rest.length) _ _
    rw [List.length_append, List.length_singleton, Nat.add_right_comm, Nat.add_assoc]
    exact hld

/-- The sentinel's completion is in the queue when it is polled for. -/
theorem IterInv.not_empty (h : cfg.IterInv s r) (hpc : s.pc = .drainSentinel)
    (hfl : s.inflight = []) : s.cq ≠ [] := by
  intro hcq
  rcases Nat.eq_zero_or_pos s.iter with h0 | h0
  · obtain ⟨n, hn, ⟨m, hm, hq⟩, -, -, -, hlast⟩ := h.first h0
    rw [hpc, hlast hpc, written] at hm
    rw [hcq, hfl, List.append_nil] at hq
    have hlen := congrArg List.length hq
    rw [List.length_map, List.length_range', List.length_nil] at hlen
    omega
  · have hld := (h.later h0).load
    rw [hpc, hcq, hfl] at hld
    simp only [LoadOk, List.length_nil] at hld
    omega

/-- A step that writes nothing either. -/
theorem IterInv.move (h : cfg.IterInv s r) (hcq : s'.cq = s.cq) (hbm : s'.bm = s.bm)
    (hiter : s'.iter = s.iter) (hfl : s'.inflight = s.inflight)
    (hwr : cfg.written s'.pc = cfg.written s.pc)
    (hpoll : s'.pc = .drainPoll → ¬ bitmapAllComplete s.bm = true)
    (hlast : s'.pc = .drainSentinel → bitmapAllComplete s.bm = true)
    (hload : bitmapAllComplete s.bm = true → ∀ b load, cfg.LoadOk b load s.credits s.pc →
      cfg.LoadOk b load s'.credits s'.pc) : cfg.IterInv s' r := by
  refine h.goto hcq hbm hiter (Nat.le_of_eq hwr.symm) ?_ hpoll hlast fun hc b load _ hl => ?_
  · rw [hwr, Nat.sub_self, List.range'_zero, List.map_nil, List.append_nil, hfl]
  · rw [hwr, Nat.sub_self]
    exact hload hc b load hl

/-- A step before the drain that takes and writes nothing. -/
theorem IterInv.wait (h : cfg.IterInv s r) (pc : LoopPc) (recvPosted : Nat) (credits : Int)
    (hwr : cfg.written pc = cfg.written s.pc) (hpoll : pc ≠ .drainPoll)
    (hlast : pc ≠ .drainSentinel)
    (hload : ∀ b load, cfg.LoadOk b load s.credits s.pc → cfg.LoadOk b load credits pc) :
    cfg.IterInv { s with pc := pc, recvPosted := recvPosted, credits := credits } r :=
  h.move rfl rfl rfl rfl hwr (fun hp => absurd hp hpoll) (fun hp => absurd hp hlast)
    fun _ => hload

/-- A write is posted. -/
theorem IterInv.post (h : cfg.IterInv s r) (pc : LoopPc)
    (hwr : cfg.written pc = cfg.written s.pc + 1) (hpoll : pc ≠ .drainPoll)
    (hlast : pc ≠ .drainSentinel)
    (hload : ∀ b load, cfg.LoadOk b load s.credits s.pc → cfg.LoadOk b (load + 1) s.credits pc) :
    cfg.IterInv { s with pc := pc, inflight := s.inflight ++ [cfg.writeImm (cfg.written s.pc)] }
      r := by
  have hone : cfg.written pc - cfg.written s.pc = 1 := by omega
  refine h.goto rfl rfl rfl (by show _ ≤ cfg.written pc; omega) ?_ (fun hp => absurd hp hpoll)
    (fun hp => absurd hp hlast) fun _ b load _ hl => ?_
  · rw [hone]
    rfl
  · rw [hone]
    exact hload b load hl

theorem written_loopNext {i : Nat} (hi : i ≤ cfg.total) : cfg.written (cfg.loopNext i) = i := by
  unfold KvConfig.loopNext
  split
  · rfl
  · exact Nat.le_antisymm (Nat.not_lt.mp ‹_›) hi

theorem loadOk_loopNext {b load : Nat} {credits : Int} {i : Nat} :
    cfg.LoadOk b load credits (cfg.loopNext i) ↔ load + credits = b + cfg.initialRecvs := by
  unfold KvConfig.loopNext
  split <;> exact Iff.rfl

theorem loopNext_ne (i : Nat) : cfg.loopNext i ≠ .drainPoll ∧ cfg.loopNext i ≠ .drainSentinel := by
  unfold KvConfig.loopNext
  split <;> exact ⟨(by intro h; cases h), (by intro h; cases h)⟩

/-- One step of the thread. -/
theorem IterInv.sender (hp : cfg.Placed s extra) (h : cfg.IterInv s r)
    (hs : cfg.loopSender s = some s') :
    s'.pc = .finished ∨ cfg.IterInv s' (logCompletions s .sender s' r) := by
  have hok := hp.place
  cases hpc : s.pc with
  | iterHead =>
    simp only [loopSender, hpc] at hs; cases hs
    by_cases hlt : s.iter < cfg.iterations
    · simp only [logCompletions, hpc, hlt, if_true]
      exact .inr (h.move rfl rfl rfl rfl (by rw [hpc]; rfl) (by intro h; cases h)
        (by intro h; cases h) fun _ b load hl => by rw [hpc] at hl; exact hl)
    · exact .inl (if_neg hlt)
  | prePost n =>
    simp only [loopSender, hpc] at hs
    split at hs <;> cases hs <;> simp only [logCompletions, hpc]
    · exact .inr (h.wait (.prePost (n + 1)) _ _ (by rw [hpc]; rfl) (by intro h; cases h)
        (by intro h; cases h) fun b load hl => by rw [hpc] at hl; exact hl)
    · refine .inr (h.wait (cfg.loopNext 0) _ _ ?_ (loopNext_ne 0).1 (loopNext_ne 0).2
        fun b load hl => ?_)
      · rw [hpc]
        exact written_loopNext (Nat.zero_le _)
      · rw [hpc] at hl
        have hl' : load = b := hl
        exact loadOk_loopNext.mpr (by rw [hl'])
  | checkCredits i =>
    simp only [loopSender, hpc] at hs; cases hs
    simp only [logCompletions, hpc]
    refine .inr (h.wait _ _ _ ?_ ?_ ?_ fun b load hl => ?_)
    · rw [hpc]
      split <;> rfl
    · split <;> (intro h; cases h)
    · split <;> (intro h; cases h)
    · rw [hpc] at hl
      split <;> exact hl
  | stallPoll i =>
    rw [hpc] at hok
    simp only [loopSender, hpc] at hs
    split at hs <;> cases hs
    rename_i imm rest hcq
    simp only [logCompletions, hpc]
    refine .inr (h.poll hcq rfl rfl rfl rfl (by rw [hpc]; rfl) (.inl ?_) (by intro h; cases h)
      (by intro h; cases h) fun b load hl => ?_)
    · rw [hpc]
      exact Nat.le_of_lt hok.1
    · rw [hpc] at hl
      simp only [LoadOk] at hl ⊢
      omega
  | stallReplenish i =>
    simp only [loopSender, hpc] at hs; cases hs
    simp only [logCompletions, hpc]
    refine .inr (h.wait (.checkCredits i) _ _ (by rw [hpc]; rfl) (by intro h; cases h)
      (by intro h; cases h) fun b load hl => ?_)
    rw [hpc] at hl
    simp only [LoadOk] at hl ⊢
    omega
  | write i =>
    rw [hpc] at hok
    simp only [loopSender, hpc] at hs; cases hs
    simp only [logCompletions, hpc]
    have hpost := h.post (.writeWait i) (by rw [hpc]; rfl) (by intro h; cases h)
      (by intro h; cases h) fun b load hl => by
        rw [hpc] at hl
        simp only [LoadOk] at hl ⊢
        omega
    rw [hpc] at hpost
    simp only [written, writeImm_of_lt hok.1] at hpost
    exact .inr hpost
  | writeWait i =>
    rw [hpc] at hok
    simp only [loopSender, hpc] at hs
    split at hs <;> cases hs
    simp only [logCompletions, hpc]
    refine .inr (h.wait (cfg.loopNext (i + 1)) _ _ ?_ (loopNext_ne _).1 (loopNext_ne _).2
      fun b load hl => ?_)
    · rw [hpc]
      exact written_loopNext hok.1
    · rw [hpc] at hl
      simp only [LoadOk] at hl
      refine loadOk_loopNext.mpr ?_
      show (load : Int) + (s.credits - 1) = _
      omega
  | sentinelRecv =>
    simp only [loopSender, hpc] at hs; cases hs
    simp only [logCompletions, hpc]
    exact .inr (h.wait .sentinel _ _ (by rw [hpc]; rfl) (by intro h; cases h)
      (by intro h; cases h) fun b load hl => by rw [hpc] at hl; exact hl)
  | sentinel =>
    rw [hpc] at hok
    obtain ⟨he, hc, -⟩ := hok
    simp only [loopSender, hpc] at hs; cases hs
    simp only [logCompletions, hpc]
    have hpost := h.post .sentinelWait (by rw [hpc]; rfl) (by intro h; cases h)
      (by intro h; cases h) fun b load hl => by
        rw [hpc] at hl
        simp only [LoadOk, leftBehind] at hl ⊢
        omega
    rw [hpc] at hpost
    simp only [written, writeImm_total] at hpost
    exact .inr hpost
  | sentinelWait =>
    simp only [loopSender, hpc] at hs
    split at hs <;> cases hs
    simp only [logCompletions, hpc]
    exact .inr (h.wait .drainCheck _ _ (by rw [hpc]; rfl) (by intro h; cases h)
      (by intro h; cases h) fun b load hl => by rw [hpc] at hl; exact hl)
  | drainCheck =>
    simp only [loopSender, hpc] at hs; cases hs
    simp only [logCompletions, hpc]
    refine .inr (h.move rfl rfl rfl rfl ?_ ?_ ?_ fun hc b load hl => ?_)
    · rw [hpc]
      dsimp only
      split <;> rfl
    · dsimp only
      split
      · intro h; cases h
      · exact fun _ => by assumption
    · dsimp only
      split
      · exact fun _ => by assumption
      · intro h; cases h
    · rw [hpc] at hl
      dsimp only
      rw [if_pos hc]
      exact hl
  | drainPoll =>
    simp only [loopSender, hpc] at hs
    split at hs <;> cases hs
    rename_i imm rest hcq
    simp only [logCompletions, hpc]
    refine .inr (h.poll hcq rfl rfl rfl rfl ?_ (.inr hpc) ?_ ?_ fun b load hl => ?_)
    · rw [hpc]
      dsimp only
      split <;> rfl
    · dsimp only
      split <;> (intro h; cases h)
    · dsimp only
      split
      · exact fun _ => by assumption
      · intro h; cases h
    · rw [hpc] at hl
      exact hl.elim
  | drainSentinel =>
    rw [hpc] at hok
    simp only [loopSender, hpc] at hs
    split at hs <;> cases hs
    rename_i imm rest hcq
    simp only [logCompletions, hpc]
    exact .inr (h.finish hpc (List.eq_nil_of_length_eq_zero hok.2) hcq)
  | finished | failed => simp [loopSender, hpc] at hs

/-! ## Every run -/

theorem iterInv_init : cfg.IterInv cfg.loopSys.init ⟨[], [], []⟩ where
  log := ⟨rfl, fun _ hk => absurd hk (Nat.not_lt_zero _), rfl, fun _ _ => rfl⟩
  first _ := ⟨0, Nat.zero_le _, ⟨0, rfl, rfl⟩, cfg.tracks_init, rfl, (by intro h; cases h),
    (by intro h; cases h)⟩
  later h0 := absurd h0 (Nat.lt_irrefl _)

/-- A run that has ended has ended. -/
theorem ended_step {a : LoopAct} (hpc : s.pc = .finished ∨ s.pc = .failed)
    (hs : cfg.loopStep s a = some s') : s'.pc = .finished ∨ s'.pc = .failed := by
  cases a with
  | sender => rcases hpc with hpc | hpc <;> simp [loopStep, loopSender, hpc] at hs
  | senderFail =>
    simp only [loopStep] at hs
    split at hs <;> cases hs
    exact .inr rfl
  | drainTimeout => rcases hpc with hpc | hpc <;> simp [loopStep, hpc] at hs
  | deliverWrite =>
    simp only [loopStep] at hs
    split at hs
    · cases hs
    · split at hs <;> cases hs
      exact hpc

/-- One step of the run. -/
theorem IterInv.step (hp : cfg.Placed s extra) (h : cfg.IterInv s r) {a : LoopAct}
    (hok : PollsFind (s, r) a) (hs : cfg.loopStep s a = some s') :
    s'.pc = .finished ∨ s'.pc = .failed ∨ cfg.IterInv s' (logCompletions s a s' r) := by
  cases a with
  | sender =>
    rcases h.sender hp hs with hf | hi
    · exact .inl hf
    · exact .inr (.inr hi)
  | senderFail =>
    simp only [loopStep] at hs
    split at hs <;> cases hs
    exact .inr (.inl rfl)
  | drainTimeout =>
    simp only [loopStep] at hs
    split at hs <;> cases hs
    rename_i hpc
    have hplace := hp.place
    rw [hpc] at hplace
    exact absurd (hok rfl) (h.not_empty hpc (List.eq_nil_of_length_eq_zero hplace.2))
  | deliverWrite =>
    simp only [loopStep] at hs
    split at hs
    · cases hs
    · rename_i imm rest hfl
      split at hs <;> cases hs
      simp only [logCompletions, hfl]
      exact .inr (.inr (h.deliver hfl _))

theorem iterInv (hw : 1 ≤ cfg.creditWindow) (h : cfg.loggedSys.ReachableWith PollsFind (s, r)) :
    s.pc = .finished ∨ s.pc = .failed ∨ cfg.IterInv s r := by
  refine h.invariant₂ (I := fun x => cfg.LoopInv x.1)
    (J := fun x => x.1.pc = .finished ∨ x.1.pc = .failed ∨ cfg.IterInv x.1 x.2)
    (fun x hx => loopInv hw hx.reachable.of_withHistory) (.inr (.inr iterInv_init)) ?_
  rintro ⟨s, r⟩ a ⟨s', r'⟩ hI hJ hok hs
  obtain ⟨hst, hr⟩ := Transition.Sys.withHistory_step hs
  dsimp only at hI hJ hst hr ⊢
  subst hr
  rcases hI.2 with hpc | hpc | ⟨extra, hp⟩
  · exact (ended_step (.inl hpc) hst).imp_right .inl
  · exact (ended_step (.inr hpc) hst).imp_right .inl
  · rcases hJ with hpc | hpc | hi
    · exact (ended_step (.inl hpc) hst).imp_right .inl
    · exact (ended_step (.inr hpc) hst).imp_right .inl
    · exact hi.step hp hok hst

/-! ## The reports -/

/-- The queue at the report of iteration `k`. -/
theorem reports_backlog {k : Nat} (h : cfg.IterInv s r) (hrep : Reports s k)
    (hfl : s.inflight = []) : s.cq.length = k * cfg.leftBehind := by
  obtain ⟨hpc, hk⟩ := hrep
  have hld := (h.later (by omega)).load
  rw [hpc, hk, hfl] at hld
  exact hld

theorem leftBehind_eq_zero (hw : 1 ≤ cfg.creditWindow) :
    cfg.leftBehind = 0 ↔ cfg.total = 0 := by
  have := initialRecvs_pos hw
  rw [leftBehind]
  omega

end KvConfig

/-- The first iteration of a run reports a clean transfer. Of the others only those of a grid without
chunks do: the rest leave completions behind. -/
theorem iteration_clean_iff (hw : 1 ≤ cfg.creditWindow)
    (h : cfg.loggedSys.ReachableWith PollsFind (s, r)) {k : Nat} (hrep : KvConfig.Reports s k) :
    cfg.CleanIteration k s r ↔ k = 0 ∨ cfg.total = 0 := by
  obtain ⟨hpc, hk⟩ := hrep
  have hi := ((KvConfig.iterInv hw h).resolve_left (by rw [hpc]; intro h; cases h)).resolve_left
    (by rw [hpc]; intro h; cases h)
  obtain ⟨extra, hp⟩ := ((loopInv hw h.reachable.of_withHistory).2.resolve_left
    (by rw [hpc]; intro h; cases h)).resolve_left (by rw [hpc]; intro h; cases h)
  have hplace := hp.place
  rw [hpc] at hplace
  have hlen := KvConfig.reports_backlog hi ⟨hpc, hk⟩ (List.eq_nil_of_length_eq_zero hplace.2)
  have hempty : s.cq = [] ↔ k = 0 ∨ cfg.total = 0 := by
    rw [← List.length_eq_zero_iff, hlen, Nat.mul_eq_zero, KvConfig.leftBehind_eq_zero hw]
  constructor
  · exact fun hc => hempty.mp hc.empty
  · intro hcond
    have hcq := hempty.mpr hcond
    refine ⟨fun i hlt => ?_, ?_, hcq⟩
    · rcases hcond with rfl | h0
      · exact (hi.later (by omega)).tracked i hlt
      · omega
    · have hnum := hi.log.before k (by omega)
      have hwait : r.waiting = [] := List.map_eq_nil_iff.mp (hi.log.waiting.trans hcq)
      rw [CqLog.number, hwait, List.countP_nil] at hnum
      exact hnum

instance (x : LoopSt × CqLog) (a : LoopAct) : Decidable (PollsFind x a) :=
  inferInstanceAs (Decidable (_ → _))

/-- Two iterations of a single chunk. -/
def twoIterations : KvConfig := { oneChunk with iterations := 2 }

/-- One iteration of it, the drain loop polling `polls` times. -/
def iterationRun (polls : Nat) : List LoopAct :=
  List.replicate 5 .sender ++ [.deliverWrite] ++ List.replicate 3 .sender ++ [.deliverWrite] ++
    List.replicate (3 + 2 * polls) .sender

theorem iteration_clean_first : ∃ s r,
    twoIterations.loggedSys.ReachableWith PollsFind (s, r) ∧ KvConfig.Reports s 0 ∧
      twoIterations.CleanIteration 0 s r := by
  obtain ⟨⟨s, r⟩, hr, hrep⟩ : ∃ x : LoopSt × CqLog,
      twoIterations.loggedSys.ReachableWith PollsFind x ∧ x.1.pc = .iterHead ∧ x.1.iter = 1 :=
    Transition.Sys.exists_of_execWith (iterationRun 1) (by decide)
  exact ⟨s, r, hr, hrep, (iteration_clean_iff (by decide) hr hrep).mpr (.inl rfl)⟩

/-- The second iteration finds the bitmap complete and leaves a completion in the queue. -/
theorem second_iteration_unclean : ¬ ∀ (cfg : KvConfig) (s : LoopSt) (r : CqLog) (k : Nat),
    1 ≤ cfg.creditWindow → cfg.loggedSys.ReachableWith PollsFind (s, r) → KvConfig.Reports s k →
      cfg.CleanIteration k s r := by
  intro h
  obtain ⟨⟨s, r⟩, hr, hrep, hcq⟩ : ∃ x : LoopSt × CqLog,
      twoIterations.loggedSys.ReachableWith PollsFind x ∧
        (x.1.pc = .iterHead ∧ x.1.iter = 2) ∧ x.1.cq = [kvSentinel] :=
    Transition.Sys.exists_of_execWith (iterationRun 1 ++ iterationRun 0) (by decide)
  have hempty := (h twoIterations s r 1 (by decide) hr hrep).empty
  rw [hcq] at hempty
  cases hempty

end Dmaplane
