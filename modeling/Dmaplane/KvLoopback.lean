import Dmaplane.KvPeer

/-!
# Dmaplane.KvLoopback

Credits of the KVCache transfer on one machine: `run_loopback` of
`examples/kvcache/kvcache_sender.c` as a transition system. One thread posts the receives and the
writes; the device delivers a write at any time between its post and its completion.

A credit is a posted receive. An iteration starts with `initialRecvs` of them, a stall posts one
more, and the sentinel has a receive of its own. `LoopInv` gives the number of posted receives at
each place; where the window is larger than the number of chunks, every iteration leaves one
receive behind, and they add up over the iterations (`leftover`).
-/

namespace Dmaplane

/-- Where `run_loopback` is; `i` is the chunk of the two send loops. -/
inductive LoopPc where
  /-- `iter < cfg->iterations`. -/
  | iterHead
  /-- `n` receives of this iteration are pre-posted. -/
  | prePost (n : Nat)
  /-- `while (ct.credits <= 0)`. -/
  | checkCredits (i : Nat)
  | stallPoll (i : Nat)
  | stallReplenish (i : Nat)
  | write (i : Nat)
  /-- In `dmaplane_write_imm`: the write is posted, its completion not yet polled. -/
  | writeWait (i : Nat)
  /-- The receive for the sentinel. -/
  | sentinelRecv
  | sentinel
  | sentinelWait
  /-- `while (!bitmap_all_complete(&bm))`. -/
  | drainCheck
  | drainPoll
  /-- The poll for the sentinel's completion. -/
  | drainSentinel
  | finished
  /-- A call failed: `goto out`. -/
  | failed
  deriving DecidableEq, Repr

structure LoopSt where
  pc : LoopPc
  iter : Nat
  credits : Int
  bm : LayerBitmap
  recvPosted : Nat
  /-- Posted and not yet delivered, then delivered and not yet polled. -/
  inflight : List (BitVec 32)
  cq : List (BitVec 32)

inductive LoopAct where
  | sender
  | senderFail
  /-- The 1 s poll for the sentinel's completion finds none. -/
  | drainTimeout
  | deliverWrite
  deriving DecidableEq, Repr

/-- What `recv_loop_poll_and_track` does with a completion that is not the sentinel's. -/
def trackImm (bm : LayerBitmap) (imm : BitVec 32) : LayerBitmap :=
  if imm = kvSentinel then bm else bitmapSet bm (immLayer imm).toNat (immChunk imm).toNat

namespace KvConfig

variable (cfg : KvConfig)

/-- The head of the send loops: the next chunk, or the receive for the sentinel after the last. -/
def loopNext (i : Nat) : LoopPc := if i < cfg.total then .checkCredits i else .sentinelRecv

/-- The next step of `run_loopback`; `none` while it blocks and after its end. -/
def loopSender (s : LoopSt) : Option LoopSt :=
  match s.pc with
  | .iterHead => some { s with pc := if s.iter < cfg.iterations then .prePost 0 else .finished }
  | .prePost n =>
    if n < cfg.initialRecvs then
      some { s with pc := .prePost (n + 1), recvPosted := s.recvPosted + 1 }
    else some { s with pc := cfg.loopNext 0, credits := cfg.initialRecvs }
  | .checkCredits i => some { s with pc := if s.credits ≤ 0 then .stallPoll i else .write i }
  | .stallPoll i =>
    match s.cq with
    | [] => none
    | imm :: rest =>
      -- The sentinel of an earlier iteration is as good as a chunk here.
      some { s with pc := .stallReplenish i, cq := rest, bm := trackImm s.bm imm }
  | .stallReplenish i =>
    some { s with
      pc := .checkCredits i, recvPosted := s.recvPosted + 1, credits := s.credits + 1 }
  | .write i => some { s with pc := .writeWait i, inflight := s.inflight ++ [cfg.imm i] }
  | .writeWait i =>
    if s.inflight = [] then
      some { s with pc := cfg.loopNext (i + 1), credits := s.credits - 1 }
    else none
  | .sentinelRecv => some { s with pc := .sentinel, recvPosted := s.recvPosted + 1 }
  | .sentinel => some { s with pc := .sentinelWait, inflight := s.inflight ++ [kvSentinel] }
  | .sentinelWait =>
    if s.inflight = [] then some { s with pc := .drainCheck, credits := s.credits - 1 } else none
  | .drainCheck =>
    some { s with pc := if bitmapAllComplete s.bm then .drainSentinel else .drainPoll }
  | .drainPoll =>
    match s.cq with
    | [] => none
    | imm :: rest =>
      some { s with
        pc := if imm = kvSentinel then .drainSentinel else .drainCheck
        cq := rest
        bm := trackImm s.bm imm }
  | .drainSentinel =>
    match s.cq with
    | [] => none
    | _ :: rest => some { s with pc := .iterHead, iter := s.iter + 1, cq := rest }
  | .finished | .failed => none

def loopStep (s : LoopSt) : LoopAct → Option LoopSt
  | .sender => cfg.loopSender s
  | .senderFail => if s.pc = .finished then none else some { s with pc := .failed }
  | .drainTimeout =>
    if s.pc = .drainSentinel then some { s with pc := .iterHead, iter := s.iter + 1 } else none
  | .deliverWrite =>
    match s.inflight with
    | [] => none
    | imm :: rest =>
      if 0 < s.recvPosted then
        some { s with recvPosted := s.recvPosted - 1, inflight := rest, cq := s.cq ++ [imm] }
      else none

/-- The QP is connected to itself; nothing is posted yet. -/
def loopSys : Transition.Sys LoopSt LoopAct where
  init :=
    { pc := .iterHead, iter := 0, credits := cfg.creditWindow
      bm := bitmapInit cfg.layers cfg.chunksPerLayer, recvPosted := 0, inflight := [], cq := [] }
  step := cfg.loopStep

/-- The receives that `dmaplane_setup_rdma` asks the queue pair to hold. -/
def loopCapacity : Nat := cfg.creditWindow + 16

end KvConfig

/-- What flow control by credits promises, whatever holds the receives: a write with immediate is
posted only onto a posted receive and within the credits, and the queue pair is never asked for
more receives than it holds. `posting` says that the sender is about to post a write. -/
structure CreditSafe (posting : Prop) (credits : Int) (recvPosted capacity : Nat) : Prop where
  available : posting → 1 ≤ recvPosted
  covered : posting → credits ≤ recvPosted
  fits : recvPosted ≤ capacity

/-- A write is posted in the next step. -/
def LoopSt.Posting (s : LoopSt) : Prop := (∃ i, s.pc = .write i) ∨ s.pc = .sentinel

/-! ## The receives posted at each place -/

namespace KvConfig

variable (cfg : KvConfig)

/-- The receives left behind by `k` iterations. -/
def leftover (k : Nat) : Nat := k * (cfg.initialRecvs - cfg.total)

/-- The receives a run holds at most. -/
def loopPeak : Nat :=
  cfg.leftover (cfg.iterations - 1) +
    max cfg.initialRecvs (cfg.initialRecvs - cfg.total + 1)

/-- The credits with which chunk `i` is posted: one, once the window is used up. -/
def creditsAt (i : Nat) : Nat := max 1 (cfg.initialRecvs - i)

/-- What each place says about the receives posted beyond the leftover ones, the credits and the
writes in flight. -/
def LoopOk (extra : Nat) (credits : Int) (flight : Nat) : LoopPc → Prop
  | .iterHead => extra = 0 ∧ flight = 0
  | .prePost n => extra = n ∧ n ≤ cfg.initialRecvs ∧ flight = 0
  | .checkCredits i =>
    i < cfg.total ∧ credits = extra ∧ flight = 0 ∧
      (extra = cfg.initialRecvs - i ∨ extra = cfg.creditsAt i)
  | .stallPoll i | .stallReplenish i =>
    i < cfg.total ∧ credits = 0 ∧ flight = 0 ∧ extra = 0 ∧ cfg.creditsAt i = 1
  | .write i => i < cfg.total ∧ credits = extra ∧ flight = 0 ∧ extra = cfg.creditsAt i
  | .writeWait i =>
    i < cfg.total ∧ credits = cfg.creditsAt i ∧ flight ≤ 1 ∧ extra + 1 = cfg.creditsAt i + flight
  | .sentinelRecv => extra = cfg.initialRecvs - cfg.total ∧ credits = extra ∧ flight = 0
  | .sentinel => extra = cfg.initialRecvs - cfg.total + 1 ∧ credits + 1 = extra ∧ flight = 0
  | .sentinelWait => flight ≤ 1 ∧ extra = cfg.initialRecvs - cfg.total + flight
  | .drainCheck | .drainPoll | .drainSentinel =>
    extra = cfg.initialRecvs - cfg.total ∧ flight = 0
  | .finished | .failed => False

/-- A running iteration, or the head of the next, with `extra` receives beyond the leftover ones. -/
structure Placed (s : LoopSt) (extra : Nat) : Prop where
  iter_le : s.iter ≤ cfg.iterations
  iter_lt : s.pc ≠ .iterHead → s.iter < cfg.iterations
  posted : s.recvPosted = cfg.leftover s.iter + extra
  place : cfg.LoopOk extra s.credits s.inflight.length s.pc

/-- The receives posted at each place of a run; a run that has ended keeps the bound. -/
def LoopInv (s : LoopSt) : Prop :=
  s.recvPosted ≤ cfg.loopPeak ∧
    (s.pc = .finished ∨ s.pc = .failed ∨ ∃ extra, cfg.Placed s extra)

end KvConfig

variable {cfg : KvConfig} {s s' : LoopSt} {extra : Nat}

namespace KvConfig

theorem initialRecvs_pos (hw : 1 ≤ cfg.creditWindow) : 1 ≤ cfg.initialRecvs := by
  unfold initialRecvs; omega

theorem leftover_succ (k : Nat) :
    cfg.leftover (k + 1) = cfg.leftover k + (cfg.initialRecvs - cfg.total) :=
  Nat.succ_mul _ _

theorem leftover_mono {k n : Nat} (h : k ≤ n) : cfg.leftover k ≤ cfg.leftover n :=
  Nat.mul_le_mul_right _ h

theorem LoopOk.extra_le (hw : 1 ≤ cfg.creditWindow) {pc : LoopPc} {credits : Int} {flight : Nat}
    (h : cfg.LoopOk extra credits flight pc) :
    extra ≤ max cfg.initialRecvs (cfg.initialRecvs - cfg.total + 1) := by
  have hI := initialRecvs_pos hw
  cases pc <;> simp only [LoopOk, creditsAt] at h <;> omega

theorem LoopOk.loopNext {i : Nat} {credits : Int} (hi : i ≤ cfg.total)
    (he : extra = cfg.initialRecvs - i) (hc : credits = extra) :
    cfg.LoopOk extra credits 0 (cfg.loopNext i) := by
  unfold KvConfig.loopNext
  split
  · exact ⟨by assumption, hc, rfl, .inl he⟩
  · obtain rfl : i = cfg.total := by omega
    exact ⟨he, hc, rfl⟩

end KvConfig

namespace KvConfig.Placed

open KvConfig

theorem posted_le (hw : 1 ≤ cfg.creditWindow) (h : cfg.Placed s extra) :
    s.recvPosted ≤ cfg.loopPeak := by
  have hle := h.place.extra_le hw
  have hlast := h.iter_le
  rw [h.posted, loopPeak]
  by_cases hpc : s.pc = .iterHead
  · -- Between two iterations only the leftover receives are posted.
    have hplace := h.place
    rw [hpc] at hplace
    obtain ⟨rfl, _⟩ := hplace
    have h1 : cfg.leftover s.iter ≤ cfg.leftover (cfg.iterations - 1 + 1) :=
      leftover_mono (by omega)
    rw [leftover_succ] at h1
    omega
  · have hlt := h.iter_lt hpc
    have h1 : cfg.leftover s.iter ≤ cfg.leftover (cfg.iterations - 1) := leftover_mono (by omega)
    omega

/-- A step inside an iteration. -/
theorem goto (h : cfg.Placed s extra) (hpc : s.pc ≠ .iterHead) {extra' : Nat}
    (hi : s'.iter = s.iter) (hp : s'.recvPosted + extra = s.recvPosted + extra')
    (hok : cfg.LoopOk extra' s'.credits s'.inflight.length s'.pc) : cfg.Placed s' extra' := by
  have h1 := h.posted
  have h2 := h.iter_le
  have h3 := h.iter_lt hpc
  exact ⟨by omega, fun _ => by omega, by rw [hi]; omega, hok⟩

/-- The end of an iteration. -/
theorem endIter (h : cfg.Placed s extra) (hpc : s.pc ≠ .iterHead)
    (he : extra = cfg.initialRecvs - cfg.total) (hfl : s.inflight.length = 0)
    (cq : List (BitVec 32)) :
    cfg.Placed { s with pc := .iterHead, iter := s.iter + 1, cq := cq } 0 := by
  have h1 := h.posted
  have h3 := h.iter_lt hpc
  refine ⟨h3, fun hne => absurd rfl hne, ?_, rfl, hfl⟩
  rw [leftover_succ]
  exact h1.trans (by rw [he]; rfl)

/-- One step of the thread. -/
theorem sender (h : cfg.Placed s extra) (hs : cfg.loopSender s = some s') :
    s'.pc = .finished ∧ s'.recvPosted = s.recvPosted ∨ ∃ extra', cfg.Placed s' extra' := by
  have hok := h.place
  cases hpc : s.pc with
  | iterHead =>
    rw [hpc] at hok
    simp only [loopSender, hpc] at hs; cases hs
    by_cases hlt : s.iter < cfg.iterations
    · refine .inr ⟨0, h.iter_le, fun _ => hlt, ?_, ?_⟩
      · exact h.posted.trans (by rw [hok.1])
      · simp only [hlt, if_true]
        exact ⟨rfl, Nat.zero_le _, hok.2⟩
    · exact .inl ⟨by simp [hlt], rfl⟩
  | prePost n =>
    rw [hpc] at hok
    obtain ⟨rfl, hn, hfl⟩ := hok
    simp only [loopSender, hpc] at hs
    split at hs <;> cases hs
    · exact .inr ⟨extra + 1, h.goto (by simp [hpc]) rfl (by simp; omega) ⟨rfl, by omega, hfl⟩⟩
    · obtain rfl : extra = cfg.initialRecvs := by omega
      refine .inr ⟨_, h.goto (by simp [hpc]) rfl rfl ?_⟩
      simp only [hfl]
      exact LoopOk.loopNext (Nat.zero_le _) rfl rfl
  | checkCredits i =>
    rw [hpc] at hok
    obtain ⟨hi, hc, hfl, he⟩ := hok
    simp only [loopSender, hpc] at hs; cases hs
    refine .inr ⟨extra, h.goto (by simp [hpc]) rfl rfl ?_⟩
    by_cases hcr : s.credits ≤ 0
    · simp only [hcr, if_true]
      exact ⟨hi, by omega, hfl, by omega, by simp only [creditsAt] at he ⊢; omega⟩
    · simp only [hcr, if_false]
      exact ⟨hi, hc, hfl, by simp only [creditsAt] at he ⊢; omega⟩
  | stallPoll i =>
    rw [hpc] at hok
    simp only [loopSender, hpc] at hs
    split at hs <;> cases hs
    exact .inr ⟨extra, h.goto (by simp [hpc]) rfl rfl hok⟩
  | stallReplenish i =>
    rw [hpc] at hok
    obtain ⟨hi, hc, hfl, rfl, hone⟩ := hok
    simp only [loopSender, hpc] at hs; cases hs
    refine .inr ⟨1, h.goto (by simp [hpc]) rfl rfl ⟨hi, ?_, hfl, .inr hone.symm⟩⟩
    simp [hc]
  | write i =>
    rw [hpc] at hok
    obtain ⟨hi, hc, hfl, he⟩ := hok
    simp only [loopSender, hpc] at hs; cases hs
    exact .inr ⟨extra, h.goto (by simp [hpc]) rfl rfl
      ⟨hi, he ▸ hc, by simp [hfl], by simp [he, hfl]⟩⟩
  | writeWait i =>
    rw [hpc] at hok
    obtain ⟨hi, hc, -, he⟩ := hok
    simp only [loopSender, hpc] at hs
    split at hs <;> cases hs
    rename_i hnil
    simp only [hnil, List.length_nil, creditsAt] at he hc
    refine .inr ⟨extra, h.goto (by simp [hpc]) rfl rfl ?_⟩
    simp only [hnil]
    exact LoopOk.loopNext (by omega) (by omega) (by omega)
  | sentinelRecv =>
    rw [hpc] at hok
    obtain ⟨he, hc, hfl⟩ := hok
    simp only [loopSender, hpc] at hs; cases hs
    exact .inr ⟨extra + 1, h.goto (by simp [hpc]) rfl (by simp; omega)
      ⟨by omega, by simp [hc], hfl⟩⟩
  | sentinel =>
    rw [hpc] at hok
    obtain ⟨he, hc, hfl⟩ := hok
    simp only [loopSender, hpc] at hs; cases hs
    exact .inr ⟨extra, h.goto (by simp [hpc]) rfl rfl ⟨by simp [hfl], by simp [hfl]; exact he⟩⟩
  | sentinelWait =>
    rw [hpc] at hok
    obtain ⟨-, he⟩ := hok
    simp only [loopSender, hpc] at hs
    split at hs <;> cases hs
    rename_i hnil
    exact .inr ⟨extra, h.goto (by simp [hpc]) rfl rfl ⟨by simpa [hnil] using he, by simp [hnil]⟩⟩
  | drainCheck =>
    rw [hpc] at hok
    simp only [loopSender, hpc] at hs; cases hs
    refine .inr ⟨extra, h.goto (by simp [hpc]) rfl rfl ?_⟩
    cases bitmapAllComplete s.bm <;> exact hok
  | drainPoll =>
    rw [hpc] at hok
    simp only [loopSender, hpc] at hs
    split at hs <;> cases hs
    refine .inr ⟨extra, h.goto (by simp [hpc]) rfl rfl ?_⟩
    simp only
    split <;> exact hok
  | drainSentinel =>
    rw [hpc] at hok
    simp only [loopSender, hpc] at hs
    split at hs <;> cases hs
    exact .inr ⟨0, h.endIter (by simp [hpc]) hok.1 hok.2 _⟩
  | finished | failed => simp [loopSender, hpc] at hs

/-- A delivery moves one receive from the queue pair to the completion queue. -/
theorem deliver (h : cfg.Placed s extra) {imm : BitVec 32} {rest : List (BitVec 32)}
    (hfl : s.inflight = imm :: rest) (hp : 0 < s.recvPosted) (cq : List (BitVec 32)) :
    ∃ extra', cfg.Placed { s with recvPosted := s.recvPosted - 1, inflight := rest, cq := cq }
      extra' := by
  have hok := h.place
  rw [hfl, List.length_cons] at hok
  cases hpc : s.pc with
  | writeWait i =>
    rw [hpc] at hok
    obtain ⟨hi, hc, hle, heq⟩ := hok
    have hpos : 1 ≤ cfg.creditsAt i := le_max_left _ _
    refine ⟨extra - 1, h.goto (by simp [hpc]) rfl (by simp only; omega) ?_⟩
    exact ⟨hi, hc, by simp only; omega, by simp only; omega⟩
  | sentinelWait =>
    rw [hpc] at hok
    obtain ⟨hle, heq⟩ := hok
    refine ⟨extra - 1, h.goto (by simp [hpc]) rfl (by simp only; omega) ?_⟩
    exact ⟨by simp only; omega, by simp only; omega⟩
  | iterHead | prePost n | checkCredits i | stallPoll i | stallReplenish i | write i
  | sentinelRecv | sentinel | drainCheck | drainPoll | drainSentinel | finished | failed =>
    rw [hpc] at hok
    simp [LoopOk] at hok

end KvConfig.Placed

theorem KvConfig.LoopInv.step (hw : 1 ≤ cfg.creditWindow) (h : cfg.LoopInv s) {a : LoopAct}
    (hs : cfg.loopStep s a = some s') : cfg.LoopInv s' := by
  obtain ⟨hle, hpc⟩ := h
  cases a with
  | sender =>
    simp only [KvConfig.loopStep] at hs
    rcases hpc with hpc | hpc | ⟨extra, hp⟩
    · simp [KvConfig.loopSender, hpc] at hs
    · simp [KvConfig.loopSender, hpc] at hs
    · rcases hp.sender hs with ⟨hf, hr⟩ | ⟨extra', hp'⟩
      · exact ⟨hr ▸ hle, .inl hf⟩
      · exact ⟨hp'.posted_le hw, .inr (.inr ⟨extra', hp'⟩)⟩
  | senderFail =>
    simp only [KvConfig.loopStep] at hs
    split at hs <;> cases hs
    exact ⟨hle, .inr (.inl rfl)⟩
  | drainTimeout =>
    simp only [KvConfig.loopStep] at hs
    split at hs <;> cases hs
    rename_i hd
    rcases hpc with hpc | hpc | ⟨extra, hp⟩
    · rw [hd] at hpc; cases hpc
    · rw [hd] at hpc; cases hpc
    · have hok := hp.place
      rw [hd] at hok
      exact ⟨hle, .inr (.inr ⟨0, hp.endIter (by simp [hd]) hok.1 hok.2 _⟩)⟩
  | deliverWrite =>
    simp only [KvConfig.loopStep] at hs
    split at hs
    · cases hs
    · rename_i imm rest hfl
      split at hs <;> cases hs
      rename_i hpos
      refine ⟨le_trans (Nat.sub_le _ _) hle, ?_⟩
      rcases hpc with hpc | hpc | ⟨extra, hp⟩
      · exact .inl hpc
      · exact .inr (.inl hpc)
      · exact .inr (.inr (hp.deliver hfl hpos _))

theorem loopInv (hw : 1 ≤ cfg.creditWindow) {s : LoopSt} (h : cfg.loopSys.Reachable s) :
    cfg.LoopInv s := by
  refine h.invariant (I := cfg.LoopInv) ⟨Nat.zero_le _, .inr (.inr ⟨0, ?_⟩)⟩
    fun s a s' hi hs => hi.step hw hs
  exact ⟨Nat.zero_le _, fun hne => absurd rfl hne, by simp [KvConfig.loopSys, KvConfig.leftover],
    rfl, rfl⟩

/-- A write is always posted onto a receive and within the credits. -/
theorem loop_posting (hw : 1 ≤ cfg.creditWindow) {s : LoopSt} (h : cfg.loopSys.Reachable s)
    (hp : s.Posting) : 1 ≤ s.recvPosted ∧ s.credits ≤ s.recvPosted := by
  obtain ⟨-, hpc⟩ := loopInv hw h
  rcases hp with ⟨i, hi⟩ | hi
  · obtain ⟨extra, hp⟩ := (hpc.resolve_left (by simp [hi])).resolve_left (by simp [hi])
    have hok := hp.place
    rw [hi] at hok
    obtain ⟨-, hc, -, he⟩ := hok
    have hone : 1 ≤ cfg.creditsAt i := le_max_left _ _
    rw [hp.posted, hc]
    exact ⟨by omega, by omega⟩
  · obtain ⟨extra, hp⟩ := (hpc.resolve_left (by simp [hi])).resolve_left (by simp [hi])
    have hok := hp.place
    rw [hi] at hok
    obtain ⟨he, hc, -⟩ := hok
    rw [hp.posted]
    exact ⟨by omega, by omega⟩

/-! ## A window larger than the transfer -/

namespace KvConfig

/-- Some run is at `pc` in iteration `k`. -/
def Visits (cfg : KvConfig) (pc : LoopPc) (k : Nat) : Prop :=
  ∃ s, cfg.loopSys.Reachable s ∧ s.pc = pc ∧ s.iter = k

variable {k : Nat}

/-- What the invariant says of a visited place. -/
theorem Visits.placed (hw : 1 ≤ cfg.creditWindow) {pc : LoopPc} (h : cfg.Visits pc k)
    (hf : pc ≠ .finished) (he : pc ≠ .failed) :
    ∃ s extra, cfg.loopSys.Reachable s ∧ s.pc = pc ∧ s.iter = k ∧ cfg.Placed s extra := by
  obtain ⟨s, hr, rfl, rfl⟩ := h
  obtain ⟨extra, hp⟩ := ((loopInv hw hr).2.resolve_left hf).resolve_left he
  exact ⟨s, extra, hr, rfl, rfl, hp⟩

theorem reach_next {s s' : LoopSt} (hr : cfg.loopSys.Reachable s) {a : LoopAct}
    (hs : cfg.loopStep s a = some s') : cfg.loopSys.Reachable s' := .tail hr trivial hs

theorem visits_step {s s' : LoopSt} (hr : cfg.loopSys.Reachable s) {a : LoopAct}
    (hs : cfg.loopStep s a = some s') : cfg.Visits s'.pc s'.iter :=
  ⟨s', reach_next hr hs, rfl, rfl⟩

theorem Visits.prePost (hk : k < cfg.iterations) (h : cfg.Visits .iterHead k) {n : Nat}
    (hn : n ≤ cfg.initialRecvs) : cfg.Visits (.prePost n) k := by
  induction n with
  | zero =>
    obtain ⟨s, hr, hpc, rfl⟩ := h
    have hs : cfg.loopStep s .sender = some { s with pc := .prePost 0 } := by
      simp only [loopStep, loopSender, hpc, hk, if_true]
    exact visits_step hr hs
  | succ n ih =>
    obtain ⟨s, hr, hpc, rfl⟩ := ih (by omega)
    have hlt : n < cfg.initialRecvs := hn
    have hs : cfg.loopStep s .sender =
        some { s with pc := .prePost (n + 1), recvPosted := s.recvPosted + 1 } := by
      simp only [loopStep, loopSender, hpc, hlt, if_true]
    exact visits_step hr hs

theorem Visits.send (h : cfg.Visits (.prePost cfg.initialRecvs) k) :
    cfg.Visits (cfg.loopNext 0) k := by
  obtain ⟨s, hr, hpc, rfl⟩ := h
  have hs : cfg.loopStep s .sender =
      some { s with pc := cfg.loopNext 0, credits := cfg.initialRecvs } := by
    simp only [loopStep, loopSender, hpc, Nat.lt_irrefl, if_false]
  exact visits_step hr hs

/-- A chunk that the window covers is sent without a stall. -/
theorem Visits.chunk {i : Nat} (hi : i < cfg.initialRecvs) (h : cfg.Visits (.checkCredits i) k) :
    cfg.Visits (cfg.loopNext (i + 1)) k := by
  have hw : 1 ≤ cfg.creditWindow := by unfold initialRecvs at hi; omega
  obtain ⟨s, extra, hr, hpc, rfl, hp⟩ := h.placed hw (by simp) (by simp)
  have hok := hp.place
  have hposted := hp.posted
  rw [hpc] at hok
  obtain ⟨-, hc, hfl, he⟩ := hok
  have hpos : 0 < extra := by simp only [creditsAt] at he; omega
  have hcr : ¬ s.credits ≤ 0 := by omega
  have h1 : cfg.loopStep s .sender = some { s with pc := .write i } := by
    simp only [loopStep, loopSender, hpc, hcr, if_false]
  have h2 : cfg.loopStep { s with pc := .write i } .sender =
      some { s with pc := .writeWait i, inflight := [cfg.imm i] } := by
    simp only [loopStep, loopSender, List.eq_nil_of_length_eq_zero hfl, List.nil_append]
  have h3 : cfg.loopStep { s with pc := .writeWait i, inflight := [cfg.imm i] } .deliverWrite =
      some { s with
        pc := .writeWait i, recvPosted := s.recvPosted - 1, inflight := []
        cq := s.cq ++ [cfg.imm i] } := by
    simp only [loopStep, show 0 < s.recvPosted by omega, if_true]
  have h4 : cfg.loopStep { s with
        pc := .writeWait i, recvPosted := s.recvPosted - 1, inflight := []
        cq := s.cq ++ [cfg.imm i] } .sender =
      some { s with
        pc := cfg.loopNext (i + 1), recvPosted := s.recvPosted - 1, inflight := []
        cq := s.cq ++ [cfg.imm i], credits := s.credits - 1 } := by
    simp only [loopStep, loopSender, if_true]
  exact visits_step (reach_next (reach_next (reach_next hr h1) h2) h3) h4

/-- The whole transfer, when the window covers it. -/
theorem Visits.chunks (hT : cfg.total < cfg.creditWindow) (h : cfg.Visits (cfg.loopNext 0) k)
    {i : Nat} (hi : i ≤ cfg.total) : cfg.Visits (cfg.loopNext i) k := by
  induction i with
  | zero => exact h
  | succ i ih =>
    have hlt : i < cfg.total := hi
    have := ih (by omega)
    rw [loopNext, if_pos hlt] at this
    exact this.chunk (by unfold initialRecvs; omega)

/-- The drain ends at the sentinel at the latest. -/
theorem drain_ends : ∀ (cq : List (BitVec 32)) {s : LoopSt}, cfg.loopSys.Reachable s →
    s.cq = cq → s.pc = .drainCheck → kvSentinel ∈ cq → cfg.Visits .drainSentinel s.iter := by
  intro cq
  induction cq with
  | nil => intro s _ _ _ hm; cases hm
  | cons imm rest ih =>
    intro s hr hcq hpc hm
    cases hc : bitmapAllComplete s.bm with
    | true =>
      have hs : cfg.loopStep s .sender = some { s with pc := .drainSentinel } := by
        simp [loopStep, loopSender, hpc, hc]
      exact visits_step hr hs
    | false =>
      have h1 : cfg.loopStep s .sender = some { s with pc := .drainPoll } := by
        simp [loopStep, loopSender, hpc, hc]
      have h2 : cfg.loopStep { s with pc := .drainPoll } .sender =
          some { s with
            pc := if imm = kvSentinel then .drainSentinel else .drainCheck
            cq := rest, bm := trackImm s.bm imm } := by
        simp only [loopStep, loopSender, hcq]
      have hr' := reach_next hr h1
      by_cases himm : imm = kvSentinel
      · rw [if_pos himm] at h2
        exact visits_step hr' h2
      · rw [if_neg himm] at h2
        have hmr : kvSentinel ∈ rest := (List.mem_cons.mp hm).resolve_left (Ne.symm himm)
        exact ih (s := { s with pc := .drainCheck, cq := rest, bm := trackImm s.bm imm })
          (reach_next hr' h2) rfl rfl hmr

theorem Visits.sentinel (h : cfg.Visits .sentinelRecv k) : cfg.Visits .sentinel k := by
  obtain ⟨s, hr, hpc, rfl⟩ := h
  have hs : cfg.loopStep s .sender =
      some { s with pc := .sentinel, recvPosted := s.recvPosted + 1 } := by
    simp only [loopStep, loopSender, hpc]
  exact visits_step hr hs

theorem Visits.nextIter (hw : 1 ≤ cfg.creditWindow) (h : cfg.Visits .sentinel k) :
    cfg.Visits .iterHead (k + 1) := by
  obtain ⟨s, extra, hr, hpc, rfl, hp⟩ := h.placed hw (by simp) (by simp)
  have hok := hp.place
  have hposted := hp.posted
  rw [hpc] at hok
  obtain ⟨he, -, hfl⟩ := hok
  have h1 : cfg.loopStep s .sender =
      some { s with pc := .sentinelWait, inflight := [kvSentinel] } := by
    simp only [loopStep, loopSender, hpc, List.eq_nil_of_length_eq_zero hfl, List.nil_append]
  have h2 : cfg.loopStep { s with pc := .sentinelWait, inflight := [kvSentinel] } .deliverWrite =
      some { s with
        pc := .sentinelWait, recvPosted := s.recvPosted - 1, inflight := []
        cq := s.cq ++ [kvSentinel] } := by
    simp only [loopStep, show 0 < s.recvPosted by omega, if_true]
  have h3 : cfg.loopStep { s with
        pc := .sentinelWait, recvPosted := s.recvPosted - 1, inflight := []
        cq := s.cq ++ [kvSentinel] } .sender =
      some { s with
        pc := .drainCheck, recvPosted := s.recvPosted - 1, inflight := []
        cq := s.cq ++ [kvSentinel], credits := s.credits - 1 } := by
    simp only [loopStep, loopSender, if_true]
  obtain ⟨s', hr', hpc', hit⟩ :=
    drain_ends _ (reach_next (reach_next (reach_next hr h1) h2) h3) rfl rfl (by simp)
  have h4 : cfg.loopStep s' .drainTimeout =
      some { s' with pc := .iterHead, iter := s'.iter + 1 } := by
    simp only [loopStep, hpc', if_true]
  have := visits_step hr' h4
  rw [hit] at this
  exact this

/-- An iteration up to its sentinel. -/
theorem Visits.iteration (hT : cfg.total < cfg.creditWindow) (hk : k < cfg.iterations)
    (h : cfg.Visits .iterHead k) :
    cfg.Visits (.prePost cfg.initialRecvs) k ∧ cfg.Visits .sentinel k := by
  have h1 := h.prePost hk (le_refl _)
  have h2 := h1.send.chunks hT (le_refl _)
  rw [loopNext, if_neg (Nat.lt_irrefl _)] at h2
  exact ⟨h1, h2.sentinel⟩

theorem visits_iterHead (hT : cfg.total < cfg.creditWindow) (hk : k ≤ cfg.iterations) :
    cfg.Visits .iterHead k := by
  induction k with
  | zero => exact ⟨_, .refl, rfl, rfl⟩
  | succ k ih => exact ((ih (by omega)).iteration hT hk).2.nextIter (by omega)

end KvConfig

/-! ## Where the receives fit -/

/-- In loopback mode the window is no larger than the transfer, or what the iterations leave behind
fits the headroom of the queue pair. -/
def KvConfig.LoopFits (cfg : KvConfig) : Prop :=
  cfg.total < cfg.creditWindow → 0 < cfg.iterations →
    cfg.iterations - 1 + max (cfg.total + 1) 2 ≤ cfg.loopCapacity

theorem KvConfig.loopPeak_eq (hT : cfg.total < cfg.creditWindow) :
    cfg.loopPeak = cfg.iterations - 1 + max (cfg.total + 1) 2 := by
  have hI : cfg.initialRecvs = cfg.total + 1 := by unfold initialRecvs; omega
  rw [loopPeak, leftover, hI, show cfg.total + 1 - cfg.total = 1 by omega, Nat.mul_one]

/-- The peak is reached. -/
theorem loop_peak_reached (hT : cfg.total < cfg.creditWindow) (hN : 0 < cfg.iterations) :
    ∃ s, cfg.loopSys.Reachable s ∧ s.recvPosted = cfg.loopPeak := by
  have hw : 1 ≤ cfg.creditWindow := by omega
  obtain ⟨h1, h2⟩ := (KvConfig.visits_iterHead hT (k := cfg.iterations - 1) (by omega)).iteration hT
    (by omega)
  rw [KvConfig.loopPeak]
  rcases le_total (cfg.initialRecvs - cfg.total + 1) cfg.initialRecvs with hle | hle
  · obtain ⟨s, extra, hr, hpc, hit, hp⟩ := h1.placed hw (by simp) (by simp)
    have hok := hp.place
    rw [hpc] at hok
    exact ⟨s, hr, by rw [hp.posted, hit, hok.1, max_eq_left hle]⟩
  · obtain ⟨s, extra, hr, hpc, hit, hp⟩ := h2.placed hw (by simp) (by simp)
    have hok := hp.place
    rw [hpc] at hok
    exact ⟨s, hr, by rw [hp.posted, hit, hok.1, max_eq_right hle]⟩

/-- Every post in loopback mode has its receive and its credit; the receives fit exactly under the
condition. -/
theorem loop_credit_safe (hw : 1 ≤ cfg.creditWindow) :
    (∀ s, cfg.loopSys.Reachable s →
      CreditSafe s.Posting s.credits s.recvPosted cfg.loopCapacity) ↔ cfg.LoopFits := by
  constructor
  · intro h hT hN
    obtain ⟨s, hr, hs⟩ := loop_peak_reached hT hN
    have := (h s hr).fits
    rwa [hs, KvConfig.loopPeak_eq hT] at this
  · intro hfit s hr
    refine ⟨fun hp => (loop_posting hw hr hp).1, fun hp => (loop_posting hw hr hp).2,
      le_trans (loopInv hw hr).1 ?_⟩
    rcases Nat.lt_or_ge cfg.total cfg.creditWindow with hT | hT
    · rw [KvConfig.loopPeak_eq hT]
      rcases Nat.eq_zero_or_pos cfg.iterations with hN | hN
      · rw [hN, KvConfig.loopCapacity]; omega
      · exact hfit hT hN
    · have hI : cfg.initialRecvs = cfg.creditWindow := by unfold KvConfig.initialRecvs; omega
      have h0 : cfg.creditWindow - cfg.total = 0 := by omega
      rw [KvConfig.loopPeak, KvConfig.leftover, hI, h0, KvConfig.loopCapacity, Nat.mul_zero]
      omega

end Dmaplane
