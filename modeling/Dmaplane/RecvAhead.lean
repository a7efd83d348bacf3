import Dmaplane.BenchLoops
import Dmaplane.QueueRuns

/-!
# Dmaplane.RecvAhead

One call of STREAMING_BENCH, QDEPTH_SWEEP or SUSTAINED_STREAM on its own, with the sends and the
receives it has posted counted beside it: the receives stay ahead of the sends.

`AheadPc` is the invariant, by stages. A benchmark keeps `min(iterations, completed + depth)`
receives posted, a sustained run `completed + min(depth, max_credits)`; neither has more sends out
than that. What completes on CQ-A does not matter.
-/

namespace Dmaplane

inductive PipeCall where
  | streaming (p : StreamParams)
  | sweep (p : SweepParams)
  | sustained (queueDepth : UInt32)
  deriving DecidableEq, Repr

/-- The parameters are accepted. -/
def PipeCall.accepted : PipeCall → Bool
  | .streaming p => !(p.iterations = 0)
  | .sweep p => !sweepRejected p
  | .sustained q => !(q = 0 || q > 64)

def PipeCall.entry : PipeCall → QueuePc
  | .streaming p => .begin (streamRun p)
  | .sweep p => .begin (sweepRun p 0)
  | .sustained q => .start q.toNat

structure PipeSt where
  dev : QueueDev
  pc : QueuePc
  /-- The sends and the receives the call has posted. -/
  sends : Nat
  recvs : Nat
  deriving DecidableEq, Repr

inductive PipeAct where
  | step
  | fail
  | timeout
  | wire (w : WireAct)
  deriving DecidableEq, Repr

/-- A post shows in the queue it goes to. -/
def pipeStep (s : PipeSt) : PipeAct → Option PipeSt
  | .step =>
    (runStep s.dev s.pc).map fun r =>
      { dev := r.1, pc := r.2
        sends := s.sends + (r.1.undelivered - s.dev.undelivered)
        recvs := s.recvs + (r.1.rq - s.dev.rq) }
  | .fail => (runFail s.dev.flow s.pc).map fun pc => { s with pc := pc }
  | .timeout => (runTimeout s.pc).map fun pc => { s with pc := pc }
  | .wire w => (wireStep s.dev w).map fun d => { s with dev := d }

/-- Whatever is on the queues when the call comes. -/
def pipeSys (d : QueueDev) (c : PipeCall) : Transition.Sys PipeSt PipeAct where
  init := { dev := d, pc := c.entry, sends := 0, recvs := 0 }
  step := pipeStep

/-- A send that is posted next finds a receive. -/
def RecvWaiting (s : PipeSt) : Prop :=
  ∀ s', pipeStep s .step = some s' → s.sends < s'.sends → s.sends < s.recvs

/-- No receive is refused. -/
def RecvsAccepted (s : PipeSt) : PipeAct → Prop
  | .fail =>
    match s.pc with
    | .prePost _ | .replenish _ | .replenishRecv _ => False
    | _ => True
  | _ => True

/-- Doubling the depth of a streaming run does not wrap, or leaves all iterations. -/
def DoublingFits (r : Run) : Prop :=
  r.kind = .streaming → r.qdepth * 2 < 2 ^ 32 ∨ r.iterations ≤ r.qdepth * 2 % 2 ^ 32

/-- What is computed for the receives does not wrap: `2 * qdepth` of a streaming run, and
`sent + qdepth` of a sustained one. -/
def NoWrap (s : PipeSt) : PipeAct → Prop
  | .step =>
    match s.pc with
    | .begin r => DoublingFits r
    | .replenishRecv r => r.sent + r.qdepth < 2 ^ 32
    | _ => True
  | _ => True

/-! ## The invariant -/

/-- Before the loop, where no send is posted. -/
structure Starts (flow : FlowCtl) (m n : Nat) (r : Run) : Prop where
  qdepth : 0 < r.qdepth ∧ r.qdepth < 2 ^ 32
  iterations : r.iterations < 2 ^ 32
  zero : r.sent = 0 ∧ r.completed = 0 ∧ r.outstanding = 0
  recvs : n = m + r.recvPosted
  sweep : ∀ p point, r.kind = .sweep p point → sweepRejected p = false ∧ r.qdepth ≤ 64
  sustained : r.kind = .sustained →
    r.qdepth ≤ 64 ∧ FlowSet flow ∧ flow.credits = flow.maxCredits

/-- In the loop of a benchmark or a sweep point, `k` receives to be replaced. -/
structure BenchAhead (m n : Nat) (r : Run) (k : Nat) : Prop where
  sweep : ∀ p point, r.kind = .sweep p point → sweepRejected p = false
  qdepth : 0 < r.qdepth ∧ r.qdepth < 2 ^ 32
  iterations : r.iterations < 2 ^ 32
  counts : m + r.recvPosted = n + r.sent
  balance : r.outstanding + r.completed = r.sent
  out : r.outstanding ≤ r.qdepth
  sent : r.sent ≤ r.iterations
  recv : r.recvPosted ≤ r.iterations
  ahead : min r.iterations (r.completed + r.qdepth) ≤ r.recvPosted + k

/-- In the loop of a sustained run: `e` sends posted and not yet counted, `c` credits to be
returned, and `k` receives to be replaced. -/
structure StreamAhead (flow : FlowCtl) (m n : Nat) (r : Run) (e c k : Nat) : Prop where
  qdepth : 0 < r.qdepth ∧ r.qdepth ≤ 64
  set : FlowSet flow
  counts : m + r.recvPosted = n + r.sent + e
  balance : r.outstanding + r.completed = r.sent
  out : r.outstanding + e ≤ r.qdepth
  credits : flow.credits + r.outstanding + c = flow.maxCredits
  ahead : r.completed + min r.qdepth flow.maxCredits ≤ r.recvPosted + k
  small : r.completed + r.qdepth < 2 ^ 32 + k

/-- `m` sends and `n` receives are posted. -/
def AheadPc (flow : FlowCtl) (m n : Nat) : QueuePc → Prop
  | .writing ws q =>
    ∀ k, q = some k → m = n ∧ (0 < k ∧ k ≤ 64) ∧ FlowSet (ws.foldl FlowCtl.write flow)
  | .start q => m = n ∧ (0 < q ∧ q ≤ 64) ∧ FlowOk flow
  | .alloc q | .resetCredits q => m = n ∧ (0 < q ∧ q ≤ 64) ∧ FlowSet flow
  | .resetPaused q =>
    m = n ∧ (0 < q ∧ q ≤ 64) ∧ FlowSet flow ∧ flow.credits = flow.maxCredits
  | .begin r => Starts flow m n r ∧ r.recvPosted = 0
  | .flushA r | .flushB r => Starts flow m n r ∧ r.recvPosted = 0 ∧ DoublingFits r
  | .prePost r =>
    Starts flow m n r ∧ DoublingFits r ∧ r.prePost = prePostCount flow r ∧
      r.recvPosted ≤ r.prePost
  | .head r => BenchAhead m n r 0
  | .post r => BenchAhead m n r 0 ∧ r.completed < r.iterations
  | .poll r => BenchAhead m n r 0 ∧ 0 < r.outstanding
  | .drainB r | .replenish r => BenchAhead m n r 1
  | .recvDrain r => m = n ∧ ∀ p point, r.kind = .sweep p point → sweepRejected p = false
  | .loop r | .drainRecv r => StreamAhead flow m n r 0 0 0
  | .decide r c => StreamAhead flow m n r 0 0 0 ∧ c = some flow.credits
  | .checked r b =>
    StreamAhead flow m n r 0 0 0 ∧
      if b then r.outstanding < flow.highWatermark else 0 < r.outstanding
  | .posted r => StreamAhead flow m n r 1 0 0
  | .pollA r => StreamAhead flow m n r 0 0 0 ∧ 0 < r.outstanding
  | .credit r => StreamAhead flow m n r 0 1 1
  | .replenishRecv r => StreamAhead flow m n r 0 0 1
  | .idle | .drain _ | .drainCredit _ | .drainRest _ | .doneA | .doneB => True

section Stages

variable {flow : FlowCtl} {m n : Nat} {r : Run} {e c k : Nat}

/-- The receives posted before the loop cover the sends before the first completion. -/
theorem prePost_covers (h : Starts flow m n r) (hd : DoublingFits r) (hk : r.kind ≠ .sustained) :
    min r.iterations r.qdepth ≤ prePostCount flow r ∧ prePostCount flow r ≤ r.iterations := by
  have hq := h.qdepth
  have hfit : r.qdepth * 2 < 2 ^ 32 ∨ r.iterations ≤ r.qdepth * 2 % 2 ^ 32 := by
    cases hkind : r.kind with
    | streaming => exact hd hkind
    | sweep p point =>
      have := (h.sweep p point hkind).2
      exact .inl (by omega)
    | sustained => exact absurd hkind hk
  unfold prePostCount
  split
  · rename_i hkind; exact absurd hkind hk
  · simp only []
    split <;> omega

theorem Starts.head (h : Starts flow m n r) (hd : DoublingFits r) (hk : r.kind ≠ .sustained)
    (hp : r.recvPosted = prePostCount flow r) : BenchAhead m n r 0 := by
  obtain ⟨hcov, hle⟩ := prePost_covers h hd hk
  obtain ⟨hs, hc, ho⟩ := h.zero
  have hn := h.recvs
  exact ⟨fun p point hkind => (h.sweep p point hkind).1, h.qdepth, h.iterations, by omega,
    by omega, by omega, by omega, by omega, by omega⟩

theorem Starts.loop (h : Starts flow m n r) (hk : r.kind = .sustained)
    (hp : r.recvPosted = prePostCount flow r) : StreamAhead flow m n r 0 0 0 := by
  obtain ⟨hq, hset, hcr⟩ := h.sustained hk
  obtain ⟨hs, hc, ho⟩ := h.zero
  have hpos := h.qdepth.1
  have hn := h.recvs
  have hpre : min r.qdepth flow.maxCredits ≤ prePostCount flow r := by
    simp only [prePostCount, hk]
    split <;> omega
  exact ⟨⟨hpos, hq⟩, hset, by omega, by omega, by omega, by omega, by omega, by omega⟩

theorem BenchAhead.post (h : BenchAhead m n r 0) (hs : r.sent < r.iterations)
    (ho : r.outstanding < r.qdepth) :
    m < n ∧ BenchAhead (m + 1) n
      { r with sent := incU32 r.sent, outstanding := incU32 r.outstanding } 0 := by
  have hc := h.counts
  have hb := h.balance
  have ha := h.ahead
  have hrec := h.recv
  have hlt : m < n := by omega
  refine ⟨hlt, ?_⟩
  rw [incU32_eq hs h.iterations, incU32_eq ho h.qdepth.2]
  refine ⟨h.sweep, h.qdepth, h.iterations, ?_, ?_, ho, hs, hrec, ha⟩
  · show m + 1 + r.recvPosted = n + (r.sent + 1)
    omega
  · show r.outstanding + 1 + r.completed = r.sent + 1
    omega

theorem BenchAhead.poll (h : BenchAhead m n r 0) (ho : 0 < r.outstanding) :
    BenchAhead m n
      { r with outstanding := decU32 r.outstanding, completed := incU32 r.completed } 1 := by
  have hb := h.balance
  have ha := h.ahead
  have hout := h.out
  have hs := h.sent
  have hq := h.qdepth
  rw [decU32_eq ho (lt_of_le_of_lt hout hq.2),
    incU32_eq (n := r.completed) (m := r.iterations) (by omega) h.iterations]
  refine ⟨h.sweep, hq, h.iterations, h.counts, ?_, ?_, hs, h.recv, ?_⟩
  · show r.outstanding - 1 + (r.completed + 1) = r.sent
    omega
  · show r.outstanding - 1 ≤ r.qdepth
    omega
  · show min r.iterations (r.completed + 1 + r.qdepth) ≤ r.recvPosted + 1
    omega

theorem BenchAhead.drained (h : BenchAhead m n r k) (d : Nat) :
    BenchAhead m n { r with recvDrained := d } k :=
  ⟨h.sweep, h.qdepth, h.iterations, h.counts, h.balance, h.out, h.sent, h.recv, h.ahead⟩

theorem BenchAhead.replenish (h : BenchAhead m n r 1) (hlt : r.recvPosted < r.iterations) :
    BenchAhead m (n + 1) { r with recvPosted := incU32 r.recvPosted } 0 := by
  have hc := h.counts
  have ha := h.ahead
  rw [incU32_eq hlt h.iterations]
  refine ⟨h.sweep, h.qdepth, h.iterations, ?_, h.balance, h.out, h.sent, hlt, ha⟩
  show m + (r.recvPosted + 1) = n + 1 + r.sent
  omega

/-- All receives are posted already. -/
theorem BenchAhead.full (h : BenchAhead m n r 1) (hge : ¬ r.recvPosted < r.iterations) :
    BenchAhead m n r 0 :=
  ⟨h.sweep, h.qdepth, h.iterations, h.counts, h.balance, h.out, h.sent, h.recv, by omega⟩

theorem BenchAhead.done (h : BenchAhead m n r 0) (hge : ¬ r.completed < r.iterations) :
    AheadPc flow m n (.recvDrain r) := by
  have hc := h.counts
  have hb := h.balance
  have hs := h.sent
  have hr := h.recv
  have ha := h.ahead
  exact ⟨by omega, h.sweep⟩

theorem aheadPc_benchFail : AheadPc flow m n (benchFail r) := by
  unfold benchFail
  split <;> trivial

theorem aheadPc_benchEnd (h : AheadPc flow m n (.recvDrain r)) :
    AheadPc flow m n (benchEnd r) := by
  unfold benchEnd
  split
  · rename_i p point hkind
    split
    · rename_i hlt
      obtain ⟨hpos, hle⟩ := qdepth_sweep (h.2 p point hkind) hlt
      refine ⟨⟨⟨hpos, by omega⟩, p.iterations.toNat_lt, ⟨rfl, rfl, rfl⟩, h.1.symm, ?_,
        fun hk => by cases hk⟩, rfl⟩
      intro p' point' hk
      cases hk
      exact ⟨h.2 p point hkind, hle⟩
    · trivial
  · trivial

theorem StreamAhead.paused (h : StreamAhead flow m n r e c k) (b : Bool) :
    StreamAhead { flow with paused := b } m n r e c k :=
  ⟨h.qdepth, h.set, h.counts, h.balance, h.out, h.credits, h.ahead, h.small⟩

/-- A send is allowed below the high watermark, and refused only while another is out. -/
theorem StreamAhead.decide (h : StreamAhead flow m n r 0 0 0) :
    AheadPc (flowDecide flow (some flow.credits)).2 m n
      (.checked r (flowDecide flow (some flow.credits)).1) := by
  obtain ⟨b, hpaused⟩ := flowDecide_frame flow (some flow.credits)
  have hcr := h.credits
  refine ⟨?_, ?_⟩
  · rw [hpaused]; exact h.paused b
  · split
    · rename_i hd
      have hlt := flowDecide_lt h.set.2 hd
      rw [hpaused]
      show r.outstanding < flow.highWatermark
      omega
    · rename_i hd
      have hpos := flowDecide_refused h.set.2 (Bool.not_eq_true _ ▸ hd)
      omega

theorem StreamAhead.post (h : StreamAhead flow m n r 0 0 0) (ho : r.outstanding < r.qdepth)
    (hh : r.outstanding < flow.highWatermark) :
    m < n ∧ StreamAhead flow (m + 1) n r 1 0 0 := by
  have hc := h.counts
  have hb := h.balance
  have ha := h.ahead
  have hmax := h.set.2.2
  exact ⟨by omega, h.qdepth, h.set, by omega, hb, ho, h.credits, ha, h.small⟩

theorem StreamAhead.onSend (h : StreamAhead flow m n r 1 0 0) :
    AheadPc (flowOnSend flow) m n
      (.pollA { r with sent := incU32 r.sent, outstanding := incU32 r.outstanding }) := by
  have hc := h.counts
  have hb := h.balance
  have hout := h.out
  have hsm := h.small
  have hcr := h.credits
  have hs : incU32 r.sent = r.sent + 1 :=
    incU32_eq (n := r.sent) (m := r.completed + r.qdepth) (by omega) (by omega)
  have ho : incU32 r.outstanding = r.outstanding + 1 :=
    incU32_eq (n := r.outstanding) (m := r.outstanding + 1) (by omega) (by omega)
  rw [hs, ho]
  refine ⟨⟨h.qdepth, h.set, ?_, ?_, hout, ?_, h.ahead, hsm⟩, Nat.succ_pos _⟩
  · show m + r.recvPosted = n + (r.sent + 1) + 0
    omega
  · show r.outstanding + 1 + r.completed = r.sent + 1
    omega
  · show flow.credits - 1 + ((r.outstanding + 1 : Nat) : Int) + ((0 : Nat) : Int) = flow.maxCredits
    omega

theorem StreamAhead.poll (h : StreamAhead flow m n r 0 0 0) (ho : 0 < r.outstanding) :
    StreamAhead flow m n
      { r with completed := incU32 r.completed, outstanding := decU32 r.outstanding } 0 1 1 := by
  have hb := h.balance
  have hq := h.qdepth
  have hout := h.out
  have hsm := h.small
  have hcr := h.credits
  have ha := h.ahead
  have hc : incU32 r.completed = r.completed + 1 :=
    incU32_eq (n := r.completed) (m := r.completed + r.qdepth) (by omega) (by omega)
  rw [hc, decU32_eq ho (by omega)]
  refine ⟨hq, h.set, h.counts, ?_, ?_, ?_, ?_, ?_⟩
  · show r.outstanding - 1 + (r.completed + 1) = r.sent
    omega
  · show r.outstanding - 1 + 0 ≤ r.qdepth
    omega
  · show flow.credits + ((r.outstanding - 1 : Nat) : Int) + ((1 : Nat) : Int) = flow.maxCredits
    omega
  · show r.completed + 1 + min r.qdepth flow.maxCredits ≤ r.recvPosted + 1
    omega
  · show r.completed + 1 + r.qdepth < 2 ^ 32 + 1
    omega

theorem StreamAhead.onCompletion (h : StreamAhead flow m n r 0 1 1) :
    StreamAhead (flowOnCompletion flow) m n r 0 0 1 := by
  have hcr := h.credits
  refine ⟨h.qdepth, h.set, h.counts, h.balance, h.out, ?_, h.ahead, h.small⟩
  show flow.credits + 1 + (r.outstanding : Int) + ((0 : Nat) : Int) = flow.maxCredits
  omega

/-- A receive more, where the sum is not cut off. -/
theorem StreamAhead.replenish (h : StreamAhead flow m n r 0 0 1)
    (hw : r.sent + r.qdepth < 2 ^ 32)
    (hlt : r.recvPosted < (r.sent + r.qdepth) % 2 ^ 32) :
    StreamAhead flow m (n + 1) { r with recvPosted := incU32 r.recvPosted } 0 0 0 := by
  have hc := h.counts
  have hb := h.balance
  have ha := h.ahead
  rw [Nat.mod_eq_of_lt hw] at hlt
  rw [incU32_eq hlt hw]
  refine ⟨h.qdepth, h.set, ?_, hb, h.out, h.credits, ha, ?_⟩
  · show m + (r.recvPosted + 1) = n + 1 + r.sent + 0
    omega
  · show r.completed + r.qdepth < 2 ^ 32 + 0
    omega

/-- Or there are enough. -/
theorem StreamAhead.enough (h : StreamAhead flow m n r 0 0 1)
    (hw : r.sent + r.qdepth < 2 ^ 32)
    (hge : ¬ r.recvPosted < (r.sent + r.qdepth) % 2 ^ 32) : StreamAhead flow m n r 0 0 0 := by
  have hb := h.balance
  rw [Nat.mod_eq_of_lt hw] at hge
  exact ⟨h.qdepth, h.set, h.counts, hb, h.out, h.credits, by omega, by omega⟩

theorem StreamAhead.drained (h : StreamAhead flow m n r e c k) (d : Nat) :
    StreamAhead flow m n { r with recvDrained := d } e c k :=
  ⟨h.qdepth, h.set, h.counts, h.balance, h.out, h.credits, h.ahead, h.small⟩

end Stages

/-! ## Steps -/

section Steps

variable {d d' : QueueDev} {m n : Nat} {r : Run} {pc pc' : QueuePc} {ok : Bool}

/-- A step to `pc'` that posts what the queues show, a send only where a receive waits for it. -/
def Moves (d : QueueDev) (m n : Nat) (d' : QueueDev) (pc' : QueuePc) : Prop :=
  ∃ a b, d'.undelivered = d.undelivered + a ∧ d'.rq = d.rq + b ∧
    AheadPc d'.flow (m + a) (n + b) pc' ∧ (0 < a → m < n)

theorem Moves.quiet (hu : d'.undelivered = d.undelivered) (hr : d'.rq = d.rq)
    (h : AheadPc d'.flow m n pc') : Moves d m n d' pc' :=
  ⟨0, 0, hu, hr, h, fun h0 => absurd h0 (Nat.lt_irrefl 0)⟩

theorem Moves.send (hlt : m < n) (h : AheadPc d.flow (m + 1) n pc') :
    Moves d m n d.postSend pc' := ⟨1, 0, rfl, rfl, h, fun _ => hlt⟩

theorem Moves.recv (h : AheadPc d.flow m (n + 1) pc') : Moves d m n d.postRecv pc' :=
  ⟨0, 1, rfl, rfl, h, fun h0 => absurd h0 (Nat.lt_irrefl 0)⟩

theorem Moves.setFlow {flow : FlowCtl} (h : AheadPc flow m n pc') :
    Moves d m n (d.setFlow flow) pc' := .quiet rfl rfl h

theorem Moves.popA (hp : d.popA = some (ok, d')) (h : AheadPc d.flow m n pc') :
    Moves d m n d' pc' := by
  unfold QueueDev.popA at hp
  split at hp <;> cases hp
  exact .quiet rfl rfl h

theorem Moves.popB (hp : d.popB = some (ok, d')) (h : AheadPc d.flow m n pc') :
    Moves d m n d' pc' := by
  unfold QueueDev.popB at hp
  split at hp <;> cases hp
  exact .quiet rfl rfl h

/-- One receive more before the loop. -/
theorem aheadPc_recv (h : AheadPc d.flow m n (.prePost r)) (hlt : r.recvPosted < r.prePost) :
    AheadPc d.flow m (n + 1) (.prePost { r with recvPosted := incU32 r.recvPosted }) := by
  obtain ⟨hs, hd, hpre, hle⟩ := h
  have hmax : r.prePost < 2 ^ 32 := by rw [hpre]; exact prePostCount_lt _ _
  have hn := hs.recvs
  rw [incU32_eq hlt hmax]
  refine ⟨⟨hs.qdepth, hs.iterations, hs.zero, ?_, hs.sweep, hs.sustained⟩, hd, hpre, hlt⟩
  show n + 1 = m + (r.recvPosted + 1)
  omega

/-- The pre-posted receives are all there, and the loop begins. -/
theorem aheadPc_runLoop (h : AheadPc d.flow m n (.prePost r)) (hge : ¬ r.recvPosted < r.prePost) :
    AheadPc d.flow m n (runLoop r) := by
  obtain ⟨hs, hd, hpre, hle⟩ := h
  have hp : r.recvPosted = prePostCount d.flow r := by omega
  unfold runLoop
  cases hk : r.kind with
  | sustained => exact hs.loop hk hp
  | streaming | sweep => exact hs.head hd (by simp [hk]) hp

theorem aheadPc_prePost (h : AheadPc d.flow m n (.flushB r)) :
    AheadPc d.flow m n (.prePost { r with prePost := prePostCount d.flow r }) := by
  obtain ⟨hs, hz, hd⟩ := h
  refine ⟨⟨hs.qdepth, hs.iterations, hs.zero, hs.recvs, hs.sweep, hs.sustained⟩, hd, rfl, ?_⟩
  show r.recvPosted ≤ _
  omega

theorem run_moves (h : runStep d pc = some (d', pc')) (hok : AheadPc d.flow m n pc)
    (hbegin : ∀ r, pc = .begin r → DoublingFits r)
    (hsum : ∀ r, pc = .replenishRecv r → r.sent + r.qdepth < 2 ^ 32) :
    Moves d m n d' pc' := by
  cases pc with
  | idle => cases h
  | writing ws q =>
    cases ws with
    | cons w ws => cases h; exact .setFlow hok
    | nil =>
      cases q with
      | none => cases h; exact .quiet rfl rfl trivial
      | some q => cases h; exact .quiet rfl rfl (hok q rfl)
  | start q =>
    cases h
    obtain ⟨hmn, hq, hf⟩ := hok
    refine .quiet rfl rfl ?_
    split
    · rename_i hc
      exact ⟨hmn, hq, hc, hf hc⟩
    · intro k hk
      cases hk
      exact ⟨hmn, hq, flowSet_autoConfigure q d.flow⟩
  | alloc q => cases h; exact .quiet rfl rfl hok
  | resetCredits q =>
    cases h
    obtain ⟨hmn, hq, hset⟩ := hok
    exact .setFlow ⟨hmn, hq, hset, rfl⟩
  | resetPaused q =>
    cases h
    obtain ⟨hmn, hq, hset, hcr⟩ := hok
    refine .setFlow ⟨⟨⟨hq.1, ?_⟩, Nat.two_pow_pos 32, ⟨rfl, rfl, rfl⟩, hmn.symm, ?_, ?_⟩, rfl⟩
    · show q < 2 ^ 32
      omega
    · intro p point hk
      cases hk
    · intro _
      exact ⟨hq.2, hset, hcr⟩
  | begin r =>
    cases h
    exact .quiet rfl rfl ⟨hok.1, hok.2, hbegin r rfl⟩
  | flushA r =>
    simp only [runStep] at h
    split at h <;> cases h
    · exact .quiet rfl rfl hok
    · rename_i hp; exact .popA hp hok
  | flushB r =>
    simp only [runStep] at h
    split at h <;> cases h
    · exact .quiet rfl rfl (aheadPc_prePost hok)
    · rename_i hp; exact .popB hp hok
  | prePost r =>
    simp only [runStep] at h
    split at h <;> cases h
    · rename_i hlt; exact .recv (aheadPc_recv hok hlt)
    · rename_i hge; exact .quiet rfl rfl (aheadPc_runLoop hok hge)
  | head r =>
    cases h
    refine .quiet rfl rfl ?_
    split
    · rename_i hlt; exact ⟨hok, hlt⟩
    · rename_i hge; exact BenchAhead.done hok hge
  | post r =>
    simp only [runStep] at h
    split at h <;> cases h
    · rename_i hmore
      obtain ⟨hlt, hb⟩ := hok.1.post hmore.1 hmore.2
      exact .send hlt ⟨hb, hok.2⟩
    · rename_i hmore
      have hb := hok.1.balance
      have hs := hok.1.sent
      have hq := hok.1.qdepth
      have hc := hok.2
      exact .quiet rfl rfl ⟨hok.1, by omega⟩
  | poll r =>
    simp only [runStep] at h
    split at h <;> cases h
    · rename_i hp; exact .popA hp (hok.1.poll hok.2)
    · rename_i hp; exact .popA hp aheadPc_benchFail
  | drainB r =>
    simp only [runStep] at h
    split at h <;> cases h
    · exact .quiet rfl rfl hok
    · rename_i hp; exact .popB hp (BenchAhead.drained hok _)
  | replenish r =>
    simp only [runStep] at h
    split at h <;> cases h
    · rename_i hlt; exact .recv (BenchAhead.replenish hok hlt)
    · rename_i hge; exact .quiet rfl rfl (BenchAhead.full hok hge)
  | recvDrain r =>
    simp only [runStep] at h
    split at h
    · split at h <;> cases h
      · rename_i hp; exact .popB hp hok
      · rename_i hp; exact .popB hp (aheadPc_benchEnd hok)
    · cases h; exact .quiet rfl rfl (aheadPc_benchEnd hok)
  | loop r =>
    cases h
    have hc : d.flow.configured = true := (StreamAhead.set hok).1
    exact .quiet rfl rfl ⟨hok, by simp [flowRead, hc]⟩
  | decide r c =>
    cases h
    obtain ⟨hs, rfl⟩ := hok
    exact .setFlow hs.decide
  | checked r b =>
    simp only [runStep] at h
    split at h <;> cases h
    · rename_i hc
      obtain ⟨hs, hb⟩ := hok
      rw [if_pos hc.1] at hb
      obtain ⟨hlt, hp⟩ := hs.post hc.2 hb
      exact .send hlt hp
    · rename_i hc
      obtain ⟨hs, hb⟩ := hok
      have hq := hs.qdepth
      refine .quiet rfl rfl ⟨hs, ?_⟩
      cases b with
      | false => exact hb
      | true =>
        have : ¬ r.outstanding < r.qdepth := fun hlt => hc ⟨rfl, hlt⟩
        omega
  | posted r => cases h; exact .setFlow (StreamAhead.onSend hok)
  | pollA r =>
    simp only [runStep] at h
    split at h <;> cases h
    · exact .quiet rfl rfl hok.1
    · rename_i hp; exact .popA hp (hok.1.poll hok.2)
    · rename_i hp; exact .popA hp trivial
  | credit r => cases h; exact .setFlow (StreamAhead.onCompletion hok)
  | replenishRecv r =>
    have hw := hsum r rfl
    simp only [runStep] at h
    split at h <;> cases h
    · rename_i hlt; exact .recv (StreamAhead.replenish hok hw hlt)
    · rename_i hge; exact .quiet rfl rfl (StreamAhead.enough hok hw hge)
  | drainRecv r =>
    simp only [runStep] at h
    split at h <;> cases h
    · exact .quiet rfl rfl hok
    · rename_i hp; exact .popB hp (StreamAhead.drained hok _)
  | drain r =>
    simp only [runStep] at h
    split at h
    · cases h; exact .quiet rfl rfl trivial
    · split at h <;> cases h
      · exact .quiet rfl rfl trivial
      · rename_i hp; exact .popA hp trivial
      · rename_i hp; exact .popA hp trivial
  | drainCredit r => cases h; exact .setFlow trivial
  | drainRest r =>
    simp only [runStep] at h
    split at h <;> cases h
    · exact .quiet rfl rfl trivial
    · rename_i hp; exact .popB hp trivial
  | doneA =>
    simp only [runStep] at h
    split at h <;> cases h
    · exact .quiet rfl rfl trivial
    · rename_i hp; exact .popA hp trivial
  | doneB =>
    simp only [runStep] at h
    split at h <;> cases h
    · exact .quiet rfl rfl trivial
    · rename_i hp; exact .popB hp trivial

/-- Where a receive is not refused, a failure ends the call or changes nothing. -/
theorem aheadPc_fail (h : runFail d.flow pc = some pc') (hok : AheadPc d.flow m n pc)
    (hpre : ∀ r, pc ≠ .prePost r) (hrep : ∀ r, pc ≠ .replenish r)
    (hrecv : ∀ r, pc ≠ .replenishRecv r) : AheadPc d.flow m n pc' := by
  cases pc with
  | idle | writing | start | resetCredits | resetPaused | begin | head | loop | decide | posted
  | credit | drainCredit => cases h
  | alloc q => cases h; trivial
  | flushA r => cases h; exact hok
  | flushB r => cases h; exact aheadPc_prePost hok
  | prePost r => exact absurd rfl (hpre r)
  | post r =>
    simp only [runFail, Option.ite_none_right_eq_some, Option.some.injEq] at h
    obtain ⟨_, rfl⟩ := h
    exact aheadPc_benchFail
  | poll r => cases h; exact hok.1
  | drainB r => cases h; exact hok
  | replenish r => exact absurd rfl (hrep r)
  | recvDrain r =>
    simp only [runFail, Option.ite_none_right_eq_some, Option.some.injEq] at h
    obtain ⟨_, rfl⟩ := h
    exact aheadPc_benchEnd hok
  | checked r b =>
    simp only [runFail, Option.ite_none_right_eq_some, Option.some.injEq] at h
    obtain ⟨_, rfl⟩ := h
    trivial
  | pollA r => cases h; trivial
  | replenishRecv r => exact absurd rfl (hrecv r)
  | drainRecv r => cases h; exact hok
  | drain r =>
    simp only [runFail, Option.ite_none_left_eq_some, Option.some.injEq] at h
    obtain ⟨_, rfl⟩ := h
    trivial
  | drainRest | doneA | doneB => cases h; trivial

theorem aheadPc_timeout (h : runTimeout pc = some pc') (hok : AheadPc d.flow m n pc) :
    AheadPc d.flow m n pc' := by
  cases pc with
  | poll r => cases h; exact aheadPc_benchFail
  | recvDrain r =>
    simp only [runTimeout, Option.ite_none_right_eq_some, Option.some.injEq] at h
    obtain ⟨_, rfl⟩ := h
    exact aheadPc_benchEnd hok
  | loop r => cases h; trivial
  | drain r => cases h; trivial
  | _ => cases h

end Steps

/-! ## Runs -/

section Runs

variable {d : QueueDev} {c : PipeCall} {s s' : PipeSt}

def PipeAhead (s : PipeSt) : Prop := AheadPc s.dev.flow s.sends s.recvs s.pc

theorem PipeAhead.entry (hf : FlowOk d.flow) (hc : c.accepted = true) :
    PipeAhead (pipeSys d c).init := by
  cases c with
  | streaming p =>
    have hb := benchRun_stream p
    refine ⟨⟨hb.qdepth, hb.iterations, ⟨rfl, rfl, rfl⟩, rfl, ?_, ?_⟩, rfl⟩
    · intro p' point hk
      cases hk
    · intro hk
      cases hk
  | sweep p =>
    have hp : sweepRejected p = false := by simpa [PipeCall.accepted] using hc
    have h0 : 0 < nrPoints p := by
      simp only [nrPoints]
      split
      · decide
      · exact Nat.succ_pos _
    obtain ⟨hpos, hle⟩ := qdepth_sweep hp h0
    refine ⟨⟨⟨hpos, by omega⟩, p.iterations.toNat_lt, ⟨rfl, rfl, rfl⟩, rfl, ?_, ?_⟩, rfl⟩
    · intro p' point hk
      cases hk
      exact ⟨hp, hle⟩
    · intro hk
      cases hk
  | sustained q =>
    have hq : q ≠ 0 ∧ ¬ q > 64 := by simpa [PipeCall.accepted] using hc
    refine ⟨rfl, ⟨Nat.pos_of_ne_zero fun h => hq.1 (UInt32.toNat_inj.mp h), ?_⟩, hf⟩
    exact Nat.not_lt.mp hq.2

theorem PipeAhead.step (hi : PipeAhead s) {a : PipeAct} (hacc : RecvsAccepted s a)
    (hw : NoWrap s a) (h : pipeStep s a = some s') : PipeAhead s' := by
  cases a with
  | step =>
    simp only [pipeStep, Option.map_eq_some_iff] at h
    obtain ⟨⟨d', pc'⟩, hrun, rfl⟩ := h
    obtain ⟨a, b, hu, hr, hok, _⟩ := run_moves hrun hi
      (fun r hr => by simpa only [NoWrap, hr] using hw)
      (fun r hr => by simpa only [NoWrap, hr] using hw)
    show AheadPc d'.flow (s.sends + (d'.undelivered - s.dev.undelivered))
      (s.recvs + (d'.rq - s.dev.rq)) pc'
    rw [hu, hr, Nat.add_sub_cancel_left, Nat.add_sub_cancel_left]
    exact hok
  | fail =>
    simp only [pipeStep, Option.map_eq_some_iff] at h
    obtain ⟨pc', hf, rfl⟩ := h
    exact aheadPc_fail hf hi (fun r hr => by simp only [RecvsAccepted, hr] at hacc)
      (fun r hr => by simp only [RecvsAccepted, hr] at hacc)
      (fun r hr => by simp only [RecvsAccepted, hr] at hacc)
  | timeout =>
    simp only [pipeStep, Option.map_eq_some_iff] at h
    obtain ⟨pc', ht, rfl⟩ := h
    exact aheadPc_timeout ht hi
  | wire w =>
    simp only [pipeStep, Option.map_eq_some_iff] at h
    obtain ⟨d', hw, rfl⟩ := h
    show AheadPc d'.flow s.sends s.recvs s.pc
    rw [(wire_lighter hw).flow]
    exact hi

/-- No step that posts a send is one of those that compute with the depth. -/
theorem PipeAhead.waiting (hi : PipeAhead s) : RecvWaiting s := by
  intro s' h hlt
  simp only [pipeStep, Option.map_eq_some_iff] at h
  obtain ⟨⟨d', pc'⟩, hrun, rfl⟩ := h
  have hmore : s.sends < s.sends + (d'.undelivered - s.dev.undelivered) := hlt
  have hmove (hbegin : ∀ r, s.pc ≠ .begin r) (hsum : ∀ r, s.pc ≠ .replenishRecv r) :
      s.sends < s.recvs := by
    obtain ⟨a, b, hu, _, _, hsend⟩ := run_moves hrun hi (fun r hr => absurd hr (hbegin r))
      (fun r hr => absurd hr (hsum r))
    exact hsend (by omega)
  cases hpc : s.pc with
  | begin r =>
    rw [hpc] at hrun
    cases hrun
    omega
  | replenishRecv r =>
    rw [hpc] at hrun
    simp only [runStep] at hrun
    split at hrun <;> cases hrun
    · exact absurd hmore (by simp [QueueDev.postRecv])
    · omega
  | _ => exact hmove (fun r hr => by rw [hpc] at hr; cases hr) fun r hr => by rw [hpc] at hr; cases hr

/-- **A receive is always waiting** in a call of any of the three, from any consistent flow and
whatever the queues hold, as long as no receive is refused and what is computed for them does not
wrap. -/
theorem recv_waiting (hf : FlowOk d.flow) (hc : c.accepted = true)
    (h : (pipeSys d c).ReachableWith (fun s a => RecvsAccepted s a ∧ NoWrap s a) s) :
    RecvWaiting s := by
  have hi : PipeAhead s :=
    h.invariant (PipeAhead.entry hf hc) fun _ _ _ hi hok hs => hi.step hok.1 hok.2 hs
  exact hi.waiting

instance (s : PipeSt) (a : PipeAct) : Decidable (RecvsAccepted s a) := by
  unfold RecvsAccepted
  split
  · split <;> infer_instance
  · infer_instance

instance (r : Run) : Decidable (DoublingFits r) := by unfold DoublingFits; infer_instance

instance (s : PipeSt) (a : PipeAct) : Decidable (NoWrap s a) := by
  unfold NoWrap
  split
  · split <;> infer_instance
  · infer_instance

/-- Three sends at depth 2, of which two are out and one of those is completed. -/
theorem recv_waiting_third : ∃ s, s.sends = 2 ∧ s.recvs = 3 ∧
    (pipeStep s .step).any (fun s' => decide (s.sends < s'.sends)) = true ∧ RecvWaiting s := by
  obtain ⟨s, hr, hs, hn, hp⟩ : ∃ s,
      (pipeSys (noQueues flowInit) (.streaming { queueDepth := 2, iterations := 3 })).ReachableWith
        (fun s a => RecvsAccepted s a ∧ NoWrap s a) s ∧ s.sends = 2 ∧ s.recvs = 3 ∧
          (pipeStep s .step).any (fun s' => decide (s.sends < s'.sends)) = true :=
    Transition.Sys.exists_of_execWith
      (List.replicate 11 PipeAct.step ++ [PipeAct.wire .deliver, PipeAct.wire .ack] ++
        List.replicate 5 PipeAct.step)
      (by decide +kernel)
  exact ⟨s, hs, hn, hp, recv_waiting (fun h => by cases h) (by decide) hr⟩

/-- A streaming run of depth 2^31 has 2^32 receives to post, which is none. -/
theorem recv_missing :
    ¬ ∀ d c s, FlowOk d.flow → PipeCall.accepted c = true →
      (pipeSys d c).ReachableWith RecvsAccepted s → RecvWaiting s := by
  intro h
  obtain ⟨s, hr, hn, hp⟩ : ∃ s,
      (pipeSys (noQueues flowInit)
          (.streaming { queueDepth := 2147483648, iterations := 1 })).ReachableWith
        RecvsAccepted s ∧ s.recvs = 0 ∧
          (pipeStep s .step).any (fun s' => decide (s.sends < s'.sends)) = true :=
    Transition.Sys.exists_of_execWith (List.replicate 5 .step) (by decide +kernel)
  obtain ⟨s', hs', hlt⟩ := (Option.any_eq_true _ _).mp hp
  have := h _ _ s (fun h => by cases h) (by decide) hr s' hs' (of_decide_eq_true hlt)
  omega

end Runs

end Dmaplane
