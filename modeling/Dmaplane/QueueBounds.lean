import Dmaplane.Queues

/-!
# Dmaplane.QueueBounds

The queues do not overflow in runs that fit. The invariant speaks of a queue only through its
loads: the sends that are out or wait on CQ-A, the receives that are posted or wait on CQ-B, and
the receives that are posted or whose send is yet to be seen by the loop. The verbs layer and the
polls only make these smaller (`Lighter`), so each stage of a run has to answer for its posts.
-/

namespace Dmaplane

namespace QueueDev

def sq (d : QueueDev) : Nat := d.undelivered + d.delivered

/-- The sends out, or completed and not polled. -/
def aLoad (d : QueueDev) : Nat := d.sq + d.cqA.length

/-- The receives posted, or consumed and not polled. -/
def bLoad (d : QueueDev) : Nat := d.rq + d.cqB.length

/-- The receives posted, or consumed by a send whose success is not polled. -/
def rLoad (d : QueueDev) : Nat := d.rq + d.delivered + d.cqA.count true

end QueueDev

/-- Every queue is within its depth. -/
structure QueueDev.Within (d : QueueDev) : Prop where
  sq : d.sq ≤ d.caps.maxSendWr
  cqA : d.aLoad ≤ d.caps.cqDepth
  rq : d.rq ≤ d.caps.maxRecvWr
  cqB : d.bLoad ≤ d.caps.cqDepth

/-- The same flow and depths, and no more on any queue. -/
structure Lighter (d' d : QueueDev) : Prop where
  caps : d'.caps = d.caps
  flow : d'.flow = d.flow
  sq : d'.sq ≤ d.sq
  rq : d'.rq ≤ d.rq
  aLoad : d'.aLoad ≤ d.aLoad
  bLoad : d'.bLoad ≤ d.bLoad
  rLoad : d'.rLoad ≤ d.rLoad

theorem QueueDev.Within.lighter {d d' : QueueDev} (h : d.Within) (hl : Lighter d' d) :
    d'.Within := by
  obtain ⟨h1, h2, h3, h4⟩ := h
  have := hl.sq
  have := hl.rq
  have := hl.aLoad
  have := hl.bLoad
  constructor <;> rw [hl.caps] <;> omega

theorem QueueDev.Within.setFlow {d : QueueDev} (h : d.Within) (flow : FlowCtl) :
    (d.setFlow flow).Within := ⟨h.sq, h.cqA, h.rq, h.cqB⟩

/-! ## Loads -/

section Loads

variable {d d' : QueueDev} {ok : Bool}

theorem rLoad_le (d : QueueDev) : d.rLoad ≤ d.rq + d.aLoad := by
  have := d.cqA.count_le_length (a := true)
  simp only [QueueDev.rLoad, QueueDev.aLoad, QueueDev.sq]
  omega

theorem rq_le_rLoad (d : QueueDev) : d.rq ≤ d.rLoad := by
  simp only [QueueDev.rLoad]; omega

theorem rq_le_bLoad (d : QueueDev) : d.rq ≤ d.bLoad := Nat.le_add_right _ _

theorem wire_lighter {w : WireAct} (h : wireStep d w = some d') : Lighter d' d := by
  cases w with
  | deliver =>
    simp only [wireStep, Option.ite_none_right_eq_some, Option.some.injEq] at h
    obtain ⟨_, rfl⟩ := h
    constructor <;> simp only [QueueDev.sq, QueueDev.aLoad, QueueDev.bLoad, QueueDev.rLoad,
      List.length_append, List.length_cons, List.length_nil] <;> omega
  | ack =>
    simp only [wireStep, Option.ite_none_right_eq_some, Option.some.injEq] at h
    obtain ⟨_, rfl⟩ := h
    constructor <;> simp only [QueueDev.sq, QueueDev.aLoad, QueueDev.bLoad, QueueDev.rLoad,
      List.length_append, List.length_cons, List.length_nil, List.count_append,
      List.count_singleton_self, le_refl] <;> omega
  | sendError delivered =>
    cases delivered <;>
    · simp only [wireStep, Option.ite_none_right_eq_some, Option.some.injEq] at h
      obtain ⟨_, rfl⟩ := h
      constructor <;> (simp [QueueDev.sq, QueueDev.aLoad, QueueDev.bLoad, QueueDev.rLoad]; try omega)
  | recvError =>
    simp only [wireStep, Option.ite_none_right_eq_some, Option.some.injEq] at h
    obtain ⟨_, rfl⟩ := h
    constructor <;> simp only [QueueDev.sq, QueueDev.aLoad, QueueDev.bLoad, QueueDev.rLoad,
      List.length_append, List.length_cons, List.length_nil, le_refl] <;> omega

/-- A poll of CQ-A takes one completion off it, and a success off the receives to be seen. -/
theorem popA_lighter (h : d.popA = some (ok, d')) :
    Lighter d' d ∧ d'.aLoad + 1 = d.aLoad ∧ d'.rLoad + (if ok then 1 else 0) = d.rLoad ∧
      d'.bLoad = d.bLoad := by
  unfold QueueDev.popA at h
  split at h
  · cases h
  · rename_i x rest hq
    cases h
    have hc : d.cqA.count true = rest.count true + if ok then 1 else 0 := by
      rw [hq, List.count_cons]; cases ok <;> rfl
    have hl : d.cqA.length = rest.length + 1 := by rw [hq]; rfl
    refine ⟨⟨rfl, rfl, le_refl _, le_refl _, ?_, le_refl _, ?_⟩, ?_, ?_, rfl⟩ <;>
      simp only [QueueDev.aLoad, QueueDev.rLoad, QueueDev.sq] <;> omega

theorem popA_none (h : d.popA = none) : d.aLoad = d.sq := by
  unfold QueueDev.popA at h
  split at h
  · rename_i hq
    simp [QueueDev.aLoad, hq]
  · cases h

theorem popB_lighter (h : d.popB = some (ok, d')) : Lighter d' d := by
  unfold QueueDev.popB at h
  split at h
  · cases h
  · rename_i x rest hq
    cases h
    have hl : d.cqB.length = rest.length + 1 := by rw [hq]; rfl
    refine ⟨rfl, rfl, le_refl _, le_refl _, le_refl _, ?_, le_refl _⟩
    simp only [QueueDev.bLoad]; omega

theorem popB_none (h : d.popB = none) : d.bLoad = d.rq := by
  unfold QueueDev.popB at h
  split at h
  · rename_i hq
    simp [QueueDev.bLoad, hq]
  · cases h

end Loads

/-! ## Stages -/

theorem incU32_eq {n m : Nat} (h : n < m) (hm : m < 2 ^ 32) : incU32 n = n + 1 := by
  unfold incU32; omega

theorem decU32_eq {n : Nat} (h : 0 < n) (hn : n < 2 ^ 32) : decU32 n = n - 1 := by
  unfold decU32; omega

/-- A configured flow is consistent. -/
def FlowOk (flow : FlowCtl) : Prop := flow.configured = true → flow.Consistent

/-- A sustained run may start from the flow. -/
def FlowSet (flow : FlowCtl) : Prop := flow.configured = true ∧ flow.Consistent

/-- The run of a benchmark or a sweep point before its first post, or a sustained run with all
its credits. -/
structure Fresh (d : QueueDev) (r : Run) : Prop where
  qdepth : r.qdepth < 2 ^ 32
  iterations : r.iterations < 2 ^ 32
  out : r.outstanding = 0
  sent : r.sent = 0
  flow : FlowOk d.flow
  credits : r.kind = .sustained → FlowSet d.flow ∧ d.flow.credits = d.flow.maxCredits

/-- Sends up to the window fit. -/
structure SendFits (d : QueueDev) (n : Nat) : Prop where
  sq : n ≤ d.caps.maxSendWr
  cq : n ≤ d.caps.cqDepth

/-- Before the receives are posted. -/
structure Ready (d : QueueDev) (r : Run) : Prop where
  fresh : Fresh d r
  send : SendFits d (window d.flow r)
  recv : RecvFits d.caps r.slack (d.rq + prePostCount d.flow r)
  sq : d.sq = 0

/-- In the loop of a benchmark or a sweep point, `k` receives to be replaced. -/
structure Bench (d : QueueDev) (r : Run) (k : Nat) : Prop where
  kind : r.kind ≠ .sustained
  qdepth : r.qdepth < 2 ^ 32
  iterations : r.iterations < 2 ^ 32
  flow : FlowOk d.flow
  send : SendFits d (min r.qdepth r.iterations)
  load : d.aLoad ≤ r.outstanding
  out : r.outstanding ≤ r.qdepth
  sent : r.outstanding ≤ r.sent
  iter : r.sent ≤ r.iterations
  recv : RecvFits d.caps 0 (d.rLoad + k)

/-- In the loop of a sustained run: `e` sends posted and not yet counted, `c` credits of polled
completions to be returned and `k` receives to be replaced. -/
structure Stream (d : QueueDev) (r : Run) (e c k : Nat) : Prop where
  kind : r.kind = .sustained
  qdepth : r.qdepth < 2 ^ 32
  flow : FlowSet d.flow
  send : SendFits d (min r.qdepth d.flow.highWatermark)
  load : d.aLoad ≤ r.outstanding + e
  out : r.outstanding + e ≤ min r.qdepth d.flow.highWatermark
  credits : d.flow.credits + r.outstanding + c = d.flow.maxCredits
  recv : RecvFits d.caps 1 (d.rLoad + k)

def QueuePcOk (d : QueueDev) : QueuePc → Prop
  | .writing ws q =>
    FlowOk (ws.foldl FlowCtl.write d.flow) ∧
      ∀ n, q = some n → n < 2 ^ 32 ∧ FlowSet (ws.foldl FlowCtl.write d.flow)
  | .start q => q < 2 ^ 32 ∧ FlowOk d.flow
  | .alloc q | .resetCredits q => q < 2 ^ 32 ∧ FlowSet d.flow
  | .resetPaused q => q < 2 ^ 32 ∧ FlowSet d.flow ∧ d.flow.credits = d.flow.maxCredits
  | .begin r => Fresh d r
  | .flushA r => Ready d r
  | .flushB r => Ready d r ∧ d.aLoad = 0
  | .prePost r =>
    Fresh d r ∧ SendFits d (window d.flow r) ∧ d.aLoad = 0 ∧ r.prePost < 2 ^ 32 ∧
      RecvFits d.caps r.slack (d.bLoad + (r.prePost - r.recvPosted))
  | .head r | .post r | .poll r => Bench d r 0
  | .drainB r => Bench d r 1
  | .replenish r => Bench d r 1 ∧ d.bLoad + 1 ≤ d.caps.cqDepth
  | .loop r | .pollA r => Stream d r 0 0 0 ∧ d.bLoad + 1 ≤ d.caps.cqDepth
  | .decide r c =>
    Stream d r 0 0 0 ∧ d.bLoad + 1 ≤ d.caps.cqDepth ∧ c = some d.flow.credits
  | .checked r b =>
    Stream d r 0 0 0 ∧ d.bLoad + 1 ≤ d.caps.cqDepth ∧
      (b = true → r.outstanding < d.flow.highWatermark)
  | .posted r => Stream d r 1 0 0 ∧ d.bLoad + 1 ≤ d.caps.cqDepth
  | .credit r => Stream d r 0 1 1 ∧ d.bLoad + 1 ≤ d.caps.cqDepth
  | .replenishRecv r => Stream d r 0 0 1 ∧ d.bLoad + 1 ≤ d.caps.cqDepth
  | .drainRecv r => Stream d r 0 0 0
  | .idle | .recvDrain _ | .drain _ | .drainCredit _ | .drainRest _ | .doneA | .doneB =>
    FlowOk d.flow

section Stages

variable {d d' : QueueDev} {r : Run} {pc pc' : QueuePc} {n k e c : Nat}

theorem FlowOk.lighter (h : FlowOk d.flow) (hl : Lighter d' d) : FlowOk d'.flow := by
  rw [hl.flow]; exact h

theorem SendFits.lighter (h : SendFits d n) (hl : Lighter d' d) : SendFits d' n :=
  ⟨by rw [hl.caps]; exact h.sq, by rw [hl.caps]; exact h.cq⟩

theorem RecvFits.mono {caps : QueueCaps} {s m n : Nat} (h : RecvFits caps s n) (hm : m ≤ n) :
    RecvFits caps s m := by
  obtain ⟨h1, h2⟩ := h
  exact ⟨by omega, by omega⟩

theorem Fresh.lighter (h : Fresh d r) (hl : Lighter d' d) : Fresh d' r := by
  obtain ⟨h1, h2, h3, h4, h5, h6⟩ := h
  exact ⟨h1, h2, h3, h4, by rw [hl.flow]; exact h5, by rw [hl.flow]; exact h6⟩

theorem Ready.lighter (h : Ready d r) (hl : Lighter d' d) : Ready d' r where
  fresh := h.fresh.lighter hl
  send := by rw [hl.flow]; exact h.send.lighter hl
  recv := by
    rw [hl.caps, hl.flow]
    exact h.recv.mono (Nat.add_le_add_right hl.rq _)
  sq := Nat.le_zero.mp (h.sq ▸ hl.sq)

theorem Bench.lighter (h : Bench d r k) (hl : Lighter d' d) : Bench d' r k where
  kind := h.kind
  qdepth := h.qdepth
  iterations := h.iterations
  flow := by rw [hl.flow]; exact h.flow
  send := h.send.lighter hl
  load := le_trans hl.aLoad h.load
  out := h.out
  sent := h.sent
  iter := h.iter
  recv := by rw [hl.caps]; exact h.recv.mono (Nat.add_le_add_right hl.rLoad _)

theorem Stream.lighter (h : Stream d r e c k) (hl : Lighter d' d) : Stream d' r e c k where
  kind := h.kind
  qdepth := h.qdepth
  flow := by rw [hl.flow]; exact h.flow
  send := by rw [hl.flow]; exact h.send.lighter hl
  load := le_trans hl.aLoad h.load
  out := by rw [hl.flow]; exact h.out
  credits := by rw [hl.flow]; exact h.credits
  recv := by rw [hl.caps]; exact h.recv.mono (Nat.add_le_add_right hl.rLoad _)

theorem QueuePcOk.lighter (h : QueuePcOk d pc) (hl : Lighter d' d) : QueuePcOk d' pc := by
  have ha := hl.aLoad
  have hb := hl.bLoad
  cases pc with
  | writing | alloc | resetCredits | resetPaused | idle | start | recvDrain | drain | drainCredit
  | drainRest | doneA | doneB => simp only [QueuePcOk, hl.flow] at h ⊢; exact h
  | begin r => exact Fresh.lighter h hl
  | flushA r => exact Ready.lighter h hl
  | flushB r => exact ⟨h.1.lighter hl, by have := h.2; omega⟩
  | prePost r =>
    obtain ⟨h1, h2, h3, h4, h5⟩ := h
    refine ⟨h1.lighter hl, by rw [hl.flow]; exact h2.lighter hl, by omega, h4, ?_⟩
    rw [hl.caps]
    exact h5.mono (by omega)
  | head | post | poll | drainB => exact Bench.lighter h hl
  | replenish r => exact ⟨h.1.lighter hl, by rw [hl.caps]; have := h.2; omega⟩
  | loop | pollA | posted | credit | replenishRecv =>
    exact ⟨h.1.lighter hl, by rw [hl.caps]; have := h.2; omega⟩
  | decide r c =>
    exact ⟨h.1.lighter hl, by rw [hl.caps]; have := h.2.1; omega, by rw [hl.flow]; exact h.2.2⟩
  | checked r b =>
    exact ⟨h.1.lighter hl, by rw [hl.caps]; have := h.2.1; omega, by rw [hl.flow]; exact h.2.2⟩
  | drainRecv r => exact Stream.lighter h hl

/-! ## Posts -/

theorem postSend_sq (d : QueueDev) : d.postSend.sq = d.sq + 1 := by
  simp only [QueueDev.postSend, QueueDev.sq]; omega

theorem postSend_aLoad (d : QueueDev) : d.postSend.aLoad = d.aLoad + 1 := by
  simp only [QueueDev.postSend, QueueDev.aLoad, QueueDev.sq]; omega

theorem postRecv_bLoad (d : QueueDev) : d.postRecv.bLoad = d.bLoad + 1 := by
  simp only [QueueDev.postRecv, QueueDev.bLoad]; omega

theorem postRecv_rLoad (d : QueueDev) : d.postRecv.rLoad = d.rLoad + 1 := by
  simp only [QueueDev.postRecv, QueueDev.rLoad]; omega

/-- A send may be posted where a completion more fits. -/
theorem within_postSend (hw : d.Within) (hs : SendFits d n) (hn : d.aLoad + 1 ≤ n) :
    d.postSend.Within := by
  have ha : d.sq ≤ d.aLoad := Nat.le_add_right _ _
  have h1 := hs.sq
  have h2 := hs.cq
  refine ⟨?_, ?_, hw.rq, hw.cqB⟩
  · rw [postSend_sq]; show d.sq + 1 ≤ d.caps.maxSendWr; omega
  · rw [postSend_aLoad]; show d.aLoad + 1 ≤ d.caps.cqDepth; omega

theorem within_postRecv (hw : d.Within) (hr : d.rq + 1 ≤ d.caps.maxRecvWr)
    (hb : d.bLoad + 1 ≤ d.caps.cqDepth) : d.postRecv.Within :=
  ⟨hw.sq, hw.cqA, hr, by rw [postRecv_bLoad]; exact hb⟩

theorem prePostCount_lt (flow : FlowCtl) (r : Run) : prePostCount flow r < 2 ^ 32 := by
  have h : r.qdepth * 2 % 2 ^ 32 < 2 ^ 32 := Nat.mod_lt _ (by decide)
  unfold prePostCount
  split <;> simp only [] <;> split_ifs <;> omega

/-- One receive is posted ahead of the loop. -/
theorem prePost_post (hw : d.Within) (h : QueuePcOk d (.prePost r))
    (hlt : r.recvPosted < r.prePost) :
    d.postRecv.Within ∧
      QueuePcOk d.postRecv (.prePost { r with recvPosted := incU32 r.recvPosted }) := by
  obtain ⟨hf, hs, ha, hp, h1, h2⟩ := h
  have hq := rq_le_bLoad d
  refine ⟨within_postRecv hw (by omega) (by omega), ⟨hf.1, hf.2, hf.3, hf.4, hf.5, hf.6⟩,
    ⟨hs.1, hs.2⟩, ha, hp, ?_⟩
  rw [incU32_eq hlt hp, postRecv_bLoad]
  exact RecvFits.mono ⟨h1, h2⟩ (by simp only []; omega)

/-- All of them are. -/
theorem prePost_done (h : QueuePcOk d (.prePost r)) : QueuePcOk d (runLoop r) := by
  obtain ⟨hf, hs, ha, _, h1, h2⟩ := h
  have hl := rLoad_le d
  have hq := rq_le_bLoad d
  have hout := hf.out
  have hsent := hf.sent
  unfold runLoop
  cases hk : r.kind with
  | sustained =>
    simp only [window, Run.slack, hk] at hs h2 ⊢
    obtain ⟨hflow, hc⟩ := hf.credits hk
    refine ⟨⟨hk, hf.qdepth, hflow, hs, by omega, by omega, by omega, by omega, by omega⟩,
      by omega⟩
  | streaming | sweep =>
    simp only [window, Run.slack, hk] at hs h2 ⊢
    exact ⟨by simp [hk], hf.qdepth, hf.iterations, hf.flow, hs, by omega, by omega,
      by omega, by omega, by omega, by omega⟩

theorem Bench.post (h : Bench d r 0) (hw : d.Within) (hs : r.sent < r.iterations)
    (ho : r.outstanding < r.qdepth) :
    d.postSend.Within ∧
      Bench d.postSend
        { r with sent := incU32 r.sent, outstanding := incU32 r.outstanding } 0 := by
  have hl := h.load
  have hsent := h.sent
  refine ⟨within_postSend hw h.send (by omega), ?_⟩
  rw [incU32_eq hs h.iterations, incU32_eq ho h.qdepth]
  refine ⟨h.kind, h.qdepth, h.iterations, h.flow, ⟨h.send.1, h.send.2⟩, ?_, ho, ?_, hs, h.recv⟩
  · rw [postSend_aLoad]; exact Nat.succ_le_succ hl
  · exact Nat.succ_le_succ hsent

theorem Bench.poll (h : Bench d r 0) (hp : d.popA = some (true, d')) :
    Bench d' { r with outstanding := decU32 r.outstanding, completed := incU32 r.completed } 1 := by
  obtain ⟨hl, ha, hr, _⟩ := popA_lighter hp
  have h' := h.lighter hl
  have hload := h.load
  have hsent := h.sent
  have hout := h.out
  have hq := h.qdepth
  have hrecv := h.recv
  simp only [if_true] at hr
  rw [decU32_eq (by omega) (by omega)]
  refine ⟨h'.kind, h'.qdepth, h'.iterations, h'.flow, h'.send, ?_, ?_, ?_, h'.iter, ?_⟩
  · show d'.aLoad ≤ r.outstanding - 1; omega
  · show r.outstanding - 1 ≤ r.qdepth; omega
  · show r.outstanding - 1 ≤ r.sent; omega
  · rw [hl.caps]; exact hrecv.mono (by omega)

theorem Bench.replenish (h : Bench d r 1) (hw : d.Within) (hb : d.bLoad + 1 ≤ d.caps.cqDepth) :
    d.postRecv.Within ∧ Bench d.postRecv { r with recvPosted := incU32 r.recvPosted } 0 := by
  have hq := rq_le_rLoad d
  have hr := h.recv.1
  refine ⟨within_postRecv hw (by omega) hb, h.kind, h.qdepth, h.iterations, h.flow,
    ⟨h.send.1, h.send.2⟩, h.load, h.out, h.sent, h.iter, ?_⟩
  rw [postRecv_rLoad]; exact h.recv

theorem Bench.weaken (h : Bench d r 1) : Bench d r 0 :=
  ⟨h.kind, h.qdepth, h.iterations, h.flow, h.send, h.load, h.out, h.sent, h.iter,
    h.recv.mono (Nat.le_succ _)⟩

/-- CQ-B is empty, so that a receive to be replaced leaves room. -/
theorem bLoad_of_drained (hb : d.popB = none) {s : Nat} (hr : RecvFits d.caps s n)
    (hn : d.rLoad ≤ n) : d.bLoad + s ≤ d.caps.cqDepth := by
  have hq := rq_le_rLoad d
  have h2 := hr.2
  rw [popB_none hb]; omega

theorem Stream.post (h : Stream d r 0 0 0) (hw : d.Within) (ho : r.outstanding < r.qdepth)
    (hh : r.outstanding < d.flow.highWatermark) :
    d.postSend.Within ∧ Stream d.postSend r 1 0 0 := by
  have hl := h.load
  refine ⟨within_postSend hw h.send (by omega), h.kind, h.qdepth, h.flow,
    ⟨h.send.1, h.send.2⟩, ?_, ?_, h.credits, h.recv⟩
  · rw [postSend_aLoad]; omega
  · show r.outstanding + 1 ≤ min r.qdepth d.flow.highWatermark; omega

theorem Stream.onSend (h : Stream d r 1 0 0) :
    Stream (d.setFlow (flowOnSend d.flow))
      { r with sent := incU32 r.sent, outstanding := incU32 r.outstanding } 0 0 0 := by
  have ho := h.out
  have hq := h.qdepth
  have hc := h.credits
  rw [incU32_eq (n := r.outstanding) (m := r.outstanding + 1) (by omega) (by omega)]
  refine ⟨h.kind, h.qdepth, h.flow, ⟨h.send.1, h.send.2⟩, h.load, h.out, ?_, h.recv⟩
  show d.flow.credits - 1 + ((r.outstanding + 1 : Nat) : Int) + _ = d.flow.maxCredits
  push_cast at hc ⊢; omega

theorem Stream.poll (h : Stream d r 0 0 0) (hp : d.popA = some (true, d')) :
    Stream d' { r with completed := incU32 r.completed, outstanding := decU32 r.outstanding }
      0 1 1 := by
  obtain ⟨hl, ha, hr, _⟩ := popA_lighter hp
  have h' := h.lighter hl
  have hload := h.load
  have hout := h'.out
  have hq := h.qdepth
  have hrecv := h.recv
  have hc := h'.credits
  simp only [if_true] at hr
  rw [decU32_eq (by omega) (by omega)]
  refine ⟨h'.kind, h'.qdepth, h'.flow, h'.send, ?_, ?_, ?_, ?_⟩
  · show d'.aLoad ≤ r.outstanding - 1 + 0; omega
  · show r.outstanding - 1 + 0 ≤ min r.qdepth d'.flow.highWatermark; omega
  · show d'.flow.credits + ((r.outstanding - 1 : Nat) : Int) + ((1 : Nat) : Int) = _
    omega
  · rw [hl.caps]; exact hrecv.mono (by omega)

theorem Stream.onCompletion (h : Stream d r 0 1 1) :
    Stream (d.setFlow (flowOnCompletion d.flow)) r 0 0 1 := by
  have hc := h.credits
  refine ⟨h.kind, h.qdepth, h.flow, ⟨h.send.1, h.send.2⟩, h.load, h.out, ?_, h.recv⟩
  show d.flow.credits + 1 + (r.outstanding : Int) + ((0 : Nat) : Int) = d.flow.maxCredits
  omega

theorem Stream.replenish (h : Stream d r 0 0 1) (hw : d.Within)
    (hb : d.bLoad + 1 ≤ d.caps.cqDepth) :
    d.postRecv.Within ∧ Stream d.postRecv { r with recvPosted := incU32 r.recvPosted } 0 0 0 := by
  have hq := rq_le_rLoad d
  have hr := h.recv.1
  refine ⟨within_postRecv hw (by omega) hb, h.kind, h.qdepth, h.flow, ⟨h.send.1, h.send.2⟩,
    h.load, h.out, h.credits, ?_⟩
  rw [postRecv_rLoad]; exact h.recv

theorem Stream.weaken (h : Stream d r 0 0 1) : Stream d r 0 0 0 :=
  ⟨h.kind, h.qdepth, h.flow, h.send, h.load, h.out, h.credits, h.recv.mono (Nat.le_succ _)⟩

/-- `can_send` writes `paused` only. -/
theorem Stream.paused (h : Stream d r 0 0 0) (b : Bool) :
    Stream (d.setFlow { d.flow with paused := b }) r 0 0 0 :=
  ⟨h.kind, h.qdepth, h.flow, ⟨h.send.1, h.send.2⟩, h.load, h.out, h.credits, h.recv⟩

/-- What `can_send` allows is below the high watermark. -/
theorem Stream.canSend (h : Stream d r 0 0 0)
    (hd : (flowDecide d.flow (some d.flow.credits)).1 = true) :
    r.outstanding < d.flow.highWatermark := by
  have hc := h.credits
  have hlt := flowDecide_lt h.flow.2 hd
  omega

end Stages

end Dmaplane
