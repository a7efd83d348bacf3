import Dmaplane.Lib.System
import Dmaplane.Flow
import Mathlib.Data.BitVec

/-!
# Dmaplane.FlowWatermarks

The hysteresis of `dmaplane_flow_can_send`, over all sequences of the three credit operations that
a sender makes: it posts only on a grant (an answer `true` not used yet), and a completion is that
of a send under way.

* `WatermarkInv`   — the credits are those of the sends under way, which are at most
  `high_watermark`; the events so far alternate, and the flag says which of the two is next.
* `paused_steps`   — a pause lasts while more than `low_watermark` sends are under way.
-/

namespace Dmaplane

/-- The counters of `dev->stats` that `can_send` bumps. -/
structure FlowStats where
  highWatermarkEvents : BitVec 64
  lowWatermarkEvents : BitVec 64
  deriving DecidableEq, Repr

/-- `dmaplane_flow_can_send`. -/
def dmaplaneFlowCanSend (flow : FlowCtl) (stats : FlowStats) : Bool × FlowCtl × FlowStats :=
  if !flow.configured then (true, flow, stats)
  else
    let inFlight := flow.maxCredits - flow.credits
    if flow.paused then
      if inFlight ≤ flow.lowWatermark then
        (true, { flow with paused := false },
          { stats with lowWatermarkEvents := stats.lowWatermarkEvents + 1 })
      else (false, flow, stats)
    else if inFlight ≥ flow.highWatermark then
      (false, { flow with paused := true },
        { stats with highWatermarkEvents := stats.highWatermarkEvents + 1 })
    else (decide (flow.credits > 0), flow, stats)

section CanSend

variable {flow : FlowCtl} {stats : FlowStats}

theorem canSend_paused (hc : flow.configured = true) (hp : flow.paused = true) :
    dmaplaneFlowCanSend flow stats =
      if flow.maxCredits - flow.credits ≤ flow.lowWatermark then
        (true, { flow with paused := false },
          { stats with lowWatermarkEvents := stats.lowWatermarkEvents + 1 })
      else (false, flow, stats) := by
  simp only [dmaplaneFlowCanSend, hc, hp, Bool.not_true, Bool.false_eq_true, if_false, if_true]

theorem canSend_running (hc : flow.configured = true) (hp : flow.paused = false) :
    dmaplaneFlowCanSend flow stats =
      if flow.maxCredits - flow.credits ≥ flow.highWatermark then
        (false, { flow with paused := true },
          { stats with highWatermarkEvents := stats.highWatermarkEvents + 1 })
      else (decide (flow.credits > 0), flow, stats) := by
  simp only [dmaplaneFlowCanSend, hc, hp, Bool.not_true, Bool.false_eq_true, if_false]

/-- But for the counters it is the check and the decision that concurrent senders interleave. -/
theorem canSend_eq_decide (flow : FlowCtl) (stats : FlowStats) :
    ((dmaplaneFlowCanSend flow stats).1, (dmaplaneFlowCanSend flow stats).2.1) =
      flowDecide flow (flowRead flow) := by
  cases hc : flow.configured with
  | false => simp [dmaplaneFlowCanSend, flowDecide, flowRead, hc]
  | true =>
    rw [flowRead, if_pos hc]
    cases hp : flow.paused with
    | true =>
      rw [canSend_paused hc hp]
      simp only [flowDecide, hp, if_true]
      split <;> rfl
    | false =>
      rw [canSend_running hc hp]
      simp only [flowDecide, hp, Bool.false_eq_true, if_false]
      split <;> rfl

end CanSend

inductive WatermarkEvent where
  | high | low
  deriving DecidableEq, Repr

inductive FlowCall where
  | canSend | onSend | onCompletion
  deriving DecidableEq, Repr

/-- The flow and its user. -/
structure SenderSt where
  flow : FlowCtl
  stats : FlowStats
  /-- `can_send` has returned true, and no send was posted since. -/
  granted : Bool
  /-- Sends not completed. -/
  outstanding : Nat
  /-- The events counted so far. -/
  events : List WatermarkEvent
  deriving DecidableEq, Repr

/-- The event between two readings of the counters. -/
def eventsOf (stats stats' : FlowStats) : List WatermarkEvent :=
  if stats'.highWatermarkEvents ≠ stats.highWatermarkEvents then [.high]
  else if stats'.lowWatermarkEvents ≠ stats.lowWatermarkEvents then [.low]
  else []

def senderStep (s : SenderSt) : FlowCall → Option SenderSt
  | .canSend =>
    let r := dmaplaneFlowCanSend s.flow s.stats
    some { s with
      flow := r.2.1, stats := r.2.2, granted := r.1, events := s.events ++ eventsOf s.stats r.2.2 }
  | .onSend =>
    if s.granted then
      some { s with
        flow := flowOnSend s.flow, granted := false, outstanding := s.outstanding + 1 }
    else none
  | .onCompletion =>
    if 0 < s.outstanding then
      some { s with flow := flowOnCompletion s.flow, outstanding := s.outstanding - 1 }
    else none

/-- The record after `dmaplane_flow_configure`. -/
def flowConfigured (p : FlowParams) : FlowCtl :=
  { credits := p.maxCredits, maxCredits := p.maxCredits, highWatermark := p.highWatermark
    lowWatermark := p.lowWatermark, configured := true, paused := false }

/-- From a configuration and any values of the counters. -/
def senderSys (p : FlowParams) (stats : FlowStats) : Transition.Sys SenderSt FlowCall where
  init := { flow := flowConfigured p, stats := stats, granted := false, outstanding := 0, events := [] }
  step := senderStep

/-- `max_credits - credits`. -/
def SenderSt.inFlight (s : SenderSt) : Int := s.flow.maxCredits - s.flow.credits

/-- The answer of `can_send` in this state. -/
def SenderSt.canSend (s : SenderSt) : Bool := (dmaplaneFlowCanSend s.flow s.stats).1

/-- `0 < low < high <= max_credits`. -/
structure FlowParams.Valid (p : FlowParams) : Prop where
  pos : 0 < p.lowWatermark
  low : p.lowWatermark < p.highWatermark
  high : p.highWatermark ≤ p.maxCredits

/-- `n` events, a high one first. -/
def alternating (n : Nat) : List WatermarkEvent :=
  (List.range n).map fun i => if i % 2 = 0 then .high else .low

theorem alternating_even (k : Nat) : alternating (2 * k + 1) = alternating (2 * k) ++ [.high] := by
  rw [alternating, List.range_succ, List.map_append, List.map_singleton,
    if_pos (Nat.mul_mod_right 2 k)]
  rfl

theorem alternating_odd (k : Nat) :
    alternating (2 * (k + 1)) = alternating (2 * k + 1) ++ [.low] := by
  rw [alternating, show 2 * (k + 1) = 2 * k + 1 + 1 by omega, List.range_succ, List.map_append,
    List.map_singleton, if_neg (by omega)]
  rfl

theorem count_alternating (k : Nat) :
    (alternating (2 * k)).count .high = k ∧ (alternating (2 * k)).count .low = k := by
  induction k with
  | zero => exact ⟨rfl, rfl⟩
  | succ k ih =>
    rw [alternating_odd, alternating_even, List.count_append, List.count_append, List.count_append,
      List.count_append, ih.1, ih.2]
    exact ⟨rfl, rfl⟩

/-- `k` pauses are over; the flag says if one is on. -/
structure EventsOk (stats : FlowStats) (s : SenderSt) (k : Nat) : Prop where
  events : s.events = alternating (2 * k + s.flow.paused.toNat)
  high : s.stats.highWatermarkEvents =
    stats.highWatermarkEvents + BitVec.ofNat 64 (k + s.flow.paused.toNat)
  low : s.stats.lowWatermarkEvents = stats.lowWatermarkEvents + BitVec.ofNat 64 k

structure WatermarkInv (p : FlowParams) (stats : FlowStats) (s : SenderSt) : Prop where
  flow : s.flow = { flowConfigured p with credits := s.flow.credits, paused := s.flow.paused }
  credits : s.flow.credits = p.maxCredits - s.outstanding
  bound : s.outstanding ≤ p.highWatermark
  granted : s.granted = true → s.flow.paused = false ∧ s.outstanding < p.highWatermark
  events : ∃ k, EventsOk stats s k

section Inv

variable {p : FlowParams} {stats : FlowStats} {s s' : SenderSt}

theorem WatermarkInv.configured (hi : WatermarkInv p stats s) : s.flow.configured = true := by
  rw [hi.flow]; rfl

theorem WatermarkInv.inFlight (hi : WatermarkInv p stats s) : s.inFlight = s.outstanding := by
  have hm : s.flow.maxCredits = p.maxCredits := by rw [hi.flow]; rfl
  rw [SenderSt.inFlight, hi.credits, hm]
  omega

theorem WatermarkInv.high (hi : WatermarkInv p stats s) :
    s.flow.highWatermark = p.highWatermark := by rw [hi.flow]; rfl

theorem WatermarkInv.low (hi : WatermarkInv p stats s) :
    s.flow.lowWatermark = p.lowWatermark := by rw [hi.flow]; rfl

theorem eventsOf_same (stats : FlowStats) : eventsOf stats stats = [] := by simp [eventsOf]

theorem eventsOf_high (stats : FlowStats) : eventsOf stats
    { stats with highWatermarkEvents := stats.highWatermarkEvents + 1 } = [.high] := by
  simp [eventsOf]

theorem eventsOf_low (stats : FlowStats) : eventsOf stats
    { stats with lowWatermarkEvents := stats.lowWatermarkEvents + 1 } = [.low] := by
  simp [eventsOf]

/-- The first low event after a high one. -/
theorem EventsOk.resume {k : Nat} (h : EventsOk stats s k) (hp : s.flow.paused = true) :
    EventsOk stats { s with
      flow := { s.flow with paused := false }
      stats := { s.stats with lowWatermarkEvents := s.stats.lowWatermarkEvents + 1 }
      granted := true, events := s.events ++ [.low] } (k + 1) := by
  obtain ⟨he, hh, hl⟩ := h
  rw [hp] at he hh
  refine ⟨?_, hh, ?_⟩
  · show s.events ++ [.low] = alternating (2 * (k + 1))
    rw [he, alternating_odd]
    rfl
  · show s.stats.lowWatermarkEvents + 1 = _
    rw [hl, BitVec.ofNat_add, BitVec.add_assoc]
    rfl

/-- The first high event after a low one. -/
theorem EventsOk.pause {k : Nat} (h : EventsOk stats s k) (hp : s.flow.paused = false) :
    EventsOk stats { s with
      flow := { s.flow with paused := true }
      stats := { s.stats with highWatermarkEvents := s.stats.highWatermarkEvents + 1 }
      granted := false, events := s.events ++ [.high] } k := by
  obtain ⟨he, hh, hl⟩ := h
  rw [hp] at he hh
  refine ⟨?_, ?_, hl⟩
  · show s.events ++ [.high] = alternating (2 * k + 1)
    rw [he, alternating_even]
    rfl
  · show s.stats.highWatermarkEvents + 1 = _ + BitVec.ofNat 64 (k + 1)
    rw [hh, Bool.toNat_false, Nat.add_zero, BitVec.ofNat_add, ← BitVec.add_assoc]
    rfl

theorem WatermarkInv.canSend (hv : p.Valid) (hi : WatermarkInv p stats s) :
    WatermarkInv p stats { s with
      flow := (dmaplaneFlowCanSend s.flow s.stats).2.1
      stats := (dmaplaneFlowCanSend s.flow s.stats).2.2
      granted := (dmaplaneFlowCanSend s.flow s.stats).1
      events := s.events ++ eventsOf s.stats (dmaplaneFlowCanSend s.flow s.stats).2.2 } := by
  have hin := hi.inFlight
  have hhigh := hi.high
  have hlow := hi.low
  have hlt := hv.low
  rw [SenderSt.inFlight] at hin
  obtain ⟨k, hk⟩ := hi.events
  cases hp : s.flow.paused with
  | true =>
    by_cases hle : s.flow.maxCredits - s.flow.credits ≤ s.flow.lowWatermark
    · rw [canSend_paused hi.configured hp, if_pos hle, eventsOf_low]
      refine ⟨?_, hi.credits, hi.bound, fun _ => ⟨rfl, ?_⟩, _, hk.resume hp⟩
      · show { s.flow with paused := false } = _
        rw [hi.flow]
      · show s.outstanding < _
        omega
    · rw [canSend_paused hi.configured hp, if_neg hle, eventsOf_same, List.append_nil]
      refine ⟨hi.flow, hi.credits, hi.bound, fun hg => ?_, k, hk.events, hk.high, hk.low⟩
      cases hg
  | false =>
    by_cases hge : s.flow.maxCredits - s.flow.credits ≥ s.flow.highWatermark
    · rw [canSend_running hi.configured hp, if_pos hge, eventsOf_high]
      refine ⟨?_, hi.credits, hi.bound, fun hg => ?_, _, hk.pause hp⟩
      · show { s.flow with paused := true } = _
        rw [hi.flow]
      · cases hg
    · rw [canSend_running hi.configured hp, if_neg hge, eventsOf_same, List.append_nil]
      refine ⟨hi.flow, hi.credits, hi.bound, fun _ => ⟨hp, ?_⟩, k, hk.events, hk.high, hk.low⟩
      show s.outstanding < _
      omega

theorem WatermarkInv.step (hv : p.Valid) (hi : WatermarkInv p stats s) {a : FlowCall}
    (hs : senderStep s a = some s') : WatermarkInv p stats s' := by
  obtain ⟨k, hk⟩ := hi.events
  cases a with
  | canSend => cases hs; exact hi.canSend hv
  | onSend =>
    simp only [senderStep] at hs
    split at hs <;> cases hs
    rename_i hg
    obtain ⟨hp, hlt⟩ := hi.granted hg
    refine ⟨?_, ?_, hlt, fun hg => (by cases hg), k, hk.events, hk.high, hk.low⟩
    · show flowOnSend s.flow = _
      rw [flowOnSend, hi.flow]
    · show s.flow.credits - 1 = p.maxCredits - ((s.outstanding + 1 : Nat) : Int)
      rw [hi.credits]
      omega
  | onCompletion =>
    simp only [senderStep] at hs
    split at hs <;> cases hs
    rename_i hpos
    have hb := hi.bound
    refine ⟨?_, ?_, ?_, fun hg => ?_, k, hk.events, hk.high, hk.low⟩
    · show flowOnCompletion s.flow = _
      rw [flowOnCompletion, hi.flow]
    · show s.flow.credits + 1 = p.maxCredits - ((s.outstanding - 1 : Nat) : Int)
      rw [hi.credits]
      omega
    · show s.outstanding - 1 ≤ _
      omega
    · obtain ⟨hp, hlt⟩ := hi.granted hg
      refine ⟨hp, ?_⟩
      show s.outstanding - 1 < _
      omega

theorem watermarkInv (hv : p.Valid) (h : (senderSys p stats).Reachable s) :
    WatermarkInv p stats s := by
  refine h.invariant ⟨rfl, ?_, Nat.zero_le _, fun hg => (by cases hg), 0, rfl, ?_, ?_⟩
    fun _ _ _ hi hs => hi.step hv hs
  · show (p.maxCredits : Int) = p.maxCredits - ((0 : Nat) : Int)
    omega
  · exact (BitVec.add_zero _).symm
  · exact (BitVec.add_zero _).symm

/-- A paused sender is told to go on once `low_watermark` sends or fewer are under way. -/
theorem WatermarkInv.canSend_paused_iff (hi : WatermarkInv p stats s) (hp : s.flow.paused = true) :
    s.canSend = true ↔ s.inFlight ≤ p.lowWatermark := by
  rw [SenderSt.canSend, canSend_paused hi.configured hp, hi.low, SenderSt.inFlight]
  split
  · rename_i hle; exact iff_of_true rfl hle
  · rename_i hle; exact iff_of_false Bool.false_ne_true hle

theorem WatermarkInv.credits_pos (hv : p.Valid) (hi : WatermarkInv p stats s)
    (hs : s.canSend = true) : 0 < s.flow.credits := by
  have hpair := canSend_eq_decide s.flow s.stats
  rw [flowRead, if_pos hi.configured] at hpair
  have hd : (flowDecide s.flow (some s.flow.credits)).1 = true := by rw [← hpair]; exact hs
  refine credits_pos_of_decide ⟨?_, ?_⟩ hd
  · rw [hi.low, hi.high]; exact hv.low
  · have hm : s.flow.maxCredits = p.maxCredits := by rw [hi.flow]; rfl
    rw [hi.high, hm]; exact hv.high

/-- A step that finds more than `low_watermark` sends under way does not end a pause. -/
theorem WatermarkInv.stays_paused (hi : WatermarkInv p stats s) (hp : s.flow.paused = true)
    (habove : p.lowWatermark < s.inFlight) {a : FlowCall} (hs : senderStep s a = some s') :
    s'.flow.paused = true := by
  cases a with
  | canSend =>
    cases hs
    have hle : ¬ s.flow.maxCredits - s.flow.credits ≤ s.flow.lowWatermark := by
      rw [hi.low]
      exact Int.not_le.mpr habove
    show (dmaplaneFlowCanSend s.flow s.stats).2.1.paused = true
    rw [canSend_paused hi.configured hp, if_neg hle]
    exact hp
  | onSend =>
    simp only [senderStep] at hs
    split at hs <;> cases hs
    rename_i hg
    rw [(hi.granted hg).1] at hp
    cases hp
  | onCompletion =>
    simp only [senderStep] at hs
    split at hs <;> cases hs
    exact hp

theorem paused_steps (hv : p.Valid) (hi : WatermarkInv p stats s) (hp : s.flow.paused = true)
    (hs : (senderSys p stats).Steps (fun s _ => p.lowWatermark < s.inFlight) s s') :
    WatermarkInv p stats s' ∧ s'.flow.paused = true := by
  refine hs.keeps (I := fun s => WatermarkInv p stats s ∧ s.flow.paused = true) ?_ ⟨hi, hp⟩
  intro s a s' ⟨hi, hp⟩ habove hs
  exact ⟨hi.step hv hs, hi.stays_paused hp habove hs⟩

end Inv

/-- What holds after any sequence of calls. -/
structure Hysteresis (p : FlowParams) (stats : FlowStats) (s : SenderSt) : Prop where
  bound : s.flow.paused = false → s.inFlight ≤ p.highWatermark
  /-- The events alternate, a high one first, and the counters count them. -/
  alternate : ∃ n, s.events = alternating n
  counted : s.stats.highWatermarkEvents =
      stats.highWatermarkEvents + BitVec.ofNat 64 (s.events.count .high) ∧
    s.stats.lowWatermarkEvents =
      stats.lowWatermarkEvents + BitVec.ofNat 64 (s.events.count .low)
  flag : s.events.count .high = s.events.count .low + s.flow.paused.toNat
  credit : s.canSend = true → 0 < s.flow.credits
  resume : s.flow.paused = true → (s.canSend = true ↔ s.inFlight ≤ p.lowWatermark)
  /-- At the high watermark the answer is no, and it stays so until the low one. -/
  latched : s.flow.paused = false → p.highWatermark ≤ s.inFlight → s.canSend = false ∧
    ∀ s₁ s₂, senderStep s .canSend = some s₁ →
      (senderSys p stats).Steps (fun s _ => p.lowWatermark < s.inFlight) s₁ s₂ →
      p.lowWatermark < s₂.inFlight → s₂.canSend = false

/-- **Watermark hysteresis**, for every valid configuration and every sequence of calls. -/
theorem watermark_hysteresis {p : FlowParams} (hv : p.Valid) {stats : FlowStats} {s : SenderSt}
    (h : (senderSys p stats).Reachable s) : Hysteresis p stats s := by
  have hi := watermarkInv hv h
  obtain ⟨k, he, hh, hl⟩ := hi.events
  have hcount : s.events.count .high = k + s.flow.paused.toNat ∧ s.events.count .low = k := by
    obtain ⟨h1, h2⟩ := count_alternating k
    rw [he]
    cases s.flow.paused with
    | false => exact ⟨h1, h2⟩
    | true =>
      rw [Bool.toNat_true, alternating_even, List.count_append, List.count_append, h1, h2]
      exact ⟨rfl, rfl⟩
  refine ⟨fun _ => ?_, ⟨_, he⟩, ?_, ?_, hi.credits_pos hv, hi.canSend_paused_iff, ?_⟩
  · rw [hi.inFlight]
    exact_mod_cast hi.bound
  · rw [hcount.1, hcount.2]
    exact ⟨hh, hl⟩
  · rw [hcount.1, hcount.2]
  · intro hp hge
    have hge' : s.flow.maxCredits - s.flow.credits ≥ s.flow.highWatermark := by
      rw [hi.high]; exact hge
    refine ⟨by rw [SenderSt.canSend, canSend_running hi.configured hp, if_pos hge'], ?_⟩
    intro s₁ s₂ h₁ h₂ habove
    have hp₁ : s₁.flow.paused = true := by
      cases h₁
      show (dmaplaneFlowCanSend s.flow s.stats).2.1.paused = true
      rw [canSend_running hi.configured hp, if_pos hge']
    obtain ⟨hi₂, hp₂⟩ := paused_steps hv (hi.step hv h₁) hp₁ h₂
    rw [← Bool.not_eq_true, hi₂.canSend_paused_iff hp₂]
    exact Int.not_le.mpr habove

/-- Three sends reach the high watermark, and the sender waits for two of them. -/
def stallAndResume : List FlowCall :=
  [.canSend, .onSend, .canSend, .onSend, .canSend, .onSend, .canSend, .onCompletion, .canSend,
   .onCompletion, .canSend, .onSend]

theorem watermark_hysteresis_run : ∃ s, s.events = [.high, .low] ∧ s.outstanding = 2 ∧
    Hysteresis ⟨4, 3, 1⟩ ⟨0, 0⟩ s := by
  obtain ⟨s, hr, he, ho⟩ : ∃ s, (senderSys ⟨4, 3, 1⟩ ⟨0, 0⟩).Reachable s ∧
      s.events = [.high, .low] ∧ s.outstanding = 2 :=
    Transition.Sys.exists_of_exec stallAndResume (by decide +kernel)
  exact ⟨s, he, ho, watermark_hysteresis ⟨by decide, by decide, by decide⟩ hr⟩

end Dmaplane
