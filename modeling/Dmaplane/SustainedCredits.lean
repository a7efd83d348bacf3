import Dmaplane.Sustained

/-!
# Dmaplane.SustainedCredits

The credits of a sustained run: `outstanding` and `flow.credits` against the sends whose
completion is due.

* `Accounts` — the exact account, errors included. An error of the main loop takes its send off
  CQ-A and leaves it in `outstanding`; no error gives its credit back.
* `InLoop`   — at the start of an iteration of the main loop, where no error has come yet.
-/

namespace Dmaplane

open WrapRing Exits

/-! ## The answer of `can_send` -/

section CanSend

variable {flow : FlowCtl} {stats : FlowStats}

theorem canSend_frame (flow : FlowCtl) (stats : FlowStats) :
    ∃ b, (dmaplaneFlowCanSend flow stats).2.1 = { flow with paused := b } := by
  obtain ⟨b, hb⟩ := flowDecide_frame flow (flowRead flow)
  exact ⟨b, (congrArg Prod.snd (canSend_eq_decide flow stats)).trans hb⟩

theorem canSend_decides (hf : FlowSet flow) :
    (dmaplaneFlowCanSend flow stats).1 = (flowDecide flow (some flow.credits)).1 := by
  have h := congrArg Prod.fst (canSend_eq_decide flow stats)
  rwa [flowRead, if_pos hf.1] at h

end CanSend

/-! ## The account -/

/-- `f` is `flow` but for the credits and the pause. -/
def FlowCtl.ConfiguredAs (f flow : FlowCtl) : Prop :=
  f = { flow with credits := f.credits, paused := f.paused }

namespace FlowCtl.ConfiguredAs

variable {f flow : FlowCtl}

theorem maxCredits (h : f.ConfiguredAs flow) : f.maxCredits = flow.maxCredits := by rw [h]

theorem highWatermark (h : f.ConfiguredAs flow) : f.highWatermark = flow.highWatermark := by rw [h]

theorem flowSet (h : f.ConfiguredAs flow) (hs : FlowSet flow) : FlowSet f := by rw [h]; exact hs

theorem paused (h : f.ConfiguredAs flow) (b : Bool) :
    { f with paused := b }.ConfiguredAs flow := by
  show { f with paused := b } = _
  rw [h]

theorem onSend (h : f.ConfiguredAs flow) : (flowOnSend f).ConfiguredAs flow := by
  show { f with credits := _ } = _
  rw [h]
  rfl

theorem onCompletion (h : f.ConfiguredAs flow) : (flowOnCompletion f).ConfiguredAs flow := by
  show { f with credits := _ } = _
  rw [h]
  rfl

end FlowCtl.ConfiguredAs

/-- `a - b` on `unsigned int`. -/
def subU32 (a b : Nat) : Nat := (a + (2 ^ 32 - b)) % 2 ^ 32

/-- A run with the flow `flow`. -/
structure Accounts (flow : FlowCtl) (s : Sustained) : Prop where
  same : s.flow.ConfiguredAs flow
  credits : s.flow.credits + s.due + s.log.mainErrors + s.log.drainErrors = flow.maxCredits
  outstanding : s.outstanding = s.due + s.log.mainErrors
  small : s.outstanding < 2 ^ 32

structure InLoop (flow : FlowCtl) (p : SustainedParams) (s : Sustained) : Prop
    extends Accounts flow s where
  mainErrors : s.log.mainErrors = 0
  drainErrors : s.log.drainErrors = 0
  bound : s.outstanding ≤ min p.queueDepth.toNat flow.highWatermark
  completed : s.completed < 2 ^ 32
  counted : s.outstanding = subU32 s.sent s.completed

section Keeps

variable {p : SustainedParams} {e : Iteration} {s : Sustained} {flow : FlowCtl}

/-- The window check is about the windows. -/
theorem windowCheck_frame (now : Ktime) (s : Sustained) : ∃ lo hi bytes start windows,
    windowCheck now s = { s with
      minWindowMbps := lo, maxWindowMbps := hi, windowBytes := bytes, windowStart := start
      log := { s.log with nows := s.log.nows ++ [now], windows := windows } } := by
  simp only [windowCheck]
  split
  · exact ⟨_, _, _, _, _, rfl⟩
  · exact ⟨_, _, _, _, _, rfl⟩

theorem InLoop.windowCheck (hi : InLoop flow p s) (now : Ktime) :
    InLoop flow p (windowCheck now s) := by
  obtain ⟨lo, top, bytes, start, windows, hw⟩ := windowCheck_frame now s
  rw [hw]
  exact ⟨⟨hi.same, hi.credits, hi.outstanding, hi.small⟩, hi.mainErrors, hi.drainErrors,
    hi.bound, hi.completed, hi.counted⟩

theorem InLoop.paused (hi : InLoop flow p s) (b : Bool) (stats : FlowStats) :
    InLoop flow p { s with flow := { s.flow with paused := b }, stats := stats } :=
  ⟨⟨hi.same.paused b, hi.credits, hi.outstanding, hi.small⟩, hi.mainErrors, hi.drainErrors,
    hi.bound, hi.completed, hi.counted⟩

theorem InLoop.stalled (hi : InLoop flow p s) (n : BitVec 64) :
    InLoop flow p { s with stallCount := n } :=
  ⟨⟨hi.same, hi.credits, hi.outstanding, hi.small⟩, hi.mainErrors, hi.drainErrors,
    hi.bound, hi.completed, hi.counted⟩

/-- The sends under way are those due. -/
theorem InLoop.inFlight (hi : InLoop flow p s) :
    s.flow.maxCredits - s.flow.credits = s.outstanding := by
  have hc := hi.credits
  have hm := hi.same.maxCredits
  have ho := hi.outstanding
  have h1 := hi.mainErrors
  have h2 := hi.drainErrors
  omega

theorem InLoop.sendPhase (hset : FlowSet flow) (hi : InLoop flow p s) :
    Ends (InLoop flow p) (Accounts flow) (sendPhase p e s) := by
  obtain ⟨b, hb⟩ := canSend_frame s.flow s.stats
  have hin := hi.inFlight
  simp only [Dmaplane.sendPhase, hb]
  split
  · rename_i hc
    have hset' := hi.same.flowSet hset
    have hlt := flowDecide_lt hset'.2 ((canSend_decides hset').symm.trans hc.1)
    have hhigh := hi.same.highWatermark
    have hq := hc.2
    cases e.postSend with
    | some err => exact (hi.paused b _).toAccounts
    | none =>
      have hcr := hi.credits
      have ho := hi.outstanding
      have hd := p.queueDepth.toNat_lt
      have hb := hi.bound
      have hc := hi.completed
      have hs := hi.counted
      have hinc : incU32 s.outstanding = s.outstanding + 1 := incU32_eq hq hd
      refine ⟨⟨(hi.same.paused b).onSend, ?_, ?_, ?_⟩, hi.mainErrors, hi.drainErrors, ?_, hc, ?_⟩
      · show s.flow.credits - 1 + ((s.due + 1 : Nat) : Int) + s.log.mainErrors +
          s.log.drainErrors = flow.maxCredits
        omega
      · show incU32 s.outstanding = s.due + 1 + s.log.mainErrors
        omega
      · show incU32 s.outstanding < 2 ^ 32
        omega
      · show incU32 s.outstanding ≤ min p.queueDepth.toNat flow.highWatermark
        omega
      · show incU32 s.outstanding = subU32 (incU32 s.sent) s.completed
        rw [hinc]
        simp only [subU32, incU32] at hs ⊢
        omega
  · split
    · exact (hi.paused b _).stalled _
    · exact hi.paused b _

theorem InLoop.completeSend (hi : InLoop flow p s) (hd : s.due ≠ 0) (t : Ktime) :
    InLoop flow p (completeSend p t s) := by
  have hcr := hi.credits
  have ho := hi.outstanding
  have hsm := hi.small
  have hb := hi.bound
  have hc := hi.completed
  have hs := hi.counted
  have hdec : decU32 s.outstanding = s.outstanding - 1 := decU32_eq (by omega) hsm
  refine ⟨⟨hi.same.onCompletion, ?_, ?_, ?_⟩, hi.mainErrors, hi.drainErrors, ?_, ?_, ?_⟩
  · show s.flow.credits + 1 + ((s.due - 1 : Nat) : Int) + s.log.mainErrors +
      s.log.drainErrors = flow.maxCredits
    omega
  · show decU32 s.outstanding = s.due - 1 + s.log.mainErrors
    omega
  · show decU32 s.outstanding < 2 ^ 32
    omega
  · show decU32 s.outstanding ≤ min p.queueDepth.toNat flow.highWatermark
    omega
  · exact Nat.mod_lt _ (by decide)
  · show decU32 s.outstanding = subU32 s.sent (incU32 s.completed)
    rw [hdec]
    simp only [subU32, incU32] at hs ⊢
    omega

theorem InLoop.replenishRecv (hi : InLoop flow p s) :
    Ends (InLoop flow p) (Accounts flow) (replenishRecv p e s) := by
  unfold Dmaplane.replenishRecv
  split
  · cases e.postRecv with
    | some err => exact hi.toAccounts
    | none =>
      exact ⟨⟨hi.same, hi.credits, hi.outstanding, hi.small⟩, hi.mainErrors,
        hi.drainErrors, hi.bound, hi.completed, hi.counted⟩
  · exact hi

theorem pollAnswer_due {due : Nat} {r : CqPoll} (h : pollAnswer due r = .success ∨
    pollAnswer due r = .error) : due ≠ 0 := by
  rintro rfl
  cases r <;> rcases h with h | h <;> cases h

theorem InLoop.pollPhase (hi : InLoop flow p s) :
    Ends (InLoop flow p) (Accounts flow) (pollPhase p e s) := by
  unfold Dmaplane.pollPhase
  cases hr : pollAnswer s.due e.poll with
  | success =>
    exact (hi.completeSend (pollAnswer_due (.inl hr)) e.pollTime).replenishRecv
  | error =>
    have hd := pollAnswer_due (.inr hr)
    have hcr := hi.credits
    have ho := hi.outstanding
    refine ⟨hi.same, ?_, ?_, hi.small⟩
    · show s.flow.credits + ((s.due - 1 : Nat) : Int) + ((s.log.mainErrors + 1 : Nat) : Int) +
        s.log.drainErrors = flow.maxCredits
      omega
    · show s.outstanding = s.due - 1 + (s.log.mainErrors + 1)
      omega
  | fail => exact hi.toAccounts
  | empty => exact hi

theorem InLoop.mainIteration (hset : FlowSet flow) (hi : InLoop flow p s) :
    Ends (InLoop flow p) (Accounts flow) (mainIteration p e s) := by
  refine ((hi.windowCheck e.now).sendPhase hset).bind fun s₁ h₁ => h₁.pollPhase.bind fun s₂ h₂ => ?_
  exact ⟨⟨h₂.same, h₂.credits, h₂.outstanding, h₂.small⟩, h₂.mainErrors, h₂.drainErrors,
    h₂.bound, h₂.completed, h₂.counted⟩

theorem Accounts.drainPoll (hi : Accounts flow s) (poll : CqPoll) (hpos : 0 < s.outstanding) :
    Accounts flow (drainPoll p poll s) := by
  have hcr := hi.credits
  have ho := hi.outstanding
  have hdec : decU32 s.outstanding = s.outstanding - 1 := decU32_eq hpos hi.small
  unfold Dmaplane.drainPoll
  cases hr : pollAnswer s.due poll with
  | success =>
    have hd := pollAnswer_due (.inl hr)
    rw [hdec]
    refine ⟨hi.same.onCompletion, ?_, ?_, lt_of_le_of_lt (Nat.sub_le _ 1) hi.small⟩
    · show s.flow.credits + 1 + ((s.due - 1 : Nat) : Int) + s.log.mainErrors +
        s.log.drainErrors = flow.maxCredits
      omega
    · show s.outstanding - 1 = s.due - 1 + s.log.mainErrors
      omega
  | error =>
    have hd := pollAnswer_due (.inr hr)
    rw [hdec]
    refine ⟨hi.same, ?_, ?_, lt_of_le_of_lt (Nat.sub_le _ 1) hi.small⟩
    · show s.flow.credits + ((s.due - 1 : Nat) : Int) + s.log.mainErrors +
        ((s.log.drainErrors + 1 : Nat) : Int) = flow.maxCredits
      omega
    · show s.outstanding - 1 = s.due - 1 + s.log.mainErrors
      omega
  | fail => exact hi
  | empty => exact hi

theorem Accounts.drainIteration (hi : Accounts flow s) (poll : CqPoll) (cqB : Nat)
    (hpos : 0 < s.outstanding) : Accounts flow (drainIteration p poll cqB s) := by
  obtain ⟨h1, h2, h3, h4⟩ : Accounts flow (Dmaplane.drainPoll p poll s) := hi.drainPoll poll hpos
  exact ⟨h1, h2, h3, h4⟩

end Keeps

/-! ## Runs -/

section Runs

variable {dev : SustainedDev} {p : SustainedParams} {env : SustainedEnv} {s₀ : Sustained}
  {st : SustainedSt}

theorem flowSet_sustained (hf : FlowOk dev.flow) (q : Nat) : FlowSet (sustainedFlow dev.flow q) := by
  unfold sustainedFlow
  split
  · rename_i hc; exact ⟨hc, hf hc⟩
  · exact flowSet_autoConfigure q dev.flow

theorem Begun.inLoop (h : Begun dev p env s₀) :
    InLoop (sustainedFlow dev.flow p.queueDepth.toNat) p s₀ := by
  rw [h.state]
  refine ⟨⟨rfl, ?_, rfl, Nat.two_pow_pos 32⟩, rfl, rfl, Nat.zero_le _, Nat.two_pow_pos 32, ?_⟩
  · show ((sustainedFlow dev.flow p.queueDepth.toNat).maxCredits : Int) + (0 : Nat) + (0 : Nat) +
      (0 : Nat) = _
    omega
  · show 0 = subU32 0 0
    decide

theorem accounts_holds (hf : FlowOk dev.flow) (hb : Begun dev p env s₀)
    (h : (sustainedSys p env.start s₀).Reachable st) :
    st.Holds (InLoop (sustainedFlow dev.flow p.queueDepth.toNat) p)
      (Accounts (sustainedFlow dev.flow p.queueDepth.toNat)) :=
  sustained_invariant hb.inLoop (fun _ _ hi => hi.mainIteration (flowSet_sustained hf _))
    (fun _ hi => hi.toAccounts) (fun poll cqB _ hpos hi => hi.drainIteration poll cqB hpos) h

/-- What a run has at the start of an iteration of the main loop. -/
structure LoopCredits (flow : FlowCtl) (p : SustainedParams) (s : Sustained) : Prop where
  credits : s.flow.credits = flow.maxCredits - s.outstanding
  outstanding : s.outstanding = subU32 s.sent s.completed
  bound : s.outstanding ≤ min p.queueDepth.toNat flow.highWatermark
  /-- A refused send waits for a completion that is due. -/
  stall : (dmaplaneFlowCanSend s.flow s.stats).1 = false → 1 ≤ s.outstanding ∧ 1 ≤ s.due

theorem InLoop.loopCredits {flow : FlowCtl} {s : Sustained} (hset : FlowSet flow)
    (hi : InLoop flow p s) : LoopCredits flow p s := by
  have hin := hi.inFlight
  have hmax := hi.same.maxCredits
  refine ⟨by omega, hi.counted, hi.bound, fun hr => ?_⟩
  have hset' := hi.same.flowSet hset
  have hpos := flowDecide_refused hset'.2 ((canSend_decides hset').symm.trans hr)
  have ho := hi.outstanding
  have he := hi.mainErrors
  omega

/-- **Credits of a sustained run**, for every consistent configuration, or none, and every run. -/
theorem sustained_credits (hf : FlowOk dev.flow) (hb : sustainedBegin dev p env = .ok s₀)
    (h : (sustainedSys p env.start s₀).Reachable st) (hmain : st.phase = .main) :
    LoopCredits (sustainedFlow dev.flow p.queueDepth.toNat) p st.s := by
  have hi := accounts_holds hf (sustainedBegin_ok hb) h
  simp only [SustainedSt.Holds, hmain] at hi
  exact hi.loopCredits (flowSet_sustained hf p.queueDepth.toNat)

/-- Before its first iteration, on a device with flow control not configured. -/
def sampleDev : SustainedDev :=
  { initialized := true, flow := flowInit, stats := ⟨0, 0⟩, rdmaHist := histogramInit }

/-- One second at depth 2, with messages of 1 MiB. -/
def sampleParams : SustainedParams :=
  { msgSize := 1048576, queueDepth := 2, durationSecs := 1 }

def sampleEnv : SustainedEnv :=
  { bufSize := some 1048576, alloc := true, postRecv := fun _ => none, start := 0 }

def sampleBegun : Sustained :=
  { flow := { credits := 4, maxCredits := 4, highWatermark := 3, lowWatermark := 1
              configured := true, paused := false }
    stats := ⟨0, 0⟩, rdmaHist := histogramInit, recvPosted := 4, windowStart := 0 }

theorem sample_begun : sustainedBegin sampleDev sampleParams sampleEnv = .ok sampleBegun := rfl

theorem flowOk_init : FlowOk sampleDev.flow := fun h => by cases h

/-- An iteration at time `t` whose posts succeed. -/
def sampleIteration (t : Ktime) (poll : CqPoll) : Iteration :=
  { now := t, postSend := none, sendTime := t, poll := poll, pollTime := t + 1000
    postRecv := none, cqB := [] }

theorem sustained_credits_two : ∃ s, s.outstanding = 2 ∧
    LoopCredits (sustainedFlow sampleDev.flow sampleParams.queueDepth.toNat) sampleParams s := by
  obtain ⟨st, hr, ho, hm⟩ : ∃ st,
      (sustainedSys sampleParams sampleEnv.start sampleBegun).Reachable st ∧
        st.s.outstanding = 2 ∧ st.phase = .main :=
    Transition.Sys.exists_of_exec
      [.iteration 0 (sampleIteration 1 .empty) 0, .iteration 10 (sampleIteration 11 .empty) 0,
       .iteration 20 (sampleIteration 21 .success) 0, .iteration 30 (sampleIteration 31 .empty) 0]
      (by decide +kernel)
  exact ⟨st.s, ho, sustained_credits flowOk_init sample_begun hr hm⟩

/-! ## Errors -/

/-- `outstanding` is what is due, and the drain ends where nothing is, with every credit back. -/
structure ErrorsSettled (flow : FlowCtl) (p : SustainedParams) (start : Ktime) (st : SustainedSt) :
    Prop where
  outstanding : st.s.outstanding = st.s.due
  ends : ∀ deadline ret, st.phase = .drain deadline ret → st.s.due = 0 →
    (∀ a st', sustainedStep p start st a = some st' → ∃ t r, st'.phase = .done t ret r) ∧
      st.s.flow.credits = flow.maxCredits

theorem Accounts.of_holds {flow : FlowCtl} (h : st.Holds (InLoop flow p) (Accounts flow)) :
    Accounts flow st.s := by
  unfold SustainedSt.Holds at h
  split at h
  · exact h.toAccounts
  · exact h

/-- With nothing outstanding a drain step ends the run. -/
theorem drain_ends {start deadline : Ktime} {ret : Option Errno} {a : SustainedAct}
    {st' : SustainedSt} (hphase : st.phase = .drain deadline ret) (ho : st.s.outstanding = 0)
    (hs : sustainedStep p start st a = some st') : ∃ t r, st'.phase = .done t ret r := by
  cases a with
  | iteration head e doneAt =>
    simp only [sustainedStep, hphase] at hs
    cases hs
  | drain head poll cqB endAt =>
    simp only [sustainedStep, hphase] at hs
    split at hs
    · rename_i hc; omega
    · cases hs; exact ⟨_, _, rfl⟩

/-- **Errors of completions**: the account is right in a state exactly if no completion polled in
the main loop so far had an error and, once the drain has polled them all, none at all had. -/
theorem errors_settled_iff (hf : FlowOk dev.flow) (hb : sustainedBegin dev p env = .ok s₀)
    (h : (sustainedSys p env.start s₀).Reachable st) :
    ErrorsSettled (sustainedFlow dev.flow p.queueDepth.toNat) p env.start st ↔
      st.s.log.mainErrors = 0 ∧
        ∀ deadline ret, st.phase = .drain deadline ret → st.s.due = 0 →
          st.s.log.drainErrors = 0 := by
  have ha := Accounts.of_holds (accounts_holds hf (sustainedBegin_ok hb) h)
  have hcr := ha.credits
  have ho := ha.outstanding
  constructor
  · intro hs
    have hm := hs.outstanding
    refine ⟨by omega, fun deadline ret hphase hd => ?_⟩
    have hc := (hs.ends deadline ret hphase hd).2
    omega
  · rintro ⟨hm, hdr⟩
    refine ⟨by omega, fun deadline ret hphase hd => ⟨fun a st' hs => ?_, ?_⟩⟩
    · exact drain_ends hphase (by omega) hs
    · have := hdr deadline ret hphase hd
      omega

/-- Of two sends one fails in the drain, and the other is due. -/
theorem errors_settled_one_due : ∃ st : SustainedSt,
    st.s.log.drainErrors = 1 ∧ st.s.due = 1 ∧
      ErrorsSettled (sustainedFlow sampleDev.flow sampleParams.queueDepth.toNat) sampleParams
        sampleEnv.start st := by
  obtain ⟨st, hr, he, hd, hm⟩ : ∃ st,
      (sustainedSys sampleParams sampleEnv.start sampleBegun).Reachable st ∧
        st.s.log.drainErrors = 1 ∧ st.s.due = 1 ∧ st.s.log.mainErrors = 0 :=
    Transition.Sys.exists_of_exec
      [.iteration 0 (sampleIteration 1 .empty) 0, .iteration 10 (sampleIteration 11 .empty) 0,
       .iteration 1000000001 (sampleIteration 0 .empty) 1000, .drain 2000 .error 1 0]
      (by decide +kernel)
  refine ⟨st, he, hd, (errors_settled_iff flowOk_init sample_begun hr).mpr ⟨hm, ?_⟩⟩
  intro deadline ret _ h0
  omega

/-- A send whose completion is an error of the main loop: none is due, and one outstanding. -/
theorem main_error_unsettled :
    ¬ ∀ dev p env s₀ st, FlowOk dev.flow → sustainedBegin dev p env = .ok s₀ →
      (sustainedSys p env.start s₀).Reachable st →
        ErrorsSettled (sustainedFlow dev.flow p.queueDepth.toNat) p env.start st := by
  intro h
  obtain ⟨st, hr, hd, ho⟩ : ∃ st, (sustainedSys sampleParams sampleEnv.start sampleBegun).Reachable st ∧
      st.s.due = 0 ∧ st.s.outstanding = 1 :=
    Transition.Sys.exists_of_exec [.iteration 0 (sampleIteration 1 .error) 1000]
      (by decide +kernel)
  have := (h _ _ _ _ st flowOk_init sample_begun hr).outstanding
  omega

end Runs

end Dmaplane
