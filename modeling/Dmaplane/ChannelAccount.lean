import Dmaplane.ChannelFifo
import Dmaplane.Lib.Threads

/-!
# Dmaplane.ChannelAccount

What `in_flight`, `total_submissions`, `total_completions` and `ring_high_watermark` count.

SUBMIT and the worker update the counters after they have dropped the ring lock, each in its own
order. `Tally` is the counting alone: the three counters, the moves of entries they are meant to
count, and how many parties are between a move and its count. Every step of the channel is one of
seven steps of the tally (`tally_step`), and the counters always balance (`Tally.Balanced`).

The history beside the channel holds the largest occupancy so far and the entries the worker has
dropped, which happens only when it is stopped in front of a full completion ring.
-/

namespace Dmaplane

open WrapRing Threads

/-! ## The counting machine -/

structure Tally where
  inFlight : BitVec 32
  totalSubmissions : BitVec 64
  totalCompletions : BitVec 64
  accepted : Nat
  /-- Pushed, `in_flight` not yet incremented. -/
  uncounted : Nat
  /-- `in_flight` incremented, `total_submissions` not yet. -/
  untotalled : Nat
  /-- Pushed to the completion ring. -/
  pushed : Nat
  /-- Pushed to the completion ring, `in_flight` not yet decremented. -/
  undecremented : Nat
  /-- Pushed to the completion ring, `total_completions` not yet incremented. -/
  unfinished : Nat

namespace Tally

/-- Each step is one move of an entry, or one update of one counter. -/
inductive Step : Tally → Tally → Prop where
  | same (x : Tally) : Step x x
  | accept (x : Tally) :
      Step x { x with accepted := x.accepted + 1, uncounted := x.uncounted + 1 }
  | countInFlight (x : Tally) (n : Nat) : x.uncounted = n + 1 →
      Step x { x with
        inFlight := x.inFlight + 1, uncounted := n, untotalled := x.untotalled + 1 }
  | countSubmission (x : Tally) (n : Nat) : x.untotalled = n + 1 →
      Step x { x with totalSubmissions := x.totalSubmissions + 1, untotalled := n }
  | push (x : Tally) : x.undecremented = 0 → x.unfinished = 0 →
      Step x { x with pushed := x.pushed + 1, undecremented := 1, unfinished := 1 }
  | decInFlight (x : Tally) : x.undecremented = 1 →
      Step x { x with inFlight := x.inFlight - 1, undecremented := 0 }
  | countCompletion (x : Tally) : x.unfinished = 1 → x.undecremented = 0 →
      Step x { x with totalCompletions := x.totalCompletions + 1, unfinished := 0 }

/-- The integer of which `in_flight` holds the low 32 bits. -/
def inFlightVal (x : Tally) : Int := x.accepted - x.uncounted - (x.pushed - x.undecremented)

/-- The integers of which the two totals hold the low 64 bits. -/
def submissionsVal (x : Tally) : Int := x.accepted - x.uncounted - x.untotalled

def completionsVal (x : Tally) : Int := x.pushed - x.unfinished

structure Balanced (x : Tally) : Prop where
  inFlight : x.inFlight = BitVec.ofInt 32 x.inFlightVal
  submissions : x.totalSubmissions = BitVec.ofInt 64 x.submissionsVal
  completions : x.totalCompletions = BitVec.ofInt 64 x.completionsVal
  undecremented_le : x.undecremented ≤ x.unfinished
  unfinished_le : x.unfinished ≤ x.pushed

theorem ofInt_succ (w : Nat) (n : Int) : BitVec.ofInt w (n + 1) = BitVec.ofInt w n + 1 := by
  rw [BitVec.ofInt_add]; simp

theorem ofInt_pred (w : Nat) (n : Int) : BitVec.ofInt w (n - 1) = BitVec.ofInt w n - 1 := by
  have h := ofInt_succ w (n - 1)
  rw [show n - 1 + 1 = n by omega] at h
  simp [h]

theorem Balanced.step {x y : Tally} (hb : x.Balanced) (h : Step x y) : y.Balanced := by
  obtain ⟨hf, hs, hc, hu, hl⟩ := hb
  cases h with
  | same => exact ⟨hf, hs, hc, hu, hl⟩
  | accept =>
    refine ⟨?_, ?_, hc, hu, hl⟩
    · simpa [inFlightVal] using hf
    · simpa [submissionsVal] using hs
  | countInFlight n hn =>
    refine ⟨?_, ?_, hc, hu, hl⟩
    · have hv : x.accepted - n - (x.pushed - x.undecremented) = x.inFlightVal + 1 := by
        simp only [inFlightVal]; omega
      rw [hf, ← ofInt_succ, ← hv]; rfl
    · have hv : x.accepted - n - ((x.untotalled + 1 : Nat) : Int) = x.submissionsVal := by
        simp only [submissionsVal]; omega
      rw [hs, ← hv]; rfl
  | countSubmission n hn =>
    refine ⟨hf, ?_, hc, hu, hl⟩
    have hv : x.accepted - x.uncounted - n = x.submissionsVal + 1 := by
      simp only [submissionsVal]; omega
    rw [hs, ← ofInt_succ, ← hv]; rfl
  | push h0 h1 =>
    refine ⟨?_, hs, ?_, le_refl _, by simp⟩
    · simpa [inFlightVal, h0] using hf
    · simpa [completionsVal, h1] using hc
  | decInFlight h1 =>
    refine ⟨?_, hs, hc, Nat.zero_le _, hl⟩
    have hv : x.accepted - x.uncounted - (x.pushed - (0 : Nat)) = x.inFlightVal - 1 := by
      simp only [inFlightVal]; omega
    rw [hf, ← ofInt_pred, ← hv]; rfl
  | countCompletion h1 h0 =>
    refine ⟨hf, hs, ?_, by simp [h0], Nat.zero_le _⟩
    have hv : x.pushed - (0 : Nat) = x.completionsVal + 1 := by
      simp only [completionsVal]; omega
    rw [hc, ← ofInt_succ, ← hv]; rfl

end Tally

/-! ## The channel keeps the tally -/

variable {Tid : Type}

/-- 1 between the push to the completion ring and the decrement of `in_flight`. -/
def WorkerPc.undecremented : WorkerPc → Nat
  | .decInFlight => 1
  | _ => 0

/-- 1 between the push to the completion ring and the increment of `total_completions`. -/
def WorkerPc.unfinished : WorkerPc → Nat
  | .decInFlight | .incCompletions => 1
  | _ => 0

/-- The SUBMIT calls that have pushed and not yet incremented `in_flight`. -/
noncomputable def ChannelSt.uncounted (s : ChannelSt Tid) : Nat := numAt s.user .submitPushed

/-- The entries pushed to the completion ring so far. -/
def ChannelSt.pushed (s : ChannelSt Tid) : Nat :=
  s.taken.length + s.chan.compRing.contents.length

/-- The entries the worker has completed, the update of both counters included. -/
def ChannelSt.completed (s : ChannelSt Tid) : Nat := s.pushed - s.worker.unfinished

noncomputable def ChannelSt.tally (s : ChannelSt Tid) : Tally where
  inFlight := s.chan.inFlight
  totalSubmissions := s.chan.stats.totalSubmissions
  totalCompletions := s.chan.stats.totalCompletions
  accepted := s.accepted.length
  uncounted := s.uncounted
  untotalled := numAt s.user .submitCounted
  pushed := s.pushed
  undecremented := s.worker.undecremented
  unfinished := s.worker.unfinished

/-- Every call pushes in finite time, so finitely many are between a push and its counts. -/
structure FewBusy (s : ChannelSt Tid) : Prop where
  pushed : (threadsAt s.user .submitPushed).Finite
  counted : (threadsAt s.user .submitCounted).Finite

theorem worker_tally {s : ChannelSt Tid} (hi : FifoInv s) {pc : WorkerPc} {chan : DmaplaneChannel}
    (h : workerFn s.stop s.chan s.worker = some (pc, chan)) :
    Tally.Step s.tally { s with worker := pc, chan := chan }.tally := by
  have hsame {pc' : WorkerPc} {chan' : DmaplaneChannel} (h1 : chan'.inFlight = s.chan.inFlight)
      (h2 : chan'.stats = s.chan.stats) (h3 : chan'.compRing = s.chan.compRing)
      (h4 : pc'.undecremented = s.worker.undecremented)
      (h5 : pc'.unfinished = s.worker.unfinished) :
      Tally.Step s.tally { s with worker := pc', chan := chan' }.tally := by
    have : ({ s with worker := pc', chan := chan' } : ChannelSt Tid).tally = s.tally := by
      simp only [ChannelSt.tally, ChannelSt.uncounted, ChannelSt.pushed, h1, h2, h3, h4, h5]
    rw [this]; exact .same _
  cases hw : s.worker with
  | outerCheck | stopCheck | drainCheck | process | retry =>
    simp only [workerFn, hw] at h; cases h
    refine hsame rfl rfl rfl ?_ ?_
    · first | (split <;> simp [hw, WorkerPc.undecremented]) | simp [hw, WorkerPc.undecremented]
    · first | (split <;> simp [hw, WorkerPc.unfinished]) | simp [hw, WorkerPc.unfinished]
  | waitEvent =>
    simp only [workerFn, hw] at h
    split at h <;> cases h
    exact hsame rfl rfl rfl (by simp [hw, WorkerPc.undecremented])
      (by simp [hw, WorkerPc.unfinished])
  | pop =>
    simp only [workerFn, hw] at h
    split at h <;> cases h <;>
      exact hsame rfl rfl rfl (by simp [hw, WorkerPc.undecremented])
        (by simp [hw, WorkerPc.unfinished])
  | push entry =>
    simp only [workerFn, hw] at h
    split at h <;> cases h
    · exact hsame rfl rfl rfl (by simp [hw, WorkerPc.undecremented])
        (by simp [hw, WorkerPc.unfinished])
    · rename_i hf
      have hp := contents_push hi.comp_le hf entry
      have := Tally.Step.push s.tally (by simp [ChannelSt.tally, hw, WorkerPc.undecremented])
        (by simp [ChannelSt.tally, hw, WorkerPc.unfinished])
      simpa [ChannelSt.tally, ChannelSt.uncounted, ChannelSt.pushed, hp, WorkerPc.undecremented,
        WorkerPc.unfinished, Nat.add_assoc] using this
  | decInFlight =>
    simp only [workerFn, hw] at h; cases h
    have := Tally.Step.decInFlight s.tally (by simp [ChannelSt.tally, hw, WorkerPc.undecremented])
    simpa [ChannelSt.tally, ChannelSt.uncounted, ChannelSt.pushed, hw, WorkerPc.undecremented,
      WorkerPc.unfinished] using this
  | incCompletions =>
    simp only [workerFn, hw] at h; cases h
    have := Tally.Step.countCompletion s.tally (by simp [ChannelSt.tally, hw, WorkerPc.unfinished])
      (by simp [ChannelSt.tally, hw, WorkerPc.undecremented])
    simpa [ChannelSt.tally, ChannelSt.uncounted, ChannelSt.pushed, hw, WorkerPc.undecremented,
      WorkerPc.unfinished] using this
  | done => simp [workerFn, hw] at h

variable [DecidableEq Tid]

theorem fewBusy_step {s s' : ChannelSt Tid} {a : ChannelAct Tid} (hb : FewBusy s)
    (h : channelStep s a = some s') : FewBusy s' := by
  have hgoto (t : Tid) (pc : UserPc) :
      (threadsAt (Function.update s.user t pc) .submitPushed).Finite ∧
        (threadsAt (Function.update s.user t pc) .submitCounted).Finite :=
    ⟨finite_move hb.pushed, finite_move hb.counted⟩
  cases a with
  | submitLocked t | completeLocked t =>
    simp only [channelStep] at h
    split at h
    · split at h <;> cases h <;> exact ⟨(hgoto t _).1, (hgoto t _).2⟩
    · cases h
  | submitCall t | submitInFlight t | submitTotal t | completeCall t | completeCopy t =>
    simp only [channelStep] at h
    split at h <;> cases h
    exact ⟨(hgoto t _).1, (hgoto t _).2⟩
  | worker =>
    simp only [channelStep] at h
    split at h <;> cases h
    exact ⟨hb.pushed, hb.counted⟩
  | kthreadStop => cases h; exact ⟨hb.pushed, hb.counted⟩

/-- A step that moves one thread between two points at which nothing is half done. -/
theorem tally_goto {s s' : ChannelSt Tid} {t : Tid} {pc : UserPc}
    (hp : s.user t ≠ .submitPushed) (hc : s.user t ≠ .submitCounted)
    (hp' : pc ≠ .submitPushed) (hc' : pc ≠ .submitCounted)
    (hu : s'.user = Function.update s.user t pc) (hw : s'.worker = s.worker)
    (h1 : s'.chan.inFlight = s.chan.inFlight) (h2 : s'.chan.stats = s.chan.stats)
    (h3 : s'.accepted = s.accepted) (h4 : s'.pushed = s.pushed) :
    Tally.Step s.tally s'.tally := by
  have : s'.tally = s.tally := by
    simp only [ChannelSt.tally, ChannelSt.uncounted, h1, h2, h3, h4, hw, hu, numAt_pass hp hp',
      numAt_pass hc hc']
  rw [this]; exact .same _

/-- The channel's steps are steps of the tally. -/
theorem tally_step {s s' : ChannelSt Tid} {a : ChannelAct Tid} (hi : FifoInv s) (hb : FewBusy s)
    (h : channelStep s a = some s') : Tally.Step s.tally s'.tally := by
  cases a with
  | submitCall t entry =>
    simp only [channelStep] at h
    split at h <;> cases h
    rename_i hpc
    exact tally_goto (by simp [hpc]) (by simp [hpc]) (by simp) (by simp) rfl rfl rfl rfl rfl rfl
  | submitLocked t =>
    simp only [channelStep] at h
    split at h
    · rename_i entry hpc
      split at h
      · rename_i chan hc; cases h
        simp only [ioctlSubmitLocked] at hc
        split at hc <;> cases hc
        have hn := numAt_enter hb.pushed (t := t) (by simp [hpc])
        have hm : numAt (Function.update s.user t .submitPushed) .submitCounted =
            numAt s.user .submitCounted := numAt_pass (by simp [hpc]) (by simp)
        have := Tally.Step.accept s.tally
        simpa [ChannelSt.tally, ChannelSt.uncounted, ChannelSt.pushed, ChannelSt.goto, hn, hm]
          using this
      · cases h
        exact tally_goto (by simp [hpc]) (by simp [hpc]) (by simp) (by simp) rfl rfl rfl rfl rfl rfl
    · cases h
  | submitInFlight t =>
    simp only [channelStep] at h
    split at h <;> cases h
    rename_i hpc
    have hn := numAt_leave hb.pushed hpc (q := .submitCounted) (by simp)
    have hm := numAt_enter hb.counted (t := t) (by simp [hpc])
    have := Tally.Step.countInFlight s.tally _ hn.symm
    simpa [ChannelSt.tally, ChannelSt.uncounted, ChannelSt.pushed, ChannelSt.goto, hm,
      submitInFlight] using this
  | submitTotal t =>
    simp only [channelStep] at h
    split at h <;> cases h
    rename_i hpc
    have hn := numAt_leave hb.counted hpc (q := .idle) (by simp)
    have hm : numAt (Function.update s.user t .idle) .submitPushed =
        numAt s.user .submitPushed := numAt_pass (by simp [hpc]) (by simp)
    have := Tally.Step.countSubmission s.tally _ hn.symm
    simpa [ChannelSt.tally, ChannelSt.uncounted, ChannelSt.pushed, ChannelSt.goto, hm,
      submitTotal] using this
  | completeCall t =>
    simp only [channelStep] at h
    split at h <;> cases h
    rename_i hpc
    exact tally_goto (by simp [hpc]) (by simp [hpc]) (by simp) (by simp) rfl rfl rfl rfl rfl rfl
  | completeLocked t =>
    simp only [channelStep] at h
    split at h
    · rename_i hpc
      split at h
      · rename_i entry chan hc; cases h
        simp only [ioctlCompleteLocked] at hc
        split at hc <;> cases hc
        rename_i he
        have hlen := congrArg List.length (contents_pop he)
        refine tally_goto (by simp [hpc]) (by simp [hpc]) (by simp) (by simp) rfl rfl rfl rfl rfl ?_
        simp only [ChannelSt.pushed, List.length_append, List.length_cons, List.length_nil] at hlen ⊢
        omega
      · cases h
        exact tally_goto (by simp [hpc]) (by simp [hpc]) (by simp) (by simp) rfl rfl rfl rfl rfl rfl
    · cases h
  | completeCopy t copyOk =>
    simp only [channelStep] at h
    split at h <;> cases h
    rename_i hpc
    exact tally_goto (by simp [hpc]) (by simp [hpc]) (by simp) (by simp) rfl rfl rfl rfl rfl rfl
  | worker =>
    simp only [channelStep] at h
    split at h <;> cases h
    rename_i hw
    exact worker_tally hi hw
  | kthreadStop => cases h; exact .same _

theorem balanced {s : ChannelSt Tid} (h : (channelSys Tid).Reachable s) :
    FewBusy s ∧ s.tally.Balanced := by
  refine Transition.Sys.ReachableWith.invariant₂ (I := FifoInv)
    (J := fun s => FewBusy s ∧ s.tally.Balanced) (fun _ hr => fifoInv hr.reachable) ?_ ?_ h
  · refine ⟨⟨?_, ?_⟩, ?_, ?_, ?_, ?_, ?_⟩
    all_goals simp [channelSys, threadsAt, ChannelSt.tally, ChannelSt.uncounted, ChannelSt.pushed,
      Tally.inFlightVal, Tally.submissionsVal, Tally.completionsVal, channelInit,
      contents_ringInit, WorkerPc.undecremented, WorkerPc.unfinished]
  · rintro s a s' hi ⟨hb, ht⟩ - hs
    exact ⟨fewBusy_step hb hs, ht.step (tally_step hi hb hs)⟩

/-! ## Occupancy and dropped entries -/

structure Account where
  maxOccupancy : Nat
  lost : Nat
  deriving DecidableEq, Repr

/-- The largest occupancy of the submission ring, and what a worker that returns has in hand. -/
def account (s : ChannelSt Tid) (_ : ChannelAct Tid) (s' : ChannelSt Tid) (r : Account) :
    Account :=
  { maxOccupancy := max r.maxOccupancy (ringCount s'.chan.subRing).toNat
    lost := r.lost + if s'.worker = .done then s.worker.inHand.length else 0 }

/-- The channel with its history. -/
def accountSys (Tid : Type) [DecidableEq Tid] :
    Transition.Sys (ChannelSt Tid × Account) (ChannelAct Tid) :=
  (channelSys Tid).withHistory ⟨0, 0⟩ account

omit [DecidableEq Tid] in
theorem worker_watermark {s : ChannelSt Tid} {pc : WorkerPc} {chan : DmaplaneChannel}
    (h : workerFn s.stop s.chan s.worker = some (pc, chan)) :
    chan.stats.ringHighWatermark = s.chan.stats.ringHighWatermark := by
  cases hw : s.worker with
  | outerCheck | stopCheck | drainCheck | process | retry | decInFlight | incCompletions =>
    simp only [workerFn, hw] at h; cases h; rfl
  | waitEvent | pop | push =>
    simp only [workerFn, hw] at h
    split at h <;> cases h <;> rfl
  | done => simp [workerFn, hw] at h

omit [DecidableEq Tid] in
/-- Only an accepted entry makes the submission ring longer. -/
theorem Flow.occupancy_le {s s' : ChannelSt Tid} (h : Flow s s')
    (ha : s'.accepted = s.accepted) :
    (ringCount s'.chan.subRing).toNat ≤ (ringCount s.chan.subRing).toNat := by
  simp only [ringCount_toNat]
  cases h with
  | same h1 | workerPush _ _ _ h1 | complete _ _ h1 => rw [h1]
  | submit entry _ _ _ _ h4 => simp [h4] at ha
  | workerPop _ he h1 =>
    have hlen := congrArg List.length (contents_pop he)
    rw [List.length_cons] at hlen
    rw [h1]; omega

/-- The watermark is raised to the new occupancy by the push, and by nothing else. -/
theorem watermark_step {s s' : ChannelSt Tid} {a : ChannelAct Tid} (h : channelStep s a = some s') :
    s'.chan.stats.ringHighWatermark.toNat =
      max s.chan.stats.ringHighWatermark.toNat (ringCount s'.chan.subRing).toNat ∨
    s'.chan.stats.ringHighWatermark = s.chan.stats.ringHighWatermark ∧
      (ringCount s'.chan.subRing).toNat ≤ (ringCount s.chan.subRing).toNat := by
  cases a with
  | submitLocked t =>
    simp only [channelStep] at h
    split at h
    · split at h
      · rename_i chan hc; cases h
        simp only [ioctlSubmitLocked] at hc
        split at hc <;> cases hc
        left
        simp only [BitVec.lt_def]
        split <;> omega
      · cases h; exact .inr ⟨rfl, le_refl _⟩
    · cases h
  | submitCall t | submitInFlight t | submitTotal t | completeCall t | completeCopy t =>
    simp only [channelStep] at h
    split at h <;> cases h
    exact .inr ⟨rfl, le_refl _⟩
  | completeLocked t =>
    simp only [channelStep] at h
    split at h
    · split at h
      · rename_i entry chan hc; cases h
        simp only [ioctlCompleteLocked] at hc
        split at hc <;> cases hc
        exact .inr ⟨rfl, le_refl _⟩
      · cases h; exact .inr ⟨rfl, le_refl _⟩
    · cases h
  | worker =>
    have hle := (channelStep_flow h).occupancy_le
    simp only [channelStep] at h
    split at h <;> cases h
    rename_i hw
    exact .inr ⟨worker_watermark hw, hle rfl⟩
  | kthreadStop => cases h; exact .inr ⟨rfl, le_refl _⟩

theorem worker_done {s s' : ChannelSt Tid} {a : ChannelAct Tid} (hd : s.worker = .done)
    (h : channelStep s a = some s') : s'.worker = .done := by
  by_cases ha : a = .worker
  · subst ha
    have hw := (worker_step h).1
    rw [hd, workerFn] at hw
    cases hw
  · rw [worker_other ha h]
    exact hd

omit [DecidableEq Tid] in
/-- Every accepted entry is pushed to the completion ring, in hand, in the submission ring or
dropped by a worker that returns. -/
theorem Flow.entries {s s' : ChannelSt Tid} (hi : FifoInv s) (h : Flow s s') :
    s'.accepted.length + s.pushed + s.worker.inHand.length + s.chan.subRing.contents.length =
      s.accepted.length + s'.pushed + s'.worker.inHand.length + s'.chan.subRing.contents.length
        + if s'.worker = .done then s.worker.inHand.length else 0 := by
  have hdone : s'.worker = .done → s'.worker.inHand.length = 0 := fun h => by rw [h]; rfl
  simp only [ChannelSt.pushed]
  cases h with
  | same h1 h2 h3 h4 h5 =>
    rw [h1, h2, h4, h5]
    rcases h3 with h3 | ⟨h3, _⟩
    · rw [h3] at hdone ⊢
      split
      · rename_i hd; have := hdone hd; omega
      · rfl
    · have := hdone h3
      rw [if_pos h3]; omega
  | submit entry hf h1 h2 h3 h4 h5 =>
    rw [h3] at hdone ⊢
    rw [h1, h2, h4, h5, contents_push hi.sub_le hf]
    simp only [List.length_append, List.length_singleton]
    split
    · rename_i hd; have := hdone hd; omega
    · omega
  | workerPop hw he h1 h2 h3 h4 h5 =>
    rw [h1, h2, h3, h4, h5, hw, contents_pop he]
    simp only [WorkerPc.inHand, List.length_cons, List.length_nil, reduceCtorEq, if_false]
    omega
  | workerPush entry hw hf h1 h2 h3 h4 h5 =>
    rw [h1, h2, h3, h4, h5, hw, contents_push hi.comp_le hf]
    simp only [WorkerPc.inHand, List.length_append, List.length_cons, List.length_nil,
      reduceCtorEq, if_false]
    omega
  | complete t he h1 h2 h3 h4 h5 =>
    rw [h3] at hdone ⊢
    rw [h1, h2, h4, h5, contents_pop he]
    simp only [List.length_append, List.length_cons, List.length_nil]
    split
    · rename_i hd; have := hdone hd; omega
    · omega

omit [DecidableEq Tid] in
theorem Flow.dropped {s s' : ChannelSt Tid} (h : Flow s s') (hd : s'.worker = .done)
    (hl : 0 < s.worker.inHand.length) : s.stop = true := by
  have hnil : s'.worker.inHand.length = 0 := by rw [hd]; rfl
  cases h with
  | same h1 h2 h3 h4 h5 =>
    rcases h3 with h3 | ⟨_, h3⟩
    · rw [← h3] at hl; omega
    · exact h3
  | submit _ _ _ _ h3 => rw [← h3] at hl; omega
  | workerPop _ _ _ _ h3 => rw [hd] at h3; cases h3
  | workerPush _ _ _ _ _ h3 => rw [hd] at h3; cases h3
  | complete _ _ _ _ h3 => rw [← h3] at hl; omega

structure AccountInv (s : ChannelSt Tid) (r : Account) : Prop where
  watermark : s.chan.stats.ringHighWatermark.toNat = r.maxOccupancy
  occupancy_le : (ringCount s.chan.subRing).toNat ≤ r.maxOccupancy
  entries : s.accepted.length =
    s.pushed + s.worker.inHand.length + s.chan.subRing.contents.length + r.lost
  lost_le : r.lost ≤ 1
  lost_done : 0 < r.lost → s.worker = .done
  lost_stop : s.stop = false → r.lost = 0

theorem length_inHand_le (pc : WorkerPc) : pc.inHand.length ≤ 1 := by
  cases pc <;> simp [WorkerPc.inHand]

theorem accountInv_step {s s' : ChannelSt Tid} {a : ChannelAct Tid} {r : Account}
    (hf : FifoInv s) (hi : AccountInv s r) (h : channelStep s a = some s') :
    AccountInv s' (account s a s' r) := by
  obtain ⟨hwm, hocc, hent, hle, hdone, hstop⟩ := hi
  have hmono := stop_mono h
  have hwd := worker_done (h := h)
  have hhand := length_inHand_le s.worker
  have hw' : s'.chan.stats.ringHighWatermark.toNat = (account s a s' r).maxOccupancy := by
    rcases watermark_step h with hw | ⟨hw, hc⟩
    · rw [hw, hwm]; rfl
    · rw [hw, hwm]; simp only [account]; omega
  have hlost : (account s a s' r).lost =
      r.lost + if s'.worker = .done then s.worker.inHand.length else 0 := rfl
  have hent' := (channelStep_flow h).entries hf
  have hdrop := (channelStep_flow h).dropped
  refine ⟨hw', Nat.le_max_right _ _, by omega, ?_, ?_, ?_⟩
  · rw [hlost]
    by_cases h0 : 0 < r.lost
    · have : s.worker.inHand.length = 0 := by rw [hdone h0]; rfl
      split <;> omega
    · split <;> omega
  · intro h0
    rw [hlost] at h0
    split at h0
    · assumption
    · exact hwd (hdone (by omega))
  · intro hs
    have h0 := hstop (hmono hs)
    rw [hlost, h0]
    split
    · rename_i hd
      by_contra hne
      rw [hmono hs] at hdrop
      exact absurd (hdrop hd (by omega)) (by simp)
    · rfl

theorem accountInv {s : ChannelSt Tid} {r : Account} (h : (accountSys Tid).Reachable (s, r)) :
    AccountInv s r := by
  refine Transition.Sys.ReachableWith.invariant₂ (S := accountSys Tid) (I := fun x => FifoInv x.1)
    (J := fun x => AccountInv x.1 x.2) (fun _ hr => fifoInv hr.reachable.of_withHistory) ?_ ?_ h
  · constructor <;>
      simp [accountSys, Transition.Sys.withHistory, channelSys, channelInit, ringCount_toNat,
        contents_ringInit, ChannelSt.pushed, WorkerPc.inHand]
  · intro x a x' hf hi _ hs
    obtain ⟨hs, hr⟩ := Transition.Sys.withHistory_step hs
    rw [hr]; exact accountInv_step hf hi hs

/-! ## The counters -/

/-- No SUBMIT is between its push and its counts, nor the worker between its push and its. -/
def Quiet (s : ChannelSt Tid) : Prop :=
  (∀ t, s.user t ≠ .submitPushed ∧ s.user t ≠ .submitCounted) ∧ s.worker.unfinished = 0

/-- **In-flight accounting.** In every reachable state `in_flight` counts the accepted entries
less those pushed by a SUBMIT that has not counted them yet and less those the worker has
completed or is about to count as completed: it is at least minus the number of the former, and
at most the accepted less the completed entries. Where nothing is half done it is
`total_submissions - total_completions`, and the occupancy of the submission ring, the entry in
the worker's hand, and one dropped by a stopped worker. The watermark is the largest occupancy so
far. -/
theorem in_flight_accounted {s : ChannelSt Tid} {r : Account}
    (h : (accountSys Tid).Reachable (s, r)) :
    (∃ n : Int, s.chan.inFlight = BitVec.ofInt 32 n ∧ -(s.uncounted : Int) ≤ n ∧
      n ≤ s.accepted.length - s.completed ∧
      (s.uncounted ≤ 2 ^ 31 → s.chan.inFlight.toInt = n)) ∧
    (Quiet s →
      s.chan.inFlight.toInt =
        (s.chan.stats.totalSubmissions - s.chan.stats.totalCompletions).toNat ∧
      s.chan.inFlight.toInt = (ringCount s.chan.subRing).toNat + s.worker.inHand.length + r.lost) ∧
    s.chan.stats.ringHighWatermark.toNat = r.maxOccupancy ∧
    (s.stop = false → r.lost = 0) := by
  have hr := h.of_withHistory
  have hf := fifoInv hr
  have ha := accountInv h
  have hb := (balanced hr).2
  have hhand := length_inHand_le s.worker
  have hent := ha.entries
  have hsub : s.chan.subRing.contents.length ≤ 1024 := hf.sub_le
  have hle := ha.lost_le
  have hu : s.worker.undecremented ≤ s.worker.unfinished := hb.undecremented_le
  have hw : s.worker.unfinished ≤ s.pushed := hb.unfinished_le
  have hund : s.worker.undecremented ≤ 1 := by cases s.worker <;> simp [WorkerPc.undecremented]
  have hval : s.tally.inFlightVal =
      s.accepted.length - s.uncounted - (s.pushed - s.worker.undecremented) := rfl
  have htoInt (hn : s.uncounted ≤ 2 ^ 31) : s.chan.inFlight.toInt = s.tally.inFlightVal := by
    have : s.chan.inFlight = BitVec.ofInt 32 s.tally.inFlightVal := hb.inFlight
    rw [this, BitVec.toInt_ofInt_eq_self (by decide)] <;> omega
  refine ⟨⟨s.tally.inFlightVal, hb.inFlight, ?_, ?_, htoInt⟩, ?_, ha.watermark, ha.lost_stop⟩
  · omega
  · have : (s.completed : Int) = s.pushed - s.worker.unfinished := by
      simp only [ChannelSt.completed]; omega
    omega
  · rintro ⟨hq, hq'⟩
    have h0 : s.uncounted = 0 := numAt_eq_zero fun t => (hq t).1
    have h1 : numAt s.user .submitCounted = 0 := numAt_eq_zero fun t => (hq t).2
    have hv : s.tally.inFlightVal = ((s.accepted.length - s.pushed : Nat) : Int) := by
      rw [hval]; omega
    have hd : s.chan.stats.totalSubmissions - s.chan.stats.totalCompletions =
        BitVec.ofNat 64 (s.accepted.length - s.pushed) := by
      have hs : s.chan.stats.totalSubmissions = BitVec.ofInt 64 s.tally.submissionsVal :=
        hb.submissions
      have hc : s.chan.stats.totalCompletions = BitVec.ofInt 64 s.tally.completionsVal :=
        hb.completions
      have hv : s.tally.submissionsVal =
          s.tally.completionsVal + ((s.accepted.length - s.pushed : Nat) : Int) := by
        simp only [Tally.submissionsVal, Tally.completionsVal, ChannelSt.tally, h0, h1, hq']
        omega
      rw [hs, hc, hv, BitVec.ofInt_add, BitVec.ofInt_natCast, BitVec.add_comm,
        BitVec.add_sub_cancel]
    rw [htoInt (by omega), hv, hd, BitVec.toNat_ofNat, Nat.mod_eq_of_lt (by omega),
      ringCount_toNat]
    exact ⟨rfl, by omega⟩

/-- The worker completes an entry before the SUBMIT that pushed it has counted it. -/
def overtakenSubmit : List (ChannelAct (Fin 2)) :=
  [.submitCall 0 ⟨7, 1, 0⟩, .submitLocked 0] ++ List.replicate 8 .worker

theorem in_flight_accounted_overtaken :
    ∃ (s : ChannelSt (Fin 2)) (r : Account), (accountSys (Fin 2)).Reachable (s, r) ∧
      s.accepted.length = 1 ∧ s.user 0 = .submitPushed ∧ s.stop = false ∧
      s.chan.stats.ringHighWatermark.toNat = r.maxOccupancy ∧ r.lost = 0 := by
  obtain ⟨⟨s, r⟩, hr, hacc, hu, hstop⟩ : ∃ x : ChannelSt (Fin 2) × Account,
      (accountSys (Fin 2)).Reachable x ∧ x.1.accepted.length = 1 ∧
        x.1.user 0 = .submitPushed ∧ x.1.stop = false :=
    Transition.Sys.exists_of_exec overtakenSubmit (by decide +kernel)
  obtain ⟨_, _, hwm, hl⟩ := in_flight_accounted hr
  exact ⟨s, r, hr, hacc, hu, hstop, hwm, hl hstop⟩

/-- The worker's decrement may come before the increment of the SUBMIT it belongs to. -/
theorem in_flight_negative :
    ¬ ∀ s : ChannelSt (Fin 2), (channelSys (Fin 2)).Reachable s → 0 ≤ s.chan.inFlight.toInt := by
  intro h
  obtain ⟨s, hr, hneg⟩ : ∃ s : ChannelSt (Fin 2),
      (channelSys (Fin 2)).Reachable s ∧ s.chan.inFlight.toInt = -1 :=
    Transition.Sys.exists_of_exec overtakenSubmit (by decide +kernel)
  have := h s hr
  omega

end Dmaplane
