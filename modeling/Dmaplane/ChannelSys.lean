import Dmaplane.Lib.System
import Dmaplane.Channel

/-!
# Dmaplane.ChannelSys

One channel with its worker and any number of user threads calling SUBMIT and COMPLETE on it, as
a transition system: a label names the thread that takes its next step.

The state carries a history beside the channel: the entries accepted by SUBMIT and taken by
COMPLETE, each in the order in which the calls held the ring lock, and per thread the entries its
COMPLETE calls have returned so far.
-/

namespace Dmaplane

open WrapRing

/-- Where a user thread is inside SUBMIT or COMPLETE. -/
inductive UserPc where
  | idle
  | submit (entry : RingEntry)
  -- pushed; `in_flight`, then `total_submissions`, still to be incremented
  | submitPushed
  | submitCounted
  | complete
  | copyToUser (entry : RingEntry)
  deriving DecidableEq, Repr

inductive ChannelAct (Tid : Type) where
  | submitCall (t : Tid) (entry : RingEntry)
  | submitLocked (t : Tid)
  | submitInFlight (t : Tid)
  | submitTotal (t : Tid)
  | completeCall (t : Tid)
  | completeLocked (t : Tid)
  | completeCopy (t : Tid) (copyOk : Bool)
  | worker
  | kthreadStop
  deriving DecidableEq, Repr

structure ChannelSt (Tid : Type) where
  chan : DmaplaneChannel
  worker : WorkerPc
  stop : Bool
  user : Tid → UserPc
  accepted : List RingEntry
  taken : List (Tid × RingEntry)
  returned : Tid → List RingEntry

variable {Tid : Type} [DecidableEq Tid]

def ChannelSt.goto (s : ChannelSt Tid) (t : Tid) (pc : UserPc) : ChannelSt Tid :=
  { s with user := Function.update s.user t pc }

def channelStep (s : ChannelSt Tid) : ChannelAct Tid → Option (ChannelSt Tid)
  | .submitCall t entry => if s.user t = .idle then some (s.goto t (.submit entry)) else none
  | .submitLocked t =>
    match s.user t with
    | .submit entry =>
      match ioctlSubmitLocked s.chan entry with
      | .ok chan =>
        some { s.goto t .submitPushed with chan := chan, accepted := s.accepted ++ [entry] }
      | .error _ => some (s.goto t .idle)
    | _ => none
  | .submitInFlight t =>
    if s.user t = .submitPushed then
      some { s.goto t .submitCounted with chan := submitInFlight s.chan }
    else none
  | .submitTotal t =>
    if s.user t = .submitCounted then
      some { s.goto t .idle with chan := submitTotal s.chan }
    else none
  | .completeCall t => if s.user t = .idle then some (s.goto t .complete) else none
  | .completeLocked t =>
    if s.user t = .complete then
      match ioctlCompleteLocked s.chan with
      | .ok (entry, chan) =>
        some { s.goto t (.copyToUser entry) with chan := chan, taken := s.taken ++ [(t, entry)] }
      | .error _ => some (s.goto t .idle)
    else none
  | .completeCopy t copyOk =>
    match s.user t with
    | .copyToUser entry =>
      some { s.goto t .idle with
        returned := if copyOk then Function.update s.returned t (s.returned t ++ [entry])
                    else s.returned }
    | _ => none
  | .worker =>
    match workerFn s.stop s.chan s.worker with
    | some (pc, chan) => some { s with worker := pc, chan := chan }
    | none => none
  | .kthreadStop => some { s with stop := true }

/-- A channel as CREATE_CHANNEL leaves it: both rings empty, the worker about to run. -/
def channelSys (Tid : Type) [DecidableEq Tid] : Transition.Sys (ChannelSt Tid) (ChannelAct Tid) where
  init :=
    { chan := { channelInit 0 with refcount := 2, worker := true, active := true }
      worker := .outerCheck, stop := false, user := fun _ => .idle
      accepted := [], taken := [], returned := fun _ => [] }
  step := channelStep

/-- Runs in which no `copy_to_user` fails. -/
def CopiesSucceed (_ : ChannelSt Tid) (a : ChannelAct Tid) : Prop :=
  ∀ t, a ≠ .completeCopy t false

instance (s : ChannelSt Tid) (a : ChannelAct Tid) : Decidable (CopiesSucceed s a) :=
  match a with
  | .completeCopy t false => isFalse fun h => h t rfl
  | .completeCopy _ true => isTrue (by intro t h; cases h)
  | .submitCall _ _ | .submitLocked _ | .submitInFlight _ | .submitTotal _ | .completeCall _
  | .completeLocked _ | .worker | .kthreadStop => isTrue (by intro t h; cases h)

/-- The entry the worker has popped and not yet pushed, as it will be pushed. -/
def WorkerPc.inHand : WorkerPc → List RingEntry
  | .process entry => [processEntry entry]
  | .push entry => [entry]
  | .retry entry => [entry]
  | _ => []

/-- The entry a COMPLETE call has taken and not yet returned. -/
def UserPc.inCopy : UserPc → List RingEntry
  | .copyToUser entry => [entry]
  | _ => []

/-- The entries taken by the calls of thread `t`, in order. -/
def ChannelSt.takenBy (s : ChannelSt Tid) (t : Tid) : List RingEntry :=
  (s.taken.filter (·.1 = t)).map (·.2)

/-! ## The worker's part -/

-- Its equations are made here, once for the proofs below.
attribute [local simp] channelStep

theorem worker_step {s s' : ChannelSt Tid} (h : channelStep s .worker = some s') :
    workerFn s.stop s.chan s.worker = some (s'.worker, s'.chan) ∧ s'.stop = s.stop := by
  rw [channelStep] at h
  split at h
  · rename_i hw
    cases h
    exact ⟨hw, rfl⟩
  · cases h

theorem worker_other {s s' : ChannelSt Tid} {a : ChannelAct Tid} (ha : a ≠ .worker)
    (h : channelStep s a = some s') : s'.worker = s.worker := by
  cases a with
  | submitLocked t | completeLocked t =>
    rw [channelStep] at h
    split at h
    · split at h <;> cases h <;> rfl
    · cases h
  | submitCall | submitInFlight | submitTotal | completeCall | completeCopy =>
    rw [channelStep] at h
    split at h <;> cases h
    rfl
  | worker => exact absurd rfl ha
  | kthreadStop => cases h; rfl

/-! ## What each step does to the rings -/

/-- What a step may do to the two rings and to the histories they feed. -/
inductive Flow (s s' : ChannelSt Tid) : Prop where
  | same : s'.chan.subRing = s.chan.subRing → s'.chan.compRing = s.chan.compRing →
      (s'.worker.inHand = s.worker.inHand ∨ (s'.worker = .done ∧ s.stop = true)) →
      s'.accepted = s.accepted → s'.taken = s.taken → Flow s s'
  | submit (entry : RingEntry) : ¬ ringFull s.chan.subRing = true →
      s'.chan.subRing = s.chan.subRing.push entry → s'.chan.compRing = s.chan.compRing →
      s'.worker = s.worker → s'.accepted = s.accepted ++ [entry] → s'.taken = s.taken → Flow s s'
  | workerPop : s.worker = .pop → ¬ ringEmpty s.chan.subRing = true →
      s'.chan.subRing = s.chan.subRing.pop → s'.chan.compRing = s.chan.compRing →
      s'.worker = .process s.chan.subRing.front → s'.accepted = s.accepted →
      s'.taken = s.taken → Flow s s'
  | workerPush (entry : RingEntry) : s.worker = .push entry → ¬ ringFull s.chan.compRing = true →
      s'.chan.subRing = s.chan.subRing → s'.chan.compRing = s.chan.compRing.push entry →
      s'.worker = .decInFlight → s'.accepted = s.accepted → s'.taken = s.taken → Flow s s'
  | complete (t : Tid) : ¬ ringEmpty s.chan.compRing = true →
      s'.chan.subRing = s.chan.subRing → s'.chan.compRing = s.chan.compRing.pop →
      s'.worker = s.worker → s'.accepted = s.accepted →
      s'.taken = s.taken ++ [(t, s.chan.compRing.front)] → Flow s s'

omit [DecidableEq Tid] in
theorem worker_flow {s : ChannelSt Tid} {pc : WorkerPc} {chan : DmaplaneChannel}
    (h : workerFn s.stop s.chan s.worker = some (pc, chan)) :
    Flow s { s with worker := pc, chan := chan } := by
  cases hw : s.worker with
  | outerCheck =>
    simp only [workerFn, hw] at h; cases h
    refine .same rfl rfl ?_ rfl rfl
    cases s.stop <;> simp [WorkerPc.inHand, hw]
  | waitEvent =>
    simp only [workerFn, hw] at h
    split at h
    · cases h; exact .same rfl rfl (.inl (by simp [WorkerPc.inHand, hw])) rfl rfl
    · cases h
  | stopCheck =>
    simp only [workerFn, hw] at h; cases h
    refine .same rfl rfl (.inl ?_) rfl rfl
    split <;> simp [WorkerPc.inHand, hw]
  | drainCheck =>
    simp only [workerFn, hw] at h; cases h
    refine .same rfl rfl (.inl ?_) rfl rfl
    split <;> simp [WorkerPc.inHand, hw]
  | pop =>
    simp only [workerFn, hw] at h
    split at h
    · cases h; exact .same rfl rfl (.inl (by simp [WorkerPc.inHand, hw])) rfl rfl
    · rename_i he; cases h; exact .workerPop hw he rfl rfl rfl rfl rfl
  | process entry =>
    simp only [workerFn, hw] at h; cases h
    exact .same rfl rfl (.inl (by simp [WorkerPc.inHand, hw])) rfl rfl
  | push entry =>
    simp only [workerFn, hw] at h
    split at h
    · cases h; exact .same rfl rfl (.inl (by simp [WorkerPc.inHand, hw])) rfl rfl
    · rename_i hf; cases h; exact .workerPush entry hw hf rfl rfl rfl rfl rfl
  | retry entry =>
    simp only [workerFn, hw] at h; cases h
    refine .same rfl rfl ?_ rfl rfl
    cases s.stop <;> simp [WorkerPc.inHand, hw]
  | decInFlight =>
    simp only [workerFn, hw] at h; cases h
    exact .same rfl rfl (.inl (by simp [WorkerPc.inHand, hw])) rfl rfl
  | incCompletions =>
    simp only [workerFn, hw] at h; cases h
    exact .same rfl rfl (.inl (by simp [WorkerPc.inHand, hw])) rfl rfl
  | done => simp [workerFn, hw] at h

/-- Every step moves the entries in one of these ways. -/
theorem channelStep_flow {s s' : ChannelSt Tid} {a : ChannelAct Tid}
    (h : channelStep s a = some s') : Flow s s' := by
  cases a with
  | submitCall t entry =>
    simp only [channelStep] at h
    split at h <;> cases h
    exact .same rfl rfl (.inl rfl) rfl rfl
  | submitLocked t =>
    simp only [channelStep] at h
    split at h
    · rename_i entry hpc
      split at h
      · rename_i chan hc; cases h
        simp only [ioctlSubmitLocked] at hc
        split at hc
        · cases hc
        · rename_i hf; cases hc
          exact .submit entry hf rfl rfl rfl rfl rfl
      · cases h; exact .same rfl rfl (.inl rfl) rfl rfl
    · cases h
  | submitInFlight t =>
    simp only [channelStep] at h
    split at h <;> cases h
    exact .same rfl rfl (.inl rfl) rfl rfl
  | submitTotal t =>
    simp only [channelStep] at h
    split at h <;> cases h
    exact .same rfl rfl (.inl rfl) rfl rfl
  | completeCall t =>
    simp only [channelStep] at h
    split at h <;> cases h
    exact .same rfl rfl (.inl rfl) rfl rfl
  | completeLocked t =>
    simp only [channelStep] at h
    split at h
    · split at h
      · rename_i entry chan hc; cases h
        simp only [ioctlCompleteLocked] at hc
        split at hc
        · cases hc
        · rename_i he; cases hc
          exact .complete t he rfl rfl rfl rfl rfl
      · cases h; exact .same rfl rfl (.inl rfl) rfl rfl
    · cases h
  | completeCopy t copyOk =>
    simp only [channelStep] at h
    split at h <;> cases h
    exact .same rfl rfl (.inl rfl) rfl rfl
  | worker =>
    simp only [channelStep] at h
    split at h
    · rename_i pc chan hw; cases h; exact worker_flow hw
    · cases h
  | kthreadStop =>
    cases h; exact .same rfl rfl (.inl rfl) rfl rfl

end Dmaplane
