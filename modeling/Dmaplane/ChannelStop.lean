import Dmaplane.ChannelFifo

/-!
# Dmaplane.ChannelStop

What `dmaplane_worker_fn` still does once `kthread_stop` is requested and no SUBMIT or COMPLETE
takes a ring lock any more.

* `stepsLeft`     — bounds the steps that are left; each step of the worker makes it smaller.
* `worker_stops`  — the worker returns, and leaves the submission ring empty or the completion ring
  full, unless it stood at a test of the stop flag alone. From there it returns at once.
-/

namespace Dmaplane

open WrapRing

variable {Tid : Type} [DecidableEq Tid]

/-! ## The worker's run -/

/-- What the worker has done since the request. -/
structure WorkerRun where
  steps : Nat
  moved : Nat
  overwrote : Bool
  deriving DecidableEq, Repr

/-- A step of the worker that advances `comp_ring.head` has moved an entry. -/
def watch (s : ChannelSt Tid) (a : ChannelAct Tid) (s' : ChannelSt Tid) (r : WorkerRun) :
    WorkerRun :=
  if a = .worker then
    if s'.chan.compRing.head = s.chan.compRing.head then { r with steps := r.steps + 1 }
    else
      { steps := r.steps + 1, moved := r.moved + 1
        overwrote := r.overwrote || ringFull s.chan.compRing }
  else r

def watchedSys (Tid : Type) [DecidableEq Tid] :
    Transition.Sys (ChannelSt Tid × WorkerRun) (ChannelAct Tid) :=
  (channelSys Tid).withHistory ⟨0, 0, false⟩ watch

/-- No SUBMIT and no COMPLETE takes its ring lock. -/
def Undisturbed (_ : ChannelSt Tid × WorkerRun) (a : ChannelAct Tid) : Prop :=
  ∀ t, a ≠ .submitLocked t ∧ a ≠ .completeLocked t

/-- In front of a test of the stop flag alone. -/
def WorkerPc.AtStopTest : WorkerPc → Prop
  | .outerCheck | .retry _ => True
  | _ => False

/-! ## One step -/

/-- An upper bound of the worker's steps once it is told to stop: six for an entry. -/
def stepsLeft (chan : DmaplaneChannel) : WorkerPc → Nat
  | .outerCheck | .retry _ => 1
  | .waitEvent | .decInFlight => 6 * chan.subRing.contents.length + 5
  | .stopCheck | .incCompletions => 6 * chan.subRing.contents.length + 4
  | .drainCheck => 6 * chan.subRing.contents.length + 3
  | .pop => 6 * chan.subRing.contents.length + 2
  | .process _ => 6 * chan.subRing.contents.length + 7
  | .push _ => 6 * chan.subRing.contents.length + 6
  | .done => 0

/-- A worker on its way out has drained the submission ring or met a full completion ring. -/
def OnWayOut (chan : DmaplaneChannel) : WorkerPc → Prop
  | .outerCheck => ringEmpty chan.subRing = true
  | .retry _ => ringFull chan.compRing = true
  | .done => ringEmpty chan.subRing = true ∨ ringFull chan.compRing = true
  | _ => True

theorem stepsLeft_le (chan : DmaplaneChannel) (pc : WorkerPc) :
    stepsLeft chan pc ≤ 6 * (ringCount chan.subRing).toNat + 7 := by
  rw [ringCount_toNat]
  cases pc <;> simp only [stepsLeft] <;> omega

theorem onWayOut_of_not_test {chan : DmaplaneChannel} {pc : WorkerPc} (h : ¬ pc.AtStopTest)
    (hd : pc ≠ .done) : OnWayOut chan pc := by
  cases pc with
  | outerCheck | retry _ => exact absurd trivial h
  | done => exact absurd rfl hd
  | _ => trivial

/-- What a step of a stopped worker achieves. -/
structure StoppedStep (chan : DmaplaneChannel) (pc : WorkerPc) (chan' : DmaplaneChannel)
    (pc' : WorkerPc) : Prop where
  fewer : stepsLeft chan' pc' < stepsLeft chan pc
  settled : OnWayOut chan pc → OnWayOut chan' pc'
  atTest : pc.AtStopTest → pc' = .done ∧ chan' = chan
  comp : chan'.compRing = chan.compRing ∨
    ¬ ringFull chan.compRing = true ∧ ∃ entry, chan'.compRing = chan.compRing.push entry

theorem workerFn_stopped {chan chan' : DmaplaneChannel} {pc pc' : WorkerPc}
    (h : workerFn true chan pc = some (pc', chan')) : StoppedStep chan pc chan' pc' := by
  cases pc with
  | outerCheck =>
    cases h
    exact ⟨Nat.zero_lt_one, .inl, fun _ => ⟨rfl, rfl⟩, .inl rfl⟩
  | waitEvent =>
    rw [workerFn, Bool.or_true, if_pos rfl] at h
    cases h
    exact ⟨Nat.lt_succ_self _, fun _ => trivial, False.elim, .inl rfl⟩
  | stopCheck =>
    rw [workerFn, Bool.true_and] at h
    cases he : ringEmpty chan.subRing with
    | true =>
      rw [he, if_pos rfl] at h
      cases h
      exact ⟨Nat.succ_pos _, fun _ => .inl he, False.elim, .inl rfl⟩
    | false =>
      rw [he, if_neg Bool.false_ne_true] at h
      cases h
      exact ⟨Nat.lt_succ_self _, fun _ => trivial, False.elim, .inl rfl⟩
  | drainCheck =>
    rw [workerFn] at h
    cases he : ringEmpty chan.subRing with
    | true =>
      rw [he, if_pos rfl] at h
      cases h
      exact ⟨by simp only [stepsLeft]; omega, fun _ => he, False.elim, .inl rfl⟩
    | false =>
      rw [he, if_neg Bool.false_ne_true] at h
      cases h
      exact ⟨Nat.lt_succ_self _, fun _ => trivial, False.elim, .inl rfl⟩
  | pop =>
    rw [workerFn] at h
    split at h
    · rename_i he
      cases h
      exact ⟨by simp only [stepsLeft]; omega, fun _ => he, False.elim, .inl rfl⟩
    · rename_i he
      cases h
      have hlen := congrArg List.length (contents_pop he)
      rw [List.length_cons] at hlen
      exact ⟨by simp only [stepsLeft]; omega, fun _ => trivial, False.elim, .inl rfl⟩
  | process entry =>
    cases h
    exact ⟨Nat.lt_succ_self _, fun _ => trivial, False.elim, .inl rfl⟩
  | push entry =>
    rw [workerFn] at h
    split at h
    · rename_i hf
      cases h
      exact ⟨by simp only [stepsLeft]; omega, fun _ => hf, False.elim, .inl rfl⟩
    · rename_i hf
      cases h
      exact ⟨Nat.lt_succ_self _, fun _ => trivial, False.elim, .inr ⟨hf, entry, rfl⟩⟩
  | retry entry =>
    cases h
    exact ⟨Nat.zero_lt_one, .inr, fun _ => ⟨rfl, rfl⟩, .inl rfl⟩
  | decInFlight =>
    cases h
    exact ⟨Nat.lt_succ_self _, fun _ => trivial, False.elim, .inl rfl⟩
  | incCompletions =>
    cases h
    exact ⟨Nat.lt_succ_self _, fun _ => trivial, False.elim, .inl rfl⟩
  | done => cases h

/-- Told to stop, the worker neither sleeps nor waits for anyone. -/
theorem workerFn_runs (chan : DmaplaneChannel) {pc : WorkerPc} (h : pc ≠ .done) :
    ∃ pc' chan', workerFn true chan pc = some (pc', chan') := by
  cases pc with
  | done => exact absurd rfl h
  | waitEvent =>
    rw [workerFn, Bool.or_true, if_pos rfl]
    exact ⟨_, _, rfl⟩
  | pop | push =>
    rw [workerFn]
    split <;> exact ⟨_, _, rfl⟩
  | _ => exact ⟨_, _, rfl⟩

/-- The other steps touch neither the rings nor the worker. -/
theorem other_step {s s' : ChannelSt Tid} {r : WorkerRun} {a : ChannelAct Tid}
    (hok : Undisturbed (s, r) a) (ha : a ≠ .worker) (h : channelStep s a = some s') :
    s'.chan.subRing = s.chan.subRing ∧ s'.chan.compRing = s.chan.compRing ∧
      s'.worker = s.worker ∧ (s.stop = true → s'.stop = true) := by
  have hw := worker_other ha h
  cases a with
  | submitLocked t => exact absurd rfl (hok t).1
  | completeLocked t => exact absurd rfl (hok t).2
  | worker => exact absurd rfl ha
  | kthreadStop =>
    cases h
    exact ⟨rfl, rfl, hw, fun _ => rfl⟩
  | submitCall | submitInFlight | submitTotal | completeCall | completeCopy =>
    rw [channelStep] at h
    split at h <;> cases h
    exact ⟨rfl, rfl, hw, id⟩

/-! ## The run after the request -/

/-- What holds along the run from `s`, where the stop was requested. -/
structure StopInv (s : ChannelSt Tid) (x : ChannelSt Tid × WorkerRun) : Prop where
  fifo : FifoInv x.1
  stop : x.1.stop = true
  steps : x.2.steps + stepsLeft x.1.chan x.1.worker ≤ stepsLeft s.chan s.worker
  moved : x.2.moved + s.chan.compRing.contents.length = x.1.chan.compRing.contents.length
  intact : x.2.overwrote = false
  settled : ¬ s.worker.AtStopTest → OnWayOut x.1.chan x.1.worker
  atTest : s.worker.AtStopTest → (x.1.worker = s.worker ∨ x.1.worker = .done) ∧
    x.1.chan.subRing = s.chan.subRing ∧ x.1.chan.compRing = s.chan.compRing

theorem OnWayOut.congr {chan chan' : DmaplaneChannel} {pc : WorkerPc} (h : OnWayOut chan pc)
    (hsub : chan'.subRing = chan.subRing) (hcomp : chan'.compRing = chan.compRing) :
    OnWayOut chan' pc := by
  cases pc <;> simp only [OnWayOut, hsub, hcomp] at h ⊢ <;> exact h

theorem stepsLeft_congr {chan chan' : DmaplaneChannel} (hsub : chan'.subRing = chan.subRing)
    (pc : WorkerPc) : stepsLeft chan' pc = stepsLeft chan pc := by
  cases pc <;> simp only [stepsLeft, hsub]

theorem push_head_ne (ring : DmaplaneRing) (entry : RingEntry) :
    (ring.push entry).head ≠ ring.head := by
  intro h
  have h1 : ring.head + 1 = ring.head := h
  bv_omega

theorem watch_same {s s' : ChannelSt Tid} (h : s'.chan.compRing = s.chan.compRing)
    (r : WorkerRun) : watch s .worker s' r = { r with steps := r.steps + 1 } := by
  rw [watch, if_pos rfl, h, if_pos rfl]

theorem watch_push {s s' : ChannelSt Tid} {entry : RingEntry}
    (h : s'.chan.compRing = s.chan.compRing.push entry) (r : WorkerRun) :
    watch s .worker s' r =
      { steps := r.steps + 1, moved := r.moved + 1
        overwrote := r.overwrote || ringFull s.chan.compRing } := by
  rw [watch, if_pos rfl, h, if_neg (push_head_ne _ _)]

theorem StopInv.worker {s s' s'' : ChannelSt Tid} {r : WorkerRun} (hi : StopInv s (s', r))
    (h : channelStep s' .worker = some s'') : StopInv s (s'', watch s' .worker s'' r) := by
  obtain ⟨hfifo, hstop, hsteps, hmoved, hint, hset, htest⟩ := hi
  dsimp only at hfifo hstop hsteps hmoved hint hset htest
  have hfifo' := fifoInv_step hfifo h
  obtain ⟨hw, hst⟩ := worker_step h
  rw [hstop] at hw hst
  obtain ⟨hfewer, hsettled, hat, hcomp⟩ := workerFn_stopped hw
  have htest' (ht : s.worker.AtStopTest) : (s''.worker = s.worker ∨ s''.worker = .done) ∧
      s''.chan.subRing = s.chan.subRing ∧ s''.chan.compRing = s.chan.compRing := by
    obtain ⟨hpc | hpc, hrings⟩ := htest ht
    · obtain ⟨hd, hc⟩ := hat (hpc ▸ ht)
      rw [hc]
      exact ⟨.inr hd, hrings⟩
    · rw [hpc] at hw
      cases hw
  rcases hcomp with hc | ⟨hf, entry, hc⟩
  · rw [watch_same hc]
    refine ⟨hfifo', hst, ?_, ?_, hint, fun ht => hsettled (hset ht), htest'⟩
    · dsimp only
      omega
    · dsimp only
      rw [hc]
      exact hmoved
  · rw [watch_push hc]
    have hlen := congrArg List.length (contents_push hfifo.comp_le hf entry)
    rw [List.length_append, List.length_singleton, ← hc] at hlen
    refine ⟨hfifo', hst, ?_, ?_, ?_, fun ht => hsettled (hset ht), htest'⟩
    · dsimp only
      omega
    · dsimp only
      omega
    · dsimp only
      rw [hint, Bool.false_or]
      exact Bool.eq_false_iff.mpr hf

theorem StopInv.other {s s' s'' : ChannelSt Tid} {r : WorkerRun} {a : ChannelAct Tid}
    (hi : StopInv s (s', r)) (hok : Undisturbed (s', r) a) (ha : a ≠ .worker)
    (h : channelStep s' a = some s'') : StopInv s (s'', watch s' a s'' r) := by
  obtain ⟨hsub, hcomp, hw, hst⟩ := other_step hok ha h
  rw [watch, if_neg ha]
  refine ⟨fifoInv_step hi.fifo h, hst hi.stop, ?_, ?_, hi.intact, fun ht => ?_, fun ht => ?_⟩
  · show r.steps + stepsLeft s''.chan s''.worker ≤ _
    rw [hw, stepsLeft_congr hsub]
    exact hi.steps
  · show r.moved + _ = s''.chan.compRing.contents.length
    rw [hcomp]
    exact hi.moved
  · show OnWayOut s''.chan s''.worker
    rw [hw]
    exact (hi.settled ht).congr hsub hcomp
  · show (s''.worker = _ ∨ s''.worker = _) ∧ s''.chan.subRing = _ ∧ s''.chan.compRing = _
    rw [hw, hsub, hcomp]
    exact hi.atTest ht

/-- It does not return before it is told to stop. -/
theorem workerFn_running {chan chan' : DmaplaneChannel} {pc pc' : WorkerPc}
    (h : workerFn false chan pc = some (pc', chan')) : pc' ≠ .done := by
  rintro rfl
  cases pc with
  | waitEvent | pop | push =>
    rw [workerFn] at h
    split at h <;> cases h
  | drainCheck =>
    rw [workerFn] at h
    cases he : ringEmpty chan.subRing <;> rw [he] at h <;> cases h
  | _ => cases h

theorem running {s : ChannelSt Tid} (h : (channelSys Tid).Reachable s) (hstop : s.stop = false) :
    s.worker ≠ .done := by
  refine h.invariant (I := fun s => s.stop = false → s.worker ≠ .done) ?_ ?_ hstop
  · intro _ hd
    cases hd
  · intro s a s' hi hs hstop
    have hstop' := stop_mono hs hstop
    by_cases ha : a = .worker
    · subst ha
      have hw := (worker_step hs).1
      rw [hstop'] at hw
      exact workerFn_running hw
    · rw [worker_other ha hs]
      exact hi hstop'

theorem stopInv_start {s s₁ : ChannelSt Tid} (h : (channelSys Tid).Reachable s)
    (hstop : s.stop = false) (hreq : channelStep s .kthreadStop = some s₁) :
    StopInv s (s₁, ⟨0, 0, false⟩) := by
  have hrunning := running h hstop
  cases hreq
  exact ⟨fifoInv_step (a := .kthreadStop) (fifoInv h) rfl, rfl, Nat.le_of_eq (Nat.zero_add _),
    Nat.zero_add _, rfl, fun ht => onWayOut_of_not_test ht hrunning, fun _ => ⟨.inl rfl, rfl, rfl⟩⟩

theorem StopInv.run {s s₁ s' : ChannelSt Tid} {r₁ r : WorkerRun} (h₁ : StopInv s (s₁, r₁))
    (hrun : (watchedSys Tid).Steps Undisturbed (s₁, r₁) (s', r)) : StopInv s (s', r) := by
  refine Transition.Sys.Steps.keeps (I := StopInv s) (fun x a x' hi hok hs => ?_) hrun h₁
  obtain ⟨hst, hr⟩ := Transition.Sys.withHistory_step hs
  obtain ⟨y, q⟩ := x
  obtain ⟨y', q'⟩ := x'
  dsimp only at hst hr
  subst hr
  by_cases ha : a = .worker
  · subst ha
    exact hi.worker hst
  · exact hi.other hok ha hst

/-- Left to itself, a stopped worker returns within the steps it has left. -/
theorem exists_return (m : Nat) : ∀ s : ChannelSt Tid, s.stop = true →
    stepsLeft s.chan s.worker ≤ m → ∃ n ≤ m, ∃ s', (channelSys Tid).exec s (List.replicate n .worker)
      = some s' ∧ s'.worker = .done := by
  induction m with
  | zero =>
    intro s hstop hm
    refine ⟨0, le_refl _, s, rfl, ?_⟩
    by_contra hd
    obtain ⟨pc, chan, hw⟩ := workerFn_runs s.chan hd
    have := (workerFn_stopped hw).fewer
    omega
  | succ m ih =>
    intro s hstop hm
    by_cases hd : s.worker = .done
    · exact ⟨0, Nat.zero_le _, s, rfl, hd⟩
    · obtain ⟨pc, chan, hw⟩ := workerFn_runs s.chan hd
      have hfewer := (workerFn_stopped hw).fewer
      have hst : (channelSys Tid).step s .worker = some { s with worker := pc, chan := chan } := by
        show channelStep s .worker = _
        rw [channelStep, hstop, hw]
      obtain ⟨n, hn, s', hex, hs'⟩ := ih { s with worker := pc, chan := chan } hstop
        (Nat.le_of_lt_succ (Nat.lt_of_lt_of_le hfewer hm))
      refine ⟨n + 1, Nat.succ_le_succ hn, s', ?_, hs'⟩
      rw [List.replicate_succ, Transition.Sys.exec, hst]
      exact hex

/-- What a stop request in `s` leads to, in every state `s'` of the run that follows. -/
structure Stops (s s' : ChannelSt Tid) (r : WorkerRun) : Prop where
  returns : ∃ n, r.steps + n ≤ 6 * (ringCount s.chan.subRing).toNat + 7 ∧
    ∃ s'', (channelSys Tid).exec s' (List.replicate n .worker) = some s'' ∧ s''.worker = .done
  moved : r.moved + (ringCount s.chan.compRing).toNat ≤ ringSize
  intact : r.overwrote = false
  drained : ¬ s.worker.AtStopTest → s'.worker = .done →
    ringEmpty s'.chan.subRing = true ∨ ringFull s'.chan.compRing = true
  atOnce : s.worker.AtStopTest → r.steps ≤ 1 ∧ r.moved = 0 ∧
    s'.chan.subRing = s.chan.subRing ∧ s'.chan.compRing = s.chan.compRing

theorem worker_stops {s s₁ s' : ChannelSt Tid} {r : WorkerRun}
    (h : (channelSys Tid).Reachable s) (hstop : s.stop = false)
    (hreq : channelStep s .kthreadStop = some s₁)
    (hrun : (watchedSys Tid).Steps Undisturbed (s₁, ⟨0, 0, false⟩) (s', r)) : Stops s s' r := by
  obtain ⟨hfifo, hst, hsteps, hmoved, hint, hset, htest⟩ := (stopInv_start h hstop hreq).run hrun
  dsimp only at hfifo hst hsteps hmoved hint hset htest
  have hbound := stepsLeft_le s.chan s.worker
  have hcomp := hfifo.comp_le
  refine ⟨?_, ?_, hint, fun ht hd => ?_, fun ht => ?_⟩
  · obtain ⟨n, hn, hret⟩ := exists_return _ s' hst (le_refl _)
    exact ⟨n, by omega, hret⟩
  · rw [ringCount_toNat]
    omega
  · have hset' := hset ht
    rwa [hd] at hset'
  · obtain ⟨-, hsub', hcomp'⟩ := htest ht
    have hone : stepsLeft s.chan s.worker = 1 := by
      cases hpc : s.worker with
      | outerCheck | retry _ => rfl
      | _ => rw [hpc] at ht; exact ht.elim
    rw [hcomp'] at hmoved
    exact ⟨by omega, by omega, hsub', hcomp'⟩

instance (x : ChannelSt Tid × WorkerRun) (a : ChannelAct Tid) : Decidable (Undisturbed x a) :=
  match a with
  | .submitLocked t => isFalse fun h => (h t).1 rfl
  | .completeLocked t => isFalse fun h => (h t).2 rfl
  | .submitCall _ _ | .submitInFlight _ | .submitTotal _ | .completeCall _ | .completeCopy _ _
  | .worker | .kthreadStop => isTrue fun _ => ⟨(by intro h; cases h), (by intro h; cases h)⟩

/-- A submission, with the worker asleep before it. -/
def oneWaiting : List (ChannelAct (Fin 1)) := [.worker, .submitCall 0 ⟨7, 1, 0⟩, .submitLocked 0]

/-- The run of ten steps after the request. -/
def stopAfter (s : ChannelSt (Fin 1)) : Option (ChannelSt (Fin 1) × WorkerRun) :=
  (watchedSys (Fin 1)).execWith Undisturbed ({ s with stop := true }, ⟨0, 0, false⟩)
    (List.replicate 10 .worker)

theorem worker_stops_one : ∃ s s₁ s' : ChannelSt (Fin 1), ∃ r,
    (channelSys (Fin 1)).Reachable s ∧ s.stop = false ∧ channelStep s .kthreadStop = some s₁ ∧
      (watchedSys (Fin 1)).Steps Undisturbed (s₁, ⟨0, 0, false⟩) (s', r) ∧
      s'.worker = .done ∧ r.moved = 1 ∧ Stops s s' r := by
  obtain ⟨s, hr, hstop, hany⟩ : ∃ s : ChannelSt (Fin 1), (channelSys (Fin 1)).Reachable s ∧
      s.stop = false ∧ (stopAfter s).any (fun x => x.1.worker = .done ∧ x.2.moved = 1) = true :=
    Transition.Sys.exists_of_exec oneWaiting (by decide +kernel)
  obtain ⟨⟨s', r⟩, hex, hx⟩ := (Option.any_eq_true _ _).mp hany
  obtain ⟨hd, hm⟩ := of_decide_eq_true hx
  have hrun := Transition.Sys.execWith_steps _ hex
  exact ⟨s, _, s', r, hr, hstop, rfl, hrun, hd, hm, worker_stops hr hstop rfl hrun⟩

/-- One submission completed; the next one comes when the worker is about to test the flag. -/
def lateSubmit : List (ChannelAct (Fin 1)) :=
  [.worker, .submitCall 0 ⟨7, 1, 0⟩, .submitLocked 0, .submitInFlight 0, .submitTotal 0] ++
    List.replicate 9 .worker ++ [.submitCall 0 ⟨9, 1, 0⟩, .submitLocked 0]

/-- The loop head returns without a look at the ring. -/
theorem stopped_undrained : ¬ ∀ (s s₁ s' : ChannelSt (Fin 1)) (r : WorkerRun),
    (channelSys (Fin 1)).Reachable s → s.stop = false → channelStep s .kthreadStop = some s₁ →
    (watchedSys (Fin 1)).Steps Undisturbed (s₁, ⟨0, 0, false⟩) (s', r) → s'.worker = .done →
    ringEmpty s'.chan.subRing = true ∨ ringFull s'.chan.compRing = true := by
  intro h
  obtain ⟨s, hr, hstop, hpc, hsub, hcomp⟩ : ∃ s : ChannelSt (Fin 1),
      (channelSys (Fin 1)).Reachable s ∧ s.stop = false ∧ s.worker = .outerCheck ∧
        ringEmpty s.chan.subRing = false ∧ ringFull s.chan.compRing = false :=
    Transition.Sys.exists_of_exec lateSubmit (by decide +kernel)
  have hst : channelStep { s with stop := true } .worker =
      some { s with stop := true, worker := .done } := by
    rw [channelStep, hpc]
    rfl
  have hstep : (watchedSys (Fin 1)).step ({ s with stop := true }, ⟨0, 0, false⟩) .worker = _ :=
    congrArg (Option.map fun s' => (s', watch _ .worker s' _)) hst
  have hok : Undisturbed ({ s with stop := true }, ⟨0, 0, false⟩) .worker :=
    fun _ => ⟨(by intro h; cases h), (by intro h; cases h)⟩
  rcases h s _ _ _ hr hstop rfl (Transition.Sys.Steps.single hok hstep) rfl with he | hf
  · rw [hsub] at he
    cases he
  · rw [hcomp] at hf
    cases hf

end Dmaplane
