import Dmaplane.QueueBounds

/-!
# Dmaplane.QueueRuns

The steps of a run keep every queue within its depth and what the next stage promises
(`run_step`, `run_fail`, `run_timeout`); while calls come one at a time, so does every step of the
system.
-/

namespace Dmaplane

section Steps

variable {d d' : QueueDev} {r : Run} {pc pc' : QueuePc}

-- Their equations are made here, once for the proofs below.
attribute [local simp] runStep queueStep

theorem flowSet_configure {p : FlowParams} (h : flowCheck p = .ok ()) (flow : FlowCtl) :
    FlowSet ((configureWrites p).foldl FlowCtl.write flow) := by
  have hp := flowCheck_ok h
  exact ⟨rfl, hp.2.1, hp.2.2.1⟩

theorem flowSet_autoConfigure (q : Nat) (flow : FlowCtl) :
    FlowSet ((autoConfigureWrites q).foldl FlowCtl.write flow) := by
  obtain ⟨hconf, hmax, hhigh, hlow⟩ := autoConfigure_fields q flow
  have h2 := two_le_autoMaxCredits q
  refine ⟨hconf, ?_, ?_⟩
  · rw [hlow, hhigh]
    split <;> omega
  · rw [hhigh, hmax]
    omega

theorem FlowSet.flowOk {flow : FlowCtl} (h : FlowSet flow) : FlowOk flow := fun _ => h.2

theorem fresh_benchEnd (h : FlowOk d.flow) : QueuePcOk d (benchEnd r) := by
  unfold benchEnd
  split
  · rename_i p point _
    split
    · exact ⟨Nat.mod_lt _ (by decide), p.iterations.toNat_lt, rfl, rfl, h, by intro h; cases h⟩
    · exact h
  · exact h

theorem flowOk_benchFail (h : FlowOk d.flow) : QueuePcOk d (benchFail r) := by
  unfold benchFail
  split <;> exact h

theorem Fresh.ready (h : Fresh d r) (hf : RunFits d r) : Ready d r :=
  ⟨h, ⟨hf.send, hf.cq⟩, hf.recv, hf.idle⟩

theorem Ready.prePost (h : Ready d r) (ha : d.aLoad = 0) (hb : d.bLoad = d.rq) :
    QueuePcOk d (.prePost { r with prePost := prePostCount d.flow r }) := by
  obtain ⟨hf, hs, hr, _⟩ := h
  refine ⟨⟨hf.1, hf.2, hf.3, hf.4, hf.5, hf.6⟩, hs, ha, prePostCount_lt _ _, ?_⟩
  exact hr.mono (by simp only []; omega)

theorem QueuePcOk.flowOk (h : QueuePcOk d pc) (hpc : ∀ ws q, pc ≠ .writing ws q) :
    FlowOk d.flow := by
  cases pc with
  | writing ws q => exact absurd rfl (hpc ws q)
  | start => exact h.2
  | alloc | resetCredits => exact h.2.flowOk
  | resetPaused => exact h.2.1.flowOk
  | begin r => exact Fresh.flow h
  | flushA r => exact h.fresh.flow
  | flushB r => exact h.1.fresh.flow
  | prePost r => exact h.1.flow
  | head | post | poll | drainB => exact Bench.flow h
  | replenish r => exact h.1.flow
  | loop | decide | checked | posted | pollA | credit | replenishRecv => exact h.1.flow.flowOk
  | drainRecv r => exact (Stream.flow h).flowOk
  | idle | recvDrain | drain | drainCredit | drainRest | doneA | doneB => exact h

/-- One step of a call keeps every queue within its depth and what the stage promises. -/
theorem run_step (h : runStep d pc = some (d', pc')) (hw : d.Within) (hok : QueuePcOk d pc)
    (hfit : ∀ r, pc = .begin r → RunFits d r) : d'.Within ∧ QueuePcOk d' pc' := by
  cases pc with
  | idle => cases h
  | writing ws q =>
    cases ws with
    | cons w ws => cases h; exact ⟨hw.setFlow _, hok⟩
    | nil =>
      cases q with
      | none => cases h; exact ⟨hw, hok.1⟩
      | some q => cases h; exact ⟨hw, hok.2 q rfl⟩
  | start q =>
    cases h
    refine ⟨hw, ?_⟩
    split
    · rename_i hc; exact ⟨hok.1, hc, hok.2 hc⟩
    · have hs := flowSet_autoConfigure q d.flow
      exact ⟨hs.flowOk, fun n hn => by cases hn; exact ⟨hok.1, hs⟩⟩
  | alloc q => cases h; exact ⟨hw, hok⟩
  | resetCredits q => cases h; exact ⟨hw.setFlow _, hok.1, hok.2, rfl⟩
  | resetPaused q =>
    cases h
    obtain ⟨hq, hs, hc⟩ := hok
    exact ⟨hw.setFlow _, hq, Nat.two_pow_pos 32, rfl, rfl, hs.flowOk,
      fun _ => ⟨hs, hc⟩⟩
  | begin r => cases h; exact ⟨hw, Fresh.ready hok (hfit r rfl)⟩
  | flushA r =>
    simp only [runStep] at h
    split at h <;> cases h
    · rename_i hp
      exact ⟨hw, hok, by rw [popA_none hp]; exact hok.sq⟩
    · rename_i hp
      exact ⟨hw.lighter (popA_lighter hp).1, QueuePcOk.lighter hok (popA_lighter hp).1⟩
  | flushB r =>
    simp only [runStep] at h
    split at h <;> cases h
    · rename_i hp
      exact ⟨hw, hok.1.prePost hok.2 (popB_none hp)⟩
    · rename_i hp
      exact ⟨hw.lighter (popB_lighter hp), QueuePcOk.lighter hok (popB_lighter hp)⟩
  | prePost r =>
    simp only [runStep] at h
    split at h <;> cases h
    · rename_i hlt; exact prePost_post hw hok hlt
    · exact ⟨hw, prePost_done hok⟩
  | head r =>
    cases h
    refine ⟨hw, ?_⟩
    split
    · exact hok
    · exact Bench.flow hok
  | post r =>
    simp only [runStep] at h
    split at h <;> cases h
    · rename_i hlt; exact Bench.post hok hw hlt.1 hlt.2
    · exact ⟨hw, hok⟩
  | poll r =>
    simp only [runStep] at h
    split at h <;> cases h
    · rename_i hp
      exact ⟨hw.lighter (popA_lighter hp).1, Bench.poll hok hp⟩
    · rename_i hp
      have hl := (popA_lighter hp).1
      exact ⟨hw.lighter hl, flowOk_benchFail (Bench.lighter hok hl).flow⟩
  | drainB r =>
    simp only [runStep] at h
    split at h <;> cases h
    · rename_i hp
      exact ⟨hw, hok, by
        have hr := Bench.recv hok
        have := bLoad_of_drained (s := 1) hp (n := d.rLoad) ⟨by have := hr.1; omega, hr.2⟩ le_rfl
        omega⟩
    · rename_i hp
      have hb : Bench d' r 1 := Bench.lighter hok (popB_lighter hp)
      exact ⟨hw.lighter (popB_lighter hp), hb.1, hb.2, hb.3, hb.4, hb.5, hb.6, hb.7, hb.8, hb.9,
        hb.10⟩
  | replenish r =>
    simp only [runStep] at h
    split at h <;> cases h
    · exact hok.1.replenish hw hok.2
    · exact ⟨hw, hok.1.weaken⟩
  | recvDrain r =>
    simp only [runStep] at h
    split at h
    · split at h <;> cases h
      · rename_i hp
        exact ⟨hw.lighter (popB_lighter hp), FlowOk.lighter hok (popB_lighter hp)⟩
      · rename_i hp
        exact ⟨hw.lighter (popB_lighter hp), fresh_benchEnd (FlowOk.lighter hok (popB_lighter hp))⟩
    · cases h; exact ⟨hw, fresh_benchEnd hok⟩
  | loop r =>
    cases h
    have hc : d.flow.configured = true := hok.1.flow.1
    exact ⟨hw, hok.1, hok.2, by simp [flowRead, hc]⟩
  | decide r c =>
    cases h
    obtain ⟨hs, hb, rfl⟩ := hok
    obtain ⟨b, hpaused⟩ := flowDecide_frame d.flow (some d.flow.credits)
    refine ⟨hw.setFlow _, ?_⟩
    rw [hpaused]
    exact ⟨hs.paused b, hb, hs.canSend⟩
  | checked r b =>
    simp only [runStep] at h
    split at h <;> cases h
    · rename_i hc
      obtain ⟨hw', hs⟩ := hok.1.post hw hc.2 (hok.2.2 hc.1)
      exact ⟨hw', hs, hok.2.1⟩
    · exact ⟨hw, hok.1, hok.2.1⟩
  | posted r => cases h; exact ⟨hw.setFlow _, hok.1.onSend, hok.2⟩
  | pollA r =>
    simp only [runStep] at h
    split at h <;> cases h
    · exact ⟨hw, hok.1⟩
    · rename_i hp
      obtain ⟨hl, _, _, hb⟩ := popA_lighter hp
      exact ⟨hw.lighter hl, hok.1.poll hp, by rw [hb, hl.caps]; exact hok.2⟩
    · rename_i hp
      have hl := (popA_lighter hp).1
      exact ⟨hw.lighter hl, (hok.1.lighter hl).flow.flowOk⟩
  | credit r => cases h; exact ⟨hw.setFlow _, hok.1.onCompletion, hok.2⟩
  | replenishRecv r =>
    simp only [runStep] at h
    split at h <;> cases h
    · exact hok.1.replenish hw hok.2
    · exact ⟨hw, hok.1.weaken⟩
  | drainRecv r =>
    simp only [runStep] at h
    split at h <;> cases h
    · rename_i hp
      exact ⟨hw, hok, bLoad_of_drained hp (Stream.recv hok) (Nat.le_add_right _ _)⟩
    · rename_i hp
      have hs : Stream d' r 0 0 0 := Stream.lighter hok (popB_lighter hp)
      exact ⟨hw.lighter (popB_lighter hp), hs.1, hs.2, hs.3, hs.4, hs.5, hs.6, hs.7, hs.8⟩
  | drain r =>
    simp only [runStep] at h
    split at h
    · cases h; exact ⟨hw, hok⟩
    · split at h <;> cases h
      · exact ⟨hw, hok⟩
      all_goals
        rename_i hp
        have hl := (popA_lighter hp).1
        exact ⟨hw.lighter hl, FlowOk.lighter hok hl⟩
  | drainCredit r => cases h; exact ⟨hw.setFlow _, hok⟩
  | drainRest r =>
    simp only [runStep] at h
    split at h <;> cases h
    · exact ⟨hw, hok⟩
    · rename_i hp
      exact ⟨hw.lighter (popB_lighter hp), FlowOk.lighter hok (popB_lighter hp)⟩
  | doneA =>
    simp only [runStep] at h
    split at h <;> cases h
    · exact ⟨hw, hok⟩
    · rename_i hp
      have hl := (popA_lighter hp).1
      exact ⟨hw.lighter hl, FlowOk.lighter hok hl⟩
  | doneB =>
    simp only [runStep] at h
    split at h <;> cases h
    · exact ⟨hw, hok⟩
    · rename_i hp
      exact ⟨hw.lighter (popB_lighter hp), FlowOk.lighter hok (popB_lighter hp)⟩

/-- A verbs call that fails keeps it too, if a CQ to be emptied was empty. -/
theorem run_fail (h : runFail d.flow pc = some pc') (hw : d.Within) (hok : QueuePcOk d pc)
    (hA : ∀ r, pc = .flushA r → d.cqA = [])
    (hB : ∀ r, pc = .flushB r ∨ pc = .drainB r ∨ pc = .drainRecv r → d.cqB = []) :
    QueuePcOk d pc' := by
  have hstep (hs : runStep d pc = some (d, pc')) : QueuePcOk d pc' :=
    (run_step hs hw hok fun r hr => by subst hr; cases h).2
  have hflow (hpc : ∀ ws q, pc ≠ .writing ws q) : FlowOk d.flow := hok.flowOk hpc
  cases pc with
  | idle | writing | start | resetCredits | resetPaused | begin | head | loop | decide | posted
  | credit | drainCredit => cases h
  | alloc q => cases h; exact hok.2.flowOk
  | flushA r =>
    cases h
    exact hstep (by simp [runStep, QueueDev.popA, hA r rfl])
  | flushB r =>
    cases h
    exact hstep (by simp [runStep, QueueDev.popB, hB r (.inl rfl)])
  | prePost r =>
    simp only [runFail, Option.ite_none_right_eq_some, Option.some.injEq] at h
    obtain ⟨_, rfl⟩ := h
    split
    · exact hok.1.flow
    · exact flowOk_benchFail hok.1.flow
  | post r =>
    simp only [runFail, Option.ite_none_right_eq_some, Option.some.injEq] at h
    obtain ⟨_, rfl⟩ := h
    exact flowOk_benchFail (Bench.flow hok)
  | poll r => cases h; exact hok
  | drainB r =>
    cases h
    exact hstep (by simp [runStep, QueueDev.popB, hB r (.inr (.inl rfl))])
  | replenish r =>
    simp only [runFail, Option.ite_none_right_eq_some, Option.some.injEq] at h
    obtain ⟨_, rfl⟩ := h
    split
    · exact hok.1.weaken
    · exact hok.1.flow
  | recvDrain r =>
    simp only [runFail, Option.ite_none_right_eq_some, Option.some.injEq] at h
    obtain ⟨_, rfl⟩ := h
    exact fresh_benchEnd hok
  | checked r b =>
    simp only [runFail, Option.ite_none_right_eq_some, Option.some.injEq] at h
    obtain ⟨_, rfl⟩ := h
    exact hok.1.flow.flowOk
  | pollA r => cases h; exact hok.1.flow.flowOk
  | replenishRecv r =>
    simp only [runFail, Option.ite_none_right_eq_some, Option.some.injEq] at h
    obtain ⟨_, rfl⟩ := h
    exact hok.1.flow.flowOk
  | drainRecv r =>
    cases h
    exact hstep (by simp [runStep, QueueDev.popB, hB r (.inr (.inr rfl))])
  | drain r =>
    simp only [runFail, Option.ite_none_left_eq_some, Option.some.injEq] at h
    obtain ⟨_, rfl⟩ := h
    exact hok
  | drainRest | doneA | doneB => cases h; exact hok

theorem run_timeout (h : runTimeout pc = some pc') (hok : QueuePcOk d pc) : QueuePcOk d pc' := by
  cases pc with
  | poll r => cases h; exact flowOk_benchFail (Bench.flow hok)
  | recvDrain r =>
    simp only [runTimeout, Option.ite_none_right_eq_some, Option.some.injEq] at h
    obtain ⟨_, rfl⟩ := h
    exact fresh_benchEnd hok
  | loop r => cases h; exact hok.1.flow.flowOk
  | drain r => cases h; exact hok
  | _ => cases h

end Steps

/-! ## Runs -/

section Runs

variable {Tid : Type} [DecidableEq Tid] {s s' : QueueSt Tid} {t : Tid} {a : QueueAct Tid}

/-- The invariant of runs that fit. -/
structure BoundsInv (s : QueueSt Tid) : Prop where
  within : s.dev.Within
  excl : ∀ t u, s.pc t ≠ .idle → u ≠ t → s.pc u = .idle
  pcs : ∀ t, s.pc t ≠ .idle → QueuePcOk s.dev (s.pc t)
  free : (∀ t, s.pc t = .idle) → FlowOk s.dev.flow
  reads : ∀ t, (s.pc t).reading = true → 0 < s.readers

theorem boundsInv_init : BoundsInv (queueSys Tid).init where
  within := ⟨le_rfl, le_rfl, le_rfl, le_rfl⟩
  excl := fun _ _ h => absurd rfl h
  pcs := fun _ h => absurd rfl h
  free := fun _ h => by cases h
  reads := fun _ h => by cases h

theorem reading_of_ne {pc : QueuePc} (h : pc ≠ .idle) (hw : ∀ ws, pc ≠ .writing ws none) :
    pc.reading = true := by
  cases pc with
  | idle => exact absurd rfl h
  | writing ws q =>
    cases q with
    | none => exact absurd rfl (hw ws)
    | some q => rfl
  | _ => rfl

theorem runStep_reading {d d' : QueueDev} {pc pc' : QueuePc} (h : runStep d pc = some (d', pc'))
    (hr : pc'.reading = true) : pc ≠ .idle ∧ pc.reading = true := by
  have hne : pc ≠ .idle := by rintro rfl; cases h
  refine ⟨hne, reading_of_ne hne ?_⟩
  rintro ws rfl
  cases ws <;> cases h <;> cases hr

/-- Thread `t` is the only one inside a call. -/
theorem boundsInv_solo {d' : QueueDev} {n : Nat} {pc' : QueuePc}
    (ho : ∀ u, u ≠ t → s.pc u = .idle) (hw : d'.Within) (hok : QueuePcOk d' pc')
    (hn : pc'.reading = true → 0 < n) :
    BoundsInv { dev := d', readers := n, pc := Function.update s.pc t pc' } := by
  have hother (u : Tid) (hu : u ≠ t) : Function.update s.pc t pc' u = .idle := by
    rw [Function.update_of_ne hu]; exact ho u hu
  have hself : Function.update s.pc t pc' t = pc' := Function.update_self ..
  have hcases (u : Tid) (hu : Function.update s.pc t pc' u ≠ .idle) : u = t := by
    by_contra hne
    exact hu (hother u hne)
  refine ⟨hw, fun u v hu hv => ?_, fun u hu => ?_, fun hall => ?_, fun u hu => ?_⟩
  · obtain rfl := hcases u hu
    exact hother v hv
  · obtain rfl := hcases u hu
    simp only [hself]; exact hok
  · have hidle : pc' = .idle := hself ▸ hall t
    subst hidle
    exact hok
  · obtain rfl := hcases u (by intro h; simp only [h] at hu; cases hu)
    simp only [hself] at hu
    exact hn hu

/-- The one call in progress goes on. -/
theorem BoundsInv.goto (hi : BoundsInv s) {d' : QueueDev} {pc' : QueuePc} (hpc : s.pc t ≠ .idle)
    (hw : d'.Within) (hok : QueuePcOk d' pc')
    (hr : pc'.reading = true → (s.pc t).reading = true) : BoundsInv (s.goto t d' pc') := by
  refine boundsInv_solo (fun u hu => hi.excl t u hpc hu) hw hok fun hn => ?_
  simp only [hn, Bool.not_true, Bool.and_false, Bool.false_eq_true, if_false]
  exact hi.reads t (hr hn)

/-- A call enters while no other is in progress. -/
theorem BoundsInv.enter (hi : BoundsInv s) {rejected : Bool} {pc' : QueuePc}
    (hall : ∀ u, s.pc u = .idle) (h : s.enter t rejected pc' = some s')
    (hok : FlowOk s.dev.flow → QueuePcOk s.dev pc') : BoundsInv s' := by
  unfold QueueSt.enter at h
  split at h
  · split at h <;> cases h
    · exact hi
    · exact boundsInv_solo (fun u _ => hall u) hi.within (hok (hi.free hall)) fun _ =>
        Nat.succ_pos _
  · cases h

theorem fresh_stream {d : QueueDev} (p : StreamParams) (h : FlowOk d.flow) :
    QueuePcOk d (.begin (streamRun p)) := by
  refine ⟨?_, p.iterations.toNat_lt, rfl, rfl, h, by intro h; cases h⟩
  have := p.queueDepth.toNat_lt
  simp only [streamRun]
  split <;> omega

theorem fresh_sweep {d : QueueDev} (p : SweepParams) (h : FlowOk d.flow) :
    QueuePcOk d (.begin (sweepRun p 0)) :=
  ⟨Nat.mod_lt _ (by decide), p.iterations.toNat_lt, rfl, rfl, h, by intro h; cases h⟩

omit [DecidableEq Tid] in
/-- SETUP_RDMA and TEARDOWN_RDMA find no call inside `rdma_sem`. -/
theorem BoundsInv.reset (hi : BoundsInv s) (hr : s.readers = 0) (initialized : Bool)
    (caps : QueueCaps) :
    BoundsInv { s with dev :=
      { noQueues s.dev.flow with initialized := initialized, caps := caps } } := by
  refine ⟨⟨Nat.zero_le _, Nat.zero_le _, Nat.zero_le _, Nat.zero_le _⟩, hi.excl, fun u hu => ?_,
    hi.free, hi.reads⟩
  have hok := hi.pcs u hu
  have hw : ∃ ws, s.pc u = .writing ws none := by
    by_contra hne
    have := hi.reads u (reading_of_ne hu fun ws h => hne ⟨ws, h⟩)
    omega
  obtain ⟨ws, hws⟩ := hw
  simp only [hws] at hok ⊢
  exact hok

theorem bounds_step (hi : BoundsInv s) (hfit : FitsAt s a) (h : queueStep s a = some s') :
    BoundsInv s' := by
  cases a with
  | setup p =>
    simp only [queueStep, Option.ite_none_right_eq_some, Option.some.injEq] at h
    obtain ⟨⟨hr, _⟩, rfl⟩ := h
    exact hi.reset hr true (setupCaps p)
  | teardown =>
    simp only [queueStep, Option.ite_none_right_eq_some, Option.some.injEq] at h
    obtain ⟨hr, rfl⟩ := h
    exact hi.reset hr false _
  | configureCall t p =>
    simp only [queueStep] at h
    split at h
    · split at h <;> cases h
      · rename_i hc
        have hs := flowSet_configure hc s.dev.flow
        exact boundsInv_solo (fun u _ => hfit u) hi.within
          ⟨hs.flowOk, fun n hn => by cases hn⟩ fun hr => by cases hr
      · exact hi
    · cases h
  | streamCall t p => exact hi.enter hfit h fun hf => fresh_stream p hf
  | sweepCall t p => exact hi.enter hfit h fun hf => fresh_sweep p hf
  | sustainedCall t q =>
    refine hi.enter hfit h fun hf => ⟨q.toNat_lt, hf⟩
  | step t =>
    simp only [queueStep, Option.map_eq_some_iff, Prod.exists] at h
    obtain ⟨d', pc', hs, rfl⟩ := h
    have hne : s.pc t ≠ .idle := by intro h0; rw [h0] at hs; cases hs
    obtain ⟨hw, hok⟩ := run_step hs hi.within (hi.pcs t hne) fun r hr => by
      simpa only [FitsAt, hr] using hfit
    exact hi.goto hne hw hok fun hr => (runStep_reading hs hr).2
  | fail t =>
    simp only [queueStep, Option.map_eq_some_iff] at h
    obtain ⟨pc', hs, rfl⟩ := h
    have hne : s.pc t ≠ .idle := by intro h0; rw [h0] at hs; cases hs
    have hw : ∀ ws, s.pc t ≠ .writing ws none := by intro ws h0; rw [h0] at hs; cases hs
    refine hi.goto hne hi.within (run_fail hs hi.within (hi.pcs t hne) (fun r hr => ?_)
      fun r hr => ?_) fun _ => reading_of_ne hne hw
    · simpa only [FitsAt, hr] using hfit
    · rcases hr with hr | hr | hr <;> simpa only [FitsAt, hr] using hfit
  | timeout t =>
    simp only [queueStep, Option.map_eq_some_iff] at h
    obtain ⟨pc', hs, rfl⟩ := h
    have hne : s.pc t ≠ .idle := by intro h0; rw [h0] at hs; cases hs
    have hw : ∀ ws, s.pc t ≠ .writing ws none := by intro ws h0; rw [h0] at hs; cases hs
    exact hi.goto hne hi.within (run_timeout hs (hi.pcs t hne)) fun _ => reading_of_ne hne hw
  | wire w =>
    simp only [queueStep, Option.map_eq_some_iff] at h
    obtain ⟨d', hw, rfl⟩ := h
    have hl := wire_lighter hw
    refine ⟨hi.within.lighter hl, hi.excl, fun u hu => (hi.pcs u hu).lighter hl, fun hall => ?_,
      hi.reads⟩
    rw [hl.flow]
    exact hi.free hall

/-- **Queue bounds.** In every run whose calls come one at a time and whose streaming runs, sweep
points and sustained runs each fit where they begin, at every point the uncompleted sends are
within the send queue of QP-A, the unconsumed receives within the receive queue of QP-B, and the
completions to be polled within CQ-A and CQ-B. -/
theorem queues_within {s : QueueSt Tid} (h : (queueSys Tid).ReachableWith FitsAt s) :
    s.dev.undelivered + s.dev.delivered ≤ s.dev.caps.maxSendWr ∧
      s.dev.rq ≤ s.dev.caps.maxRecvWr ∧ s.dev.cqA.length ≤ s.dev.caps.cqDepth ∧
      s.dev.cqB.length ≤ s.dev.caps.cqDepth := by
  have hi : BoundsInv s := h.invariant boundsInv_init fun _ _ _ => bounds_step
  exact ⟨hi.within.sq, hi.within.rq, le_trans (Nat.le_add_left _ _) hi.within.cqA,
    le_trans (Nat.le_add_left _ _) hi.within.cqB⟩

/-! ## Two runs -/

instance (caps : QueueCaps) (slack n : Nat) : Decidable (RecvFits caps slack n) := by
  unfold RecvFits; infer_instance

instance (d : QueueDev) (r : Run) : Decidable (RunFits d r) :=
  decidable_of_iff (d.undelivered + d.delivered = 0 ∧ window d.flow r ≤ d.caps.maxSendWr ∧
      window d.flow r ≤ d.caps.cqDepth ∧
      RecvFits d.caps r.slack (d.rq + prePostCount d.flow r))
    ⟨fun h => ⟨h.1, h.2.1, h.2.2.1, h.2.2.2⟩, fun h => ⟨h.1, h.2, h.3, h.4⟩⟩

instance [Fintype Tid] (s : QueueSt Tid) (a : QueueAct Tid) : Decidable (FitsAt s a) := by
  unfold FitsAt
  split <;> first | infer_instance | (split <;> infer_instance)

/-- A streaming run of depth 2 on CQs of depth `cqDepth`, up to its first poll; both sends
complete. -/
def twoSendsRun (cqDepth : UInt32) : List (QueueAct (Fin 1)) :=
  QueueAct.setup { cqDepth := cqDepth, maxSendWr := 0, maxRecvWr := 0 } ::
    QueueAct.streamCall 0 { queueDepth := 2, iterations := 2 } ::
    List.replicate 10 (QueueAct.step 0) ++
    ([.wire .deliver, .wire .deliver, .wire .ack, .wire .ack] : List (QueueAct (Fin 1)))

theorem queues_within_two :
    ∃ s : QueueSt (Fin 1), (queueSys (Fin 1)).ReachableWith FitsAt s ∧
      s.dev.cqA = [true, true] ∧ s.dev.cqA.length ≤ s.dev.caps.cqDepth := by
  obtain ⟨s, hr, hq⟩ : ∃ s : QueueSt (Fin 1), (queueSys (Fin 1)).ReachableWith FitsAt s ∧
      s.dev.cqA = [true, true] :=
    Transition.Sys.exists_of_execWith (twoSendsRun 0) (by decide +kernel)
  exact ⟨s, hr, hq, (queues_within hr).2.2.1⟩

/-- The same run after a SETUP_RDMA with `cq_depth` 1. -/
theorem cq_overflows :
    ¬ ∀ s : QueueSt (Fin 1), (queueSys (Fin 1)).Reachable s →
      s.dev.undelivered + s.dev.delivered ≤ s.dev.caps.maxSendWr ∧
        s.dev.rq ≤ s.dev.caps.maxRecvWr ∧ s.dev.cqA.length ≤ s.dev.caps.cqDepth ∧
        s.dev.cqB.length ≤ s.dev.caps.cqDepth := by
  intro h
  obtain ⟨s, hr, hc, hq⟩ : ∃ s : QueueSt (Fin 1), (queueSys (Fin 1)).Reachable s ∧
      s.dev.caps.cqDepth = 1 ∧ s.dev.cqA.length = 2 :=
    Transition.Sys.exists_of_exec (twoSendsRun 1) (by decide +kernel)
  have := (h s hr).2.2.1
  omega

end Runs

end Dmaplane
