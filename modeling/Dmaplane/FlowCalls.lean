import Dmaplane.SustainedCredits

/-!
# Dmaplane.FlowCalls

CONFIGURE_FLOW and SUSTAINED_STREAM one after the other on one device, from module init on. A
SUSTAINED_STREAM is followed through its exits and through every iteration of its two loops; no
other call writes `dev->flow`.

* `FlowCtl.Ordered`   — the relation that `dmaplane_flow_configure` checks.
* `auto_ordered_iff`  — `sustained_auto_configure` establishes it from depth 2 on. At depth 1 the
  clamp that keeps `low_watermark` below `high_watermark` undoes the one that keeps it positive.
* `streaming_credits` — the weaker order that the send loop needs is there at every depth.
* `flow_ordered_iff`  — hence the runs that keep the relation.
-/

namespace Dmaplane

/-- `0 < low_watermark < high_watermark <= max_credits <= 128`. -/
structure FlowCtl.Ordered (flow : FlowCtl) : Prop where
  pos : 0 < flow.lowWatermark
  low : flow.lowWatermark < flow.highWatermark
  high : flow.highWatermark ≤ flow.maxCredits
  depth : flow.maxCredits ≤ 128

/-! ## The calls -/

/-- `dmaplane_flow_configure`: its result, and the record it leaves. -/
def dmaplaneFlowConfigure (p : FlowParams) (flow : FlowCtl) : Except Errno Unit × FlowCtl :=
  match flowCheck p with
  | .error err => (.error err, flow)
  | .ok () => (.ok (), (configureWrites p).foldl FlowCtl.write flow)

/-- `dmaplane_ioctl_configure_flow`. Without parameters `copy_from_user` fails. -/
def dmaplaneIoctlConfigureFlow (copyFrom : Option FlowParams) (copyTo : Bool) (flow : FlowCtl) :
    Except Errno Unit × FlowCtl :=
  match copyFrom with
  | none => (.error .EFAULT, flow)
  | some p =>
    match dmaplaneFlowConfigure p flow with
    | (.error err, flow) => (.error err, flow)
    | (.ok (), flow) => (if copyTo then .ok () else .error .EFAULT, flow)

def sustainedAutoConfigure (queueDepth : Nat) (flow : FlowCtl) : FlowCtl :=
  (autoConfigureWrites queueDepth).foldl FlowCtl.write flow

/-- `dmaplane_sustained_stream` from the allocation of the timestamp ring to the main loop: the
state it gets there with, or its result, and the record it leaves. -/
def sustainedSetUp (dev : SustainedDev) (qdepth : Nat) (env : SustainedEnv) (flow : FlowCtl) :
    Except Errno Sustained × FlowCtl :=
  if !env.alloc then (.error .ENOMEM, flow)
  else
    let flow := { flow with credits := flow.maxCredits, paused := false }
    let prePost := prePostCount flow (sustainedRun qdepth)
    match (List.range prePost).findSome? env.postRecv with
    | some err => (.error err, flow)
    | none =>
      (.ok { flow := flow, stats := dev.stats, rdmaHist := dev.rdmaHist
             recvPosted := prePost, windowStart := env.start }, flow)

/-- All of `dmaplane_sustained_stream` up to the main loop. -/
def sustainedEntry (dev : SustainedDev) (p : SustainedParams) (env : SustainedEnv) :
    Except Errno Sustained × FlowCtl :=
  if !dev.initialized then (.error .ENODEV, dev.flow)
  else
    match sustainedCheck p with
    | .error err => (.error err, dev.flow)
    | .ok () =>
      match env.bufSize with
      | none => (.error .ENOENT, dev.flow)
      | some bufSize =>
        if p.msgSize.toNat > bufSize then (.error .EINVAL, dev.flow)
        else
          let qdepth := p.queueDepth.toNat
          sustainedSetUp dev qdepth env
            (if !dev.flow.configured then sustainedAutoConfigure qdepth dev.flow else dev.flow)

/-- `dmaplane_ioctl_sustained_stream` up to the main loop. -/
def dmaplaneIoctlSustainedStream (dev : SustainedDev) (kmalloc : Bool)
    (copyFrom : Option SustainedParams) (env : SustainedEnv) :
    Except Errno (SustainedParams × Sustained) × FlowCtl :=
  if !kmalloc then (.error .ENOMEM, dev.flow)
  else
    match copyFrom with
    | none => (.error .EFAULT, dev.flow)
    | some p =>
      if !dev.initialized then (.error .ENODEV, dev.flow)
      else
        match sustainedEntry dev p env with
        | (.error err, flow) => (.error err, flow)
        | (.ok s, flow) => (.ok (p, s), flow)

/-! ## Sequences of calls -/

inductive FlowIoctlSt where
  | idle (dev : SustainedDev)
  /-- In the loops of a SUSTAINED_STREAM. -/
  | streaming (p : SustainedParams) (start : Ktime) (st : SustainedSt)

inductive FlowIoctlAct where
  | configureFlow (copyFrom : Option FlowParams) (copyTo : Bool)
  | sustainedStream (kmalloc : Bool) (copyFrom : Option SustainedParams) (env : SustainedEnv)
  /-- The loops go on. -/
  | iterate (a : SustainedAct)
  /-- The stream returns; its reply may not be copied out. -/
  | ret
  /-- Any other calls. -/
  | others (initialized : Bool) (stats : FlowStats) (rdmaHist : Histogram)

/-- `dev->flow`. -/
def FlowIoctlSt.flow : FlowIoctlSt → FlowCtl
  | .idle dev => dev.flow
  | .streaming _ _ st => st.s.flow

def flowIoctlStep : FlowIoctlSt → FlowIoctlAct → Option FlowIoctlSt
  | .idle dev, .configureFlow copyFrom copyTo =>
    some (.idle { dev with flow := (dmaplaneIoctlConfigureFlow copyFrom copyTo dev.flow).2 })
  | .idle dev, .sustainedStream kmalloc copyFrom env =>
    match dmaplaneIoctlSustainedStream dev kmalloc copyFrom env with
    | (.error _, flow) => some (.idle { dev with flow := flow })
    | (.ok (p, s), _) => some (.streaming p env.start { s := s, phase := .main })
  | .idle dev, .others initialized stats rdmaHist =>
    some (.idle
      { initialized := initialized, flow := dev.flow, stats := stats, rdmaHist := rdmaHist })
  | .streaming p start st, .iterate a => (sustainedStep p start st a).map (.streaming p start)
  | .streaming _ _ st, .ret =>
    match st.phase with
    | .done _ _ _ =>
      -- `rdma_sem` is held for reading, so that RDMA is still there
      some (.idle
        { initialized := true, flow := st.s.flow, stats := st.s.stats, rdmaHist := st.s.rdmaHist })
    | _ => none
  | _, _ => none

/-- From module init on. -/
def flowIoctlSys : Transition.Sys FlowIoctlSt FlowIoctlAct where
  init := .idle
    { initialized := false, flow := flowInit, stats := ⟨0, 0⟩, rdmaHist := histogramInit }
  step := flowIoctlStep

/-! ## What a call leaves -/

section Calls

variable {dev : SustainedDev} {p : SustainedParams} {env : SustainedEnv} {flow f : FlowCtl}

theorem FlowCtl.ConfiguredAs.refl (flow : FlowCtl) : flow.ConfiguredAs flow := rfl

theorem FlowCtl.ConfiguredAs.trans_symm {g : FlowCtl} (h : f.ConfiguredAs flow)
    (hg : g.ConfiguredAs flow) : f.ConfiguredAs g := by
  show f = { g with credits := f.credits, paused := f.paused }
  rw [hg]
  exact h

theorem FlowCtl.ConfiguredAs.configured (h : f.ConfiguredAs flow) :
    f.configured = flow.configured := by rw [h]

theorem FlowCtl.ConfiguredAs.ordered_iff (h : f.ConfiguredAs flow) : f.Ordered ↔ flow.Ordered := by
  rw [h]
  constructor <;> exact fun ho => ⟨ho.pos, ho.low, ho.high, ho.depth⟩

theorem FlowCtl.ConfiguredAs.flowOk (h : f.ConfiguredAs flow) (hf : FlowOk flow) : FlowOk f := by
  intro hc
  exact (h.flowSet ⟨h.configured.symm.trans hc, hf (h.configured.symm.trans hc)⟩).2

/-- What the checks of `dmaplane_flow_configure` pass, it stores. -/
theorem configure_ordered {p : FlowParams} (h : flowCheck p = .ok ()) (flow : FlowCtl) :
    ((configureWrites p).foldl FlowCtl.write flow).Ordered := by
  obtain ⟨hpos, hlow, hhigh, hdepth⟩ := flowCheck_ok h
  exact ⟨hpos, hlow, hhigh, hdepth⟩

/-- The derived watermarks are ordered from depth 2 on; below it, `low_watermark` is 0. -/
theorem auto_ordered_iff (q : Nat) (flow : FlowCtl) :
    (sustainedAutoConfigure q flow).Ordered ↔ 2 ≤ q := by
  obtain ⟨-, hmax, hhigh, hlow⟩ := autoConfigure_fields q flow
  rw [← sustainedAutoConfigure] at hmax hhigh hlow
  have hm : autoMaxCredits q = if q * 2 > 128 then 128 else if q < 2 then 2 else q * 2 := by
    simp only [autoMaxCredits]
    split_ifs <;> omega
  constructor
  · intro h
    have hpos := h.pos
    rw [hlow] at hpos
    by_contra hq
    rw [hm] at hpos
    split_ifs at hpos <;> omega
  · intro hq
    have h4 : 4 ≤ autoMaxCredits q ∧ autoMaxCredits q ≤ 128 := by
      rw [hm]
      split_ifs <;> omega
    rw [if_neg (by omega)] at hlow
    constructor <;> omega

theorem autoConfigure_configured (q : Nat) (flow : FlowCtl) :
    (sustainedAutoConfigure q flow).configured = true :=
  (autoConfigure_fields q flow).1

/-- The call gets to its `sustained_auto_configure`. -/
structure AutoConfigures (dev : SustainedDev) (p : SustainedParams) (env : SustainedEnv) : Prop where
  initialized : dev.initialized = true
  checked : sustainedCheck p = .ok ()
  fits : ∃ bufSize, env.bufSize = some bufSize ∧ p.msgSize.toNat ≤ bufSize
  unset : dev.flow.configured = false

theorem sustainedSetUp_flow (dev : SustainedDev) (q : Nat) (env : SustainedEnv) (flow : FlowCtl) :
    (sustainedSetUp dev q env flow).2.ConfiguredAs flow ∧
      ∀ s, (sustainedSetUp dev q env flow).1 = .ok s →
        s.flow = (sustainedSetUp dev q env flow).2 := by
  unfold sustainedSetUp
  split
  · exact ⟨.refl flow, fun s h => by cases h⟩
  · dsimp only
    split
    · exact ⟨rfl, fun s h => by cases h⟩
    · exact ⟨rfl, fun s h => by cases h; rfl⟩

/-- Whether the call gets to `sustained_auto_configure`, and what it then leaves: beyond the
configuration only the credits and the pause. -/
inductive EntryFlow (dev : SustainedDev) (p : SustainedParams) (env : SustainedEnv) (f : FlowCtl) :
    Prop where
  | kept : ¬ AutoConfigures dev p env → f.ConfiguredAs dev.flow → EntryFlow dev p env f
  | derived : AutoConfigures dev p env →
      f.ConfiguredAs (sustainedAutoConfigure p.queueDepth.toNat dev.flow) → EntryFlow dev p env f

theorem sustainedEntry_flow (dev : SustainedDev) (p : SustainedParams) (env : SustainedEnv) :
    EntryFlow dev p env (sustainedEntry dev p env).2 ∧
      ∀ s, (sustainedEntry dev p env).1 = .ok s → s.flow = (sustainedEntry dev p env).2 := by
  unfold sustainedEntry
  split
  · rename_i hi
    exact ⟨.kept (fun h => by simp [h.initialized] at hi) (.refl _), fun s h => by cases h⟩
  · rename_i hi
    split
    · rename_i err hc
      exact ⟨.kept (fun h => by rw [h.checked] at hc; cases hc) (.refl _), fun s h => by cases h⟩
    · rename_i hc
      split
      · rename_i hb
        refine ⟨.kept (fun h => ?_) (.refl _), fun s h => by cases h⟩
        obtain ⟨n, hn, -⟩ := h.fits
        rw [hb] at hn
        cases hn
      · rename_i bufSize hb
        split
        · rename_i hsize
          refine ⟨.kept (fun h => ?_) (.refl _), fun s h => by cases h⟩
          obtain ⟨n, hn, hle⟩ := h.fits
          rw [hb] at hn
          cases hn
          omega
        · rename_i hsize
          obtain ⟨hflow, hok⟩ := sustainedSetUp_flow dev p.queueDepth.toNat env
            (if !dev.flow.configured then sustainedAutoConfigure p.queueDepth.toNat dev.flow
              else dev.flow)
          refine ⟨?_, hok⟩
          cases hset : dev.flow.configured with
          | true =>
            rw [hset] at hflow
            exact .kept (fun h => by rw [h.unset] at hset; cases hset) hflow
          | false =>
            rw [hset] at hflow
            refine .derived ⟨by simpa using hi, hc, ⟨bufSize, hb, by omega⟩, hset⟩ hflow

/-- What the entry gets to the main loop with is what the runs of `Sustained` start from. -/
theorem sustainedEntry_begin (dev : SustainedDev) (p : SustainedParams) (env : SustainedEnv) :
    (sustainedEntry dev p env).1 = sustainedBegin dev p env := by
  unfold sustainedEntry sustainedBegin
  split
  · rfl
  · cases sustainedCheck p with
    | error err => rfl
    | ok u =>
      cases hb : env.bufSize with
      | none => simp only [sustainedPrepare, hb]; rfl
      | some bufSize =>
        simp only [sustainedPrepare, hb]
        split
        · rfl
        · cases ha : env.alloc with
          | false => simp only [sustainedSetUp, ha]; rfl
          | true =>
            have hflow : (if !dev.flow.configured then
                sustainedAutoConfigure p.queueDepth.toNat dev.flow else dev.flow) =
                if dev.flow.configured then dev.flow else
                  (autoConfigureWrites p.queueDepth.toNat).foldl FlowCtl.write dev.flow := by
              cases dev.flow.configured <;> rfl
            rw [hflow]
            simp only [sustainedSetUp, ha, sustainedFlow, Bool.not_true, Bool.false_eq_true, if_false]
            cases List.findSome? env.postRecv _ <;> rfl

/-- The handler ends without a look at the flow, or is `dmaplane_sustained_stream`. -/
theorem ioctlSustainedStream_cases (dev : SustainedDev) (kmalloc : Bool)
    (copyFrom : Option SustainedParams) (env : SustainedEnv) :
    (∃ err, dmaplaneIoctlSustainedStream dev kmalloc copyFrom env = (.error err, dev.flow) ∧
      ∀ p, kmalloc = true → copyFrom = some p → ¬ AutoConfigures dev p env) ∨
    ∃ p, kmalloc = true ∧ copyFrom = some p ∧
      dmaplaneIoctlSustainedStream dev kmalloc copyFrom env =
        ((sustainedEntry dev p env).1.map fun s => (p, s), (sustainedEntry dev p env).2) := by
  unfold dmaplaneIoctlSustainedStream
  split
  · rename_i hk
    exact .inl ⟨_, rfl, fun p hk' => by simp [hk'] at hk⟩
  · rename_i hk
    split
    · exact .inl ⟨_, rfl, fun p _ hp => by cases hp⟩
    · rename_i p
      split
      · rename_i hi
        refine .inl ⟨_, rfl, fun p' _ _ ha => ?_⟩
        simp [ha.initialized] at hi
      · refine .inr ⟨p, by simpa using hk, rfl, ?_⟩
        split
        · rename_i he
          rw [he]
          rfl
        · rename_i he
          rw [he]
          rfl

end Calls

/-! ## The order that the send loop needs -/

/-- However the flow was configured, `can_send` finds its watermarks ordered below the window. -/
def FlowIoctlSt.SendOk : FlowIoctlSt → Prop
  | .idle dev => FlowOk dev.flow
  | .streaming p _ st => ∃ flow, FlowSet flow ∧ st.Holds (InLoop flow p) (Accounts flow)

/-- The step derives a configuration, from the depth `q`. -/
def DerivesFrom (q : UInt32) : FlowIoctlSt → FlowIoctlAct → Prop
  | .idle dev, .sustainedStream true (some p) env => AutoConfigures dev p env ∧ p.queueDepth = q
  | _, _ => False

/-- What a step does to the record: nothing but to the credits and the pause, or one of the two
configurations. -/
inductive FlowChange (s : FlowIoctlSt) (a : FlowIoctlAct) (s' : FlowIoctlSt) : Prop where
  | kept : (∀ q, ¬ DerivesFrom q s a) → s'.flow.ConfiguredAs s.flow → FlowChange s a s'
  | configured (p : FlowParams) : (∀ q, ¬ DerivesFrom q s a) → flowCheck p = .ok () →
      s'.flow = (configureWrites p).foldl FlowCtl.write s.flow → FlowChange s a s'
  | derived (q : UInt32) : DerivesFrom q s a → 0 < q.toNat →
      s'.flow.ConfiguredAs (sustainedAutoConfigure q.toNat s.flow) → FlowChange s a s'

section Runs

variable {s s' : FlowIoctlSt} {a : FlowIoctlAct}

-- Its equations are made here, once for the proofs below.
attribute [local simp] flowIoctlStep

theorem DerivesFrom.unique {q q' : UInt32} (h : DerivesFrom q s a) (h' : DerivesFrom q' s a) :
    q = q' := by
  unfold DerivesFrom at h h'
  split at h
  · exact h.2.symm.trans h'.2
  · exact h.elim

theorem FlowChange.flowOk (hc : FlowChange s a s') (hf : FlowOk s.flow) : FlowOk s'.flow := by
  cases hc with
  | kept _ h => exact h.flowOk hf
  | configured p _ hp h =>
    rw [h]
    exact (flowSet_configure hp s.flow).flowOk
  | derived q _ _ h => exact (h.flowSet (flowSet_autoConfigure q.toNat s.flow)).flowOk

theorem loops_step {p : SustainedParams} {start : Ktime} {st st' : SustainedSt} {flow : FlowCtl}
    (hset : FlowSet flow) (hi : st.Holds (InLoop flow p) (Accounts flow)) {a : SustainedAct}
    (hs : sustainedStep p start st a = some st') : st'.Holds (InLoop flow p) (Accounts flow) :=
  holds_step (fun _ _ h => h.mainIteration hset) (fun _ h => h.toAccounts)
    (fun poll cqB _ hpos h => h.drainIteration poll cqB hpos) hi hs

/-- The state that a SUSTAINED_STREAM goes to, and its record. -/
theorem stream_step {dev : SustainedDev} {kmalloc : Bool} {copyFrom : Option SustainedParams}
    {env : SustainedEnv} (hs : flowIoctlStep (.idle dev) (.sustainedStream kmalloc copyFrom env) =
      some s') :
    FlowChange (.idle dev) (.sustainedStream kmalloc copyFrom env) s' ∧
      ((∃ flow, s' = .idle { dev with flow := flow }) ∨
        ∃ p s₀, sustainedBegin dev p env = .ok s₀ ∧
          s' = .streaming p env.start { s := s₀, phase := .main }) := by
  rcases ioctlSustainedStream_cases dev kmalloc copyFrom env with ⟨err, hr, hno⟩ | ⟨p, rfl, rfl, hr⟩
  · simp only [flowIoctlStep, hr] at hs
    cases hs
    refine ⟨.kept (fun q h => ?_) (.refl _), .inl ⟨_, rfl⟩⟩
    cases kmalloc with
    | false => exact h
    | true => cases copyFrom with
      | none => exact h
      | some p => exact hno p rfl rfl h.1
  · obtain ⟨hflow, hok⟩ := sustainedEntry_flow dev p env
    have hs' : s'.flow = (sustainedEntry dev p env).2 ∧
        ((∃ flow, s' = .idle { dev with flow := flow }) ∨ ∃ s₀,
          (sustainedEntry dev p env).1 = .ok s₀ ∧
            s' = .streaming p env.start { s := s₀, phase := .main }) := by
      simp only [flowIoctlStep, hr] at hs
      cases he : (sustainedEntry dev p env).1 with
      | error err =>
        rw [he] at hs
        cases hs
        exact ⟨rfl, .inl ⟨_, rfl⟩⟩
      | ok s₀ =>
        rw [he] at hs
        cases hs
        exact ⟨hok s₀ he, .inr ⟨s₀, rfl, rfl⟩⟩
    refine ⟨?_, hs'.2.imp_right fun ⟨s₀, he, hst⟩ => ⟨p, s₀, ?_, hst⟩⟩
    · cases hflow with
      | kept hno hsame =>
        rw [← hs'.1] at hsame
        exact .kept (fun q h => hno h.1) hsame
      | derived ha hsame =>
        rw [← hs'.1] at hsame
        exact .derived p.queueDepth ⟨ha, rfl⟩ (sustainedCheck_ok ha.checked).1 hsame
    · rw [← he, sustainedEntry_begin]

theorem configure_step {dev : SustainedDev} {copyFrom : Option FlowParams} {copyTo : Bool}
    (hs : flowIoctlStep (.idle dev) (.configureFlow copyFrom copyTo) = some s') :
    FlowChange (.idle dev) (.configureFlow copyFrom copyTo) s' := by
  cases hs
  cases copyFrom with
  | none => exact .kept (fun _ h => h) (.refl _)
  | some p =>
    cases hc : flowCheck p with
    | error err =>
      refine .kept (fun _ h => h) ?_
      simp only [FlowIoctlSt.flow, dmaplaneIoctlConfigureFlow, dmaplaneFlowConfigure, hc]
      exact .refl _
    | ok u =>
      refine .configured p (fun _ h => h) hc ?_
      simp only [FlowIoctlSt.flow, dmaplaneIoctlConfigureFlow, dmaplaneFlowConfigure, hc]

/-- Every step changes the record in one of these ways, and keeps what the send loop needs. -/
theorem flowIoctl_step (hi : s.SendOk) (hs : flowIoctlStep s a = some s') :
    FlowChange s a s' ∧ s'.SendOk := by
  cases s with
  | idle dev =>
    cases a with
    | configureFlow copyFrom copyTo =>
      have hc := configure_step hs
      have hf := hc.flowOk hi
      cases hs
      exact ⟨hc, hf⟩
    | sustainedStream kmalloc copyFrom env =>
      obtain ⟨hc, hst⟩ := stream_step hs
      refine ⟨hc, ?_⟩
      rcases hst with ⟨flow, rfl⟩ | ⟨p, s₀, hb, rfl⟩
      · exact hc.flowOk hi
      · exact ⟨_, flowSet_sustained hi _, (sustainedBegin_ok hb).inLoop⟩
    | others initialized stats rdmaHist =>
      cases hs
      exact ⟨.kept (fun _ h => h) (.refl _), hi⟩
    | iterate | ret => cases hs
  | streaming p start st =>
    obtain ⟨flow, hset, hl⟩ := hi
    have hsame := (Accounts.of_holds hl).same
    cases a with
    | iterate a =>
      obtain ⟨st', hst, rfl⟩ := Option.map_eq_some_iff.mp hs
      have hl' := loops_step hset hl hst
      exact ⟨.kept (fun _ h => h) ((Accounts.of_holds hl').same.trans_symm hsame), flow, hset, hl'⟩
    | ret =>
      simp only [flowIoctlStep] at hs
      split at hs <;> cases hs
      exact ⟨.kept (fun _ h => h) (.refl _), (hsame.flowSet hset).flowOk⟩
    | configureFlow | sustainedStream | others => cases hs

theorem sendOk (h : flowIoctlSys.Reachable s) : s.SendOk := by
  refine h.invariant (I := FlowIoctlSt.SendOk) ?_ fun s a s' hi hs => (flowIoctl_step hi hs).2
  intro hc
  cases hc

/-- **The send loop makes progress** in every stream of every sequence of calls: a refused send
waits for a completion that is due. -/
theorem streaming_credits {p : SustainedParams} {start : Ktime} {st : SustainedSt}
    (h : flowIoctlSys.Reachable (.streaming p start st)) (hmain : st.phase = .main) :
    ∃ flow, FlowSet flow ∧ LoopCredits flow p st.s := by
  obtain ⟨flow, hset, hl⟩ := sendOk h
  simp only [SustainedSt.Holds, hmain] at hl
  exact ⟨flow, hset, hl.loopCredits hset⟩

/-! ## The relation -/

/-- A configured flow is ordered. -/
def FlowIoctlSt.Related (s : FlowIoctlSt) : Prop := s.flow.configured = true → s.flow.Ordered

theorem FlowChange.related (hc : FlowChange s a s') (hr : s.Related) (hone : ¬ DerivesFrom 1 s a) :
    s'.Related := by
  intro hconf
  cases hc with
  | kept _ h => exact h.ordered_iff.mpr (hr (h.configured.symm.trans hconf))
  | configured p _ hp h =>
    rw [h]
    exact configure_ordered hp s.flow
  | derived q hq hpos h =>
    refine h.ordered_iff.mpr ((auto_ordered_iff _ _).mpr ?_)
    have hne : q.toNat ≠ 1 := fun he => by
      have hq1 : q = 1 := UInt32.toNat_inj.mp he
      rw [hq1] at hq
      exact hone hq
    omega

theorem FlowChange.unrelated (hc : FlowChange s a s') (hone : DerivesFrom 1 s a) :
    ¬ s'.Related := by
  intro hr
  cases hc with
  | kept hno _ => exact hno 1 hone
  | configured p hno _ _ => exact hno 1 hone
  | derived q hq _ h =>
    cases hq.unique hone
    have ho := hr (h.configured.trans (autoConfigure_configured _ _))
    have h2 := (auto_ordered_iff _ _).mp (h.ordered_iff.mp ho)
    exact absurd h2 (by decide)

theorem DerivesFrom.enabled {q : UInt32} (h : DerivesFrom q s a) :
    ∃ s', flowIoctlStep s a = some s' := by
  unfold DerivesFrom at h
  split at h
  · rename_i dev p env
    rcases hr : dmaplaneIoctlSustainedStream dev true (some p) env with ⟨_ | _, f⟩
    · exact ⟨_, by simp only [flowIoctlStep, hr]; rfl⟩
    · exact ⟨_, by simp only [flowIoctlStep, hr]; rfl⟩
  · exact h.elim

end Runs

/-- The parameters cannot be read, or `dmaplane_flow_configure` refuses them. A reply that cannot
be copied out comes after the configuration, which stands. -/
def FlowIoctlAct.Refused (flow : FlowCtl) : FlowIoctlAct → Prop
  | .configureFlow none _ => True
  | .configureFlow (some p) _ => ∃ err, (dmaplaneFlowConfigure p flow).1 = .error err
  | _ => False

theorem refused_keeps {s s' : FlowIoctlSt} {a : FlowIoctlAct} (h : a.Refused s.flow)
    (hs : flowIoctlStep s a = some s') : s'.flow = s.flow := by
  cases a with
  | configureFlow copyFrom copyTo =>
    cases s with
    | idle dev =>
      cases hs
      cases copyFrom with
      | none => rfl
      | some p =>
        obtain ⟨err, herr⟩ := h
        cases hc : flowCheck p with
        | error err =>
          simp only [FlowIoctlSt.flow, dmaplaneIoctlConfigureFlow, dmaplaneFlowConfigure, hc]
        | ok u =>
          simp only [dmaplaneFlowConfigure, hc] at herr
          cases herr
    | streaming => cases hs
  | sustainedStream | iterate | ret | others => exact h.elim

/-- Along the run `acts` from module init, the flow is ordered in every state in which it is
configured, and a refused CONFIGURE_FLOW leaves it as it was. -/
structure KeepsRelation (acts : List FlowIoctlAct) : Prop where
  related : ∀ as s, as <+: acts → flowIoctlSys.exec flowIoctlSys.init as = some s →
    s.flow.configured = true → s.flow.Ordered
  refused : ∀ as a s s', as ++ [a] <+: acts →
    flowIoctlSys.exec flowIoctlSys.init as = some s → flowIoctlStep s a = some s' →
    a.Refused s.flow → s'.flow = s.flow

/-- **The flow invariant**: a run keeps it exactly if no SUSTAINED_STREAM of the run derives its
configuration from depth 1. -/
theorem flow_ordered_iff (acts : List FlowIoctlAct) :
    KeepsRelation acts ↔ ∀ as a s, as ++ [a] <+: acts →
      flowIoctlSys.exec flowIoctlSys.init as = some s → ¬ DerivesFrom 1 s a := by
  have hkeep : ∀ s a s', flowIoctlSys.Reachable s → s.Related → ¬ DerivesFrom 1 s a →
      flowIoctlSys.step s a = some s' → s'.Related := fun s a s' hr hrel hone hs =>
    (flowIoctl_step (sendOk hr) hs).1.related hrel hone
  have hbreak : ∀ s a, flowIoctlSys.Reachable s → s.Related → ¬ ¬ DerivesFrom 1 s a →
      ∃ s', flowIoctlSys.step s a = some s' ∧ ¬ s'.Related := fun s a hr _ hone => by
    obtain ⟨s', hs⟩ := (not_not.mp hone).enabled
    exact ⟨s', hs, (flowIoctl_step (sendOk hr) hs).1.unrelated (not_not.mp hone)⟩
  have hinit : flowIoctlSys.init.Related := fun hc => by cases hc
  have hrun := Transition.Sys.exec_keeps_iff hinit hkeep hbreak acts
  exact ⟨fun h => hrun.mp h.related,
    fun h => ⟨hrun.mpr h, fun _ _ _ _ _ _ hs hrefused => refused_keeps hrefused hs⟩⟩

/-- RDMA is set up, and a stream of one second at depth 1 runs into its deadline. -/
def depthOne : List FlowIoctlAct :=
  [.others true ⟨0, 0⟩ histogramInit,
   .sustainedStream true (some { msgSize := 1, queueDepth := 1, durationSecs := 1 }) sampleEnv,
   .iterate (.iteration 1000000001 ⟨0, none, 0, .empty, 0, none, []⟩ 1000000001),
   .iterate (.drain 1000000001 .empty 0 1000000001), .ret]

/-- It leaves `low_watermark` 0, which `dmaplane_flow_configure` refuses. -/
theorem depth_one_unordered : ¬ KeepsRelation depthOne ∧
    (∃ s, flowIoctlSys.exec flowIoctlSys.init depthOne = some s ∧
      s.flow = { credits := 2, maxCredits := 2, highWatermark := 1, lowWatermark := 0
                 configured := true, paused := false }) ∧
    flowCheck ⟨2, 1, 0⟩ = .error .EINVAL := by
  have hrun : (flowIoctlSys.exec flowIoctlSys.init depthOne).any (fun s => decide
      (s.flow = { credits := 2, maxCredits := 2, highWatermark := 1, lowWatermark := 0
                  configured := true, paused := false })) = true := by decide +kernel
  obtain ⟨s, hs, hflow⟩ := (Option.any_eq_true _ _).mp hrun
  have hflow' := of_decide_eq_true hflow
  refine ⟨fun h => ?_, ⟨s, hs, hflow'⟩, rfl⟩
  have ho := h.related depthOne s (List.prefix_refl _) hs (by rw [hflow'])
  rw [hflow'] at ho
  exact absurd ho.pos (by decide)

end Dmaplane
