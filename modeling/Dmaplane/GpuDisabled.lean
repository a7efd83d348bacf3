import Dmaplane.Lib.Stuck
import Dmaplane.GpuCalls
import Dmaplane.MrConserved

/-!
# Dmaplane.GpuDisabled

GPU calls on a device without a GPU. If `dmaplane_init` finds no memory for the table or not all
three symbols, it says "GPU support disabled" and goes on with `gpu_buffers == NULL`; of the GPU
code only `dmaplane_exit` asks for that. So a call is safe exactly if there is a GPU or the call
ends before it looks at the table (`gpuCall_safe_iff`).

With a GPU every call returns, by one lemma a function (`pin_ready`, `unpin_ready`, …); without one
each function that reaches the lock is stuck there (`stuck_without_gpu`). Neither the pointers nor
the lock change after init, so the two cases do not mix along a run.
-/

namespace Dmaplane

open Fallible

/-- Init gets all it asks for. -/
def GpuInitEnv.enabled (env : GpuInitEnv) : Bool :=
  env.kcalloc && env.symbols.getPages && env.symbols.putPages && env.symbols.freePageTable

def GpuStats.zero : GpuStats :=
  { pinsTotal := 0, unpinsTotal := 0, callbacksFired := 0, dmaH2gBytes := 0, dmaG2hBytes := 0
    gpuMrsRegistered := 0 }

/-- An error or an empty result. -/
def GpuReply.Empty : GpuReply → Prop
  | .error _ => True
  | .stats s => s = .zero
  | .shown bufs s => bufs = [] ∧ s = .zero
  | _ => False

/-- The call returns; without a GPU, it returns an error or an empty result. -/
def GpuSafe (d : GpuDev) (c : GpuCall) : Prop :=
  ∃ r d', gpuCall d c = .ok (r, d') ∧ (d.gpuBuffers = false → r.Empty)

/-- The call ends before it looks at the GPU table, and GPU_LOOPBACK, which never does, fails. -/
def GpuCall.EndsEarly (mr : MrRes) : GpuCall → Prop
  | .pin gpuVa size _ copyIn _ => copyIn = false ∨ pinMisaligned gpuVa size = true
  | .unpin _ copyIn => copyIn = false
  | .dmaToHost _ _ _ _ _ copyIn _ => copyIn = false
  | .dmaFromHost _ _ _ _ _ copyIn _ => copyIn = false
  | .bench _ _ _ iterations copyIn _ => copyIn = false ∨ iterations = 0
  | .registerMr _ _ copyIn _ => copyIn = false ∨ mr.ctx.initialized = false
  | .loopback gpuMrId hostMrId size verbs copyIn copyOut =>
      copyIn = false ∨ copyOut = false ∨ mr.ctx.initialized = false ∨ size = 0 ∨
        dmabufRdmaFindMr mr.tab gpuMrId = none ∨ dmabufRdmaFindMr mr.tab hostMrId = none ∨
        ∃ e, verbs = .error e
  | .getStats _ => True
  | .gpuShow => False

/-! ## With a GPU -/

/-- The pointers and the lock are as init leaves them when it succeeds. -/
structure GpuReady (d : GpuDev) : Prop where
  gpuBuffers : d.gpuBuffers = true
  lockInit : d.lockInit = true
  nv : d.nv = ⟨true, true, true⟩

section Ready

variable {d : GpuDev}

/-- The step leaves the pointers and the lock. -/
def LeavesReady {α : Type} (r : α × GpuDev) : Prop := GpuReady r.2

theorem GpuReady.lock (h : GpuReady d) : Done d.lock fun _ => True := ⟨(), if_pos h.lockInit, trivial⟩

theorem GpuReady.table (h : GpuReady d) : Done d.table fun gpu => gpu = d.gpu :=
  ⟨d.gpu, if_pos h.gpuBuffers, rfl⟩

theorem GpuReady.callNv {resolved : Bool} (h : resolved = true) :
    Done (Dmaplane.callNv resolved) fun _ => True := ⟨(), if_pos h, trivial⟩

theorem pin_ready (h : GpuReady d) (gpuVa size : BitVec 64) (env : GpuPinEnv) :
    Done (dmaplaneGpuPin gpuVa size env d) LeavesReady := by
  unfold dmaplaneGpuPin
  split
  · exact .ok h
  refine h.lock.bind fun _ _ => h.table.bind fun gpu _ => ?_
  split
  · exact .ok h
  refine (GpuReady.callNv (by rw [h.nv])).bind fun _ _ => ?_
  have hput : Done (if env.putsPages then callNv d.nv.putPages else .ok ()) fun _ => True := by
    split
    · exact GpuReady.callNv (by rw [h.nv])
    · exact .ok trivial
  refine hput.bind fun _ _ => ?_
  split
  · exact .ok ⟨h.gpuBuffers, h.lockInit, h.nv⟩
  · exact .ok ⟨h.gpuBuffers, h.lockInit, h.nv⟩

theorem unpin_ready (h : GpuReady d) (handle : BitVec 32) :
    Done (dmaplaneGpuUnpin handle d) LeavesReady := by
  unfold dmaplaneGpuUnpin
  refine h.lock.bind fun _ _ => h.table.bind fun gpu _ => ?_
  split
  · exact .ok h
  rename_i slot _
  refine (GpuReady.callNv ?_).bind fun _ _ => .ok ⟨h.gpuBuffers, h.lockInit, h.nv⟩
  rw [h.nv, ite_self]

theorem lookup_ready (h : GpuReady d) (handle : BitVec 32) :
    Done (gpuLookup handle d) fun _ => True := by
  unfold gpuLookup
  refine h.lock.bind fun _ _ => h.table.bind fun gpu _ => ?_
  split
  · exact .ok trivial
  · split
    · exact .ok trivial
    · exact .ok trivial

theorem dmaCheck_ready (h : GpuReady d) (dev : BufTable) (gpuHandle hostHandle : BitVec 32)
    (offset size : BitVec 64) :
    Done (gpuDmaCheck dev gpuHandle hostHandle offset size d) fun _ => True := by
  unfold gpuDmaCheck
  refine (lookup_ready h gpuHandle).bind fun r _ => ?_
  split
  · exact .ok trivial
  split
  · exact .ok trivial
  split
  · exact .ok trivial
  split
  · exact .ok trivial
  · exact .ok trivial

theorem dmaToHost_ready (h : GpuReady d) (dev : BufTable) (gpuHandle hostHandle : BitVec 32)
    (offset size : BitVec 64) :
    Done (dmaplaneGpuDmaToHost dev gpuHandle hostHandle offset size d) LeavesReady := by
  unfold dmaplaneGpuDmaToHost
  refine (dmaCheck_ready h dev gpuHandle hostHandle offset size).bind fun r _ => ?_
  split
  · exact .ok h
  · exact .ok ⟨h.gpuBuffers, h.lockInit, h.nv⟩

theorem dmaFromHost_ready (h : GpuReady d) (dev : BufTable) (gpuHandle hostHandle : BitVec 32)
    (offset size : BitVec 64) :
    Done (dmaplaneGpuDmaFromHost dev gpuHandle hostHandle offset size d) LeavesReady := by
  unfold dmaplaneGpuDmaFromHost
  refine (dmaCheck_ready h dev gpuHandle hostHandle offset size).bind fun r _ => ?_
  split
  · exact .ok h
  · exact .ok ⟨h.gpuBuffers, h.lockInit, h.nv⟩

theorem benchmark_ready (h : GpuReady d) (dev : BufTable)
    (gpuHandle hostHandle iterations : BitVec 32) :
    Done (dmaplaneGpuBenchmark dev gpuHandle hostHandle iterations d) fun _ => True := by
  unfold dmaplaneGpuBenchmark
  split
  · exact .ok trivial
  refine (lookup_ready h gpuHandle).bind fun r _ => ?_
  split
  · exact .ok trivial
  split
  · exact .ok trivial
  split
  · exact .ok trivial
  · exact .ok trivial

theorem registerOn_ready (h : GpuReady d) (handle : BitVec 32) (env : GpuRegisterEnv) :
    Done (gpuRegisterOn handle env d) LeavesReady := by
  unfold gpuRegisterOn
  split
  · exact .ok h
  refine h.lock.bind fun _ _ => h.table.bind fun gpu _ => ?_
  exact .ok ⟨h.gpuBuffers, h.lockInit, h.nv⟩

theorem show_ready (h : GpuReady d) : Done (dmaplaneGpuShow d) fun _ => True := by
  unfold dmaplaneGpuShow
  exact h.lock.bind fun _ _ => h.table.bind fun gpu _ => .ok trivial

/-- With a GPU every call returns. -/
theorem call_ready (h : GpuReady d) (c : GpuCall) : Done (gpuCall d c) LeavesReady := by
  unfold gpuCall
  split
  swap
  · exact .ok h
  cases c with
  | pin gpuVa size env copyIn copyOut =>
    refine (pin_ready h gpuVa size env).bind fun (r, d₁) h₁ => ?_
    cases r with
    | error e => exact .ok h₁
    | ok p =>
      show Done (if copyOut then _ else _) _
      split
      · exact .ok h₁
      · exact (unpin_ready h₁ p.handle).bind fun (_, d₂) h₂ => .ok h₂
  | unpin handle copyIn => exact (unpin_ready h handle).bind fun (_, d₁) h₁ => .ok h₁
  | dmaToHost dev gpuHandle hostHandle offset size copyIn copyOut =>
    exact (dmaToHost_ready h dev gpuHandle hostHandle offset size).bind fun (_, d₁) h₁ => .ok h₁
  | dmaFromHost dev gpuHandle hostHandle offset size copyIn copyOut =>
    exact (dmaFromHost_ready h dev gpuHandle hostHandle offset size).bind fun (_, d₁) h₁ => .ok h₁
  | bench dev gpuHandle hostHandle iterations copyIn copyOut =>
    exact (benchmark_ready h dev gpuHandle hostHandle iterations).bind fun _ _ => .ok h
  | registerMr handle env copyIn copyOut =>
    refine (registerOn_ready h handle env).bind fun (r, d₁) h₁ => ?_
    cases r with
    | error e => exact .ok h₁
    | ok mrId =>
      show Done (if copyOut then _ else _) _
      split
      · exact .ok h₁
      · exact .ok ⟨h₁.gpuBuffers, h₁.lockInit, h₁.nv⟩
  | loopback gpuMrId hostMrId size verbs copyIn copyOut => exact .ok h
  | getStats copyOut => exact .ok h
  | gpuShow => exact (show_ready h).bind fun _ _ => .ok h

/-- `dmaplane_exit` unpins what is left. -/
theorem unpinAll_ready (slots : List (Fin maxGpuBuffers)) {d : GpuDev} (h : GpuReady d) :
    Done (unpinAll slots d) GpuReady := by
  induction slots generalizing d with
  | nil => exact .ok h
  | cons slot slots ih =>
    unfold unpinAll
    refine h.table.bind fun gpu _ => ?_
    split
    · exact (unpin_ready h _).bind fun (_, d₁) h₁ => ih h₁
    · exact ih h

end Ready

/-! ## Without a GPU -/

section Disabled

variable {d : GpuDev}

/-- Whatever takes the lock and scans the table is stuck there. -/
theorem stuck_without_gpu {α : Type} (hd : d.gpuBuffers = false)
    (f : Unit → GpuTable → Except GpuOops α) : Stuck (d.lock >>= fun u => d.table >>= f u) := by
  cases hl : d.lockInit with
  | false => exact Stuck.bind ⟨.lockUninit, by rw [GpuDev.lock, hl]; rfl⟩
  | true =>
    refine Stuck.bind_ok (a := ()) (by rw [GpuDev.lock, hl]; rfl) (Stuck.bind ⟨.nullTable, ?_⟩)
    rw [GpuDev.table, hd]; rfl

theorem lookup_stuck (hd : d.gpuBuffers = false) (handle : BitVec 32) :
    Stuck (gpuLookup handle d) := stuck_without_gpu hd _

theorem replyOf_empty {α : Type} {copyOut : Bool} {ok : α → GpuReply} {r : Except Errno α}
    (hok : ∀ a, ¬ (ok a).Empty) :
    (replyOf copyOut ok r).Empty ↔ copyOut = false ∨ ∃ e, r = .error e := by
  cases r with
  | error e => exact iff_of_true trivial (.inr ⟨e, rfl⟩)
  | ok a =>
    cases copyOut with
    | false => exact iff_of_true trivial (.inl rfl)
    | true => exact iff_of_false (hok a) (by rintro (h | ⟨e, h⟩) <;> cases h)

/-- GPU_LOOPBACK asks the MR table only. -/
theorem loopback_error (gpuMrId hostMrId size : BitVec 32) (verbs : Except Errno (BitVec 32)) :
    (∃ e, benchmarkGpuLoopback gpuMrId hostMrId size verbs d = .error e) ↔
      d.mr.ctx.initialized = false ∨ size = 0 ∨
        dmabufRdmaFindMr d.mr.tab gpuMrId = none ∨ dmabufRdmaFindMr d.mr.tab hostMrId = none ∨
        ∃ e, verbs = .error e := by
  unfold benchmarkGpuLoopback
  cases hinit : d.mr.ctx.initialized with
  | false => exact iff_of_true ⟨.EINVAL, rfl⟩ (.inl rfl)
  | true =>
    rw [if_neg (by simp)]
    by_cases hsize : size = 0
    · rw [if_pos hsize]
      exact iff_of_true ⟨.EINVAL, rfl⟩ (.inr (.inl hsize))
    rw [if_neg hsize]
    cases dmabufRdmaFindMr d.mr.tab gpuMrId <;> cases dmabufRdmaFindMr d.mr.tab hostMrId <;>
      simp only [hsize, reduceCtorEq, false_or, true_or, or_true, Except.error.injEq, exists_eq']

/-- Without a GPU a call either ends early and changes nothing, or is stuck. -/
theorem call_without_gpu (hd : d.gpuBuffers = false) (hz : d.stats = .zero) (c : GpuCall) :
    (∃ r, gpuCall d c = .ok (r, d) ∧ (r.Empty ↔ c.EndsEarly d.mr)) ∨
      Stuck (gpuCall d c) ∧ ¬ c.EndsEarly d.mr := by
  unfold gpuCall
  cases hin : c.copyIn with
  | false =>
    refine .inl ⟨.error .EFAULT, rfl, iff_of_true trivial ?_⟩
    cases c <;> simp only [GpuCall.copyIn, Bool.true_eq_false] at hin <;>
      simp only [GpuCall.EndsEarly, hin, true_or]
  | true =>
    simp only [if_true]
    cases c with
    | pin gpuVa size env copyIn copyOut =>
      obtain rfl : copyIn = true := hin
      cases hm : pinMisaligned gpuVa size with
      | true =>
        refine .inl ⟨.error .EINVAL, ?_, iff_of_true trivial (.inr hm)⟩
        simp only [gpuDispatch, dmaplaneGpuPin, hm, if_true]; rfl
      | false =>
        refine .inr ⟨Stuck.bind ?_, by simp [GpuCall.EndsEarly, hm]⟩
        unfold dmaplaneGpuPin
        rw [hm]
        exact stuck_without_gpu hd _
    | unpin handle copyIn =>
      obtain rfl : copyIn = true := hin
      exact .inr ⟨Stuck.bind (stuck_without_gpu hd _), by simp [GpuCall.EndsEarly]⟩
    | dmaToHost dev gpuHandle hostHandle offset size copyIn copyOut =>
      obtain rfl : copyIn = true := hin
      exact .inr ⟨(lookup_stuck hd _).bind.bind.bind, by simp [GpuCall.EndsEarly]⟩
    | dmaFromHost dev gpuHandle hostHandle offset size copyIn copyOut =>
      obtain rfl : copyIn = true := hin
      exact .inr ⟨(lookup_stuck hd _).bind.bind.bind, by simp [GpuCall.EndsEarly]⟩
    | bench dev gpuHandle hostHandle iterations copyIn copyOut =>
      obtain rfl : copyIn = true := hin
      by_cases hit : iterations = 0
      · refine .inl ⟨.error .EINVAL, ?_, iff_of_true trivial (.inr hit)⟩
        simp only [gpuDispatch, dmaplaneGpuBenchmark, hit, if_true]; rfl
      · refine .inr ⟨Stuck.bind ?_, fun h => hit (h.resolve_left Bool.noConfusion)⟩
        unfold dmaplaneGpuBenchmark
        rw [if_neg hit]
        exact (lookup_stuck hd _).bind
    | registerMr handle env copyIn copyOut =>
      obtain rfl : copyIn = true := hin
      cases hinit : d.mr.ctx.initialized with
      | false =>
        refine .inl ⟨.error .EINVAL, ?_, iff_of_true trivial (.inr hinit)⟩
        simp only [gpuDispatch, gpuRegisterOn, hinit]; rfl
      | true =>
        refine .inr ⟨Stuck.bind ?_, by simp [GpuCall.EndsEarly, hinit]⟩
        unfold gpuRegisterOn
        rw [hinit]
        exact stuck_without_gpu hd _
    | loopback gpuMrId hostMrId size verbs copyIn copyOut =>
      obtain rfl : copyIn = true := hin
      have hlooped : ∀ a, ¬ (GpuReply.looped a).Empty := fun _ h => h
      refine .inl ⟨_, rfl, (replyOf_empty hlooped).trans ?_⟩
      rw [loopback_error]
      simp [GpuCall.EndsEarly]
    | getStats copyOut =>
      refine .inl ⟨_, rfl, iff_of_true ?_ trivial⟩
      cases copyOut with
      | true => exact hz
      | false => trivial
    | gpuShow => exact .inr ⟨(stuck_without_gpu hd _).bind, id⟩

end Disabled

/-! ## Runs -/

section Runs

variable {env : GpuInitEnv} {d : GpuDev}

theorem buildSgt_gpuMrs (tab : MrTable) (pages : List Page) (env : RegisterEnv) :
    (registerMrBuildSgt tab pages env).2.gpuMrsRegistered = tab.gpuMrsRegistered := by
  rw [(buildSgt_allocates tab pages env).same]

theorem fastreg_gpuMrs (tab : MrTable) (sgt : SgTable) (env : RegisterEnv) :
    (registerMrFastreg tab sgt env).2.gpuMrsRegistered = tab.gpuMrsRegistered := by
  rw [(fastreg_allocates tab sgt env).same]

theorem publish_gpuMrs (s : MrRes) (snap : RegSnapshot) (sgt : SgTable) (frmr : Option IbMr) :
    (s.publish snap sgt frmr).2.tab.gpuMrsRegistered = s.tab.gpuMrsRegistered := by
  simp only [MrRes.publish, registerPublish]
  cases s.tab.freeMrSlot with
  | none => cases frmr <;> rfl
  | some slot => rfl

theorem registerMapped_gpuMrs (s : MrRes) (snap : RegSnapshot) (env : RegisterEnv) (copy : Nat) :
    (registerMapped s snap env copy).2.tab.gpuMrsRegistered = s.tab.gpuMrsRegistered := by
  have hsgt := buildSgt_gpuMrs s.tab snap.pages env
  unfold registerMapped
  generalize registerMrBuildSgt s.tab snap.pages env = r at hsgt ⊢
  obtain ⟨r, tab⟩ := r
  cases r with
  | error e => exact hsgt
  | ok sgt =>
    have hfast := fastreg_gpuMrs tab sgt env
    simp only [MrRes.withTab, MrRes.kvfree]
    split
    · split
      · rename_i h
        rw [h] at hfast; exact hfast.trans hsgt
      · rename_i h
        rw [h] at hfast; exact (publish_gpuMrs _ _ _ _).trans (hfast.trans hsgt)
    · exact (publish_gpuMrs _ _ _ _).trans hsgt

theorem registerMr_gpuMrs (dev : BufTable) (bufId accessFlags : BitVec 32) (env : RegisterEnv)
    (s : MrRes) : (rdmaEngineRegisterMr dev bufId accessFlags env s).2.tab.gpuMrsRegistered =
      s.tab.gpuMrsRegistered := by
  unfold rdmaEngineRegisterMr
  split
  · rfl
  split
  · rfl
  simp only []
  split
  · split
    · rfl
    split
    · rfl
    split
    · rfl
    · exact registerMapped_gpuMrs _ _ _ _
  · rfl

theorem deregister_gpuMrs (ctx : MrCtx) (tab : MrTable) (mrId : BitVec 32) :
    (deregister ctx tab mrId).2.gpuMrsRegistered = tab.gpuMrsRegistered := by
  unfold deregister
  split
  · rfl
  rename_i slot _
  generalize tab.mrs slot = mr
  obtain ⟨_, _, ibMr, _, _, _, sgt, _, _, _⟩ := mr
  cases sgt <;> cases ibMr <;> cases ctx.ibDev <;> rfl

theorem deregisterAll_gpuMrs (ctx : MrCtx) (tab : MrTable) (js : List (Fin maxMrs)) :
    (deregisterAll ctx tab js).gpuMrsRegistered = tab.gpuMrsRegistered := by
  induction js generalizing tab with
  | nil => rfl
  | cons j js ih =>
    rw [deregisterAll, ih]
    split
    · exact deregister_gpuMrs ctx tab _
    · rfl

theorem undoUnless_gpuMrs (copyOk : Bool) (r : Except Errno (BitVec 32) × MrRes) :
    (undoUnless copyOk r).tab.gpuMrsRegistered = r.2.tab.gpuMrsRegistered := by
  obtain ⟨r, s⟩ := r
  cases r with
  | error e => rfl
  | ok mrId =>
    cases copyOk with
    | true => rfl
    | false => exact deregister_gpuMrs s.ctx s.tab mrId

/-- What holds along a run: the outcome of init, and without a GPU no statistics. -/
def GpuInitEnv.Kept (env : GpuInitEnv) (d : GpuDev) : Prop :=
  (env.enabled = true ∧ GpuReady d) ∨
    (env.enabled = false ∧ d.gpuBuffers = false ∧ d.stats = .zero)

theorem init_kept (env : GpuInitEnv) : env.Kept (dmaplaneInit env) := by
  obtain ⟨kcalloc, getPages, putPages, freePageTable⟩ := env
  cases kcalloc with
  | false => exact .inr ⟨rfl, rfl, rfl⟩
  | true =>
    cases getPages <;> cases putPages <;> cases freePageTable <;>
      first
        | exact .inr ⟨rfl, rfl, rfl⟩
        | exact .inl ⟨rfl, rfl, rfl, rfl⟩

/-- Another use of the MR table: it registers no GPU MR. -/
theorem GpuInitEnv.Kept.mr (h : env.Kept d) {mr : MrRes}
    (hmr : mr.tab.gpuMrsRegistered = d.mr.tab.gpuMrsRegistered) : env.Kept { d with mr := mr } := by
  rcases h with ⟨he, h⟩ | ⟨he, hd, hz⟩
  · exact .inl ⟨he, h.gpuBuffers, h.lockInit, h.nv⟩
  · refine .inr ⟨he, hd, ?_⟩
    rw [← hz]
    simp only [GpuDev.stats, hmr]

theorem kept_step {a : GpuDevAct} {d' : GpuDev} (h : env.Kept d) (hs : gpuDevStep d a = some d') :
    env.Kept d' := by
  cases a with
  | call c =>
    rcases h with ⟨he, h⟩ | ⟨he, hd, hz⟩
    · obtain ⟨⟨r, d₁⟩, hcall, hready⟩ := call_ready h c
      simp only [gpuDevStep, hcall, Option.some.injEq] at hs
      subst hs
      exact .inl ⟨he, hready⟩
    · rcases call_without_gpu hd hz c with ⟨r, hcall, _⟩ | ⟨⟨o, hcall⟩, _⟩
      · simp only [gpuDevStep, hcall, Option.some.injEq] at hs
        subst hs
        exact .inr ⟨he, hd, hz⟩
      · simp only [gpuDevStep, hcall, reduceCtorEq] at hs
  | revoke slot =>
    cases hs
    rcases h with ⟨he, h⟩ | ⟨he, hd, hz⟩
    · exact .inl ⟨he, h.gpuBuffers, h.lockInit, h.nv⟩
    · exact .inr ⟨he, hd, hz⟩
  | setup lkey ok copyOk =>
    cases hs
    refine h.mr ?_
    simp only [mrOp]
    split <;> rfl
  | teardown => cases hs; exact h.mr (deregisterAll_gpuMrs _ _ _)
  | register dev bufId accessFlags renv copyOk =>
    cases hs
    exact h.mr ((undoUnless_gpuMrs copyOk _).trans (registerMr_gpuMrs dev bufId accessFlags renv _))
  | deregister mrId => cases hs; exact h.mr (deregister_gpuMrs _ _ mrId)

theorem kept (h : (gpuDevSys env).Reachable d) : env.Kept d :=
  h.invariant (init_kept env) fun _ _ _ => kept_step

/-- **GPU-less operation.** In every state after init, a GPU call returns, and without a GPU
with an error or an empty result, if and only if init got the table and the three symbols or the
call ends before it looks at the table. -/
theorem gpuCall_safe_iff (h : (gpuDevSys env).Reachable d) (c : GpuCall) :
    GpuSafe d c ↔ env.enabled = true ∨ c.EndsEarly d.mr := by
  rcases kept h with ⟨he, hready⟩ | ⟨he, hd, hz⟩
  · refine iff_of_true ?_ (.inl he)
    obtain ⟨⟨r, d'⟩, hcall, _⟩ := call_ready hready c
    refine ⟨r, d', hcall, fun hd => ?_⟩
    rw [hready.gpuBuffers] at hd; cases hd
  · rw [he, or_iff_right Bool.false_ne_true]
    rcases call_without_gpu hd hz c with ⟨r, hcall, hiff⟩ | ⟨hstuck, hearly⟩
    · rw [← hiff]
      constructor
      · rintro ⟨r', d', hcall', hempty⟩
        rw [hcall] at hcall'; cases hcall'
        exact hempty hd
      · exact fun hempty => ⟨r, d, hcall, fun _ => hempty⟩
    · refine iff_of_false ?_ hearly
      rintro ⟨r, d', hcall, _⟩
      exact hstuck.not_done (Q := fun _ => True) ⟨_, hcall, trivial⟩

/-- `dmaplane_exit` asks for the table first, and is safe with a GPU and without. -/
theorem exit_returns (h : (gpuDevSys env).Reachable d) : Done (dmaplaneExit d) fun _ => True := by
  have hunpin : Done (if d.gpuBuffers then unpinAll (List.finRange maxGpuBuffers) d else .ok d)
      fun _ => True := by
    rcases kept h with ⟨_, hready⟩ | ⟨_, hd, _⟩
    · rw [hready.gpuBuffers]
      exact (unpinAll_ready _ hready).mono fun _ _ => trivial
    · rw [hd]; exact .ok trivial
  exact hunpin.bind fun _ _ => .ok trivial

/-- With a GPU, a pin whose result does not reach user space. -/
theorem gpuCall_safe_pin :
    GpuSafe (dmaplaneInit ⟨true, true, true, true⟩)
      (.pin 65536 65536 ⟨.ok [0], true, true, true, true, none, 0⟩ true false) :=
  have h : (gpuDevSys ⟨true, true, true, true⟩).Reachable (dmaplaneInit ⟨true, true, true, true⟩) :=
    .refl
  (gpuCall_safe_iff h _).mpr (.inl rfl)

/-- The module is loaded without `nvidia.ko`: GPU_UNPIN reads `gpu_buffers[0]`. Had `kcalloc` failed,
a read of the debugfs file would take a lock that was never set up. -/
theorem gpu_disabled_oops :
    gpuCall (dmaplaneInit ⟨true, false, false, false⟩) (.unpin 1 true) = .error .nullTable ∧
      gpuCall (dmaplaneInit ⟨false, false, false, false⟩) .gpuShow = .error .lockUninit ∧
      ¬ ∀ env d, (gpuDevSys env).Reachable d → ∀ c, GpuSafe d c := by
  refine ⟨rfl, rfl, fun h => ?_⟩
  obtain ⟨r, d', hcall, _⟩ := h ⟨true, false, false, false⟩ _ .refl (.unpin 1 true)
  cases hcall

end Runs

end Dmaplane
