import Dmaplane.ExportOwner
import Dmaplane.MrFlow

/-!
# Dmaplane.MrTeardown

No MR survives the RDMA context (`no_mr_without_ctx`). TEARDOWN_RDMA deregisters every MR before it
tears the context down. The undo of SETUP_RDMA does not: it relies on there being none, although it
has released `rdma_sem` in between, and an MR that another thread has registered meanwhile is left
in use (`mr_survives_undo`).
-/

namespace Dmaplane

/-- The thread is between the check of `initialized` and the publication of an MR. -/
def MrPc.registering : MrPc → Bool
  | .register _ | .registerMapped _ _ _ | .gpuRegister _ | .gpuRegisterMapped _ _ => true
  | _ => false

theorem MrPc.reading_of_registering {pc : MrPc} (h : pc.registering = true) :
    pc.reading = true := by
  cases pc <;> first | rfl | cases h

variable {Tid : Type}

/-! ## The context and the MRs -/

structure CtxInv (s : MrSt Tid) : Prop where
  registering : ∀ t, (s.pc t).registering = true → s.ctx.initialized = true
  closed : s.ctx.initialized = false → ∀ k, (s.tab.mrs k).inUse = false

theorem Shrinks.inUse {tab tab' : MrTable} (h : Shrinks tab tab') {k : Fin maxMrs}
    (hk : (tab.mrs k).inUse = false) : (tab'.mrs k).inUse = false := by
  by_contra hin
  have hin : (tab'.mrs k).inUse = true := by simpa using hin
  rw [h.mrs k hin, hk] at hin
  cases hin

theorem CtxInv.entering {s : MrSt Tid} {t : Tid} {pc : MrPc} (hi : CtxInv s)
    (h : Entering s t pc) (hpc : pc.registering = true) : s.ctx.initialized = true := by
  cases pc with
  | register snap => exact h.1
  | registerMapped snap sgt frmr => exact hi.registering t (by rw [h.1]; rfl)
  | gpuRegister slot => exact h
  | gpuRegisterMapped slot sgt => exact hi.registering t (by rw [h.1]; rfl)
  | _ => cases hpc

theorem CtxInv.publishes {s : MrSt Tid} {t : Tid} {mr : DmaplaneMrEntry} (hi : CtxInv s)
    (h : Publishes s t mr) : s.ctx.initialized = true := by
  cases h with
  | host hpc => exact hi.registering t (by rw [hpc]; rfl)
  | gpu hpc => exact hi.registering t (by rw [hpc]; rfl)

variable [DecidableEq Tid]

/-! ## Who holds `rdma_sem` for reading -/

theorem readers_goto {s : MrSt Tid} (hi : ∀ t, t ∈ s.readers ↔ (s.pc t).reading = true) {t : Tid}
    {pc : MrPc} (u : Tid) :
    u ∈ (s.goto t pc).readers ↔ ((s.goto t pc).pc u).reading = true := by
  simp only [MrSt.goto]
  by_cases hu : u = t
  · subst hu
    rw [Function.update_self]
    cases hpc : pc.reading <;> simp
  · rw [Function.update_of_ne hu, ← hi u]
    cases hpc : pc.reading <;> simp [hu]

theorem readers_step {s s' : MrSt Tid} {a : MrAct Tid}
    (hi : ∀ t, t ∈ s.readers ↔ (s.pc t).reading = true) (h : mrStep s a = some s') :
    ∀ t, t ∈ s'.readers ↔ (s'.pc t).reading = true := by
  cases mrStep_flow h with
  | setup | undo | move | publish =>
    refine readers_goto ?_
    exact hi
  | _ => exact hi

theorem mem_readers {ok : MrSt Tid → MrAct Tid → Prop} {s : MrSt Tid}
    (h : (mrSys Tid).ReachableWith ok s) (t : Tid) :
    t ∈ s.readers ↔ (s.pc t).reading = true := by
  refine h.invariant (I := fun s => ∀ t, t ∈ s.readers ↔ (s.pc t).reading = true) ?_ ?_ t
  · intro t; simp [mrSys, mrInit, MrPc.reading]
  · intro s a s' hi _ hs
    exact readers_step hi hs

/-! ## Runs -/

/-- The undo of SETUP_RDMA finds no MR. -/
def UndoFindsNoMr (s : MrSt Tid) : MrAct Tid → Prop
  | .setupUndo _ => ∀ k, (s.tab.mrs k).inUse = false
  | _ => True

instance (s : MrSt Tid) : (a : MrAct Tid) → Decidable (UndoFindsNoMr s a)
  | .setupUndo _ => inferInstanceAs (Decidable (∀ _, _ = false))
  | .buf _ | .gpuPin _ _ _ | .gpuUnpin _ | .gpuRevoke _ | .connectPeer | .destroyPeer
  | .setupRdma _ _ | .setupCopy _ _ | .teardownRdma | .registerMr _ _ _ _ | .registerMap _ _
  | .registerPublish _ | .registerCopy _ _ | .registerUndo _ | .deregisterMr _ _
  | .gpuRegisterMr _ _ | .gpuRegisterMap _ _ | .gpuRegisterPublish _ | .gpuRegisterCopy _ _
  | .gpuRegisterUndo _ | .op _ _ | .opValidate _ | .post _ _ | .opEnd _ => isTrue trivial

theorem registering_goto {s : MrSt Tid} {t u : Tid} {pc : MrPc}
    (h : ((s.goto t pc).pc u).registering = true) :
    pc.registering = true ∨ (s.pc u).registering = true := by
  simp only [MrSt.goto] at h
  by_cases hu : u = t
  · subst hu
    rw [Function.update_self] at h
    exact .inl h
  · rw [Function.update_of_ne hu] at h
    exact .inr h

theorem ctxInv_step {s s' : MrSt Tid} {a : MrAct Tid}
    (hr : ∀ t, t ∈ s.readers ↔ (s.pc t).reading = true) (hi : CtxInv s) (hok : UndoFindsNoMr s a)
    (h : mrStep s a = some s') : CtxInv s' := by
  have hnobody : s.readers = ∅ → ∀ t, (s.pc t).registering = false := by
    intro he t
    by_contra hreg
    have hmem := (hr t).mpr (MrPc.reading_of_registering (by simpa using hreg))
    rw [he] at hmem
    cases hmem
  cases mrStep_flow h with
  | same => exact hi
  | buf => exact ⟨hi.registering, hi.closed⟩
  | gpu => exact ⟨hi.registering, hi.closed⟩
  | peer => exact ⟨hi.registering, hi.closed⟩
  | setup _ _ hinit =>
    refine ⟨fun u _ => hinit, fun hnot => ?_⟩
    simp only [MrSt.goto] at hnot
    rw [hinit] at hnot; cases hnot
  | undo he =>
    refine ⟨fun u hu => ?_, fun _ => hok⟩
    rcases registering_goto hu with hpc | hu
    · cases hpc
    · simp only [hnobody he u] at hu; cases hu
  | teardown he =>
    have hclear := deregisterAll_clears s.ctx (List.pairwise_lt_finRange maxMrs)
      (fun i (_ : (s.tab.mrs i).inUse = true) => List.mem_finRange i)
    generalize deregisterAll s.ctx s.tab (List.finRange maxMrs) = tab at hclear ⊢
    refine ⟨fun u hu => ?_, fun _ => hclear⟩
    simp only [hnobody he u] at hu; cases hu
  | dereg =>
    have hs := deregister_shrinks s.ctx s.tab ‹_›
    exact ⟨hi.registering, fun hinit k => hs.inUse (hi.closed hinit k)⟩
  | move hs he =>
    refine ⟨fun u hu => ?_, fun hinit k => hs.inUse (hi.closed hinit k)⟩
    rcases registering_goto hu with hpc | hu
    · exact hi.entering he hpc
    · exact hi.registering u hu
  | publish ha hslot hp hmrs hnext hpc =>
    have hinit := hi.publishes hp
    refine ⟨fun u _ => hinit, fun hnot => ?_⟩
    simp only [MrSt.goto] at hnot
    rw [hinit] at hnot; cases hnot

theorem ctxInv {s : MrSt Tid} (h : (mrSys Tid).ReachableWith UndoFindsNoMr s) : CtxInv s := by
  refine h.invariant₂ (I := fun s => ∀ t, t ∈ s.readers ↔ (s.pc t).reading = true)
    (fun s hs => mem_readers hs) ?_ ?_
  · refine ⟨fun t ht => ?_, fun _ _ => rfl⟩
    cases ht
  · intro s a s' hr hi hok hs
    exact ctxInv_step hr hi hok hs

/-- If every undo of SETUP_RDMA finds no MR, then there is no MR without a context. -/
theorem no_mr_without_ctx {s : MrSt Tid} (h : (mrSys Tid).ReachableWith UndoFindsNoMr s)
    (hinit : s.ctx.initialized = false) (k : Fin maxMrs) : (s.tab.mrs k).inUse = false :=
  (ctxInv h).closed hinit k

/-- Thread `t` registers the one-page buffer as the MR with id 1. -/
def registerOnePage (t : Fin 2) : List (MrAct (Fin 2)) :=
  [.registerMr t 1 ibAccessLocalWrite true, .registerMap t ⟨.ok 1, .error .ENOMEM⟩,
   .registerPublish t, .registerCopy t true]

/-- A setup is undone, another one torn down with its MR. -/
def setupTwice : List (MrAct (Fin 2)) :=
  createOnePage.map MrAct.buf ++
    ([.setupRdma 0 7, .setupCopy 0 false, .setupUndo 0, .setupRdma 0 7,
      .setupCopy 0 true] : List (MrAct (Fin 2))) ++
    registerOnePage 1 ++ ([.teardownRdma] : List (MrAct (Fin 2)))

theorem no_mr_without_ctx_torn_down : ∃ s : MrSt (Fin 2),
    s.tab.mrsRegistered = 1 ∧ ∀ k, (s.tab.mrs k).inUse = false := by
  obtain ⟨s, hr, hinit, hreg⟩ : ∃ s : MrSt (Fin 2), (mrSys (Fin 2)).ReachableWith UndoFindsNoMr s ∧
      s.ctx.initialized = false ∧ s.tab.mrsRegistered = 1 :=
    Transition.Sys.exists_of_execWith setupTwice (by decide +kernel)
  exact ⟨s, hreg, no_mr_without_ctx hr hinit⟩

/-- `copy_to_user` fails for one thread after another has registered an MR. -/
theorem mr_survives_undo : ∃ s : MrSt (Fin 2), (mrSys (Fin 2)).Reachable s ∧
    s.ctx.initialized = false ∧ (s.tab.mrs 0).inUse = true :=
  Transition.Sys.exists_of_exec
    (createOnePage.map MrAct.buf ++ [MrAct.setupRdma 0 7] ++ registerOnePage 1 ++
      [MrAct.setupCopy 0 false, MrAct.setupUndo 0]) (by decide +kernel)

end Dmaplane
