import Dmaplane.BufferUnload
import Mathlib.Algebra.BigOperators.Group.Finset.Piecewise

/-!
# Dmaplane.BufferDrain

The buffers wind down. A thread in CREATE_BUFFER, DESTROY_BUFFER, mmap or EXPORT_DMABUF, a VMA and
a dma-buf have only so many steps ahead of them (`toDo`), and one of them can always be taken: no
section keeps `buf_lock` for ever, and no reference is left that nobody can drop. So the module can
be unloaded in the end (`buffers_drain`).
-/

namespace Dmaplane

open BufSt

variable {Tid : Type}

/-- A reference is there to be dropped, and a dma-buf that nobody knows is about to get its fd. -/
def BufSt.PhaseOk (s : BufSt Tid) (d : Nat) : DmabufPhase → Prop
  | .live refs => refs ≠ 0
  | .fresh => ∃ t slot ctx, s.lock = some (t, .exportBuf slot ctx d)
  | _ => True

/-- What keeps the code from getting stuck. -/
structure DrainInv (s : BufSt Tid) : Prop where
  busy : ∃ F : Finset Tid, ∀ t ∉ F, s.user t = .idle
  destroying : ∀ t slot, s.lock = some (t, .destroyChecked slot) → ∃ id, s.user t = .destroy id
  phases : ∀ d, s.PhaseOk d (s.dmabufs d).phase

namespace DrainInv

variable {s s' : BufSt Tid}

theorem phaseOk_mono {d : Nat} {phase : DmabufPhase} (h : s.PhaseOk d phase)
    (hl : ∀ t slot ctx, s.lock = some (t, .exportBuf slot ctx d) → s'.lock = s.lock) :
    s'.PhaseOk d phase := by
  cases phase with
  | fresh =>
    obtain ⟨t, slot, ctx, hs⟩ := h
    exact ⟨t, slot, ctx, (hl t slot ctx hs).trans hs⟩
  | live refs => exact h
  | unused | dying | releasing | cleared | counted | gone => trivial

/-- The threads are where they were, and so is the holder of `buf_lock` if it is destroying. -/
theorem frame (h : DrainInv s) (huser : s'.user = s.user) (hdm : s'.dmabufs = s.dmabufs)
    (hold : ∀ t slot ctx d, s.lock = some (t, .exportBuf slot ctx d) → s'.lock = s.lock)
    (hnew : ∀ t slot, s'.lock = some (t, .destroyChecked slot) → s'.lock = s.lock) :
    DrainInv s' := by
  refine ⟨huser ▸ h.busy, fun t slot hl => ?_, fun d => ?_⟩
  · rw [huser]
    exact h.destroying t slot ((hnew t slot hl).symm.trans hl)
  · rw [hdm]
    exact phaseOk_mono (h.phases d) fun t slot ctx hl => hold t slot ctx d hl

/-- One dma-buf changes its phase. -/
theorem frame_phase (h : DrainInv s) (d : Nat) (huser : s'.user = s.user)
    (hdm : ∀ d', d' ≠ d → s'.dmabufs d' = s.dmabufs d')
    (hold : ∀ t slot ctx d', d' ≠ d → s.lock = some (t, .exportBuf slot ctx d') → s'.lock = s.lock)
    (hnew : ∀ t slot, s'.lock = some (t, .destroyChecked slot) → s'.lock = s.lock)
    (hd : s'.PhaseOk d (s'.dmabufs d).phase) : DrainInv s' := by
  refine ⟨huser ▸ h.busy, fun t slot hl => ?_, fun d' => ?_⟩
  · rw [huser]
    exact h.destroying t slot ((hnew t slot hl).symm.trans hl)
  · by_cases hne : d' = d
    · exact hne ▸ hd
    · rw [hdm d' hne]
      exact phaseOk_mono (h.phases d') fun t slot ctx hl => hold t slot ctx d' hne hl

/-- A section is entered. -/
theorem enter (h : DrainInv s) {t : Tid} {sec : BufSection} (hl : s.lock = none)
    (hno : ∀ slot, sec ≠ .destroyChecked slot) (huser : s'.user = s.user)
    (hdm : s'.dmabufs = s.dmabufs) (hl' : s'.lock = some (t, sec)) : DrainInv s' := by
  refine h.frame huser hdm (fun t' slot ctx d hs => ?_) fun t' slot hs => ?_
  · rw [hl] at hs
    cases hs
  · rw [hl'] at hs
    cases hs
    exact absurd rfl (hno slot)

theorem setPhase (h : DrainInv s) {d : Nat} (phase : DmabufPhase)
    (huser : s'.user = s.user) (hl : s'.lock = s.lock)
    (hdm : s'.dmabufs = (s.setPhase d phase).dmabufs) (hok : s'.PhaseOk d phase) :
    DrainInv s' := by
  refine h.frame_phase d huser (fun d' hne => ?_) (fun _ _ _ _ _ _ => hl) (fun _ _ _ => hl) ?_
  · rw [hdm, setPhase_of_ne hne]
  · rw [hdm, setPhase_self]
    exact hok

variable [DecidableEq Tid]

/-- One thread moves on. -/
theorem frame_user (h : DrainInv s) (t : Tid) (pc : BufPc)
    (huser : s'.user = Function.update s.user t pc) (hdm : s'.dmabufs = s.dmabufs)
    (hold : ∀ t slot ctx d, s.lock = some (t, .exportBuf slot ctx d) → s'.lock = s.lock)
    (hnew : ∀ t' slot, s'.lock = some (t', .destroyChecked slot) → t' ≠ t ∧ s'.lock = s.lock) :
    DrainInv s' := by
  refine ⟨?_, fun t' slot hl => ?_, fun d => ?_⟩
  · obtain ⟨F, hF⟩ := h.busy
    refine ⟨insert t F, fun t' ht' => ?_⟩
    rw [Finset.mem_insert, not_or] at ht'
    rw [huser, Function.update_of_ne ht'.1]
    exact hF t' ht'.2
  · obtain ⟨hne, hsame⟩ := hnew t' slot hl
    rw [huser, Function.update_of_ne hne]
    exact h.destroying t' slot (hsame.symm.trans hl)
  · rw [hdm]
    exact phaseOk_mono (h.phases d) fun t slot ctx hl => hold t slot ctx d hl

/-- The holder of `buf_lock` leaves a section that is not about to make an fd. -/
theorem leave (h : DrainInv s) {t : Tid} {sec : BufSection} (hsec : s.section? t = some sec)
    (hno : ∀ slot ctx d, sec ≠ .exportBuf slot ctx d) (huser : s'.user = s.user)
    (hdm : s'.dmabufs = s.dmabufs) (hl : s'.lock = none) : DrainInv s' := by
  refine h.frame huser hdm (fun t' slot ctx d hl' => ?_) fun t' slot hl' => ?_
  · rw [section?_some hsec] at hl'
    cases hl'
    exact absurd rfl (hno slot ctx d)
  · rw [hl] at hl'
    cases hl'

theorem step {a : BufAct Tid} (h : DrainInv s) (hs : bufStep s a = some s') : DrainInv s' := by
  cases a with
  | create t params env =>
    simp only [bufStep] at hs
    split at hs
    · split at hs
      · cases hs; exact h
      · split at hs
        · rename_i hl
          split at hs <;> cases hs
          · exact h.frame rfl rfl (fun _ _ _ _ _ => rfl) fun _ _ _ => rfl
          · exact h.enter hl.1 (by simp) rfl rfl rfl
        · cases hs
    · cases hs
  | createPublish t =>
    simp only [bufStep] at hs
    split at hs <;> cases hs
    rename_i slot hsec
    refine h.frame_user t (.createCopy (s.dev.buffers slot).id) rfl rfl ?_ ?_
    · intro t' slot' ctx d hl
      rw [section?_some hsec] at hl; cases hl
    · intro t' slot' hl; cases hl
  | createCopy t copyOk =>
    simp only [bufStep] at hs
    split at hs <;> cases hs
    rename_i bufId hu
    refine h.frame_user t _ rfl rfl (fun _ _ _ _ _ => rfl) fun t' slot hl => ⟨?_, rfl⟩
    rintro rfl
    obtain ⟨id, hd⟩ := h.destroying t' slot hl
    rw [hu] at hd; cases hd
  | destroyCall t bufId =>
    simp only [bufStep] at hs
    split at hs <;> cases hs
    rename_i hidle
    refine h.frame_user t _ rfl rfl (fun _ _ _ _ _ => rfl) fun t' slot hl => ⟨?_, rfl⟩
    rintro rfl
    obtain ⟨id, hd⟩ := h.destroying t' slot hl
    rw [hidle.1] at hd; cases hd
  | destroyLocked t =>
    simp only [bufStep] at hs
    split at hs
    · rename_i bufId hu
      split at hs
      · rename_i hl
        have hold : ∀ (t : Tid) slot ctx d, s.lock ≠ some (t, .exportBuf slot ctx d) := by
          intro t slot ctx d hs; rw [hl] at hs; cases hs
        split at hs <;> cases hs
        · refine h.frame_user t _ rfl rfl (fun _ _ _ _ _ => rfl) fun t' slot hl' => ?_
          rw [show s.lock = some (t', .destroyChecked slot) from hl'] at hl; cases hl
        · refine ⟨h.busy, fun t' slot hl' => ?_, fun d => ?_⟩
          · cases hl'; exact ⟨bufId, hu⟩
          · exact phaseOk_mono (h.phases d) fun t slot ctx hl' => absurd hl' (hold t slot ctx d)
      · cases hs
    · cases hs
  | destroyFree t =>
    simp only [bufStep] at hs
    split at hs <;> cases hs
    rename_i slot hsec
    refine h.frame_user t .idle rfl rfl ?_ ?_
    · intro t' slot' ctx d hl
      rw [section?_some hsec] at hl; cases hl
    · intro t' slot' hl; cases hl
  | mmap t pgoff size inserts =>
    simp only [bufStep] at hs
    split at hs
    · rename_i hl
      split at hs <;> cases hs
      · exact h
      · exact h.enter hl.2 (by simp) rfl rfl rfl
    · cases hs
  | mmapCount t =>
    simp only [bufStep] at hs
    split at hs <;> cases hs
    rename_i hsec
    exact h.leave hsec (by simp) rfl rfl rfl
  | vmaOpen | vmaClose | exportCount =>
    simp only [bufStep] at hs
    split at hs <;> cases hs
    exact h.frame rfl rfl (fun _ _ _ _ _ => rfl) fun _ _ _ => rfl
  | exportLocked t bufId kzallocOk =>
    simp only [bufStep] at hs
    split at hs
    · rename_i hl
      split at hs
      · cases hs; exact h
      · split at hs <;> cases hs
        · exact h.enter hl.2 (by simp) rfl rfl rfl
        · exact h
    · cases hs
  | exportBuf t exportOk =>
    simp only [bufStep] at hs
    split at hs
    · rename_i slot ctx hsec
      split at hs <;> cases hs
      · refine h.frame_phase s.nextDmabuf rfl (fun d' hne => Function.update_of_ne hne _ _) ?_ ?_ ?_
        · intro t' slot' ctx' d' _ hl
          rw [section?_some hsec] at hl; cases hl
        · intro t' slot' hl; cases hl
        · simp only [Function.update_self]
          exact ⟨t, slot, ctx, rfl⟩
      · exact h.leave hsec (by simp) rfl rfl rfl
    · cases hs
  | exportFd t fd =>
    simp only [bufStep] at hs
    split at hs
    · rename_i slot ctx d hsec
      have hold : ∀ (s₁ : BufSt Tid) t' slot' ctx' d', d' ≠ d →
          s.lock = some (t', .exportBuf slot' ctx' d') → s₁.lock = s.lock := by
        intro s₁ t' slot' ctx' d' hne hl
        rw [section?_some hsec] at hl; cases hl
        exact absurd rfl hne
      have hd (phase : DmabufPhase) {s₁ : BufSt Tid} (hok : s₁.PhaseOk d phase)
          (hdm : s₁.dmabufs = (s.setPhase d phase).dmabufs) :
          s₁.PhaseOk d (s₁.dmabufs d).phase := by
        rw [hdm, setPhase_self]; exact hok
      split at hs <;> cases hs
      · refine h.frame_phase d rfl (fun d' hne => setPhase_of_ne hne) (hold _) ?_
          (hd (.live 1) Nat.one_ne_zero rfl)
        intro t' slot' hl; cases hl
      · refine h.frame_phase d rfl (fun d' hne => setPhase_of_ne hne) (hold _) ?_
          (hd .dying trivial rfl)
        intro t' slot' hl; cases hl
      · refine h.frame_phase d rfl (fun d' hne => setPhase_of_ne hne) (hold _) ?_
          (hd .releasing trivial rfl)
        intro t' slot' hl; cases hl
    · cases hs
  | exportPublish t =>
    simp only [bufStep] at hs
    split at hs <;> cases hs
    rename_i hsec
    exact h.leave hsec (by simp) rfl rfl rfl
  | exportFree t =>
    simp only [bufStep] at hs
    split at hs <;> cases hs
    rename_i hsec
    exact h.leave hsec (by simp) rfl rfl rfl
  | dmabufGet d =>
    simp only [bufStep] at hs
    split at hs <;> cases hs
    rename_i refs hp
    exact h.setPhase (.live (refs + 1)) rfl rfl rfl (Nat.succ_ne_zero refs)
  | dmabufPut d =>
    simp only [bufStep] at hs
    split at hs <;> cases hs
    · rename_i refs hp
      exact h.setPhase (.live (refs + 1)) rfl rfl rfl (Nat.succ_ne_zero refs)
    · rename_i hp
      exact h.setPhase .dying rfl rfl rfl trivial
  | releaseEnter d =>
    simp only [bufStep] at hs
    split at hs <;> cases hs
    rename_i hp
    exact h.setPhase .releasing rfl rfl rfl trivial
  | releaseLocked d =>
    simp only [bufStep] at hs
    split at hs
    · rename_i hp
      split at hs <;> cases hs
      exact h.setPhase .cleared rfl rfl rfl trivial
    · cases hs
  | releaseCount d =>
    simp only [bufStep] at hs
    split at hs <;> cases hs
    rename_i hp
    exact h.setPhase .counted rfl rfl rfl trivial
  | releaseFree d =>
    simp only [bufStep] at hs
    split at hs <;> cases hs
    rename_i hp
    exact h.setPhase .gone rfl rfl rfl trivial

end DrainInv

theorem drainInv [DecidableEq Tid] {s : BufSt Tid} (h : (bufSys Tid).Reachable s) : DrainInv s := by
  refine h.invariant ⟨⟨∅, fun _ _ => rfl⟩, ?_, fun d => trivial⟩ fun _ _ _ hi hs => hi.step hs
  intro t slot hl; cases hl

/-- The actions that start nothing and make no new reference. -/
def BufAct.WindsDown : BufAct Tid → Prop
  | .create .. | .destroyCall .. | .mmap .. => False
  | .vmaOpen .. | .exportLocked .. | .dmabufGet .. => False
  | _ => True

def DmabufPhase.rank : DmabufPhase → Nat
  | .fresh => 6
  | .live refs => 4 + refs
  | .dying => 4
  | .releasing => 3
  | .cleared => 2
  | .counted => 1
  | .unused | .gone => 0

def BufPc.rank : BufPc → Nat
  | .idle => 0
  | .destroy _ => 2
  | .createCopy _ => 3

/-- Leaving a section may put its thread, a VMA or a dma-buf in the way instead. -/
def lockRank : Option (Tid × BufSection) → Nat
  | none => 1
  | some (_, .destroyChecked _) => 0
  | some (_, .createFilled _) => 5
  | some (_, .mmapInserted _) => 3
  | some (_, .exportCtx ..) => 10
  | some (_, .exportBuf ..) => 3
  | some (_, .exportFd ..) => 3
  | some (_, .exportPut _) => 2
  | some (_, .exportPutSync _) => 2

namespace BufSt

def pcSum (s : BufSt Tid) (F : Finset Tid) : Nat := ∑ t ∈ F, (s.user t).rank

def phaseSum (s : BufSt Tid) : Nat := ∑ d ∈ Finset.range s.nextDmabuf, (s.dmabufs d).phase.rank

/-- The steps that the threads in `F` and the references have ahead of them, at most. -/
def toDo (s : BufSt Tid) (F : Finset Tid) : Nat :=
  lockRank s.lock + s.vmas.length + s.phaseSum + s.counting.card + s.pcSum F

/-- Nobody else is in the driver. -/
def BusyIn (s : BufSt Tid) (F : Finset Tid) : Prop :=
  ∀ t, s.user t ≠ .idle ∨ (∃ sec, s.lock = some (t, sec)) → t ∈ F

end BufSt

section Drain

theorem sum_update {ι : Type} [DecidableEq ι] {F : Finset ι} {i : ι} (hi : i ∈ F) (f : ι → Nat)
    (n : Nat) : ∑ j ∈ F, Function.update f i n j + f i = ∑ j ∈ F, f j + n := by
  rw [Finset.sum_update_of_mem hi, Finset.sum_eq_add_sum_sdiff_singleton_of_mem hi f]
  omega

variable [DecidableEq Tid] {s s' : BufSt Tid} {F : Finset Tid}

theorem pcSum_goto {t : Tid} (ht : t ∈ F) (pc : BufPc) :
    (s.goto t pc).pcSum F + (s.user t).rank = s.pcSum F + pc.rank := by
  refine Eq.trans ?_ (sum_update ht (fun t => (s.user t).rank) pc.rank)
  refine congrArg (· + _) (Finset.sum_congr rfl fun t' _ => ?_)
  exact Function.apply_update (fun _ pc => BufPc.rank pc) s.user t pc t'

omit [DecidableEq Tid] in
theorem ExportInv.lt_next (hx : ExportInv s) {d : Nat} (hd : (s.dmabufs d).phase ≠ .unused) :
    d < s.nextDmabuf := by
  by_contra hge
  exact hd (hx.unused d (Nat.not_lt.mp hge))

omit [DecidableEq Tid] in
theorem phaseSum_setPhase {d : Nat} (hd : d < s.nextDmabuf) (phase : DmabufPhase) :
    (s.setPhase d phase).phaseSum + (s.dmabufs d).phase.rank = s.phaseSum + phase.rank := by
  refine Eq.trans ?_
    (sum_update (Finset.mem_range.mpr hd) (fun d => (s.dmabufs d).phase.rank) phase.rank)
  refine congrArg (· + _) (Finset.sum_congr rfl fun d' _ => ?_)
  exact Function.apply_update (fun _ (b : Dmabuf) => b.phase.rank) s.dmabufs d _ d'

omit [DecidableEq Tid] in
/-- The phase of a dma-buf goes down, and nothing else that counts has changed. -/
theorem toDo_setPhase (hx : ExportInv s) {d : Nat} {old : DmabufPhase} (phase : DmabufPhase)
    (hp : (s.dmabufs d).phase = old) (hne : old ≠ .unused) (hlt : phase.rank < old.rank)
    (hl : s'.lock = s.lock) (hv : s'.vmas = s.vmas) (hc : s'.counting = s.counting)
    (hu : s'.user = s.user) (hn : s'.nextDmabuf = s.nextDmabuf)
    (hd : s'.dmabufs = (s.setPhase d phase).dmabufs) : s'.toDo F < s.toDo F := by
  have hsum := phaseSum_setPhase (hx.lt_next (hp ▸ hne)) phase
  have heq : s'.phaseSum = (s.setPhase d phase).phaseSum := by
    rw [phaseSum, hn, hd]; rfl
  have hpc : s'.pcSum F = s.pcSum F := by rw [pcSum, hu]; rfl
  rw [hp] at hsum
  rw [toDo, toDo, heq, hpc, hl, hv, hc]
  omega

theorem windsDown_step {a : BufAct Tid} (hx : ExportInv s) (hd : DrainInv s) (hF : s.BusyIn F)
    (hw : a.WindsDown) (hok : FdSucceeds s a) (h : bufStep s a = some s') :
    s'.toDo F < s.toDo F := by
  cases a with
  | createPublish t =>
    simp only [bufStep] at h
    split at h <;> cases h
    rename_i slot hsec
    have hl := section?_some hsec
    have hpc := pcSum_goto (s := s) (hF t (.inr ⟨_, hl⟩)) (.createCopy (s.dev.buffers slot).id)
    show lockRank none + s.vmas.length + s.phaseSum + s.counting.card + (s.goto t _).pcSum F < _
    simp only [toDo, hl, lockRank, BufPc.rank] at hpc ⊢
    omega
  | createCopy t copyOk =>
    simp only [bufStep] at h
    split at h <;> cases h
    rename_i bufId hu
    have ht : t ∈ F := hF t (.inl (by rw [hu]; exact BufPc.noConfusion))
    have hpc := pcSum_goto (s := s) ht (if copyOk then .idle else .destroy bufId)
    have hrank : (if copyOk then BufPc.idle else .destroy bufId).rank ≤ 2 := by
      cases copyOk <;> simp [BufPc.rank]
    show lockRank s.lock + s.vmas.length + s.phaseSum + s.counting.card + (s.goto t _).pcSum F < _
    simp only [toDo, hu] at hpc ⊢
    have hold : (BufPc.createCopy bufId).rank = 3 := rfl
    omega
  | destroyLocked t =>
    simp only [bufStep] at h
    split at h
    · rename_i bufId hu
      have ht : t ∈ F := hF t (.inl (by rw [hu]; exact BufPc.noConfusion))
      split at h
      · rename_i hl
        split at h <;> cases h
        · have hpc := pcSum_goto (s := s) ht .idle
          show lockRank s.lock + s.vmas.length + s.phaseSum + s.counting.card +
            (s.goto t _).pcSum F < _
          simp only [toDo, hu, BufPc.rank] at hpc ⊢
          omega
        · rename_i slot _
          show lockRank (some (t, .destroyChecked slot)) + s.vmas.length + s.phaseSum +
            s.counting.card + s.pcSum F < _
          simp only [toDo, hl, lockRank]
          omega
      · cases h
    · cases h
  | destroyFree t =>
    simp only [bufStep] at h
    split at h <;> cases h
    rename_i slot hsec
    have hl := section?_some hsec
    obtain ⟨id, hu⟩ := hd.destroying t slot hl
    have hpc := pcSum_goto (s := s) (hF t (.inr ⟨_, hl⟩)) .idle
    show lockRank none + s.vmas.length + s.phaseSum + s.counting.card + (s.goto t _).pcSum F < _
    simp only [toDo, hl, hu, lockRank, BufPc.rank] at hpc ⊢
    omega
  | mmapCount t =>
    simp only [bufStep] at h
    split at h <;> cases h
    rename_i vma hsec
    show lockRank none + (vma :: s.vmas).length + s.phaseSum + s.counting.card + s.pcSum F < _
    simp only [toDo, section?_some hsec, lockRank, List.length_cons]
    omega
  | vmaClose vma =>
    simp only [bufStep] at h
    split at h <;> cases h
    rename_i hv
    have hlen := List.length_erase_add_one hv
    show lockRank s.lock + (s.vmas.erase vma).length + s.phaseSum + s.counting.card +
      s.pcSum F < _
    simp only [toDo]
    omega
  | exportBuf t exportOk =>
    simp only [bufStep] at h
    split at h
    · rename_i slot ctx hsec
      have hl := section?_some hsec
      split at h <;> cases h
      · have hsum : ∑ d ∈ Finset.range (s.nextDmabuf + 1),
            (Function.update s.dmabufs s.nextDmabuf ⟨.fresh, ctx⟩ d).phase.rank =
            s.phaseSum + 6 := by
          rw [Finset.sum_range_succ, Function.update_self]
          refine congrArg (· + 6) (Finset.sum_congr rfl fun d hd => ?_)
          rw [Function.update_of_ne (Finset.mem_range.mp hd).ne]
        show lockRank (some (t, .exportBuf slot ctx s.nextDmabuf)) + s.vmas.length + _ +
          s.counting.card + s.pcSum F < _
        simp only [toDo, hl, lockRank, phaseSum] at hsum ⊢
        omega
      · show lockRank none + s.vmas.length + s.phaseSum + s.counting.card + s.pcSum F < _
        simp only [toDo, hl, lockRank]
        omega
    · cases h
  | exportFd t fd =>
    cases hok
    simp only [bufStep] at h
    split at h <;> cases h
    rename_i slot ctx d hsec
    have hl := section?_some hsec
    obtain ⟨-, -, hfresh, -⟩ := hx.sec _ _ hl
    have hsum := phaseSum_setPhase (hx.lt_next (d := d) (by rw [hfresh]; simp)) (.live 1)
    show lockRank (some (t, .exportFd slot ctx d)) + s.vmas.length +
      (s.setPhase d (.live 1)).phaseSum + s.counting.card + s.pcSum F < _
    simp only [toDo, hl, lockRank, hfresh, DmabufPhase.rank] at hsum ⊢
    omega
  | exportPublish t =>
    simp only [bufStep] at h
    split at h <;> cases h
    rename_i slot ctx d hsec
    have hcard := Finset.card_insert_le t s.counting
    show lockRank none + s.vmas.length + s.phaseSum + (insert t s.counting).card + s.pcSum F < _
    simp only [toDo, section?_some hsec, lockRank]
    omega
  | exportCount t =>
    simp only [bufStep] at h
    split at h <;> cases h
    rename_i ht
    have hcard := Finset.card_erase_add_one ht
    show lockRank s.lock + s.vmas.length + s.phaseSum + (s.counting.erase t).card + s.pcSum F < _
    simp only [toDo]
    omega
  | exportFree t =>
    simp only [bufStep] at h
    split at h <;> cases h
    rename_i ctx hsec
    exact (hx.sec _ _ (section?_some hsec)).elim
  | dmabufPut d =>
    simp only [bufStep] at h
    split at h <;> cases h
    · rename_i refs hp
      exact toDo_setPhase hx (.live (refs + 1)) hp (by simp) (Nat.lt_succ_self _) rfl rfl rfl rfl
        rfl rfl
    · rename_i hp
      exact toDo_setPhase hx .dying hp (by simp) (by decide) rfl rfl rfl rfl rfl rfl
  | releaseEnter d =>
    simp only [bufStep] at h
    split at h <;> cases h
    rename_i hp
    exact toDo_setPhase hx .releasing hp (by simp) (by decide) rfl rfl rfl rfl rfl rfl
  | releaseLocked d =>
    simp only [bufStep] at h
    split at h
    · rename_i hp
      split at h <;> cases h
      exact toDo_setPhase hx .cleared hp (by simp) (by decide) rfl rfl rfl rfl rfl rfl
    · cases h
  | releaseCount d =>
    simp only [bufStep] at h
    split at h <;> cases h
    rename_i hp
    exact toDo_setPhase hx .counted hp (by simp) (by decide) rfl rfl rfl rfl rfl rfl
  | releaseFree d =>
    simp only [bufStep] at h
    split at h <;> cases h
    rename_i hp
    exact toDo_setPhase hx .gone hp (by simp) (by decide) rfl rfl rfl rfl rfl rfl
  | create | destroyCall | mmap | vmaOpen | exportLocked | dmabufGet => exact hw.elim

omit [DecidableEq Tid] in
/-- Only a thread that is in the driver moves. -/
theorem BufSt.BusyIn.of_thread (hF : s.BusyIn F) {t : Tid} (ht : t ∈ F)
    (hu : ∀ t', t' ≠ t → s'.user t' = s.user t')
    (hl : s'.lock = s.lock ∨ s'.lock = none ∨ ∃ sec, s'.lock = some (t, sec)) : s'.BusyIn F := by
  intro t' ht'
  by_cases hne : t' = t
  · exact hne ▸ ht
  · rcases ht' with hbusy | ⟨sec, hs⟩
    · exact hF t' (.inl (hu t' hne ▸ hbusy))
    · rcases hl with hl | hl | ⟨sec', hl⟩ <;> rw [hl] at hs
      · exact hF t' (.inr ⟨sec, hs⟩)
      · cases hs
      · cases hs
        exact absurd rfl hne

theorem busyIn_step {a : BufAct Tid} (hF : s.BusyIn F) (hw : a.WindsDown)
    (h : bufStep s a = some s') : s'.BusyIn F := by
  have holder {t : Tid} {sec : BufSection} (hsec : s.section? t = some sec) : t ∈ F :=
    hF t (.inr ⟨sec, section?_some hsec⟩)
  cases a with
  | createPublish t | destroyFree t =>
    simp only [bufStep] at h
    split at h <;> cases h
    rename_i hsec
    exact hF.of_thread (holder hsec) (fun t' hne => Function.update_of_ne hne _ _) (.inr (.inl rfl))
  | createCopy t copyOk =>
    simp only [bufStep] at h
    split at h <;> cases h
    rename_i bufId hu
    have ht : t ∈ F := hF t (.inl (by rw [hu]; exact BufPc.noConfusion))
    exact hF.of_thread ht (fun t' hne => Function.update_of_ne hne _ _) (.inl rfl)
  | destroyLocked t =>
    simp only [bufStep] at h
    split at h
    · rename_i bufId hu
      have ht : t ∈ F := hF t (.inl (by rw [hu]; exact BufPc.noConfusion))
      split at h
      · split at h <;> cases h
        · exact hF.of_thread ht (fun t' hne => Function.update_of_ne hne _ _) (.inl rfl)
        · exact hF.of_thread ht (fun _ _ => rfl) (.inr (.inr ⟨_, rfl⟩))
      · cases h
    · cases h
  | mmapCount t | exportPublish t | exportFree t =>
    simp only [bufStep] at h
    split at h <;> cases h
    rename_i hsec
    exact hF.of_thread (holder hsec) (fun _ _ => rfl) (.inr (.inl rfl))
  | exportBuf t exportOk =>
    simp only [bufStep] at h
    split at h
    · rename_i hsec
      split at h <;> cases h
      · exact hF.of_thread (holder hsec) (fun _ _ => rfl) (.inr (.inr ⟨_, rfl⟩))
      · exact hF.of_thread (holder hsec) (fun _ _ => rfl) (.inr (.inl rfl))
    · cases h
  | exportFd t fd =>
    simp only [bufStep] at h
    split at h
    · rename_i hsec
      split at h <;> cases h
      all_goals exact hF.of_thread (holder hsec) (fun _ _ => rfl) (.inr (.inr ⟨_, rfl⟩))
    · cases h
  | vmaClose | exportCount | dmabufPut | releaseEnter | releaseLocked | releaseCount
  | releaseFree =>
    simp only [bufStep] at h
    repeat' split at h
    all_goals cases h
    all_goals exact hF
  | create | destroyCall | mmap | vmaOpen | exportLocked | dmabufGet => exact hw.elim

/-- Some action can still wind something down. -/
def CanWindDown (s : BufSt Tid) : Prop :=
  ∃ a s', a.WindsDown ∧ MmapsCounted s a ∧ bufStep s a = some s'

theorem section?_of_lock {t : Tid} {sec : BufSection} (h : s.lock = some (t, sec)) :
    s.section? t = some sec := by
  rw [BufSt.section?, h]; exact if_pos rfl

/-- No section keeps `buf_lock`. -/
theorem canWindDown_locked (hx : ExportInv s) (hv : s.vmas = []) {t : Tid} {sec : BufSection}
    (hl : s.lock = some (t, sec)) : CanWindDown s := by
  have hsec := section?_of_lock hl
  cases sec with
  | createFilled slot =>
    exact ⟨.createPublish t, _, trivial, trivial, by simp only [bufStep, hsec]; rfl⟩
  | destroyChecked slot =>
    exact ⟨.destroyFree t, _, trivial, trivial, by simp only [bufStep, hsec]; rfl⟩
  | mmapInserted vma =>
    refine ⟨.mmapCount t, _, trivial, ?_, by simp only [bufStep, hsec]; rfl⟩
    simp only [MmapsCounted, hsec, vmaCount, hv, List.countP_nil]
    decide
  | exportCtx slot ctx =>
    exact ⟨.exportBuf t false, _, trivial, trivial, by simp only [bufStep, hsec]; rfl⟩
  | exportBuf slot ctx d =>
    exact ⟨.exportFd t .ok, _, trivial, rfl, by simp only [bufStep, hsec]; rfl⟩
  | exportFd slot ctx d =>
    exact ⟨.exportPublish t, _, trivial, trivial, by simp only [bufStep, hsec]; rfl⟩
  | exportPut ctx => exact (hx.sec _ _ hl).elim
  | exportPutSync d => exact (hx.sec _ _ hl).elim

/-- Without VMAs and with `buf_lock` free, threads and dma-bufs can move. -/
theorem canWindDown_unlocked (hd : DrainInv s) (hv : s.vmas = [])
    (hl : s.lock = none) (hu : ¬ s.Unloadable) : CanWindDown s := by
  by_cases huser : ∀ t, s.user t = .idle
  · by_cases hcount : s.counting = ∅
    · have hphase : ¬ ∀ d, (s.dmabufs d).phase = .unused ∨ (s.dmabufs d).phase = .gone :=
        fun h => hu ⟨hl, huser, hcount, hv, h⟩
      obtain ⟨d, hd'⟩ := not_forall.mp hphase
      have hok := hd.phases d
      cases hp : (s.dmabufs d).phase with
      | unused => exact absurd (.inl hp) hd'
      | gone => exact absurd (.inr hp) hd'
      | fresh =>
        rw [hp] at hok
        obtain ⟨t, slot, ctx, hlock⟩ := hok
        rw [hl] at hlock; cases hlock
      | live refs =>
        rw [hp] at hok
        match refs, hok with
        | 1, _ => exact ⟨.dmabufPut d, _, trivial, trivial, by simp only [bufStep, hp]; rfl⟩
        | refs + 2, _ => exact ⟨.dmabufPut d, _, trivial, trivial, by simp only [bufStep, hp]; rfl⟩
      | dying => exact ⟨.releaseEnter d, _, trivial, trivial, by simp only [bufStep, hp]; rfl⟩
      | releasing =>
        exact ⟨.releaseLocked d, _, trivial, trivial, by simp only [bufStep, hp, hl]; rfl⟩
      | cleared => exact ⟨.releaseCount d, _, trivial, trivial, by simp only [bufStep, hp]; rfl⟩
      | counted => exact ⟨.releaseFree d, _, trivial, trivial, by simp only [bufStep, hp]; rfl⟩
    · obtain ⟨t, ht⟩ := Finset.nonempty_iff_ne_empty.mpr hcount
      exact ⟨.exportCount t, _, trivial, trivial, by simp only [bufStep, ht]; rfl⟩
  · obtain ⟨t, ht⟩ := not_forall.mp huser
    cases hpc : s.user t with
    | idle => exact absurd hpc ht
    | createCopy bufId =>
      exact ⟨.createCopy t true, _, trivial, trivial, by simp only [bufStep, hpc]; rfl⟩
    | destroy bufId =>
      cases hc : destroyCheck s.dev bufId with
      | error e =>
        exact ⟨.destroyLocked t, _, trivial, trivial, by simp only [bufStep, hpc, hl, hc]; rfl⟩
      | ok slot =>
        exact ⟨.destroyLocked t, _, trivial, trivial, by simp only [bufStep, hpc, hl, hc]; rfl⟩

theorem canWindDown (hx : ExportInv s) (hd : DrainInv s) (hu : ¬ s.Unloadable) : CanWindDown s := by
  cases hv : s.vmas with
  | cons vma vmas =>
    have hmem : vma ∈ s.vmas := hv ▸ List.mem_cons_self
    exact ⟨.vmaClose vma, _, trivial, trivial, by simp only [bufStep, if_pos hmem]; rfl⟩
  | nil =>
    cases hl : s.lock with
    | none => exact canWindDown_unlocked hd hv hl hu
    | some holder => exact canWindDown_locked hx hv hl

theorem exists_busyIn (hd : DrainInv s) : ∃ F, s.BusyIn F := by
  obtain ⟨F, hF⟩ := hd.busy
  have hbusy : ∀ t, s.user t ≠ .idle → t ∈ F := fun t ht => by
    by_contra hn
    exact ht (hF t hn)
  cases hl : s.lock with
  | none =>
    refine ⟨F, fun t ht => ht.elim (hbusy t) ?_⟩
    rintro ⟨sec, hs⟩
    rw [hl] at hs; cases hs
  | some holder =>
    refine ⟨insert holder.1 F, fun t ht => ht.elim ?_ ?_⟩
    · exact fun hb => Finset.mem_insert_of_mem (hbusy t hb)
    · rintro ⟨sec, hs⟩
      rw [hl] at hs
      cases hs
      exact Finset.mem_insert_self _ _

/-- Winding down takes no more steps than `toDo` says. -/
theorem windDown_le {as : List (BufAct Tid)} (h : (bufSys Tid).ReachableWith MmapsCounted s)
    (hF : s.BusyIn F) (hw : ∀ a ∈ as, a.WindsDown)
    (he : (bufSys Tid).execWith MmapsCounted s as = some s') :
    (bufSys Tid).ReachableWith MmapsCounted s' ∧ s'.BusyIn F ∧
      as.length + s'.toDo F ≤ s.toDo F := by
  induction as generalizing s with
  | nil => cases he; exact ⟨h, hF, by simp⟩
  | cons a as ih =>
    simp only [Transition.Sys.execWith] at he
    split at he
    · rename_i hok
      split at he
      · rename_i s₁ hs
        have hx := exportInv (h.mono fun _ _ => MmapsCounted.fdSucceeds)
        have ha := hw a List.mem_cons_self
        have hlt := windsDown_step hx (drainInv h.reachable) hF ha hok.fdSucceeds hs
        obtain ⟨hr, hF', hle⟩ := ih (.tail h hok hs) (busyIn_step hF ha hs)
          (fun b hb => hw b (List.mem_cons_of_mem a hb)) he
        refine ⟨hr, hF', ?_⟩
        rw [List.length_cons]
        omega
      · cases he
    · cases he

/-- **Nothing keeps the module loaded.** From any state, when nothing new is started, the code and
the references wind down in a bounded number of steps, in whatever order and with whatever results,
and can go on until the module can be unloaded. -/
theorem buffers_drain (s : BufSt Tid) (h : (bufSys Tid).ReachableWith MmapsCounted s) :
    ∃ n, ∀ as s', (∀ a ∈ as, a.WindsDown) →
      (bufSys Tid).execWith MmapsCounted s as = some s' →
      as.length ≤ n ∧ (s'.Unloadable ∨ as.length < n ∧ CanWindDown s') := by
  obtain ⟨F, hF⟩ := exists_busyIn (drainInv h.reachable)
  refine ⟨s.toDo F, fun as s' hw he => ?_⟩
  obtain ⟨hr, hF', hle⟩ := windDown_le h hF hw he
  refine ⟨by omega, ?_⟩
  by_cases hu : s'.Unloadable
  · exact .inl hu
  · have hx := exportInv (hr.mono fun _ _ => MmapsCounted.fdSucceeds)
    have hd := drainInv hr.reachable
    obtain ⟨a, s'', ha, hok, hs⟩ := canWindDown hx hd hu
    have hlt := windsDown_step hx hd hF' ha hok.fdSucceeds hs
    exact .inr ⟨by omega, a, s'', ha, hok, hs⟩

/-- A buffer is mapped and exported while it is being destroyed. -/
def mappedAndExported : List (BufAct (Fin 2)) :=
  createOnePage ++
    ([.mmap 1 1 4096 (fun _ => true), .mmapCount 1, .exportLocked 0 1 true, .exportBuf 0 true,
      .exportFd 0 .ok, .exportPublish 0, .destroyCall 1 1] : List (BufAct (Fin 2)))

theorem buffers_drain_mapped : ∃ s : BufSt (Fin 2), (s.dmabufs 0).phase = .live 1 ∧
    s.vmas.length = 1 ∧ s.user 1 = .destroy 1 ∧
    ∃ n, ∀ as s', (∀ a ∈ as, a.WindsDown) →
      (bufSys (Fin 2)).execWith MmapsCounted s as = some s' →
      as.length ≤ n ∧ (s'.Unloadable ∨ as.length < n ∧ CanWindDown s') := by
  obtain ⟨s, hr, hd, hv, hu⟩ : ∃ s : BufSt (Fin 2), (bufSys (Fin 2)).ReachableWith MmapsCounted s ∧
      (s.dmabufs 0).phase = .live 1 ∧ s.vmas.length = 1 ∧ s.user 1 = .destroy 1 :=
    Transition.Sys.exists_of_execWith mappedAndExported (by decide +kernel)
  exact ⟨s, hd, hv, hu, buffers_drain s hr⟩

end Drain

end Dmaplane
