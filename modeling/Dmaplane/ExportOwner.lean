import Dmaplane.Lib.Owner
import Dmaplane.BufferSys
import Mathlib.Data.Fintype.Card

/-!
# Dmaplane.ExportOwner

Who owns what in EXPORT_DMABUF. Two exclusive ownerships carry the invariant `ExportInv`:

* a slot that is exported, or about to be, is wrapped by exactly one dma-buf (`wrapped`);
* a live export context belongs to one dma-buf or to the call that has just allocated it
  (`ctxOwner`).

Both hold along every run in which `dma_buf_fd` succeeds (`export_owned`). When it fails, the
context is freed by EXPORT_DMABUF and by the release callback (`export_doubly_freed`).
-/

namespace Dmaplane

open Ownership

variable {Tid : Type}

/-- The dma-buf still stands for its buffer: its release callback has not cleared the flag. -/
def DmabufPhase.wrapping : DmabufPhase → Bool
  | .fresh | .live _ | .dying | .releasing => true
  | .unused | .cleared | .counted | .gone => false

def DmabufPhase.ownsCtx : DmabufPhase → Bool
  | .unused | .gone => false
  | .fresh | .live _ | .dying | .releasing | .cleared | .counted => true

/-- The slot that a dma-buf wraps already while its flag is still to be set. -/
def BufSection.exporting : BufSection → Option (Fin maxBuffers)
  | .exportBuf slot _ _ => some slot
  | .exportFd slot _ _ => some slot
  | _ => none

def BufSection.pendingCtx : BufSection → Option Nat
  | .exportCtx _ ctx => some ctx
  | _ => none

namespace BufSt

def exporting (s : BufSt Tid) : Option (Fin maxBuffers) := s.lock.bind (·.2.exporting)

def pendingCtx (s : BufSt Tid) : Option Nat := s.lock.bind (·.2.pendingCtx)

def wrapped (s : BufSt Tid) (d : Nat) : Option (Fin maxBuffers) :=
  if (s.dmabufs d).phase.wrapping then some (s.ctxs (s.dmabufs d).priv).buf else none

def ctxOwner (s : BufSt Tid) : Option Nat → Option Nat
  | some d => if (s.dmabufs d).phase.ownsCtx then some (s.dmabufs d).priv else none
  | none => s.pendingCtx

def flagged (s : BufSt Tid) : Finset (Fin maxBuffers) :=
  Finset.univ.filter fun i => (s.dev.buffers i).dmabufExported = true

def claimed (s : BufSt Tid) : Finset (Fin maxBuffers) :=
  Finset.univ.filter fun i =>
    (s.dev.buffers i).dmabufExported = true ∨ s.exporting = some i

def clearedBufs (s : BufSt Tid) : Finset Nat :=
  (Finset.range s.nextDmabuf).filter fun d => (s.dmabufs d).phase = .cleared

@[simp] theorem mem_flagged {s : BufSt Tid} {i : Fin maxBuffers} :
    i ∈ s.flagged ↔ (s.dev.buffers i).dmabufExported = true := by simp [flagged]

@[simp] theorem mem_clearedBufs {s : BufSt Tid} {d : Nat} :
    d ∈ s.clearedBufs ↔ d < s.nextDmabuf ∧ (s.dmabufs d).phase = .cleared := by
  simp [clearedBufs]

@[simp] theorem setPhase_self {s : BufSt Tid} {d : Nat} {phase : DmabufPhase} :
    (s.setPhase d phase).dmabufs d = ⟨phase, (s.dmabufs d).priv⟩ := Function.update_self ..

@[simp] theorem setPhase_of_ne {s : BufSt Tid} {d d' : Nat} {phase : DmabufPhase} (h : d' ≠ d) :
    (s.setPhase d phase).dmabufs d' = s.dmabufs d' := Function.update_of_ne h ..

/-- The sections rely on fresh dma-bufs only. -/
theorem setPhase_fresh {s : BufSt Tid} {d : Nat} {phase : DmabufPhase}
    (h : (s.dmabufs d).phase ≠ .fresh) (d' : Nat) (hd' : (s.dmabufs d').phase = .fresh) :
    (s.setPhase d phase).dmabufs d' = s.dmabufs d' := by
  refine setPhase_of_ne ?_
  rintro rfl
  exact h hd'

@[simp] theorem setPhase_nextDmabuf {s : BufSt Tid} {d : Nat} {phase : DmabufPhase} :
    (s.setPhase d phase).nextDmabuf = s.nextDmabuf := rfl

theorem mem_claimed {s : BufSt Tid} {i : Fin maxBuffers} :
    i ∈ s.claimed ↔ i ∈ s.flagged ∨ s.exporting = some i := by simp [claimed]

end BufSt

open BufSt

/-- What is known inside each section under `buf_lock`. -/
def SectionOk (s : BufSt Tid) (t : Tid) : BufSection → Prop
  | .createFilled slot => (s.dev.buffers slot).inUse = false
  | .destroyChecked slot => slot ∉ s.flagged
  | .mmapInserted _ => True
  | .exportCtx slot ctx =>
    t ∉ s.counting ∧ (s.dev.buffers slot).inUse = true ∧ slot ∉ s.flagged ∧
      (s.ctxs ctx).buf = slot
  | .exportBuf slot ctx d =>
    t ∉ s.counting ∧ slot ∉ s.flagged ∧ s.dmabufs d = ⟨.fresh, ctx⟩ ∧ (s.ctxs ctx).buf = slot
  | .exportFd slot _ d => t ∉ s.counting ∧ slot ∉ s.flagged ∧ s.wrapped d = some slot
  | .exportPut _ => False
  | .exportPutSync _ => False

structure ExportInv (s : BufSt Tid) : Prop where
  slots : Exclusive s.claimed s.wrapped
  ctxs : Exclusive s.ctxHeap.live s.ctxOwner
  inUse : ∀ i ∈ s.claimed, (s.dev.buffers i).inUse = true
  sec : ∀ t sec, s.lock = some (t, sec) → SectionOk s t sec
  unused : ∀ d, s.nextDmabuf ≤ d → (s.dmabufs d).phase = .unused
  faults : s.ctxHeap.faults = 0
  noUseAfterFree : s.ctxUseAfterFree = false
  count : s.dev.stats.dmabufsExported + BitVec.ofNat 64 s.counting.card
    = s.dev.stats.dmabufsReleased + BitVec.ofNat 64 (s.clearedBufs.card + s.flagged.card)

/-! ## Frame lemmas -/

/-- Nothing that `ExportInv` reads has changed, but for `in_use` and the section. -/
structure SameExport (s s' : BufSt Tid) : Prop where
  flags : ∀ i, (s'.dev.buffers i).dmabufExported = (s.dev.buffers i).dmabufExported
  exporting : s'.exporting = s.exporting
  pendingCtx : s'.pendingCtx = s.pendingCtx
  ctxs : s'.ctxs = s.ctxs
  ctxHeap : s'.ctxHeap = s.ctxHeap
  uaf : s'.ctxUseAfterFree = s.ctxUseAfterFree
  dmabufs : s'.dmabufs = s.dmabufs
  next : s'.nextDmabuf = s.nextDmabuf
  counting : s'.counting = s.counting
  exported : s'.dev.stats.dmabufsExported = s.dev.stats.dmabufsExported
  released : s'.dev.stats.dmabufsReleased = s.dev.stats.dmabufsReleased

theorem flagged_congr {s s' : BufSt Tid}
    (h : ∀ i, (s'.dev.buffers i).dmabufExported = (s.dev.buffers i).dmabufExported) :
    s'.flagged = s.flagged := by
  ext i; rw [mem_flagged, mem_flagged, h]

theorem claimed_congr {s s' : BufSt Tid} (hf : s'.flagged = s.flagged)
    (he : s'.exporting = s.exporting) : s'.claimed = s.claimed := by
  ext i; rw [mem_claimed, mem_claimed, hf, he]

theorem wrapped_congr {s s' : BufSt Tid} (hd : s'.dmabufs = s.dmabufs) (hc : s'.ctxs = s.ctxs) :
    s'.wrapped = s.wrapped := by
  funext d; rw [wrapped, wrapped, hd, hc]

theorem ctxOwner_congr {s s' : BufSt Tid} (hd : s'.dmabufs = s.dmabufs)
    (hp : s'.pendingCtx = s.pendingCtx) : s'.ctxOwner = s.ctxOwner := by
  funext k
  cases k with
  | none => exact hp
  | some d => rw [ctxOwner, ctxOwner, hd]

theorem SectionOk.mono {s s' : BufSt Tid} {t : Tid} {sec : BufSection} (h : SectionOk s t sec)
    (hin : ∀ i, (s'.dev.buffers i).inUse = (s.dev.buffers i).inUse)
    (hfl : s'.flagged = s.flagged) (hcnt : s'.counting ⊆ s.counting) (hctxs : s'.ctxs = s.ctxs)
    (hdm : ∀ d, (s.dmabufs d).phase = .fresh → s'.dmabufs d = s.dmabufs d)
    (hwr : s'.wrapped = s.wrapped) : SectionOk s' t sec := by
  cases sec with
  | createFilled slot => show (s'.dev.buffers slot).inUse = false; rw [hin]; exact h
  | destroyChecked slot => show slot ∉ s'.flagged; rw [hfl]; exact h
  | mmapInserted vma => trivial
  | exportCtx slot ctx =>
    obtain ⟨ht, hi, hf, hb⟩ := h
    exact ⟨fun hm => ht (hcnt hm), by rw [hin]; exact hi, by rw [hfl]; exact hf,
      by rw [hctxs]; exact hb⟩
  | exportBuf slot ctx d =>
    obtain ⟨ht, hf, hd, hb⟩ := h
    exact ⟨fun hm => ht (hcnt hm), by rw [hfl]; exact hf,
      by rw [hdm d (by rw [hd])]; exact hd, by rw [hctxs]; exact hb⟩
  | exportFd slot ctx d =>
    obtain ⟨ht, hf, hw⟩ := h
    exact ⟨fun hm => ht (hcnt hm), by rw [hfl]; exact hf, by rw [hwr]; exact hw⟩
  | exportPut ctx => exact h.elim
  | exportPutSync d => exact h.elim

theorem ExportInv.frame {s s' : BufSt Tid} (hi : ExportInv s) (h : SameExport s s')
    (hin : ∀ i ∈ s.claimed, (s'.dev.buffers i).inUse = true)
    (hsec : ∀ t sec, s'.lock = some (t, sec) → SectionOk s' t sec) : ExportInv s' := by
  have hfl := flagged_congr h.flags
  have hcl := claimed_congr hfl h.exporting
  refine ⟨?_, ?_, ?_, hsec, ?_, ?_, ?_, ?_⟩
  · rw [hcl, wrapped_congr h.dmabufs h.ctxs]; exact hi.slots
  · rw [h.ctxHeap, ctxOwner_congr h.dmabufs h.pendingCtx]; exact hi.ctxs
  · rw [hcl]; exact hin
  · rw [h.next, h.dmabufs]; exact hi.unused
  · rw [h.ctxHeap]; exact hi.faults
  · rw [h.uaf]; exact hi.noUseAfterFree
  · have hcb : s'.clearedBufs = s.clearedBufs := by
      unfold BufSt.clearedBufs; rw [h.next, h.dmabufs]
    rw [h.exported, h.released, h.counting, hfl, hcb]; exact hi.count

/-- The section is left alone and so are the flags. -/
theorem ExportInv.frame_lock {s s' : BufSt Tid} (hi : ExportInv s) (h : SameExport s s')
    (hin : ∀ i, (s'.dev.buffers i).inUse = (s.dev.buffers i).inUse) (hl : s'.lock = s.lock) :
    ExportInv s' := by
  refine hi.frame h (fun i hc => by rw [hin]; exact hi.inUse i hc) fun t sec hs => ?_
  rw [hl] at hs
  exact (hi.sec t sec hs).mono hin (flagged_congr h.flags) (by rw [h.counting]) h.ctxs
    (fun d _ => by rw [h.dmabufs]) (wrapped_congr h.dmabufs h.ctxs)

/-! ## The steps of EXPORT_DMABUF -/

theorem flags_setMmapCount {dev : BufTable} {slot : Fin maxBuffers} {n : BitVec 32}
    (i : Fin maxBuffers) :
    ((dev.setMmapCount slot n).buffers i).dmabufExported = (dev.buffers i).dmabufExported ∧
      ((dev.setMmapCount slot n).buffers i).inUse = (dev.buffers i).inUse := by
  by_cases h : i = slot
  · subst h; rw [BufTable.setMmapCount, setBuffer_self]; exact ⟨rfl, rfl⟩
  · rw [BufTable.setMmapCount, setBuffer_of_ne h]; exact ⟨rfl, rfl⟩

theorem inUse_setExported {dev : BufTable} {slot : Fin maxBuffers} {dmabuf : Option Nat}
    (i : Fin maxBuffers) :
    ((dev.setExported slot dmabuf).buffers i).inUse = (dev.buffers i).inUse := by
  by_cases h : i = slot
  · subst h; rw [BufTable.setExported, setBuffer_self]
  · rw [BufTable.setExported, setBuffer_of_ne h]

theorem exported_setExported_some {dev : BufTable} {slot : Fin maxBuffers} {d : Nat}
    (i : Fin maxBuffers) : ((dev.setExported slot (some d)).buffers i).dmabufExported = true ↔
      i = slot ∨ (dev.buffers i).dmabufExported = true := by
  by_cases h : i = slot
  · subst h; simp [BufTable.setExported]
  · simp [BufTable.setExported, h]

theorem exported_setExported_none {dev : BufTable} {slot : Fin maxBuffers} (i : Fin maxBuffers) :
    ((dev.setExported slot none).buffers i).dmabufExported = true ↔
      i ≠ slot ∧ (dev.buffers i).dmabufExported = true := by
  by_cases h : i = slot
  · subst h; simp [BufTable.setExported]
  · simp [BufTable.setExported, h]

theorem wrapped_setPhase {s : BufSt Tid} {d : Nat} {phase : DmabufPhase}
    (h : phase.wrapping = (s.dmabufs d).phase.wrapping) :
    (s.setPhase d phase).wrapped = s.wrapped := by
  funext d'
  by_cases hd : d' = d
  · subst hd; simp only [wrapped, setPhase_self, h]; rfl
  · simp only [wrapped, setPhase_of_ne hd]; rfl

theorem ctxOwner_setPhase {s : BufSt Tid} {d : Nat} (phase : DmabufPhase)
    (h : phase.ownsCtx = (s.dmabufs d).phase.ownsCtx) :
    (s.setPhase d phase).ctxOwner = s.ctxOwner := by
  funext k
  cases k with
  | none => rfl
  | some d' =>
    by_cases hd : d' = d
    · subst hd; simp only [ctxOwner, setPhase_self, h]
    · simp only [ctxOwner, setPhase_of_ne hd]

theorem clearedBufs_setPhase {s : BufSt Tid} {d : Nat} (phase : DmabufPhase)
    (hold : (s.dmabufs d).phase ≠ .cleared) (hnew : phase ≠ .cleared) :
    (s.setPhase d phase).clearedBufs = s.clearedBufs := by
  ext d'
  by_cases hd : d' = d
  · subst hd; simp [hold, hnew]
  · simp [hd]

theorem unused_setPhase {s : BufSt Tid} {d : Nat} {phase : DmabufPhase}
    (hu : ∀ d', s.nextDmabuf ≤ d' → (s.dmabufs d').phase = .unused)
    (hold : (s.dmabufs d).phase ≠ .unused) (d' : Nat) (hd : s.nextDmabuf ≤ d') :
    ((s.setPhase d phase).dmabufs d').phase = .unused := by
  have hne : d' ≠ d := by rintro rfl; exact hold (hu d' hd)
  rw [setPhase_of_ne hne]; exact hu d' hd

/-- A change of phase that moves no ownership. -/
theorem ExportInv.setPhase {s s' : BufSt Tid} {d : Nat} (phase : DmabufPhase) (hi : ExportInv s)
    (hw : phase.wrapping = (s.dmabufs d).phase.wrapping)
    (ho : phase.ownsCtx = (s.dmabufs d).phase.ownsCtx)
    (hfresh : (s.dmabufs d).phase ≠ .fresh) (hold : (s.dmabufs d).phase ≠ .cleared)
    (hnew : phase ≠ .cleared) (hunused : (s.dmabufs d).phase ≠ .unused)
    (huaf : s'.ctxUseAfterFree = false)
    (hs' : s' = { s.setPhase d phase with ctxUseAfterFree := s'.ctxUseAfterFree }) :
    ExportInv s' := by
  rw [hs']
  have hwr := wrapped_setPhase hw
  refine ⟨?_, ?_, hi.inUse, ?_, ?_, hi.faults, huaf, ?_⟩
  · show Exclusive s.claimed (s.setPhase d phase).wrapped
    rw [hwr]; exact hi.slots
  · show Exclusive s.ctxHeap.live (s.setPhase d phase).ctxOwner
    rw [ctxOwner_setPhase phase ho]; exact hi.ctxs
  · intro t sec hl
    exact (hi.sec t sec hl).mono (fun _ => rfl) rfl (Finset.Subset.refl _) rfl
      (setPhase_fresh hfresh) hwr
  · exact unused_setPhase hi.unused hunused
  · have hcb := clearedBufs_setPhase phase hold hnew
    show _ = _ + BitVec.ofNat 64 ((s.setPhase d phase).clearedBufs.card + s.flagged.card)
    rw [hcb]; exact hi.count

theorem exporting_none {s : BufSt Tid} (h : s.lock = none) : s.exporting = none := by
  rw [exporting, h]; rfl

theorem claimed_eq_flagged {s : BufSt Tid} (h : s.exporting = none) : s.claimed = s.flagged := by
  ext i; rw [mem_claimed, h]; simp

/-- The context that `kzalloc` returns is no dma-buf's `priv`. -/
theorem ExportInv.priv_ne_alloc {s : BufSt Tid} (hi : ExportInv s) {d : Nat}
    (hd : (s.dmabufs d).phase.wrapping = true) : (s.dmabufs d).priv ≠ s.ctxHeap.alloc.1 := by
  have hown : s.ctxOwner (some d) = some (s.dmabufs d).priv := by
    refine if_pos ?_
    cases hp : (s.dmabufs d).phase <;> rw [hp] at hd <;> first | rfl | cases hd
  intro he
  have hlt := s.ctxHeap.lt_next _ (hi.ctxs.used _ _ hown)
  rw [he] at hlt
  exact absurd hlt (Nat.lt_irrefl _)

theorem exportInv_exportCtx {s : BufSt Tid} {t : Tid} {slot : Fin maxBuffers} (hi : ExportInv s)
    (hl : s.lock = none) (ht : t ∉ s.counting) (hin : (s.dev.buffers slot).inUse = true)
    (hf : (s.dev.buffers slot).dmabufExported = false) :
    ExportInv { s with
      lock := some (t, .exportCtx slot s.ctxHeap.alloc.1), ctxHeap := s.ctxHeap.alloc.2
      ctxs := Function.update s.ctxs s.ctxHeap.alloc.1 (exportCtxOf s.dev slot) } := by
  have hexp := exporting_none hl
  have hpend : s.ctxOwner none = none := by show s.pendingCtx = none; rw [pendingCtx, hl]; rfl
  have hnew : s.ctxHeap.alloc.1 ∉ s.ctxHeap.live := fun hm =>
    absurd (s.ctxHeap.lt_next _ hm) (Nat.lt_irrefl _)
  generalize hs' : ({ s with
      lock := some (t, .exportCtx slot s.ctxHeap.alloc.1), ctxHeap := s.ctxHeap.alloc.2
      ctxs := Function.update s.ctxs s.ctxHeap.alloc.1 (exportCtxOf s.dev slot) } : BufSt Tid) = s'
  -- no dma-buf has the fresh context as its `priv`
  have hwr : s'.wrapped = s.wrapped := by
    subst hs'
    funext d
    by_cases hd : (s.dmabufs d).phase.wrapping = true
    · simp only [wrapped, if_pos hd, Function.update_of_ne (hi.priv_ne_alloc hd)]
    · simp only [wrapped, if_neg hd]
  have hcl : s'.claimed = s.claimed := by
    subst hs'
    ext i; rw [mem_claimed, mem_claimed, hexp]
    exact Iff.rfl
  have hown : s'.ctxOwner = Function.update s.ctxOwner none (some s.ctxHeap.alloc.1) := by
    subst hs'
    funext k
    cases k with
    | none => rfl
    | some d => rfl
  refine ⟨by rw [hcl, hwr]; exact hi.slots, ?_, ?_, ?_, ?_, ?_, ?_, ?_⟩
  · rw [hown]; subst hs'; exact hi.ctxs.claim hnew hpend
  · rw [hcl]; subst hs'; exact hi.inUse
  · subst hs'
    intro t' sec hl'
    cases hl'
    refine ⟨ht, hin, ?_, ?_⟩
    · show slot ∉ s.flagged
      rw [mem_flagged, hf]; exact Bool.false_ne_true
    · show (Function.update s.ctxs _ _ _).buf = slot
      rw [Function.update_self]; rfl
  · subst hs'; exact hi.unused
  · subst hs'; exact hi.faults
  · subst hs'; exact hi.noUseAfterFree
  · subst hs'; exact hi.count

theorem exportInv_exportBuf {s : BufSt Tid} {t : Tid} {slot : Fin maxBuffers} {ctx : Nat}
    (hi : ExportInv s) (hl : s.lock = some (t, .exportCtx slot ctx)) :
    ExportInv { s with
      lock := some (t, .exportBuf slot ctx s.nextDmabuf)
      dmabufs := Function.update s.dmabufs s.nextDmabuf ⟨.fresh, ctx⟩
      nextDmabuf := s.nextDmabuf + 1 } := by
  obtain ⟨ht, hin, hf, hb⟩ := hi.sec _ _ hl
  have hexp : s.exporting = none := by rw [exporting, hl]; rfl
  have hpend : s.ctxOwner none = some ctx := by
    show s.pendingCtx = some ctx; rw [pendingCtx, hl]; rfl
  have hun := hi.unused s.nextDmabuf (Nat.le_refl _)
  have hnow : s.wrapped s.nextDmabuf = none := by rw [wrapped, hun]; rfl
  have hnotcl : slot ∉ s.claimed := by rw [claimed_eq_flagged hexp]; exact hf
  generalize hs' : ({ s with
      lock := some (t, .exportBuf slot ctx s.nextDmabuf)
      dmabufs := Function.update s.dmabufs s.nextDmabuf ⟨.fresh, ctx⟩
      nextDmabuf := s.nextDmabuf + 1 } : BufSt Tid) = s'
  have hcl : s'.claimed = insert slot s.claimed := by
    subst hs'
    ext i
    rw [mem_claimed, claimed_eq_flagged hexp, Finset.mem_insert, or_comm]
    show some slot = some i ∨ i ∈ s.flagged ↔ _
    rw [Option.some_inj, eq_comm]
  have hwr : s'.wrapped = Function.update s.wrapped s.nextDmabuf (some slot) := by
    subst hs'
    funext d
    by_cases hd : d = s.nextDmabuf
    · subst hd
      rw [Function.update_self]
      simp only [wrapped, Function.update_self]
      rw [← hb]; rfl
    · simp only [wrapped, Function.update_of_ne hd]
  have hown : s'.ctxOwner = Function.update (Function.update s.ctxOwner none none)
      (some s.nextDmabuf) (some ctx) := by
    subst hs'
    funext k
    cases k with
    | none => rfl
    | some d =>
      by_cases hd : d = s.nextDmabuf
      · subst hd
        rw [Function.update_self]
        simp only [ctxOwner, Function.update_self]; rfl
      · have hd' : (some d : Option Nat) ≠ some s.nextDmabuf := by simpa using hd
        rw [Function.update_of_ne hd', Function.update_of_ne (by simp)]
        simp only [ctxOwner, Function.update_of_ne hd]
  have hlive : insert ctx (s.ctxHeap.live.erase ctx) = s.ctxHeap.live :=
    Finset.insert_erase (hi.ctxs.used _ _ hpend)
  have hnone : Function.update s.ctxOwner none none (some s.nextDmabuf) = none := by
    rw [Function.update_of_ne (by simp)]
    simp only [ctxOwner, hun]; rfl
  refine ⟨?_, ?_, ?_, ?_, ?_, ?_, ?_, ?_⟩
  · rw [hcl, hwr]; exact hi.slots.claim hnotcl hnow
  · have hex := (hi.ctxs.release hpend).claim (Finset.notMem_erase ctx _) hnone
    rw [hlive, ← hown] at hex
    subst hs'; exact hex
  · rw [hcl]
    intro i hic
    subst hs'
    rcases Finset.mem_insert.mp hic with rfl | hic
    · exact hin
    · exact hi.inUse i hic
  · subst hs'
    intro t' sec hl'
    cases hl'
    exact ⟨ht, hf, Function.update_self .., hb⟩
  · subst hs'
    intro d hd
    have hne : d ≠ s.nextDmabuf := by
      rintro rfl; exact absurd hd (Nat.not_succ_le_self _)
    show (Function.update s.dmabufs s.nextDmabuf _ d).phase = .unused
    rw [Function.update_of_ne hne]
    exact hi.unused d ((Nat.le_succ _).trans hd)
  · subst hs'; exact hi.faults
  · subst hs'; exact hi.noUseAfterFree
  · have hcb : s'.clearedBufs = s.clearedBufs := by
      subst hs'
      ext d
      rw [mem_clearedBufs, mem_clearedBufs]
      by_cases hd : d = s.nextDmabuf
      · subst hd; simp
      · simp only [Function.update_of_ne hd]
        refine and_congr_left fun _ => ⟨fun h => ?_, fun h => Nat.lt_succ_of_lt h⟩
        exact Nat.lt_of_le_of_ne (Nat.le_of_lt_succ h) hd
    rw [hcb]; subst hs'; exact hi.count

theorem exportInv_exportBufFailed {s : BufSt Tid} {t : Tid} {slot : Fin maxBuffers} {ctx : Nat}
    (hi : ExportInv s) (hl : s.lock = some (t, .exportCtx slot ctx)) :
    ExportInv { s with lock := none, ctxHeap := s.ctxHeap.free ctx } := by
  have hexp : s.exporting = none := by rw [exporting, hl]; rfl
  have hpend : s.ctxOwner none = some ctx := by
    show s.pendingCtx = some ctx; rw [pendingCtx, hl]; rfl
  generalize hs' : ({ s with lock := none, ctxHeap := s.ctxHeap.free ctx } : BufSt Tid) = s'
  have hcl : s'.claimed = s.claimed := by
    subst hs'
    exact claimed_congr rfl hexp.symm
  have hown : s'.ctxOwner = Function.update s.ctxOwner none none := by
    subst hs'
    funext k
    cases k with
    | none => rfl
    | some d => rfl
  refine ⟨?_, ?_, ?_, ?_, ?_, ?_, ?_, ?_⟩
  · rw [hcl]; subst hs'; exact hi.slots
  · rw [hown]; subst hs'; exact hi.ctxs.release hpend
  · rw [hcl]; subst hs'; exact hi.inUse
  · subst hs'; intro t' sec hl'; cases hl'
  · subst hs'; exact hi.unused
  · subst hs'
    exact (Heap.faults_free (hi.ctxs.used _ _ hpend)).trans hi.faults
  · subst hs'; exact hi.noUseAfterFree
  · subst hs'; exact hi.count

theorem exportInv_exportFd {s : BufSt Tid} {t : Tid} {slot : Fin maxBuffers} {ctx d : Nat}
    (hi : ExportInv s) (hl : s.lock = some (t, .exportBuf slot ctx d)) :
    ExportInv { s.setPhase d (.live 1) with lock := some (t, .exportFd slot ctx d) } := by
  obtain ⟨ht, hf, hd, hb⟩ := hi.sec _ _ hl
  have hphase : (s.dmabufs d).phase = .fresh := by rw [hd]
  have hwr : (s.setPhase d (.live 1)).wrapped = s.wrapped :=
    wrapped_setPhase (by rw [hphase]; rfl)
  have hcl : ({ s.setPhase d (.live 1) with lock := some (t, .exportFd slot ctx d) } :
      BufSt Tid).claimed = s.claimed := by
    refine claimed_congr rfl ?_
    rw [exporting, exporting, hl]; rfl
  refine ⟨?_, ?_, ?_, ?_, ?_, hi.faults, hi.noUseAfterFree, ?_⟩
  · rw [hcl]
    show Exclusive s.claimed (s.setPhase d (.live 1)).wrapped
    rw [hwr]; exact hi.slots
  · have hown : ({ s.setPhase d (.live 1) with lock := some (t, .exportFd slot ctx d) } :
        BufSt Tid).ctxOwner = s.ctxOwner := by
      rw [← ctxOwner_setPhase (s := s) (d := d) (.live 1) (by rw [hphase]; rfl)]
      refine ctxOwner_congr rfl ?_
      show none = s.pendingCtx
      rw [pendingCtx, hl]; rfl
    rw [hown]; exact hi.ctxs
  · rw [hcl]; exact hi.inUse
  · intro t' sec hl'
    cases hl'
    refine ⟨ht, hf, ?_⟩
    show (s.setPhase d (.live 1)).wrapped d = some slot
    rw [hwr, wrapped, hphase, hd, ← hb]; rfl
  · exact unused_setPhase hi.unused (by rw [hphase]; simp)
  · have hcb := clearedBufs_setPhase (s := s) (d := d) (.live 1) (by rw [hphase]; simp)
      (by simp)
    show _ = _ + BitVec.ofNat 64 ((s.setPhase d (.live 1)).clearedBufs.card + s.flagged.card)
    rw [hcb]; exact hi.count

theorem ofNat_succ (w n : Nat) : BitVec.ofNat w (n + 1) = BitVec.ofNat w n + 1 := by
  rw [BitVec.ofNat_add]; rfl

theorem exportInv_exportPublish {s : BufSt Tid} [DecidableEq Tid] {t : Tid}
    {slot : Fin maxBuffers} {ctx d : Nat} (hi : ExportInv s)
    (hl : s.lock = some (t, .exportFd slot ctx d)) :
    ExportInv { s with
      lock := none, dev := s.dev.setExported slot (some d), counting := insert t s.counting } := by
  obtain ⟨ht, hf, hw⟩ := hi.sec _ _ hl
  have hexp : s.exporting = some slot := by rw [exporting, hl]; rfl
  generalize hs' : ({ s with
      lock := none, dev := s.dev.setExported slot (some d), counting := insert t s.counting } :
    BufSt Tid) = s'
  have hfl : s'.flagged = insert slot s.flagged := by
    subst hs'
    ext i
    rw [mem_flagged, Finset.mem_insert, mem_flagged]
    exact exported_setExported_some i
  have hcl : s'.claimed = s.claimed := by
    ext i
    rw [claimed_eq_flagged (by subst hs'; rfl), hfl, mem_claimed, hexp, Finset.mem_insert,
      Option.some_inj, or_comm, eq_comm]
  refine ⟨?_, ?_, ?_, ?_, ?_, ?_, ?_, ?_⟩
  · rw [hcl]; subst hs'; exact hi.slots
  · have hown : s'.ctxOwner = s.ctxOwner := by
      subst hs'
      refine ctxOwner_congr rfl ?_
      show none = s.pendingCtx
      rw [pendingCtx, hl]; rfl
    rw [hown]; subst hs'; exact hi.ctxs
  · rw [hcl]
    intro i hic
    subst hs'
    show ((s.dev.setExported slot (some d)).buffers i).inUse = true
    rw [inUse_setExported]; exact hi.inUse i hic
  · subst hs'; intro t' sec hl'; cases hl'
  · subst hs'; exact hi.unused
  · subst hs'; exact hi.faults
  · subst hs'; exact hi.noUseAfterFree
  · have hc := hi.count
    have hcb : s'.clearedBufs = s.clearedBufs := by subst hs'; rfl
    rw [hcb, hfl, Finset.card_insert_of_notMem hf, ← Nat.add_assoc, ofNat_succ, ← BitVec.add_assoc]
    subst hs'
    show s.dev.stats.dmabufsExported + BitVec.ofNat 64 (insert t s.counting).card
      = s.dev.stats.dmabufsReleased + BitVec.ofNat 64 (s.clearedBufs.card + s.flagged.card) + 1
    rw [← hc, Finset.card_insert_of_notMem ht, ofNat_succ, BitVec.add_assoc]

theorem exportInv_exportCount {s : BufSt Tid} [DecidableEq Tid] {t : Tid} (hi : ExportInv s)
    (ht : t ∈ s.counting) :
    ExportInv { s with
      counting := s.counting.erase t
      dev := { s.dev with
        stats := { s.dev.stats with dmabufsExported := s.dev.stats.dmabufsExported + 1 } } } := by
  refine ⟨hi.slots, hi.ctxs, hi.inUse, ?_, hi.unused, hi.faults, hi.noUseAfterFree, ?_⟩
  · intro t' sec hl
    exact (hi.sec t' sec hl).mono (fun _ => rfl) rfl (Finset.erase_subset ..) rfl
      (fun _ _ => rfl) rfl
  · have hc := hi.count
    rw [← Finset.card_erase_add_one ht, ofNat_succ] at hc
    show s.dev.stats.dmabufsExported + 1 + BitVec.ofNat 64 (s.counting.erase t).card
      = s.dev.stats.dmabufsReleased + BitVec.ofNat 64 (s.clearedBufs.card + s.flagged.card)
    rw [← hc, BitVec.add_assoc, BitVec.add_comm 1]

theorem exportInv_releaseLocked {s : BufSt Tid} {d : Nat} (hi : ExportInv s)
    (hl : s.lock = none) (hp : (s.dmabufs d).phase = .releasing) :
    ExportInv { s.setPhase d .cleared with
      dev := s.dev.setExported (s.ctxs (s.dmabufs d).priv).buf none } := by
  have hexp := exporting_none hl
  have hw : s.wrapped d = some (s.ctxs (s.dmabufs d).priv).buf := by rw [wrapped, hp]; rfl
  generalize hslot : (s.ctxs (s.dmabufs d).priv).buf = slot at *
  have hmem : slot ∈ s.flagged := by
    rw [← claimed_eq_flagged hexp]; exact hi.slots.used d slot hw
  have hlt : d < s.nextDmabuf := by
    by_contra hge
    have := hi.unused d (Nat.not_lt.mp hge)
    rw [hp] at this; cases this
  generalize hs' : ({ s.setPhase d .cleared with dev := s.dev.setExported slot none } :
    BufSt Tid) = s'
  have hfl : s'.flagged = s.flagged.erase slot := by
    subst hs'
    ext i
    rw [mem_flagged, Finset.mem_erase, mem_flagged]
    exact exported_setExported_none i
  have hcl : s'.claimed = s.claimed.erase slot := by
    rw [claimed_eq_flagged hexp, claimed_eq_flagged (by subst hs'; exact hexp), hfl]
  have hwr : s'.wrapped = Function.update s.wrapped d none := by
    subst hs'
    funext d'
    by_cases hd : d' = d
    · subst hd
      rw [Function.update_self]
      show (s.setPhase d' .cleared).wrapped d' = none
      rw [wrapped, setPhase_self]; rfl
    · rw [Function.update_of_ne hd]
      show (s.setPhase d .cleared).wrapped d' = _
      rw [wrapped, setPhase_of_ne hd]; rfl
  have hcb : s'.clearedBufs = insert d s.clearedBufs := by
    subst hs'
    ext d'
    show d' ∈ (s.setPhase d .cleared).clearedBufs ↔ _
    by_cases hd : d' = d
    · subst hd; simp [hlt]
    · simp [hd]
  refine ⟨?_, ?_, ?_, ?_, ?_, ?_, ?_, ?_⟩
  · rw [hcl, hwr]; exact hi.slots.release hw
  · have hown : s'.ctxOwner = s.ctxOwner := by
      subst hs'
      exact ctxOwner_setPhase .cleared (by rw [hp]; rfl)
    rw [hown]; subst hs'; exact hi.ctxs
  · rw [hcl]
    intro i hic
    subst hs'
    show ((s.dev.setExported slot none).buffers i).inUse = true
    rw [inUse_setExported]; exact hi.inUse i (Finset.mem_of_mem_erase hic)
  · subst hs'
    intro t sec hl'
    rw [show s.lock = some (t, sec) from hl'] at hl; cases hl
  · subst hs'; exact unused_setPhase hi.unused (by rw [hp]; simp)
  · subst hs'; exact hi.faults
  · subst hs'; exact hi.noUseAfterFree
  · have hc := hi.count
    have hnot : d ∉ s.clearedBufs := by rw [mem_clearedBufs, hp]; simp
    rw [← Finset.card_erase_add_one hmem] at hc
    rw [hcb, hfl, Finset.card_insert_of_notMem hnot, Nat.add_right_comm]
    subst hs'; exact hc

theorem exportInv_releaseCount {s : BufSt Tid} {d : Nat} (hi : ExportInv s)
    (hp : (s.dmabufs d).phase = .cleared) :
    ExportInv { s.setPhase d .counted with
      dev := { s.dev with
        stats := { s.dev.stats with dmabufsReleased := s.dev.stats.dmabufsReleased + 1 } } } := by
  have hwr : (s.setPhase d .counted).wrapped = s.wrapped := wrapped_setPhase (by rw [hp]; rfl)
  have hlt : d < s.nextDmabuf := by
    by_contra hge
    have := hi.unused d (Nat.not_lt.mp hge)
    rw [hp] at this; cases this
  refine ⟨?_, ?_, hi.inUse, ?_, ?_, hi.faults, hi.noUseAfterFree, ?_⟩
  · show Exclusive s.claimed (s.setPhase d .counted).wrapped
    rw [hwr]; exact hi.slots
  · show Exclusive s.ctxHeap.live (s.setPhase d .counted).ctxOwner
    rw [ctxOwner_setPhase .counted (by rw [hp]; rfl)]; exact hi.ctxs
  · intro t sec hl
    have hfresh : (s.dmabufs d).phase ≠ .fresh := by rw [hp]; simp
    exact (hi.sec t sec hl).mono (fun _ => rfl) rfl (Finset.Subset.refl _) rfl
      (setPhase_fresh hfresh) hwr
  · exact unused_setPhase hi.unused (by rw [hp]; simp)
  · have hcb : s.clearedBufs = insert d (s.setPhase d .counted).clearedBufs := by
      ext d'
      by_cases hd : d' = d
      · subst hd; simp [hlt, hp]
      · simp [hd]
    have hnot : d ∉ (s.setPhase d .counted).clearedBufs := by simp
    have hc := hi.count
    rw [hcb, Finset.card_insert_of_notMem hnot, Nat.add_right_comm, ofNat_succ] at hc
    show _ = s.dev.stats.dmabufsReleased + 1
      + BitVec.ofNat 64 ((s.setPhase d .counted).clearedBufs.card + s.flagged.card)
    rw [BitVec.add_assoc, BitVec.add_comm 1]; exact hc

theorem exportInv_releaseFree {s : BufSt Tid} {d : Nat} (hi : ExportInv s)
    (hp : (s.dmabufs d).phase = .counted) :
    ExportInv { s.setPhase d .gone with ctxHeap := s.ctxHeap.free (s.dmabufs d).priv } := by
  have hwr : (s.setPhase d .gone).wrapped = s.wrapped := wrapped_setPhase (by rw [hp]; rfl)
  have hpriv : s.ctxOwner (some d) = some (s.dmabufs d).priv := by
    simp only [ctxOwner, hp]; rfl
  have hown : (s.setPhase d .gone).ctxOwner = Function.update s.ctxOwner (some d) none := by
    funext k
    by_cases hk : k = some d
    · subst hk
      rw [Function.update_self]
      simp only [ctxOwner, setPhase_self]; rfl
    · rw [Function.update_of_ne hk]
      cases k with
      | none => rfl
      | some d' =>
        have hd : d' ≠ d := by rintro rfl; exact hk rfl
        simp only [ctxOwner, setPhase_of_ne hd]
  refine ⟨?_, ?_, hi.inUse, ?_, ?_, ?_, hi.noUseAfterFree, ?_⟩
  · show Exclusive s.claimed (s.setPhase d .gone).wrapped
    rw [hwr]; exact hi.slots
  · show Exclusive (s.ctxHeap.free _).live (s.setPhase d .gone).ctxOwner
    rw [hown]; exact hi.ctxs.release hpriv
  · intro t sec hl
    have hfresh : (s.dmabufs d).phase ≠ .fresh := by rw [hp]; simp
    exact (hi.sec t sec hl).mono (fun _ => rfl) rfl (Finset.Subset.refl _) rfl
      (setPhase_fresh hfresh) hwr
  · exact unused_setPhase hi.unused (by rw [hp]; simp)
  · exact (Heap.faults_free (hi.ctxs.used _ _ hpriv)).trans hi.faults
  · have hcb := clearedBufs_setPhase (s := s) (d := d) .gone (by rw [hp]; simp)
      (by simp)
    show _ = _ + BitVec.ofNat 64 ((s.setPhase d .gone).clearedBufs.card + s.flagged.card)
    rw [hcb]; exact hi.count

/-! ## Runs in which `dma_buf_fd` succeeds -/

variable [DecidableEq Tid]

def FdSucceeds (_ : BufSt Tid) : BufAct Tid → Prop
  | .exportFd _ fd => fd = .ok
  | _ => True

instance (s : BufSt Tid) (a : BufAct Tid) : Decidable (FdSucceeds s a) :=
  decidable_of_bool
    (match a with
      | .exportFd _ fd => decide (fd = .ok)
      | _ => true)
    (by cases a <;> simp [FdSucceeds])

theorem exportInv_step {s s' : BufSt Tid} {a : BufAct Tid} (hi : ExportInv s)
    (hok : FdSucceeds s a) (h : bufStep s a = some s') : ExportInv s' := by
  have hnone : ∀ {t : Tid} {sec : BufSection}, s.lock = none → s.lock ≠ some (t, sec) := by
    intro t sec hl hs; rw [hl] at hs; cases hs
  -- a slot that is not in use is not exported
  have hfree : ∀ {i : Fin maxBuffers}, (s.dev.buffers i).inUse = false → i ∉ s.claimed := by
    intro i hf hc
    rw [hi.inUse i hc] at hf; cases hf
  have hunflag : ∀ {i : Fin maxBuffers}, (s.dev.buffers i).inUse = false →
      (s.dev.buffers i).dmabufExported = false := by
    intro i hf
    by_contra hne
    exact hfree hf (mem_claimed.mpr (.inl (mem_flagged.mpr (by simpa using hne))))
  cases bufStep_flow h with
  | pc a user =>
    exact hi.frame_lock ⟨fun _ => rfl, rfl, rfl, rfl, rfl, rfl, rfl, rfl, rfl, rfl, rfl⟩
      (fun _ => rfl) rfl
  | createFailed hl hall hdev =>
    have hsec : ∀ s', ∀ t sec, s.lock = some (t, sec) → SectionOk s' t sec :=
      fun s' t sec hs => absurd hs (hnone hl)
    rcases hdev with rfl | ⟨slot, hslot, hsame, hin, he⟩
    · exact hi.frame ⟨fun _ => rfl, rfl, rfl, rfl, rfl, rfl, rfl, rfl, rfl, rfl, rfl⟩ hi.inUse (hsec _)
    · refine hi.frame ⟨?_, rfl, rfl, rfl, rfl, rfl, rfl, rfl, rfl, hsame.exported,
        hsame.released⟩ ?_ (hsec _)
      · intro i
        by_cases h : i = slot
        · subst h; exact he.trans (hunflag hslot).symm
        · exact congrArg _ (hsame.buffers i h)
      · intro i hc
        have h : i ≠ slot := by rintro rfl; exact hfree hslot hc
        exact (congrArg _ (hsame.buffers i h)).trans (hi.inUse i hc)
  | createFilled hl hslot hsame hfilled hall =>
    rename_i t slot type params dev mem
    refine hi.frame ⟨?_, ?_, ?_, rfl, rfl, rfl, rfl, rfl, rfl, hsame.exported, hsame.released⟩ ?_ ?_
    · intro i
      by_cases h : i = slot
      · subst h; exact hfilled.exported.trans (hunflag hslot).symm
      · exact congrArg _ (hsame.buffers i h)
    · rw [exporting_none hl]; rfl
    · rw [pendingCtx, pendingCtx, hl]; rfl
    · intro i hc
      have h : i ≠ slot := by rintro rfl; exact hfree hslot hc
      exact (congrArg _ (hsame.buffers i h)).trans (hi.inUse i hc)
    · intro t' sec hl'; cases hl'; exact hfilled.inUse
  | createPublish hl =>
    rename_i t slot user
    refine hi.frame ⟨?_, ?_, ?_, rfl, rfl, rfl, rfl, rfl, rfl, rfl, rfl⟩ ?_ ?_
    · intro i
      by_cases h : i = slot
      · subst h; simp [createPublish]
      · simp [createPublish, h]
    · rw [exporting, exporting, hl]; rfl
    · rw [pendingCtx, pendingCtx, hl]; rfl
    · intro i hc
      by_cases h : i = slot
      · subst h; simp [createPublish]
      · simpa [createPublish, h] using hi.inUse i hc
    · intro t' sec hl'; cases hl'
  | destroyChecked hl hin hm he =>
    refine hi.frame ⟨fun _ => rfl, ?_, ?_, rfl, rfl, rfl, rfl, rfl, rfl, rfl, rfl⟩ hi.inUse ?_
    · rw [exporting_none hl]; rfl
    · rw [pendingCtx, pendingCtx, hl]; rfl
    · intro t' sec hl'
      cases hl'
      show _ ∉ s.flagged
      rw [mem_flagged, he]; exact Bool.false_ne_true
  | destroyFree hl =>
    rename_i t slot user
    have hslot : slot ∉ s.flagged := hi.sec _ _ hl
    have hexp : s.exporting = none := by rw [exporting, hl]; rfl
    refine hi.frame ⟨?_, ?_, ?_, rfl, rfl, rfl, rfl, rfl, rfl, rfl, rfl⟩ ?_ ?_
    · intro i
      by_cases h : i = slot
      · subst h; simp [destroyFree]
      · simp [destroyFree, h]
    · rw [hexp]; rfl
    · rw [pendingCtx, pendingCtx, hl]; rfl
    · intro i hc
      have h : i ≠ slot := by
        rintro rfl; rw [claimed_eq_flagged hexp] at hc; exact hslot hc
      simpa [destroyFree, h] using hi.inUse i hc
    · intro t' sec hl'; cases hl'
  | mmapInserted hl hin hsub =>
    refine hi.frame ⟨fun _ => rfl, ?_, ?_, rfl, rfl, rfl, rfl, rfl, rfl, rfl, rfl⟩ hi.inUse ?_
    · rw [exporting_none hl]; rfl
    · rw [pendingCtx, pendingCtx, hl]; rfl
    · intro t' sec hl'; cases hl'; trivial
  | mmapCount hl =>
    refine hi.frame ⟨fun i => (flags_setMmapCount i).1, ?_, ?_, rfl, rfl, rfl, rfl, rfl, rfl, rfl,
      rfl⟩ (fun i hc => (flags_setMmapCount i).2.trans (hi.inUse i hc)) ?_
    · rw [exporting, exporting, hl]; rfl
    · rw [pendingCtx, pendingCtx, hl]; rfl
    · intro t' sec hl'; cases hl'
  | vmaOpen hv hsub =>
    exact hi.frame_lock ⟨fun i => (flags_setMmapCount i).1, rfl, rfl, rfl, rfl, rfl, rfl, rfl, rfl,
      rfl, rfl⟩ (fun i => (flags_setMmapCount i).2) rfl
  | vmaClose hv =>
    exact hi.frame_lock ⟨fun i => (flags_setMmapCount i).1, rfl, rfl, rfl, rfl, rfl, rfl, rfl, rfl,
      rfl, rfl⟩ (fun i => (flags_setMmapCount i).2) rfl
  | exportCtx hl ht hin hty hf => exact exportInv_exportCtx hi hl ht hin hf
  | exportBuf hl => exact exportInv_exportBuf hi hl
  | exportBufFailed hl => exact exportInv_exportBufFailed hi hl
  | exportFd hl => exact exportInv_exportFd hi hl
  | exportFdFailed hne => exact absurd hok hne
  | exportPublish hl => exact exportInv_exportPublish hi hl
  | exportCount ht => exact exportInv_exportCount hi ht
  | exportFree hl => exact (hi.sec _ _ hl).elim
  | refs hp hnew =>
    refine hi.setPhase _ ?_ ?_ ?_ ?_ ?_ ?_ hi.noUseAfterFree rfl
    all_goals rcases hnew with rfl | ⟨refs', rfl⟩ <;> simp [hp, DmabufPhase.wrapping,
      DmabufPhase.ownsCtx]
  | releaseEnter hp =>
    rename_i d
    have hown : s.ctxOwner (some d) = some (s.dmabufs d).priv := by
      simp only [ctxOwner, hp]; rfl
    have hlive := hi.ctxs.used _ _ hown
    refine hi.setPhase (d := d) .releasing ?_ ?_ ?_ ?_ ?_ ?_ ?_ rfl
    case refine_7 => simp [hi.noUseAfterFree, hlive]
    all_goals simp [hp, DmabufPhase.wrapping, DmabufPhase.ownsCtx]
  | releaseLocked hl hp => exact exportInv_releaseLocked hi hl hp
  | releaseCount hp => exact exportInv_releaseCount hi hp
  | releaseFree hp => exact exportInv_releaseFree hi hp

theorem exportInv {s : BufSt Tid} (h : (bufSys Tid).ReachableWith FdSucceeds s) :
    ExportInv s := by
  refine h.invariant ?_ fun _ _ _ => exportInv_step
  have hfl : (bufInit Tid).flagged = ∅ := by
    ext i; rw [mem_flagged]; simp [bufInit, bufTableInit, bufferZero]
  have hcl : (bufInit Tid).claimed = ∅ := (claimed_eq_flagged rfl).trans hfl
  refine ⟨?_, ?_, ?_, ?_, fun _ _ => rfl, rfl, rfl, ?_⟩
  · show Exclusive (bufInit Tid).claimed (fun _ => none)
    rw [hcl]; exact Exclusive.nobody
  · have hown : (bufInit Tid).ctxOwner = fun _ => none := by
      funext k; cases k <;> rfl
    show Exclusive ∅ (bufInit Tid).ctxOwner
    rw [hown]; exact Exclusive.nobody
  · show ∀ i ∈ (bufInit Tid).claimed, _
    rw [hcl]
    intro i hi; cases hi
  · intro t sec hl; cases hl
  · show _ = _ + BitVec.ofNat 64 ((bufInit Tid).clearedBufs.card + (bufInit Tid).flagged.card)
    rw [hfl]; rfl

/-- No call holds `buf_lock` or is about to count an export, and no release callback is running
(one may be due). -/
def BufSt.ExportQuiescent (s : BufSt Tid) : Prop :=
  s.lock = none ∧ s.counting = ∅ ∧
    ∀ d, (s.dmabufs d).phase ≠ .cleared ∧ (s.dmabufs d).phase ≠ .counted

structure BufSt.ExportOk (s : BufSt Tid) : Prop where
  /-- No export context was freed twice or read after it was freed. -/
  freedOnce : s.ctxHeap.faults = 0 ∧ s.ctxUseAfterFree = false
  /-- A context that is not freed has one owner that will free it: a dma-buf, or the call that
  has just allocated it. -/
  owned : ∀ c ∈ s.ctxHeap.live, ∃! k, s.ctxOwner k = some c
  /-- No thread runs the release callback while it holds the `buf_lock` that the callback needs. -/
  noDeadlock : ∀ t d, s.lock ≠ some (t, .exportPutSync d)
  /-- Outside EXPORT_DMABUF's own section on the slot, the flag says that one dma-buf wraps it. -/
  flag : ∀ i, s.exporting ≠ some i →
    ((s.dev.buffers i).dmabufExported = true ↔ ∃! d, s.wrapped d = some i)
  count : s.ExportQuiescent →
    (s.dev.stats.dmabufsExported - s.dev.stats.dmabufsReleased).toNat = s.flagged.card

theorem export_owned {s : BufSt Tid} (h : (bufSys Tid).ReachableWith FdSucceeds s) :
    s.ExportOk := by
  have hi := exportInv h
  refine ⟨⟨hi.faults, hi.noUseAfterFree⟩, fun c hc => hi.ctxs.existsUnique hc, ?_, ?_, ?_⟩
  · intro t d hl
    exact hi.sec t _ hl
  · intro i hexp
    have hcl : i ∈ s.claimed ↔ i ∈ s.flagged := by
      rw [mem_claimed]; exact or_iff_left hexp
    rw [← mem_flagged, ← hcl]
    refine ⟨fun hc => hi.slots.existsUnique hc, ?_⟩
    rintro ⟨d, hd, _⟩
    exact hi.slots.used d i hd
  · rintro ⟨_, hcnt, hph⟩
    have hcb : s.clearedBufs = ∅ := by
      rw [Finset.eq_empty_iff_forall_notMem]
      intro d hd
      exact (hph d).1 (mem_clearedBufs.mp hd).2
    have hle : s.flagged.card ≤ 64 := Finset.card_le_univ s.flagged
    have hc := hi.count
    rw [hcnt, hcb, Finset.card_empty, Finset.card_empty, Nat.zero_add] at hc
    have hzero : BitVec.ofNat 64 0 = 0#64 := rfl
    rw [hzero, BitVec.add_zero] at hc
    rw [hc, BitVec.add_comm, BitVec.add_sub_cancel, BitVec.toNat_ofNat,
      Nat.mod_eq_of_lt (by omega)]

/-- A page-backed buffer of one page. -/
def onePage : DmaplaneBufParams :=
  { bufId := 0, allocType := 1, size := 4096, numaNode := -1, actualNumaNode := 0 }

/-- The kernel grants every allocation. -/
def grantAll : AllocEnv :=
  { maxNumNodes := 1, nodeOnline := fun _ => true, coherent := some (0x2000000, 0x1000, 0)
    pageArray := true, page := fun _ => some 0, vmap := some 0x1000000 }

def createOnePage : List (BufAct (Fin 2)) :=
  [.create 0 onePage grantAll, .createPublish 0, .createCopy 0 true]

/-- A buffer is exported, its dma-buf closed at once and released, and the buffer destroyed. -/
def exportAndRelease : List (BufAct (Fin 2)) :=
  createOnePage ++
    ([.exportLocked 0 1 true, .exportBuf 0 true, .exportFd 0 .ok, .dmabufPut 0, .releaseEnter 0,
      .exportPublish 0, .releaseLocked 0, .exportCount 0, .releaseCount 0, .destroyCall 1 1,
      .destroyLocked 1, .destroyFree 1, .releaseFree 0] : List (BufAct (Fin 2)))

theorem export_owned_release : ∃ s : BufSt (Fin 2),
    s.dev.stats.dmabufsReleased = 1 ∧ (s.dev.buffers 0).inUse = false ∧ s.ExportOk := by
  obtain ⟨s, hr, hrel, hin⟩ : ∃ s : BufSt (Fin 2), (bufSys (Fin 2)).ReachableWith FdSucceeds s ∧
      s.dev.stats.dmabufsReleased = 1 ∧ (s.dev.buffers 0).inUse = false :=
    Transition.Sys.exists_of_execWith exportAndRelease (by decide +kernel)
  exact ⟨s, hrel, hin, export_owned hr⟩

/-- `dma_buf_fd` fails. The deferred release callback reads the context that EXPORT_DMABUF has
freed and frees it again; a callback run at once would wait for the lock its thread holds. -/
def fdFails (fd : FdResult) : List (BufAct (Fin 2)) :=
  createOnePage ++ [.exportLocked 0 1 true, .exportBuf 0 true, .exportFd 0 fd]

theorem export_doubly_freed :
    (∃ s : BufSt (Fin 2), (bufSys (Fin 2)).Reachable s ∧ s.ctxUseAfterFree = true ∧
      s.ctxHeap.faults = 1 ∧ ¬ s.ExportOk) ∧
    ∃ s : BufSt (Fin 2), (bufSys (Fin 2)).Reachable s ∧
      s.lock = some (0, .exportPutSync 0) ∧ ¬ s.ExportOk := by
  constructor
  · obtain ⟨s, hr, huaf, hf⟩ : ∃ s : BufSt (Fin 2), (bufSys (Fin 2)).Reachable s ∧
        s.ctxUseAfterFree = true ∧ s.ctxHeap.faults = 1 :=
      Transition.Sys.exists_of_exec (fdFails .failDeferred ++ ([.exportFree 0, .releaseEnter 0,
        .releaseLocked 0, .releaseCount 0, .releaseFree 0] : List (BufAct (Fin 2))))
        (by decide +kernel)
    refine ⟨s, hr, huaf, hf, fun h => ?_⟩
    rw [h.freedOnce.2] at huaf; cases huaf
  · obtain ⟨s, hr, hl⟩ : ∃ s : BufSt (Fin 2), (bufSys (Fin 2)).Reachable s ∧
        s.lock = some (0, .exportPutSync 0) :=
      Transition.Sys.exists_of_exec (fdFails .failSync) (by decide +kernel)
    exact ⟨s, hr, hl, fun h => h.noDeadlock 0 0 hl⟩

end Dmaplane
