import Dmaplane.BufferSys

/-!
# Dmaplane.BufferMem

Every buffer that is in use, or is being created, owns its memory: its blocks are live and no
other buffer has them (`MemInv`). This holds along all runs, whatever the reference counts say.
-/

namespace Dmaplane

variable {Tid : Type}

def BufSection.filling : BufSection → Option (Fin maxBuffers)
  | .createFilled slot => some slot
  | _ => none

namespace BufSt

def filling (s : BufSt Tid) : Option (Fin maxBuffers) := s.lock.bind (·.2.filling)

/-- The slot holds a buffer with memory. -/
def Filled (s : BufSt Tid) (i : Fin maxBuffers) : Prop :=
  (s.dev.buffers i).inUse = true ∨ s.filling = some i

instance (s : BufSt Tid) (i : Fin maxBuffers) : Decidable (s.Filled i) :=
  inferInstanceAs (Decidable (_ ∨ _))

def own (s : BufSt Tid) (i : Fin maxBuffers) : List Nat :=
  if s.Filled i then (s.dev.buffers i).blocks else []

end BufSt

/-- What CREATE_BUFFER establishes of a buffer's memory. -/
structure BufWf (buf : DmaplaneBuffer) : Prop where
  vaddr : ∃ p, buf.vaddr = some p ∧ p.addr ≠ 0 ∧ p.addr.toNat + buf.size.toNat < 2 ^ 64
  pages : buf.allocType = .pages → ∃ array, buf.pages = some array ∧
    array.pages.length = buf.nrPages ∧ buf.nrPages = divRoundUp buf.size.toNat pageSize

theorem Filled.wf {type : BufType} {params : DmaplaneBufParams} {bufId : BitVec 32}
    {buf : DmaplaneBuffer} (h : Filled type params bufId buf) : BufWf buf := by
  refine ⟨?_, ?_⟩
  · obtain ⟨p, hp, hne, hle⟩ := h.vaddr
    exact ⟨p, hp, hne, by rw [h.size]; exact hle⟩
  · intro hty
    rw [h.size]; exact h.pages (h.allocType ▸ hty)

/-- Two states of a slot that differ in the reference counts only. -/
def SameBuffer (buf buf' : DmaplaneBuffer) : Prop :=
  buf' = { buf with
    mmapCount := buf'.mmapCount, dmabufExported := buf'.dmabufExported, dmabuf := buf'.dmabuf }

namespace SameBuffer

variable {buf buf' : DmaplaneBuffer}

theorem refl (buf : DmaplaneBuffer) : SameBuffer buf buf := rfl

theorem inUse (h : SameBuffer buf buf') : buf'.inUse = buf.inUse := by rw [h]

theorem blocks (h : SameBuffer buf buf') : buf'.blocks = buf.blocks := by rw [h]; rfl

theorem wf (h : SameBuffer buf buf') (hw : BufWf buf) : BufWf buf' := by
  rw [h]; exact ⟨hw.vaddr, hw.pages⟩

theorem exportCtxOf {dev dev' : BufTable} {i : Fin maxBuffers}
    (h : SameBuffer (dev.buffers i) (dev'.buffers i)) :
    exportCtxOf dev' i = Dmaplane.exportCtxOf dev i := by
  simp only [Dmaplane.exportCtxOf]; rw [h]

end SameBuffer

theorem sameBuffer_setMmapCount {dev : BufTable} {slot : Fin maxBuffers} {n : BitVec 32}
    (i : Fin maxBuffers) : SameBuffer (dev.buffers i) ((dev.setMmapCount slot n).buffers i) := by
  unfold BufTable.setMmapCount
  by_cases h : i = slot
  · subst h; rw [setBuffer_self]; rfl
  · rw [setBuffer_of_ne h]; exact .refl _

theorem sameBuffer_setExported {dev : BufTable} {slot : Fin maxBuffers} {dmabuf : Option Nat}
    (i : Fin maxBuffers) :
    SameBuffer (dev.buffers i) ((dev.setExported slot dmabuf).buffers i) := by
  unfold BufTable.setExported
  by_cases h : i = slot
  · subst h; rw [setBuffer_self]; rfl
  · rw [setBuffer_of_ne h]; exact .refl _

def MemSection (s : BufSt Tid) : BufSection → Prop
  | .createFilled slot => (s.dev.buffers slot).inUse = false
  | .destroyChecked slot => (s.dev.buffers slot).inUse = true
  | .mmapInserted vma =>
    (s.dev.buffers vma.buf).inUse = true ∧ ∀ p ∈ vma.mapped, p ∈ (s.dev.buffers vma.buf).blocks
  | _ => True

structure MemInv (s : BufSt Tid) : Prop where
  owned : s.mem.OwnedBy s.own
  faults : s.mem.faults = 0
  wf : ∀ i, s.Filled i → BufWf (s.dev.buffers i)
  sec : ∀ t sec, s.lock = some (t, sec) → MemSection s sec

theorem MemInv.live {s : BufSt Tid} (hi : MemInv s) {i : Fin maxBuffers}
    (hin : (s.dev.buffers i).inUse = true) {p : Nat} (hp : p ∈ (s.dev.buffers i).blocks) :
    p ∈ s.mem.live :=
  hi.owned.live i p (by rw [BufSt.own, if_pos (.inl hin)]; exact hp)

theorem MemSection.mono {s s' : BufSt Tid} {sec : BufSection} (h : MemSection s sec)
    (hbuf : ∀ i, SameBuffer (s.dev.buffers i) (s'.dev.buffers i)) : MemSection s' sec := by
  cases sec with
  | createFilled slot => exact (hbuf slot).inUse.trans h
  | destroyChecked slot => exact (hbuf slot).inUse.trans h
  | mmapInserted vma => exact ⟨(hbuf _).inUse.trans h.1, by rw [(hbuf _).blocks]; exact h.2⟩
  | exportCtx | exportBuf | exportFd | exportPut | exportPutSync => trivial

theorem MemInv.frame {s s' : BufSt Tid} (hi : MemInv s)
    (hbuf : ∀ i, SameBuffer (s.dev.buffers i) (s'.dev.buffers i)) (hmem : s'.mem = s.mem)
    (hfill : s'.filling = s.filling)
    (hsec : ∀ t sec, s'.lock = some (t, sec) → MemSection s' sec) : MemInv s' := by
  have hfilled : ∀ i, s'.Filled i ↔ s.Filled i := by
    intro i; rw [BufSt.Filled, BufSt.Filled, hfill, (hbuf i).inUse]
  have hown : s'.own = s.own := by
    funext i
    by_cases hf : s.Filled i
    · rw [BufSt.own, BufSt.own, if_pos hf, if_pos ((hfilled i).mpr hf), (hbuf i).blocks]
    · rw [BufSt.own, BufSt.own, if_neg hf, if_neg (mt (hfilled i).mp hf)]
  refine ⟨by rw [hmem, hown]; exact hi.owned, by rw [hmem]; exact hi.faults, ?_, hsec⟩
  intro i hf
  exact (hbuf i).wf (hi.wf i ((hfilled i).mp hf))

/-- The section is left alone. -/
theorem MemInv.frame_lock {s s' : BufSt Tid} (hi : MemInv s)
    (hbuf : ∀ i, SameBuffer (s.dev.buffers i) (s'.dev.buffers i)) (hmem : s'.mem = s.mem)
    (hl : s'.lock = s.lock) : MemInv s' := by
  refine hi.frame hbuf hmem (by rw [BufSt.filling, BufSt.filling, hl]) fun t sec hs => ?_
  rw [hl] at hs
  exact (hi.sec t sec hs).mono hbuf

/-- The section is entered or left, and it is not the one of CREATE_BUFFER. -/
theorem MemInv.frame_section {s s' : BufSt Tid} (hi : MemInv s)
    (hbuf : ∀ i, SameBuffer (s.dev.buffers i) (s'.dev.buffers i)) (hmem : s'.mem = s.mem)
    (hold : s.filling = none) (hnew : s'.filling = none)
    (hsec : ∀ t sec, s'.lock = some (t, sec) → MemSection s' sec) : MemInv s' :=
  hi.frame hbuf hmem (hnew.trans hold.symm) hsec

theorem filling_none {s : BufSt Tid} (h : s.lock = none) : s.filling = none := by
  rw [BufSt.filling, h]; rfl

theorem filled_iff_inUse {s : BufSt Tid} (h : s.filling = none) (i : Fin maxBuffers) :
    s.Filled i ↔ (s.dev.buffers i).inUse = true := by
  unfold BufSt.Filled; rw [h]; simp

theorem memInv_createFailed {s : BufSt Tid} {dev : BufTable} {mem : Heap} (hi : MemInv s)
    (hl : s.lock = none) (hall : s.mem.Alloced mem [])
    (hdev : dev = s.dev ∨ ∃ slot, (s.dev.buffers slot).inUse = false ∧ SameBut s.dev dev slot ∧
      (dev.buffers slot).inUse = false ∧ (dev.buffers slot).dmabufExported = false) :
    MemInv { s with dev := dev, mem := mem } := by
  have hfill := filling_none hl
  have hfree : ∀ i, (dev.buffers i).inUse = true →
      dev.buffers i = s.dev.buffers i ∧ (s.dev.buffers i).inUse = true := by
    intro i hin
    rcases hdev with rfl | ⟨slot, hslot, hsame, hslot', _⟩
    · exact ⟨rfl, hin⟩
    · have hne : i ≠ slot := by rintro rfl; rw [hslot'] at hin; cases hin
      rw [hsame.buffers i hne] at hin ⊢; exact ⟨rfl, hin⟩
  have hfree' : ∀ i, (s.dev.buffers i).inUse = true → (dev.buffers i).inUse = true := by
    intro i hin
    rcases hdev with rfl | ⟨slot, hslot, hsame, _, _⟩
    · exact hin
    · have hne : i ≠ slot := by rintro rfl; rw [hslot] at hin; cases hin
      rw [hsame.buffers i hne]; exact hin
  generalize hs' : ({ s with dev := dev, mem := mem } : BufSt Tid) = s'
  have hfill' : s'.filling = none := by subst hs'; exact hfill
  have hown : s'.own = s.own := by
    funext i
    unfold BufSt.own
    by_cases hin : (s.dev.buffers i).inUse = true
    · have hin' : (s'.dev.buffers i).inUse = true := by subst hs'; exact hfree' i hin
      rw [if_pos ((filled_iff_inUse hfill' i).mpr hin'),
        if_pos ((filled_iff_inUse hfill i).mpr hin)]
      subst hs'
      rw [(hfree i hin').1]
    · have hin' : ¬ (s'.dev.buffers i).inUse = true := by
        subst hs'; exact fun h => hin (hfree i h).2
      rw [if_neg (mt (filled_iff_inUse hfill' i).mp hin'),
        if_neg (mt (filled_iff_inUse hfill i).mp hin)]
  refine ⟨?_, ?_, ?_, ?_⟩
  · rw [hown]; subst hs'; exact hi.owned.alloced_nil hall
  · subst hs'; exact hall.faults.trans hi.faults
  · intro i hf
    have hin := (filled_iff_inUse hfill' i).mp hf
    subst hs'
    obtain ⟨hbuf, hin⟩ := hfree i hin
    rw [hbuf]; exact hi.wf i (.inl hin)
  · subst hs'
    intro t sec hs
    rw [show s.lock = some (t, sec) from hs] at hl; cases hl

theorem memInv_createFilled {s : BufSt Tid} {t : Tid} {slot : Fin maxBuffers} {type : BufType}
    {params : DmaplaneBufParams} {dev : BufTable} {mem : Heap} (hi : MemInv s)
    (hl : s.lock = none) (hslot : (s.dev.buffers slot).inUse = false) (hsame : SameBut s.dev dev slot)
    (hfilled : Filled type params s.dev.nextBufId (dev.buffers slot))
    (hall : s.mem.Alloced mem (dev.buffers slot).blocks) :
    MemInv { s with dev := dev, mem := mem, lock := some (t, .createFilled slot) } := by
  have hfill := filling_none hl
  generalize hs' : ({ s with
    dev := dev, mem := mem, lock := some (t, .createFilled slot) } : BufSt Tid) = s'
  have hfilled' : ∀ i, i ≠ slot → (s'.Filled i ↔ s.Filled i) := by
    intro i hne
    rw [filled_iff_inUse hfill]
    subst hs'
    show (dev.buffers i).inUse = true ∨ some slot = some i ↔ _
    rw [hsame.buffers i hne, Option.some_inj]
    exact or_iff_left (Ne.symm hne)
  have hself : s'.Filled slot := by subst hs'; exact .inr rfl
  have hown : s'.own = Function.update s.own slot (dev.buffers slot).blocks := by
    funext i
    by_cases hne : i = slot
    · subst hne
      rw [Function.update_self, BufSt.own, if_pos hself]
      subst hs'; rfl
    · rw [Function.update_of_ne hne]
      by_cases hf : s.Filled i
      · rw [BufSt.own, BufSt.own, if_pos hf, if_pos ((hfilled' i hne).mpr hf)]
        subst hs'
        show (dev.buffers i).blocks = _
        rw [hsame.buffers i hne]
      · rw [BufSt.own, BufSt.own, if_neg hf, if_neg (mt (hfilled' i hne).mp hf)]
  refine ⟨?_, ?_, ?_, ?_⟩
  · rw [hown]; subst hs'; exact hi.owned.give hall
  · subst hs'; exact hall.faults.trans hi.faults
  · intro i hf
    by_cases hne : i = slot
    · subst hne; subst hs'; exact hfilled.wf
    · have hw := hi.wf i ((hfilled' i hne).mp hf)
      subst hs'
      show BufWf (dev.buffers i)
      rw [hsame.buffers i hne]; exact hw
  · subst hs'
    intro t' sec hs
    cases hs; exact hfilled.inUse

theorem memInv_createPublish {s : BufSt Tid} {t : Tid} {slot : Fin maxBuffers}
    {user : Tid → BufPc} (hi : MemInv s) (hl : s.lock = some (t, .createFilled slot)) :
    MemInv { s with lock := none, user := user, dev := createPublish s.dev slot } := by
  have hfill : s.filling = some slot := by rw [BufSt.filling, hl]; rfl
  generalize hs' : ({ s with
    lock := none, user := user, dev := createPublish s.dev slot } : BufSt Tid) = s'
  have hbuf : ∀ i, (s'.dev.buffers i).blocks = (s.dev.buffers i).blocks ∧
      (BufWf (s.dev.buffers i) → BufWf (s'.dev.buffers i)) ∧
      (s'.Filled i ↔ s.Filled i) := by
    intro i
    rw [filled_iff_inUse (by subst hs'; rfl), BufSt.Filled, hfill, Option.some_inj]
    subst hs'
    by_cases hne : i = slot
    · subst hne
      simp only [createPublish, setBuffer_self]
      exact ⟨rfl, fun h => ⟨h.vaddr, h.pages⟩, by simp⟩
    · simp only [createPublish, setBuffer_of_ne hne]
      exact ⟨trivial, id, (or_iff_left (Ne.symm hne)).symm⟩
  have hown : s'.own = s.own := by
    funext i
    obtain ⟨hb, _, hf⟩ := hbuf i
    by_cases hfi : s.Filled i
    · rw [BufSt.own, BufSt.own, if_pos hfi, if_pos (hf.mpr hfi), hb]
    · rw [BufSt.own, BufSt.own, if_neg hfi, if_neg (mt hf.mp hfi)]
  refine ⟨?_, ?_, ?_, ?_⟩
  · rw [hown]; subst hs'; exact hi.owned
  · subst hs'; exact hi.faults
  · intro i hf
    obtain ⟨_, hw, hfi⟩ := hbuf i
    exact hw (hi.wf i (hfi.mp hf))
  · subst hs'; intro t' sec hs; cases hs

theorem memInv_destroyFree {s : BufSt Tid} {t : Tid} {slot : Fin maxBuffers}
    {user : Tid → BufPc} (hi : MemInv s) (hl : s.lock = some (t, .destroyChecked slot)) :
    MemInv { s with
      lock := none, user := user
      dev := (destroyFree s.dev s.mem slot).1, mem := (destroyFree s.dev s.mem slot).2 } := by
  have hin : (s.dev.buffers slot).inUse = true := hi.sec _ _ hl
  have hfill : s.filling = none := by rw [BufSt.filling, hl]; rfl
  have hslot : s.own slot = (s.dev.buffers slot).blocks := by rw [BufSt.own, if_pos (.inl hin)]
  generalize hs' : ({ s with
      lock := none, user := user
      dev := (destroyFree s.dev s.mem slot).1, mem := (destroyFree s.dev s.mem slot).2 } :
    BufSt Tid) = s'
  have hfill' : s'.filling = none := by subst hs'; rfl
  have hbuf : ∀ i, i ≠ slot → s'.dev.buffers i = s.dev.buffers i := by
    intro i hne; subst hs'; simp [destroyFree, hne]
  have hself : ¬ s'.Filled slot := by
    rw [filled_iff_inUse hfill']; subst hs'; simp [destroyFree]
  have hfilled : ∀ i, i ≠ slot → (s'.Filled i ↔ s.Filled i) := by
    intro i hne
    rw [filled_iff_inUse hfill', filled_iff_inUse hfill, hbuf i hne]
  have hown : s'.own = Function.update s.own slot [] := by
    funext i
    by_cases hne : i = slot
    · subst hne
      rw [Function.update_self, BufSt.own, if_neg hself]
    · rw [Function.update_of_ne hne]
      by_cases hf : s.Filled i
      · rw [BufSt.own, BufSt.own, if_pos hf, if_pos ((hfilled i hne).mpr hf), hbuf i hne]
      · rw [BufSt.own, BufSt.own, if_neg hf, if_neg (mt (hfilled i hne).mp hf)]
  refine ⟨?_, ?_, ?_, ?_⟩
  · rw [hown]; subst hs'
    exact hi.owned.freeAll (List.Perm.of_eq hslot.symm)
  · subst hs'
    exact (hi.owned.faults_freeAll (List.Perm.of_eq hslot.symm)).trans hi.faults
  · intro i hf
    have hne : i ≠ slot := by rintro rfl; exact hself hf
    rw [hbuf i hne]; exact hi.wf i ((hfilled i hne).mp hf)
  · subst hs'; intro t' sec hs; cases hs

theorem memInv_init : MemInv (bufInit Tid) := by
  have hf : ∀ i, ¬ (bufInit Tid).Filled i := by
    intro i hi
    rcases hi with hi | hi <;> cases hi
  have hown : (bufInit Tid).own = fun _ => [] := by
    funext i; rw [BufSt.own, if_neg (hf i)]
  refine ⟨?_, rfl, fun i hi => absurd hi (hf i), ?_⟩
  · rw [hown]; exact Heap.ownedBy_nobody _
  · intro t sec hl; cases hl

variable [DecidableEq Tid]

theorem memInv_step {s s' : BufSt Tid} {a : BufAct Tid} (hi : MemInv s)
    (h : bufStep s a = some s') : MemInv s' := by
  have hrefl : ∀ i, SameBuffer (s.dev.buffers i) (s.dev.buffers i) := fun i => .refl _
  cases bufStep_flow h with
  | pc a user => exact hi.frame_lock hrefl rfl rfl
  | createFailed hl hall hdev => exact memInv_createFailed hi hl hall hdev
  | createFilled hl hslot hsame hfilled hall =>
    exact memInv_createFilled hi hl hslot hsame hfilled hall
  | createPublish hl => exact memInv_createPublish hi hl
  | destroyChecked hl hin hm he =>
    refine hi.frame_section hrefl rfl (filling_none hl) rfl fun t' sec hs => ?_
    cases hs; exact hin
  | destroyFree hl => exact memInv_destroyFree hi hl
  | mmapInserted hl hin hsub =>
    refine hi.frame_section hrefl rfl (filling_none hl) rfl fun t' sec hs => ?_
    cases hs; exact ⟨hin, hsub⟩
  | mmapCount hl =>
    refine hi.frame_section (fun i => sameBuffer_setMmapCount i) rfl ?_ rfl fun t' sec hs => ?_
    · rw [BufSt.filling, hl]; rfl
    · cases hs
  | vmaOpen hv hsub => exact hi.frame_lock (fun i => sameBuffer_setMmapCount i) rfl rfl
  | vmaClose hv => exact hi.frame_lock (fun i => sameBuffer_setMmapCount i) rfl rfl
  | exportCtx hl ht hin hty hf =>
    refine hi.frame_section hrefl rfl (filling_none hl) rfl fun t' sec hs => ?_
    cases hs; trivial
  | exportBuf hl =>
    refine hi.frame_section hrefl rfl ?_ rfl fun t' sec hs => ?_
    · rw [BufSt.filling, hl]; rfl
    · cases hs; trivial
  | exportBufFailed hl =>
    refine hi.frame_section hrefl rfl ?_ rfl fun t' sec hs => ?_
    · rw [BufSt.filling, hl]; rfl
    · cases hs
  | exportFd hl =>
    refine hi.frame_section hrefl rfl ?_ rfl fun t' sec hs => ?_
    · rw [BufSt.filling, hl]; rfl
    · cases hs; trivial
  | exportFdFailed hne hl hsec =>
    refine hi.frame_section hrefl rfl ?_ ?_ fun t' sec hs => ?_
    · rw [BufSt.filling, hl]; rfl
    · rcases hsec with rfl | rfl <;> rfl
    · rcases hsec with rfl | rfl <;> cases hs <;> trivial
  | exportPublish hl =>
    refine hi.frame_section (fun i => sameBuffer_setExported i) rfl ?_ rfl fun t' sec hs => ?_
    · rw [BufSt.filling, hl]; rfl
    · cases hs
  | exportCount ht => exact hi.frame_lock hrefl rfl rfl
  | exportFree hl =>
    refine hi.frame_section hrefl rfl ?_ rfl fun t' sec hs => ?_
    · rw [BufSt.filling, hl]; rfl
    · cases hs
  | refs hp hnew => exact hi.frame_lock hrefl rfl rfl
  | releaseEnter hp => exact hi.frame_lock hrefl rfl rfl
  | releaseLocked hl hp => exact hi.frame_lock (fun i => sameBuffer_setExported i) rfl rfl
  | releaseCount hp => exact hi.frame_lock hrefl rfl rfl
  | releaseFree hp => exact hi.frame_lock hrefl rfl rfl

theorem memInv {s : BufSt Tid} (h : (bufSys Tid).Reachable s) : MemInv s :=
  h.invariant memInv_init fun _ _ _ => memInv_step

/-- Only DESTROY_BUFFER frees a live block, and the block is its buffer's. -/
theorem freed_destroyed {s s' : BufSt Tid} {a : BufAct Tid} {p : Nat}
    (h : bufStep s a = some s') (hp : p ∈ s.mem.live) (hp' : p ∉ s'.mem.live) :
    ∃ t slot, s.lock = some (t, .destroyChecked slot) ∧ p ∈ (s.dev.buffers slot).blocks := by
  cases bufStep_flow h with
  | createFailed hl hall hdev => exact absurd ((hall.mem p).mpr (.inl hp)) hp'
  | createFilled hl hslot hbut hfilled hall => exact absurd ((hall.mem p).mpr (.inl hp)) hp'
  | destroyFree hl =>
    refine ⟨_, _, hl, ?_⟩
    simp only [destroyFree, Heap.mem_freeAll, not_and] at hp'
    by_contra hb
    exact hp' hb hp
  | _ => exact absurd hp hp'

theorem next_step {s s' : BufSt Tid} {a : BufAct Tid} (h : bufStep s a = some s') :
    s.mem.next ≤ s'.mem.next := by
  cases bufStep_flow h with
  | createFailed hl hall hdev => exact hall.next_le
  | createFilled hl hslot hbut hfilled hall => exact hall.next_le
  | destroyFree hl =>
    simp only [destroyFree, Heap.next_freeAll]
    exact Nat.le_refl _
  | _ => exact Nat.le_refl _

/-- A buffer in use stays as it is, but for its reference counts, until DESTROY_BUFFER frees it. -/
theorem inUse_step {s s' : BufSt Tid} {a : BufAct Tid} {i : Fin maxBuffers}
    (h : bufStep s a = some s') (hi : MemInv s) (hin : (s.dev.buffers i).inUse = true) :
    SameBuffer (s.dev.buffers i) (s'.dev.buffers i) ∨
      ∃ t, a = .destroyFree t ∧ s.lock = some (t, .destroyChecked i) := by
  have hfree : ∀ slot, (s.dev.buffers slot).inUse = false → i ≠ slot := by
    rintro slot hslot rfl
    rw [hslot] at hin; cases hin
  cases bufStep_flow h with
  | createFailed hl hall hdev =>
    rcases hdev with rfl | ⟨slot, hslot, hbut, _, _⟩
    · exact .inl (.refl _)
    · rw [hbut.buffers i (hfree slot hslot)]; exact .inl (.refl _)
  | createFilled hl hslot hbut hfilled hall =>
    refine .inl ?_
    simp only [hbut.buffers i (hfree _ hslot)]
    exact .refl _
  | createPublish hl =>
    have hne := hfree _ (hi.sec _ _ hl)
    refine .inl ?_
    simp only [createPublish, setBuffer_of_ne hne]
    exact .refl _
  | destroyFree hl =>
    rename_i t slot user
    by_cases hne : i = slot
    · subst hne; exact .inr ⟨t, rfl, hl⟩
    · refine .inl ?_
      simp only [destroyFree, setBuffer_of_ne hne]
      exact .refl _
  | mmapCount hl => exact .inl (sameBuffer_setMmapCount i)
  | vmaOpen hv hsub => exact .inl (sameBuffer_setMmapCount i)
  | vmaClose hv => exact .inl (sameBuffer_setMmapCount i)
  | exportPublish hl => exact .inl (sameBuffer_setExported i)
  | releaseLocked hl hp => exact .inl (sameBuffer_setExported i)
  | _ => exact .inl (.refl _)

/-- A buffer with memory is an old one, or its mapping is a fresh block. -/
theorem vaddr_step {s s' : BufSt Tid} {a : BufAct Tid} {i : Fin maxBuffers} {p : Ptr}
    (h : bufStep s a = some s') (hf : s'.Filled i) (hp : (s'.dev.buffers i).vaddr = some p) :
    (s.Filled i ∧ (s.dev.buffers i).vaddr = some p ∧
      (s'.dev.buffers i).size = (s.dev.buffers i).size) ∨ s.mem.next ≤ p.block := by
  have hmem : ∀ buf : DmaplaneBuffer, buf.vaddr = some p → p.block ∈ buf.blocks := by
    intro buf hv
    rw [DmaplaneBuffer.blocks]
    cases buf.allocType <;> simp [hv]
  have hold : SameBuffer (s.dev.buffers i) (s'.dev.buffers i) →
      (s'.filling = none ∨ s'.filling = s.filling) → s.Filled i ∧
        (s.dev.buffers i).vaddr = some p ∧ (s'.dev.buffers i).size = (s.dev.buffers i).size := by
    intro hb hfill
    refine ⟨?_, by rw [hb] at hp; exact hp, by rw [hb]⟩
    rcases hf with hin | hsec
    · rw [hb.inUse] at hin; exact .inl hin
    · rcases hfill with hnone | hsame
      · rw [hnone] at hsec; cases hsec
      · rw [hsame] at hsec; exact .inr hsec
  cases bufStep_flow h with
  | createFailed hl hall hdev =>
    rcases hdev with rfl | ⟨slot, hslot, hbut, hfree, _⟩
    · exact .inl (hold (.refl _) (.inr rfl))
    · have hne : i ≠ slot := by
        rintro rfl
        rcases hf with hin | hsec
        · rw [hfree] at hin; cases hin
        · rw [BufSt.filling, hl] at hsec; cases hsec
      refine .inl (hold ?_ (.inr rfl))
      simp only [hbut.buffers i hne]
      exact .refl _
  | createFilled hl hslot hbut hfilled hall =>
    rename_i slot _ _ _ _
    by_cases hne : i = slot
    · subst hne
      exact .inr (hall.fresh _ (hmem _ hp))
    · rcases hf with hin | hsec
      · simp only [hbut.buffers i hne] at hin hp ⊢
        exact .inl ⟨.inl hin, hp, trivial⟩
      · cases hsec; exact absurd rfl hne
  | createPublish hl =>
    rename_i t slot user
    by_cases hne : i = slot
    · subst hne
      simp only [createPublish, setBuffer_self] at hp ⊢
      exact .inl ⟨.inr (by rw [BufSt.filling, hl]; rfl), hp, trivial⟩
    · refine .inl (hold ?_ (.inl rfl))
      simp only [createPublish, setBuffer_of_ne hne]
      exact .refl _
  | destroyFree hl =>
    rename_i t slot user
    have hne : i ≠ slot := by
      rintro rfl
      rcases hf with hin | hsec
      · simp [destroyFree] at hin
      · cases hsec
    refine .inl (hold ?_ (.inl rfl))
    simp only [destroyFree, setBuffer_of_ne hne]
    exact .refl _
  | mmapCount hl => exact .inl (hold (sameBuffer_setMmapCount i) (.inl rfl))
  | vmaOpen hv hsub => exact .inl (hold (sameBuffer_setMmapCount i) (.inr rfl))
  | vmaClose hv => exact .inl (hold (sameBuffer_setMmapCount i) (.inr rfl))
  | exportPublish hl => exact .inl (hold (sameBuffer_setExported i) (.inl rfl))
  | releaseLocked hl hp => exact .inl (hold (sameBuffer_setExported i) (.inr rfl))
  | exportFdFailed hne hl hsec =>
    refine .inl (hold (.refl _) (.inl ?_))
    rcases hsec with rfl | rfl <;> rfl
  | pc | exportCount | refs | releaseEnter | releaseCount | releaseFree =>
    exact .inl (hold (.refl _) (.inr rfl))
  | destroyChecked | mmapInserted | exportCtx | exportBuf | exportBufFailed | exportFd
  | exportFree => exact .inl (hold (.refl _) (.inl rfl))

end Dmaplane
