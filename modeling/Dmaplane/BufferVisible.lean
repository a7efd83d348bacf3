import Dmaplane.BufferMem
import Dmaplane.ExportOwner

/-!
# Dmaplane.BufferVisible

A buffer's memory is not freed while it is visible. As long as every buffer has fewer than `2 ^ 31`
VMAs, so that the signed 32-bit `mmap_count` can count them, `mmap_count` is the number of live
VMAs and DESTROY_BUFFER refuses while there is a VMA or a dma-buf (`buffers_visible`). With
`2 ^ 31` VMAs the counter is negative and DESTROY_BUFFER frees the mapped memory
(`mapped_buffer_freed`).
-/

namespace Dmaplane

open BufSt

variable {Tid : Type}

def BufSt.vmaCount (s : BufSt Tid) (i : Fin maxBuffers) : Nat := s.vmas.countP (·.buf = i)

/-- A context describes the buffer it points to. -/
def CtxOk (s : BufSt Tid) (ctx : Nat) : Prop := s.ctxs ctx = exportCtxOf s.dev (s.ctxs ctx).buf

structure VmaInv (s : BufSt Tid) : Prop where
  count : ∀ i, (s.dev.buffers i).inUse = true →
    (s.dev.buffers i).mmapCount = BitVec.ofNat 32 (s.vmaCount i)
  vmas : ∀ vma ∈ s.vmas, (s.dev.buffers vma.buf).inUse = true ∧
    ∀ p ∈ vma.mapped, p ∈ (s.dev.buffers vma.buf).blocks
  bound : ∀ i, s.vmaCount i < 2 ^ 31
  checked : ∀ t slot, s.lock = some (t, .destroyChecked slot) → s.vmaCount slot = 0
  ctxs : ∀ d, (s.dmabufs d).phase.wrapping = true → CtxOk s (s.dmabufs d).priv
  pending : ∀ ctx, s.pendingCtx = some ctx → CtxOk s ctx

theorem mapped_iff {buf : DmaplaneBuffer} {n : Nat} (h : buf.mmapCount = BitVec.ofNat 32 n)
    (hn : n < 2 ^ 31) : buf.mmapCount.toInt = n ∧ (buf.mapped = true ↔ 0 < n) := by
  have hnat : (BitVec.ofNat 32 n).toNat = n := by
    rw [BitVec.toNat_ofNat, Nat.mod_eq_of_lt (by omega)]
  have hint : buf.mmapCount.toInt = n := by
    rw [h, BitVec.toInt_eq_toNat_of_lt (by rw [hnat]; omega), hnat]
  refine ⟨hint, ?_⟩
  rw [DmaplaneBuffer.mapped, hint]; simp

theorem vmaCount_pos {s : BufSt Tid} {vma : Vma} (h : vma ∈ s.vmas) : 0 < s.vmaCount vma.buf :=
  List.countP_pos_iff.mpr ⟨vma, h, by simp⟩

/-- Nothing that `VmaInv` reads has changed, but for the section and the reference counts. -/
theorem VmaInv.frame {s s' : BufSt Tid} (hi : VmaInv s)
    (hbuf : ∀ i, SameBuffer (s.dev.buffers i) (s'.dev.buffers i))
    (hcount : ∀ i, (s'.dev.buffers i).mmapCount = (s.dev.buffers i).mmapCount)
    (hvmas : s'.vmas = s.vmas) (hctxs : s'.ctxs = s.ctxs)
    (hdm : ∀ d, (s'.dmabufs d).phase.wrapping = true →
      (s.dmabufs d).phase.wrapping = true ∧ (s'.dmabufs d).priv = (s.dmabufs d).priv)
    (hpend : ∀ ctx, s'.pendingCtx = some ctx → s.pendingCtx = some ctx)
    (hchk : ∀ t slot, s'.lock = some (t, .destroyChecked slot) → s.vmaCount slot = 0) :
    VmaInv s' := by
  have hcnt : s'.vmaCount = s.vmaCount := by funext i; rw [vmaCount, vmaCount, hvmas]
  have hctx : ∀ ctx, CtxOk s ctx → CtxOk s' ctx := by
    intro ctx h
    rw [CtxOk, hctxs, (hbuf _).exportCtxOf]; exact h
  refine ⟨?_, ?_, ?_, ?_, ?_, ?_⟩
  · intro i hin
    rw [(hbuf i).inUse] at hin
    rw [hcount, hcnt]; exact hi.count i hin
  · intro vma hv
    rw [hvmas] at hv
    rw [(hbuf _).inUse, (hbuf _).blocks]; exact hi.vmas vma hv
  · rw [hcnt]; exact hi.bound
  · rw [hcnt]; exact hchk
  · intro d hd
    obtain ⟨hw, hp⟩ := hdm d hd
    rw [hp]; exact hctx _ (hi.ctxs d hw)
  · exact fun ctx hp => hctx ctx (hi.pending ctx (hpend ctx hp))

/-- A buffer that changes was not in use and has no VMA; a new buffer has an empty count. -/
theorem VmaInv.frame_free {s s' : BufSt Tid} {slot : Fin maxBuffers} (hi : VmaInv s)
    (hx : ExportInv s) (hslot : (s.dev.buffers slot).inUse = false)
    (hbuf : ∀ i, i ≠ slot → s'.dev.buffers i = s.dev.buffers i)
    (hnew : (s'.dev.buffers slot).inUse = true → (s'.dev.buffers slot).mmapCount = 0)
    (hvmas : s'.vmas = s.vmas) (hctxs : s'.ctxs = s.ctxs) (hdm : s'.dmabufs = s.dmabufs)
    (hpend : s'.pendingCtx = none)
    (hchk : ∀ t slot, s'.lock ≠ some (t, .destroyChecked slot)) : VmaInv s' := by
  have hcnt : s'.vmaCount = s.vmaCount := by funext i; rw [vmaCount, vmaCount, hvmas]
  have hnone : s.vmaCount slot = 0 := by
    rcases Nat.eq_zero_or_pos (s.vmaCount slot) with h | h
    · exact h
    · obtain ⟨vma, hv, hb⟩ := List.countP_pos_iff.mp h
      have hb : vma.buf = slot := by simpa using hb
      rw [← hb, (hi.vmas vma hv).1] at hslot; cases hslot
  refine ⟨?_, ?_, ?_, fun t slot h => absurd h (hchk t slot), ?_, ?_⟩
  · intro i hin
    by_cases hne : i = slot
    · subst hne
      rw [hnew hin, hcnt, hnone]; rfl
    · rw [hbuf i hne] at hin ⊢
      rw [hcnt]; exact hi.count i hin
  · intro vma hv
    rw [hvmas] at hv
    have hne : vma.buf ≠ slot := by
      intro hb
      rw [← hb, (hi.vmas vma hv).1] at hslot; cases hslot
    rw [hbuf _ hne]; exact hi.vmas vma hv
  · rw [hcnt]; exact hi.bound
  · intro d hd
    rw [hdm] at hd ⊢
    have hok := hi.ctxs d hd
    have hwr : s.wrapped d = some (s.ctxs (s.dmabufs d).priv).buf := if_pos hd
    have hne : (s.ctxs (s.dmabufs d).priv).buf ≠ slot := by
      intro hb
      have hin := hx.inUse _ (hx.slots.used d _ hwr)
      rw [hb, hslot] at hin; cases hin
    rw [CtxOk, hctxs, exportCtxOf, hbuf _ hne]; exact hok
  · intro ctx hp
    rw [hpend] at hp; cases hp

/-- The count of one slot moves with its VMAs. -/
theorem VmaInv.recount {s s' : BufSt Tid} {n : BitVec 32} (slot : Fin maxBuffers)
    (hi : VmaInv s) (hdev : s'.dev = s.dev.setMmapCount slot n)
    (hself : (s.dev.buffers slot).inUse = true → n = BitVec.ofNat 32 (s'.vmaCount slot))
    (hother : ∀ i, i ≠ slot → s'.vmaCount i = s.vmaCount i) (hbound : s'.vmaCount slot < 2 ^ 31)
    (hvmas : ∀ vma ∈ s'.vmas, (s.dev.buffers vma.buf).inUse = true ∧
      ∀ p ∈ vma.mapped, p ∈ (s.dev.buffers vma.buf).blocks)
    (hctxs : s'.ctxs = s.ctxs) (hdm : s'.dmabufs = s.dmabufs)
    (hpend : ∀ ctx, s'.pendingCtx = some ctx → s.pendingCtx = some ctx)
    (hchk : ∀ t i, s'.lock = some (t, .destroyChecked i) → s'.vmaCount i = 0) : VmaInv s' := by
  have hbuf : ∀ i, SameBuffer (s.dev.buffers i) (s'.dev.buffers i) := by
    intro i; rw [hdev]; exact sameBuffer_setMmapCount i
  have hctx : ∀ ctx, CtxOk s ctx → CtxOk s' ctx := by
    intro ctx h
    rw [CtxOk, hctxs, (hbuf _).exportCtxOf]; exact h
  refine ⟨?_, ?_, ?_, hchk, ?_, fun ctx hp => hctx ctx (hi.pending ctx (hpend ctx hp))⟩
  · intro i hin
    rw [(hbuf i).inUse] at hin
    by_cases hne : i = slot
    · subst hne
      rw [hdev, BufTable.setMmapCount, setBuffer_self]; exact hself hin
    · rw [hdev, BufTable.setMmapCount, setBuffer_of_ne hne, hother i hne]; exact hi.count i hin
  · intro vma hv
    rw [(hbuf _).inUse, (hbuf _).blocks]; exact hvmas vma hv
  · intro i
    by_cases hne : i = slot
    · subst hne; exact hbound
    · rw [hother i hne]; exact hi.bound i
  · intro d hd
    rw [hdm] at hd ⊢; exact hctx _ (hi.ctxs d hd)

theorem vmaCount_erase {s : BufSt Tid} {vma : Vma} (hv : vma ∈ s.vmas) (i : Fin maxBuffers) :
    (s.vmas.erase vma).countP (·.buf = i) + (if vma.buf = i then 1 else 0) = s.vmaCount i := by
  have hperm := (List.perm_cons_erase hv).countP_eq (·.buf = i)
  rw [List.countP_cons] at hperm
  rw [vmaCount, hperm]
  simp

theorem vmaInv_exportCtx {s : BufSt Tid} {t : Tid} {slot : Fin maxBuffers} (hi : VmaInv s)
    (hx : ExportInv s) :
    VmaInv { s with
      lock := some (t, .exportCtx slot s.ctxHeap.alloc.1), ctxHeap := s.ctxHeap.alloc.2
      ctxs := Function.update s.ctxs s.ctxHeap.alloc.1 (exportCtxOf s.dev slot) } := by
  refine ⟨hi.count, hi.vmas, hi.bound, ?_, ?_, ?_⟩
  · intro t' i hl; cases hl
  · intro d hd
    have hne := hx.priv_ne_alloc hd
    unfold CtxOk
    simp only [Function.update_of_ne hne]
    exact hi.ctxs d hd
  · intro ctx hp
    cases hp
    unfold CtxOk
    simp only [Function.update_self]; rfl

theorem vmaInv_exportBuf {s : BufSt Tid} {t : Tid} {slot : Fin maxBuffers} {ctx : Nat}
    (hi : VmaInv s) (hl : s.lock = some (t, .exportCtx slot ctx)) :
    VmaInv { s with
      lock := some (t, .exportBuf slot ctx s.nextDmabuf)
      dmabufs := Function.update s.dmabufs s.nextDmabuf ⟨.fresh, ctx⟩
      nextDmabuf := s.nextDmabuf + 1 } := by
  refine ⟨hi.count, hi.vmas, hi.bound, ?_, ?_, ?_⟩
  · intro t' i hl'; cases hl'
  · intro d hd
    by_cases hne : d = s.nextDmabuf
    · subst hne
      simp only [Function.update_self]
      exact hi.pending ctx (by rw [pendingCtx, hl]; rfl)
    · simp only [Function.update_of_ne hne] at hd ⊢
      exact hi.ctxs d hd
  · intro ctx' hp; cases hp

theorem vmaInv_vmaClose {s : BufSt Tid} {vma : Vma} (hi : VmaInv s) (hv : vma ∈ s.vmas) :
    VmaInv { s with
      vmas := s.vmas.erase vma
      dev := s.dev.setMmapCount vma.buf ((s.dev.buffers vma.buf).mmapCount - 1) } := by
  have hin := (hi.vmas vma hv).1
  have hself := vmaCount_erase hv vma.buf
  rw [if_pos rfl] at hself
  have hother : ∀ i, i ≠ vma.buf → (s.vmas.erase vma).countP (·.buf = i) = s.vmaCount i := by
    intro i hne
    have := vmaCount_erase hv i
    rwa [if_neg (Ne.symm hne)] at this
  refine hi.recount vma.buf rfl ?_ hother ?_ ?_ rfl rfl (fun ctx hp => hp) ?_
  · intro _
    show _ = BitVec.ofNat 32 ((s.vmas.erase vma).countP (·.buf = vma.buf))
    rw [hi.count vma.buf hin, ← hself, ofNat_succ]; exact BitVec.add_sub_cancel ..
  · show (s.vmas.erase vma).countP (·.buf = vma.buf) < _
    have := hi.bound vma.buf; omega
  · intro v hv'
    exact hi.vmas v (List.mem_of_mem_erase hv')
  · intro t i hl
    show (s.vmas.erase vma).countP (·.buf = i) = 0
    have h0 := hi.checked t i hl
    have := vmaCount_erase hv i; omega

variable [DecidableEq Tid]

/-- Every new VMA finds fewer than `2 ^ 31 - 1` VMAs of its buffer, and `dma_buf_fd` succeeds. -/
def MmapsCounted (s : BufSt Tid) : BufAct Tid → Prop
  | .mmapCount t =>
    match s.section? t with
    | some (.mmapInserted vma) => s.vmaCount vma.buf < 2 ^ 31 - 1
    | _ => True
  | .vmaOpen vma _ => s.vmaCount vma.buf < 2 ^ 31 - 1
  | a => FdSucceeds s a

instance (s : BufSt Tid) (a : BufAct Tid) : Decidable (MmapsCounted s a) :=
  decidable_of_bool
    (match a with
      | .mmapCount t =>
        match s.section? t with
        | some (.mmapInserted vma) => decide (s.vmaCount vma.buf < 2 ^ 31 - 1)
        | _ => true
      | .vmaOpen vma _ => decide (s.vmaCount vma.buf < 2 ^ 31 - 1)
      | a => decide (FdSucceeds s a))
    (by unfold MmapsCounted; split <;> [split <;> simp; simp; simp])

theorem MmapsCounted.fdSucceeds {s : BufSt Tid} {a : BufAct Tid} (h : MmapsCounted s a) :
    FdSucceeds s a := by
  unfold MmapsCounted at h
  split at h
  · trivial
  · trivial
  · exact h

theorem vmaInv_mmapCount {s : BufSt Tid} {t : Tid} {vma : Vma} (hi : VmaInv s) (hm : MemInv s)
    (hl : s.lock = some (t, .mmapInserted vma)) (hok : MmapsCounted s (.mmapCount t)) :
    VmaInv { s with
      lock := none, vmas := vma :: s.vmas
      dev := s.dev.setMmapCount vma.buf ((s.dev.buffers vma.buf).mmapCount + 1) } := by
  obtain ⟨hin, hsub⟩ : (s.dev.buffers vma.buf).inUse = true ∧ _ := hm.sec _ _ hl
  have hlt : s.vmaCount vma.buf < 2 ^ 31 - 1 := by
    simpa [MmapsCounted, BufSt.section?, hl] using hok
  have hself : (vma :: s.vmas).countP (·.buf = vma.buf) = s.vmaCount vma.buf + 1 := by
    rw [List.countP_cons_of_pos (by simp)]; rfl
  refine hi.recount vma.buf rfl ?_ ?_ ?_ ?_ rfl rfl (fun ctx hp => ?_) ?_
  · intro _
    show _ = BitVec.ofNat 32 ((vma :: s.vmas).countP (·.buf = vma.buf))
    rw [hself, ofNat_succ, hi.count vma.buf hin]
  · intro i hne
    exact List.countP_cons_of_neg (by simpa using Ne.symm hne)
  · show (vma :: s.vmas).countP (·.buf = vma.buf) < _
    rw [hself]; omega
  · intro v hv
    rcases List.mem_cons.mp hv with rfl | hv
    · exact ⟨hin, hsub⟩
    · exact hi.vmas v hv
  · cases hp
  · intro t' i h; cases h

theorem vmaInv_vmaOpen {s : BufSt Tid} {vma : Vma} {mapped : List Nat} (hi : VmaInv s)
    (hv : vma ∈ s.vmas) (hsub : ∀ p ∈ mapped, p ∈ vma.mapped)
    (hok : MmapsCounted s (.vmaOpen vma mapped)) :
    VmaInv { s with
      vmas := { vma with mapped := mapped } :: s.vmas
      dev := s.dev.setMmapCount vma.buf ((s.dev.buffers vma.buf).mmapCount + 1) } := by
  obtain ⟨hin, hblk⟩ := hi.vmas vma hv
  have hlt : s.vmaCount vma.buf < 2 ^ 31 - 1 := hok
  have hself : ({ vma with mapped := mapped } :: s.vmas).countP (·.buf = vma.buf)
      = s.vmaCount vma.buf + 1 := by
    rw [List.countP_cons_of_pos (by simp)]; rfl
  refine hi.recount vma.buf rfl ?_ ?_ ?_ ?_ rfl rfl (fun ctx hp => hp) ?_
  · intro _
    show _ = BitVec.ofNat 32 (({ vma with mapped := mapped } :: s.vmas).countP (·.buf = vma.buf))
    rw [hself, ofNat_succ, hi.count vma.buf hin]
  · intro i hne
    exact List.countP_cons_of_neg (by simpa using Ne.symm hne)
  · show ({ vma with mapped := mapped } :: s.vmas).countP (·.buf = vma.buf) < _
    rw [hself]; omega
  · intro v hv'
    rcases List.mem_cons.mp hv' with rfl | hv'
    · exact ⟨hin, fun p hp => hblk p (hsub p hp)⟩
    · exact hi.vmas v hv'
  · -- a slot about to be freed has no VMA that could be copied
    intro t i hl
    have h0 := hi.checked t i hl
    have hne : i ≠ vma.buf := by
      rintro rfl
      have := vmaCount_pos hv; omega
    exact (List.countP_cons_of_neg (by simpa using Ne.symm hne)).trans h0

theorem vmaInv_step {s s' : BufSt Tid} {a : BufAct Tid} (hx : ExportInv s) (hm : MemInv s)
    (hi : VmaInv s) (hok : MmapsCounted s a) (h : bufStep s a = some s') : VmaInv s' := by
  have hrefl : ∀ i, SameBuffer (s.dev.buffers i) (s.dev.buffers i) := fun i => .refl _
  have hpnone : s.lock = none → s.pendingCtx = none := by intro hl; rw [pendingCtx, hl]; rfl
  -- a change of phase makes no dma-buf wrap a slot
  have hphase : ∀ {d : Nat} {phase : DmabufPhase}, (s.dmabufs d).phase.wrapping = true ∨
      phase.wrapping = false → ∀ d', ((s.setPhase d phase).dmabufs d').phase.wrapping = true →
      (s.dmabufs d').phase.wrapping = true ∧
        ((s.setPhase d phase).dmabufs d').priv = (s.dmabufs d').priv := by
    intro d phase hor d' hw
    by_cases hd : d' = d
    · subst hd
      rw [setPhase_self] at hw ⊢
      rcases hor with hor | hor
      · exact ⟨hor, rfl⟩
      · rw [hor] at hw; cases hw
    · rw [setPhase_of_ne hd] at hw ⊢
      exact ⟨hw, rfl⟩
  have hsame : ∀ d, (s.dmabufs d).phase.wrapping = true →
      (s.dmabufs d).phase.wrapping = true ∧ (s.dmabufs d).priv = (s.dmabufs d).priv :=
    fun d hd => ⟨hd, rfl⟩
  cases bufStep_flow h with
  | pc a user =>
    exact hi.frame hrefl (fun _ => rfl) rfl rfl hsame (fun _ hp => hp) hi.checked
  | createFailed hl hall hdev =>
    rcases hdev with rfl | ⟨slot, hslot, hbut, hin, he⟩
    · exact hi.frame hrefl (fun _ => rfl) rfl rfl hsame (fun _ hp => hp) hi.checked
    · refine hi.frame_free hx hslot hbut.buffers ?_ rfl rfl rfl (hpnone hl) ?_
      · intro hin'; rw [hin] at hin'; cases hin'
      · intro t i hs
        rw [show s.lock = some (t, .destroyChecked i) from hs] at hl; cases hl
  | createFilled hl hslot hbut hfilled hall =>
    refine hi.frame_free hx hslot hbut.buffers ?_ rfl rfl rfl rfl ?_
    · intro hin; rw [hfilled.inUse] at hin; cases hin
    · intro t i hs; cases hs
  | createPublish hl =>
    rename_i t slot user
    have hslot : (s.dev.buffers slot).inUse = false := hm.sec _ _ hl
    refine hi.frame_free hx hslot ?_ ?_ rfl rfl rfl rfl ?_
    · intro i hne; simp [createPublish, hne]
    · intro _; simp [createPublish]
    · intro t i hs; cases hs
  | destroyChecked hl hin hmap he =>
    rename_i t slot
    refine hi.frame hrefl (fun _ => rfl) rfl rfl hsame (fun _ hp => ?_) fun t' i hs => ?_
    · cases hp
    · cases hs
      obtain ⟨_, hpos⟩ := mapped_iff (hi.count slot hin) (hi.bound slot)
      have hnot : ¬ 0 < s.vmaCount slot := fun h => by rw [hpos.mpr h] at hmap; cases hmap
      omega
  | destroyFree hl =>
    rename_i t slot user
    have h0 : s.vmaCount slot = 0 := hi.checked t slot hl
    have hflag : slot ∉ s.flagged := hx.sec _ _ hl
    have hexp : s.exporting = none := by rw [exporting, hl]; rfl
    have hbuf : ∀ i, i ≠ slot → (destroyFree s.dev s.mem slot).1.buffers i = s.dev.buffers i := by
      intro i hne; simp [destroyFree, hne]
    have hself : ((destroyFree s.dev s.mem slot).1.buffers slot).inUse = false := by
      simp [destroyFree]
    refine ⟨?_, ?_, hi.bound, ?_, ?_, ?_⟩
    · intro i hin
      have hne : i ≠ slot := by rintro rfl; rw [hself] at hin; cases hin
      have hin' := hin
      rw [hbuf i hne] at hin' ⊢
      exact hi.count i hin'
    · intro vma hv
      have hne : vma.buf ≠ slot := by
        rintro rfl
        have hpos : 0 < s.vmaCount vma.buf := vmaCount_pos (s := s) hv
        omega
      rw [hbuf _ hne]; exact hi.vmas vma hv
    · intro t' i hs; cases hs
    · intro d hd
      have hwr : s.wrapped d = some (s.ctxs (s.dmabufs d).priv).buf := if_pos hd
      have hne : (s.ctxs (s.dmabufs d).priv).buf ≠ slot := by
        rintro rfl
        have hc := hx.slots.used d _ hwr
        rw [claimed_eq_flagged hexp] at hc
        exact hflag hc
      have hok := hi.ctxs d hd
      rw [CtxOk] at hok ⊢
      rw [exportCtxOf, hbuf _ hne]; exact hok
    · intro ctx hp; cases hp
  | mmapInserted hl hin hsub =>
    refine hi.frame hrefl (fun _ => rfl) rfl rfl hsame (fun _ hp => ?_) fun t' i hs => ?_
    · cases hp
    · cases hs
  | mmapCount hl => exact vmaInv_mmapCount hi hm hl hok
  | vmaOpen hv hsub => exact vmaInv_vmaOpen hi hv hsub hok
  | vmaClose hv => exact vmaInv_vmaClose hi hv
  | exportCtx hl ht hin hty hf => exact vmaInv_exportCtx hi hx
  | exportBuf hl => exact vmaInv_exportBuf hi hl
  | exportBufFailed hl =>
    refine hi.frame hrefl (fun _ => rfl) rfl rfl hsame (fun _ hp => ?_) fun t' i hs => ?_
    · cases hp
    · cases hs
  | exportFd hl =>
    obtain ⟨_, _, hd, _⟩ := hx.sec _ _ hl
    refine hi.frame hrefl (fun _ => rfl) rfl rfl (hphase (.inl (by rw [hd]; rfl)))
      (fun _ hp => ?_) fun t' i hs => ?_
    · cases hp
    · cases hs
  | exportFdFailed hne => exact absurd hok.fdSucceeds hne
  | exportPublish hl =>
    refine hi.frame (fun i => sameBuffer_setExported i) (fun i => ?_) rfl rfl hsame
      (fun _ hp => ?_) fun t' i hs => ?_
    · rename_i slot ctx d
      by_cases hne : i = slot
      · subst hne; rw [BufTable.setExported, setBuffer_self]
      · rw [BufTable.setExported, setBuffer_of_ne hne]
    · cases hp
    · cases hs
  | exportCount ht =>
    exact hi.frame hrefl (fun _ => rfl) rfl rfl hsame (fun _ hp => hp) hi.checked
  | exportFree hl => exact (hx.sec _ _ hl).elim
  | refs hp hnew =>
    exact hi.frame hrefl (fun _ => rfl) rfl rfl (hphase (.inl (by rw [hp]; rfl)))
      (fun _ hp => hp) hi.checked
  | releaseEnter hp =>
    exact hi.frame hrefl (fun _ => rfl) rfl rfl (hphase (.inl (by rw [hp]; rfl)))
      (fun _ hp => hp) hi.checked
  | releaseLocked hl hp =>
    refine hi.frame (fun i => sameBuffer_setExported i) (fun i => ?_) rfl rfl
      (hphase (.inr rfl)) (fun _ hp => hp) hi.checked
    rename_i d
    by_cases hne : i = (s.ctxs (s.dmabufs d).priv).buf
    · rw [hne, BufTable.setExported, setBuffer_self]
    · rw [BufTable.setExported, setBuffer_of_ne hne]
  | releaseCount hp =>
    exact hi.frame hrefl (fun _ => rfl) rfl rfl (hphase (.inr rfl)) (fun _ hp => hp) hi.checked
  | releaseFree hp =>
    exact hi.frame hrefl (fun _ => rfl) rfl rfl (hphase (.inr rfl)) (fun _ hp => hp) hi.checked

theorem vmaInv {s : BufSt Tid} (h : (bufSys Tid).ReachableWith MmapsCounted s) : VmaInv s := by
  refine h.invariant₂ (I := fun s => ExportInv s ∧ MemInv s) ?_ ?_ ?_
  · intro s hs
    exact ⟨exportInv (hs.mono fun _ _ => MmapsCounted.fdSucceeds), memInv hs.reachable⟩
  · refine ⟨?_, ?_, ?_, ?_, ?_, ?_⟩
    · intro i hin; cases hin
    · intro vma hv; cases hv
    · intro i; show 0 < 2 ^ 31; omega
    · intro t slot hl; cases hl
    · intro d hd; cases hd
    · intro ctx hp; cases hp
  · intro s a s' hI hi hok hs
    exact vmaInv_step hI.1 hI.2 hi hok hs

/-- A live VMA or dma-buf shows the buffer in `slot`. -/
def BufSt.Visible (s : BufSt Tid) (slot : Fin maxBuffers) : Prop :=
  0 < s.vmaCount slot ∨ ∃ d, s.wrapped d = some slot

structure BufSt.VisibleOk (s : BufSt Tid) : Prop where
  count : ∀ i, (s.dev.buffers i).inUse = true →
    (s.dev.buffers i).mmapCount.toInt = s.vmaCount i
  /-- A VMA maps live memory of a buffer in use. -/
  vmas : ∀ vma ∈ s.vmas, (s.dev.buffers vma.buf).inUse = true ∧ ∀ p ∈ vma.mapped, p ∈ s.mem.live
  /-- The context of a dma-buf describes the buffer in the slot, whose memory is live. -/
  wraps : ∀ d i, s.wrapped d = some i → (s.dev.buffers i).inUse = true ∧
    s.ctxs (s.dmabufs d).priv = exportCtxOf s.dev i ∧
    ∀ p ∈ (s.dev.buffers i).blocks, p ∈ s.mem.live
  /-- DESTROY_BUFFER refuses exactly while the buffer is visible, and then changes nothing. -/
  busy : ∀ t bufId slot, s.lock = none → s.user t = .destroy bufId →
    dmabufRdmaFindBuffer s.dev bufId = some slot →
    (destroyCheck s.dev bufId = .error .EBUSY ↔ s.Visible slot) ∧
    (s.Visible slot → bufStep s (.destroyLocked t) = some (s.goto t .idle))
  /-- A step that releases memory of a buffer finds the buffer not visible. -/
  released : ∀ a s' i, bufStep s a = some s' → (s.dev.buffers i).inUse = true →
    (∃ p ∈ (s.dev.buffers i).blocks, p ∉ s'.mem.live) → ¬ s.Visible i

theorem destroyCheck_busy {dev : BufTable} {bufId : BitVec 32} {slot : Fin maxBuffers}
    (h : dmabufRdmaFindBuffer dev bufId = some slot) :
    destroyCheck dev bufId = .error .EBUSY ↔
      (dev.buffers slot).mapped = true ∨ (dev.buffers slot).dmabufExported = true := by
  unfold destroyCheck
  rw [h]
  by_cases hm : (dev.buffers slot).mapped = true
  · simp [hm]
  · by_cases he : (dev.buffers slot).dmabufExported = true
    · simp [hm, he]
    · simp [hm, he]

theorem buffers_visible {s : BufSt Tid} (h : (bufSys Tid).ReachableWith MmapsCounted s) :
    s.VisibleOk := by
  have hi := vmaInv h
  have hm := memInv h.reachable
  have hx := exportInv (h.mono fun _ _ => MmapsCounted.fdSucceeds)
  have hwrap : ∀ d i, s.wrapped d = some i →
      (s.dev.buffers i).inUse = true ∧ s.ctxs (s.dmabufs d).priv = exportCtxOf s.dev i := by
    intro d i hd
    refine ⟨hx.inUse i (hx.slots.used d i hd), ?_⟩
    unfold BufSt.wrapped at hd
    split at hd
    · rename_i hw; cases hd
      exact hi.ctxs d hw
    · cases hd
  refine ⟨?_, ?_, ?_, ?_, ?_⟩
  · exact fun i hin => (mapped_iff (hi.count i hin) (hi.bound i)).1
  · intro vma hv
    obtain ⟨hin, hsub⟩ := hi.vmas vma hv
    exact ⟨hin, fun p hp => hm.live hin (hsub p hp)⟩
  · intro d i hd
    obtain ⟨hin, hctx⟩ := hwrap d i hd
    exact ⟨hin, hctx, fun p hp => hm.live hin hp⟩
  · intro t bufId slot hl hu hfind
    have hin := (findBuffer_some hfind).1
    have hexp : (s.dev.buffers slot).dmabufExported = true ↔ ∃ d, s.wrapped d = some slot := by
      rw [← mem_flagged, ← claimed_eq_flagged (exporting_none hl)]
      exact ⟨fun hc => (hx.slots.existsUnique hc).exists, fun ⟨d, hd⟩ => hx.slots.used d slot hd⟩
    have hbusy : destroyCheck s.dev bufId = .error .EBUSY ↔ s.Visible slot := by
      rw [destroyCheck_busy hfind, (mapped_iff (hi.count slot hin) (hi.bound slot)).2, hexp]
      exact Iff.rfl
    refine ⟨hbusy, fun hv => ?_⟩
    simp only [bufStep, hu, hl, if_true, hbusy.mpr hv]
  · rintro a s' i hs hin ⟨p, hp, hp'⟩ hv
    obtain ⟨t, slot, hl, hslot⟩ := freed_destroyed hs (hm.live hin hp) hp'
    -- the freed block is in one buffer only
    have hown : p ∈ s.own slot := by rw [own, if_pos (.inl (hm.sec _ _ hl))]; exact hslot
    have hi_own : p ∈ s.own i := by rw [own, if_pos (.inl hin)]; exact hp
    obtain rfl := hm.owned.disjoint i slot p hi_own hown
    rcases hv with hpos | ⟨d, hd⟩
    · have h0 := hi.checked t i hl
      omega
    · have hexp : s.exporting = none := by rw [exporting, hl]; rfl
      have hc := hx.slots.used d i hd
      rw [claimed_eq_flagged hexp] at hc
      exact hx.sec _ _ hl hc

/-- A buffer is mapped, the mapping copied by a fork and closed twice, and the buffer destroyed. -/
def mapForkDestroy : List (BufAct (Fin 2)) :=
  createOnePage ++
    ([.mmap 1 1 4096 (fun _ => true), .mmapCount 1, .vmaOpen ⟨0, [1]⟩ [1], .destroyCall 0 1,
      .destroyLocked 0, .vmaClose ⟨0, [1]⟩, .vmaClose ⟨0, [1]⟩, .destroyCall 0 1,
      .destroyLocked 0, .destroyFree 0] : List (BufAct (Fin 2)))

theorem buffers_visible_fork : ∃ s : BufSt (Fin 2),
    s.vmas = [] ∧ (s.dev.buffers 0).inUse = false ∧ s.VisibleOk := by
  obtain ⟨s, hr, hv, hin⟩ : ∃ s : BufSt (Fin 2), (bufSys (Fin 2)).ReachableWith MmapsCounted s ∧
      s.vmas = [] ∧ (s.dev.buffers 0).inUse = false :=
    Transition.Sys.exists_of_execWith mapForkDestroy (by decide +kernel)
  exact ⟨s, hv, hin, buffers_visible hr⟩

/-! ## When the counter overflows -/

theorem findBuffer_congr {dev dev' : BufTable} (bufId : BitVec 32)
    (h : ∀ i, (dev'.buffers i).inUse = (dev.buffers i).inUse ∧
      (dev'.buffers i).id = (dev.buffers i).id) :
    dmabufRdmaFindBuffer dev' bufId = dmabufRdmaFindBuffer dev bufId := by
  unfold dmabufRdmaFindBuffer
  congr 1
  funext i
  rw [(h i).1, (h i).2]

/-- A lookup and an mmap do not depend on how often a buffer is mapped already. -/
theorem findBuffer_setMmapCount {dev : BufTable} {slot : Fin maxBuffers} {n bufId : BitVec 32} :
    dmabufRdmaFindBuffer (dev.setMmapCount slot n) bufId = dmabufRdmaFindBuffer dev bufId := by
  refine findBuffer_congr bufId fun i => ?_
  rw [sameBuffer_setMmapCount i]
  exact ⟨rfl, rfl⟩

theorem mmapLocked_setMmapCount {dev : BufTable} {slot : Fin maxBuffers} {n : BitVec 32}
    {pgoff : BitVec 64} {size : Nat} {inserts : Nat → Bool} :
    mmapLocked (dev.setMmapCount slot n) pgoff size inserts =
      mmapLocked dev pgoff size inserts := by
  unfold mmapLocked
  rw [findBuffer_setMmapCount]
  cases dmabufRdmaFindBuffer dev (pgoff.truncate 32) with
  | none => rfl
  | some i =>
    simp only
    rw [sameBuffer_setMmapCount i]; rfl

/-- The one-page buffer is mapped `n` times, and another mmap of it would succeed. -/
structure MappedTimes (n : Nat) (s : BufSt (Fin 2)) : Prop where
  lock : s.lock = none
  idle : s.Idle 0
  vmas : s.vmas = List.replicate n ⟨0, [1]⟩
  count : (s.dev.buffers 0).mmapCount = BitVec.ofNat 32 n
  exported : (s.dev.buffers 0).dmabufExported = false
  find : dmabufRdmaFindBuffer s.dev 1 = some 0
  maps : mmapLocked s.dev 1 4096 (fun _ => true) = .ok ⟨0, [1]⟩

theorem MappedTimes.mmap {n : Nat} {s : BufSt (Fin 2)} (h : MappedTimes n s) :
    ∃ s', (bufSys (Fin 2)).Steps (fun _ _ => True) s s' ∧ MappedTimes (n + 1) s' := by
  let s₁ := s.enter 0 (.mmapInserted ⟨0, [1]⟩)
  have hs₁ : (bufSys (Fin 2)).step s (.mmap 0 1 4096 fun _ => true) = some s₁ := by
    simp only [bufSys, bufStep, if_pos (And.intro h.idle h.lock), h.maps]; rfl
  have hs₂ : (bufSys (Fin 2)).step s₁ (.mmapCount 0) = some { s₁.unlock with
      vmas := ⟨0, [1]⟩ :: s.vmas
      dev := s.dev.setMmapCount 0 ((s.dev.buffers 0).mmapCount + 1) } := rfl
  refine ⟨_, .tail (.single trivial hs₁) trivial hs₂, ?_⟩
  refine ⟨rfl, ⟨h.idle.1, h.idle.2.1, rfl⟩, ?_, ?_, ?_, ?_, ?_⟩
  · rw [List.replicate_succ, ← h.vmas]
  · rw [ofNat_succ, ← h.count, BufTable.setMmapCount, setBuffer_self]
  · rw [← h.exported]; exact (flags_setMmapCount 0).1
  · rw [← h.find]; exact findBuffer_setMmapCount
  · rw [← h.maps]; exact mmapLocked_setMmapCount

theorem mappedTimes_reachable (n : Nat) :
    ∃ s, (bufSys (Fin 2)).Reachable s ∧ MappedTimes n s := by
  induction n with
  | zero =>
    obtain ⟨s, hr, hl, hidle, hv, hc, he, hf, hm⟩ :
        ∃ s : BufSt (Fin 2), (bufSys (Fin 2)).Reachable s ∧ s.lock = none ∧ s.Idle 0 ∧
          s.vmas = [] ∧ (s.dev.buffers 0).mmapCount = 0 ∧
          (s.dev.buffers 0).dmabufExported = false ∧ dmabufRdmaFindBuffer s.dev 1 = some 0 ∧
          mmapLocked s.dev 1 4096 (fun _ => true) = .ok ⟨0, [1]⟩ :=
      Transition.Sys.exists_of_exec createOnePage (by decide +kernel)
    exact ⟨s, hr, hl, hidle, hv, hc, he, hf, hm⟩
  | succ n ih =>
    obtain ⟨s, hr, hs⟩ := ih
    obtain ⟨s', hst, hs'⟩ := hs.mmap
    exact ⟨s', hr.trans hst, hs'⟩

/-- `2 ^ 31` VMAs map the buffer, and DESTROY_BUFFER frees the page under them. -/
theorem mapped_buffer_freed : ∃ s s' : BufSt (Fin 2), (bufSys (Fin 2)).Reachable s ∧
    bufStep s (.destroyFree 0) = some s' ∧ s'.vmaCount 0 = 2 ^ 31 ∧
    (∃ vma ∈ s'.vmas, ∃ p ∈ vma.mapped, p ∈ s.mem.live ∧ p ∉ s'.mem.live) ∧
    (s.dev.buffers 0).mmapCount.toInt < 0 ∧ ¬ s.VisibleOk := by
  obtain ⟨s, hr, hs⟩ := mappedTimes_reachable (2 ^ 31)
  have hneg : (s.dev.buffers 0).mmapCount.toInt < 0 := by rw [hs.count]; decide
  have hin := (findBuffer_some hs.find).1
  have hcheck : destroyCheck s.dev 1 = .ok 0 := by
    have hm : (s.dev.buffers 0).mapped = false := by rw [DmaplaneBuffer.mapped, hs.count]; decide
    unfold destroyCheck
    rw [hs.find]
    simp only [hm, hs.exported]; rfl
  have hcnt : s.vmaCount 0 = 2 ^ 31 := by
    rw [BufSt.vmaCount, hs.vmas, List.countP_replicate]; simp
  have hblk : 1 ∈ (s.dev.buffers 0).blocks := (mmapLocked_ok hs.maps).2 1 (by simp)
  let s₁ := s.goto 0 (.destroy 1)
  let s₂ := s₁.enter 0 (.destroyChecked 0)
  have hs₁ : (bufSys (Fin 2)).step s (.destroyCall 0 1) = some s₁ := if_pos hs.idle
  have hs₂ : (bufSys (Fin 2)).step s₁ (.destroyLocked 0) = some s₂ := by
    simp only [bufSys, bufStep, s₁, BufSt.goto, Function.update_self, hs.lock, if_true, hcheck]; rfl
  have hr₂ : (bufSys (Fin 2)).Reachable s₂ := hr.trans (.tail (.single trivial hs₁) trivial hs₂)
  refine ⟨s₂, _, hr₂, rfl, hcnt, ⟨⟨0, [1]⟩, ?_, 1, by simp, ?_, ?_⟩, hneg, fun hok => ?_⟩
  · show _ ∈ s.vmas
    rw [hs.vmas]; exact List.mem_replicate.mpr ⟨by omega, rfl⟩
  · exact (memInv hr).live hin hblk
  · rw [Heap.mem_freeAll]
    exact fun h => h.1 hblk
  · have hc := hok.count 0 hin
    have : (0 : Int) ≤ s₂.vmaCount 0 := Int.natCast_nonneg _
    rw [← hc] at this
    exact absurd hneg (Int.not_lt.mpr this)

end Dmaplane
