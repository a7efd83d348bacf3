import Dmaplane.Lib.System
import Dmaplane.Buffer

/-!
# Dmaplane.BufferSys

The buffer table under concurrency: CREATE_BUFFER, DESTROY_BUFFER, mmap of `/dev/dmaplane` with
its VMA callbacks (`driver/main.c`) and EXPORT_DMABUF with the release callback of the dma-buf
(`driver/dmabuf_export.c`).

* `buf_lock` is the field `lock`: who holds it, and where its section is (`BufSection`). A section
  that no other code can see into is one step; a label says how the kernel calls in it turned out.
* A VMA lives from the end of `dmaplane_mmap` to its `close` callback. The callbacks run without
  `buf_lock`. A failed mmap leaves no VMA: the kernel undoes it without calling `close`.
* A dma-buf lives as long as references to it are held (its fd, attachments, mappings). Dropping
  the last one makes the release callback due; it then runs in four steps.
-/

namespace Dmaplane

/-- `struct dmaplane_dmabuf_ctx`, the `priv` of an exported dma-buf. -/
structure DmaplaneDmabufCtx where
  buf : Fin maxBuffers
  pages : Option PageArray
  nrPages : Nat
  size : BitVec 64
  vaddr : Option Ptr
  deriving DecidableEq

inductive DmabufPhase where
  | unused
  -- returned by `dma_buf_export`; nobody but EXPORT_DMABUF knows it
  | fresh
  | live (refs : Nat)
  -- the last reference is dropped, the release callback is due
  | dying
  -- the callback has read `priv` and waits for `buf_lock`
  | releasing
  -- it has cleared the flag; `dmabufs_released` and `kfree(ctx)` are left
  | cleared
  | counted
  | gone
  deriving DecidableEq, Repr

structure Dmabuf where
  phase : DmabufPhase
  priv : Nat
  deriving DecidableEq, Repr

/-- A VMA of `/dev/dmaplane`: `vm_private_data` and the blocks mapped into it. -/
structure Vma where
  buf : Fin maxBuffers
  mapped : List Nat
  deriving DecidableEq, Repr

/-- Where the holder of `buf_lock` is. -/
inductive BufSection where
  | createFilled (slot : Fin maxBuffers)
  | destroyChecked (slot : Fin maxBuffers)
  -- the pages are mapped, `mmap_count` is still to be incremented
  | mmapInserted (vma : Vma)
  | exportCtx (slot : Fin maxBuffers) (ctx : Nat)
  | exportBuf (slot : Fin maxBuffers) (ctx d : Nat)
  | exportFd (slot : Fin maxBuffers) (ctx d : Nat)
  -- `dma_buf_fd` failed; `dma_buf_put` has returned, `kfree(ctx)` is left
  | exportPut (ctx : Nat)
  -- `dma_buf_fd` failed and `dma_buf_put` runs the release callback, which waits for `buf_lock`
  | exportPutSync (d : Nat)
  deriving DecidableEq, Repr

inductive BufPc where
  | idle
  -- CREATE_BUFFER has returned 0; the ioctl copies the handle to user space
  | createCopy (bufId : BitVec 32)
  | destroy (bufId : BitVec 32)
  deriving DecidableEq, Repr

structure BufSt (Tid : Type) where
  dev : BufTable
  mem : Heap
  lock : Option (Tid × BufSection)
  user : Tid → BufPc
  vmas : List Vma
  ctxs : Nat → DmaplaneDmabufCtx
  ctxHeap : Heap
  /-- A freed export context was read. -/
  ctxUseAfterFree : Bool
  dmabufs : Nat → Dmabuf
  nextDmabuf : Nat
  /-- The threads that have set `dmabuf_exported` and not yet counted the export. -/
  counting : Finset Tid

inductive FdResult where
  | ok
  /-- The final `fput` runs the release callback later. -/
  | failDeferred
  /-- It runs the callback at once. -/
  | failSync
  deriving DecidableEq, Repr

inductive BufAct (Tid : Type) where
  | create (t : Tid) (params : DmaplaneBufParams) (env : AllocEnv)
  | createPublish (t : Tid)
  | createCopy (t : Tid) (copyOk : Bool)
  | destroyCall (t : Tid) (bufId : BitVec 32)
  | destroyLocked (t : Tid)
  | destroyFree (t : Tid)
  | mmap (t : Tid) (pgoff : BitVec 64) (size : Nat) (inserts : Nat → Bool)
  | mmapCount (t : Tid)
  | vmaOpen (vma : Vma) (mapped : List Nat)
  | vmaClose (vma : Vma)
  | exportLocked (t : Tid) (bufId : BitVec 32) (kzallocOk : Bool)
  | exportBuf (t : Tid) (exportOk : Bool)
  | exportFd (t : Tid) (fd : FdResult)
  | exportPublish (t : Tid)
  | exportCount (t : Tid)
  | exportFree (t : Tid)
  | dmabufGet (d : Nat)
  | dmabufPut (d : Nat)
  | releaseEnter (d : Nat)
  | releaseLocked (d : Nat)
  | releaseCount (d : Nat)
  | releaseFree (d : Nat)

variable {Tid : Type} [DecidableEq Tid]

namespace BufSt

def goto (s : BufSt Tid) (t : Tid) (pc : BufPc) : BufSt Tid :=
  { s with user := Function.update s.user t pc }

def enter (s : BufSt Tid) (t : Tid) (sec : BufSection) : BufSt Tid := { s with lock := some (t, sec) }

def unlock (s : BufSt Tid) : BufSt Tid := { s with lock := none }

def setPhase (s : BufSt Tid) (d : Nat) (phase : DmabufPhase) : BufSt Tid :=
  { s with dmabufs := Function.update s.dmabufs d { s.dmabufs d with phase := phase } }

/-- The section `t` is in, if it holds `buf_lock`. -/
def section? (s : BufSt Tid) (t : Tid) : Option BufSection :=
  match s.lock with
  | some (t', sec) => if t' = t then some sec else none
  | none => none

/-- `t` can start a call. -/
def Idle (s : BufSt Tid) (t : Tid) : Prop :=
  s.user t = .idle ∧ t ∉ s.counting ∧ s.section? t = none

instance (s : BufSt Tid) (t : Tid) : Decidable (s.Idle t) := inferInstanceAs (Decidable (_ ∧ _))

end BufSt

/-- The blocks `dmaplane_mmap` maps for `size` bytes: the coherent block, or the pages `i` with
`i < nr_pages && i * PAGE_SIZE < size`. `none` when `vm_insert_page` or `dma_mmap_coherent`
fails. -/
def mmapInsert (buf : DmaplaneBuffer) (size : Nat) (inserts : Nat → Bool) : Option (List Nat) :=
  match buf.allocType with
  | .coherent => if inserts 0 then some (buf.vaddr.map (·.block)).toList else none
  | .pages =>
    let pages := (buf.pages.map (·.pages)).getD []
    let n := min buf.nrPages (divRoundUp size pageSize)
    if (List.range n).all inserts then some ((pages.take n).map (·.block)) else none

/-- `dmaplane_mmap` up to `atomic_inc(&buf->mmap_count)`. -/
def mmapLocked (dev : BufTable) (pgoff : BitVec 64) (size : Nat) (inserts : Nat → Bool) :
    Except Errno Vma :=
  match dmabufRdmaFindBuffer dev (pgoff.truncate 32) with
  | none => .error .EINVAL
  | some slot =>
    if size > (dev.buffers slot).size.toNat then .error .EINVAL
    else
      match mmapInsert (dev.buffers slot) size inserts with
      | none => .error .EAGAIN
      | some mapped => .ok ⟨slot, mapped⟩

/-- The checks of `dmaplane_dmabuf_export`. -/
def exportCheck (dev : BufTable) (bufId : BitVec 32) : Except Errno (Fin maxBuffers) :=
  match dmabufRdmaFindBuffer dev bufId with
  | none => .error .EINVAL
  | some slot =>
    if (dev.buffers slot).allocType ≠ .pages then .error .EINVAL
    else if (dev.buffers slot).dmabufExported then .error .EBUSY
    else .ok slot

def exportCtxOf (dev : BufTable) (slot : Fin maxBuffers) : DmaplaneDmabufCtx :=
  let buf := dev.buffers slot
  { buf := slot, pages := buf.pages, nrPages := buf.nrPages, size := buf.size, vaddr := buf.vaddr }

def BufTable.setMmapCount (dev : BufTable) (slot : Fin maxBuffers) (n : BitVec 32) : BufTable :=
  dev.setBuffer slot { dev.buffers slot with mmapCount := n }

def BufTable.setExported (dev : BufTable) (slot : Fin maxBuffers) (dmabuf : Option Nat) : BufTable :=
  dev.setBuffer slot
    { dev.buffers slot with dmabufExported := dmabuf.isSome, dmabuf := dmabuf }

def bufStep (s : BufSt Tid) : BufAct Tid → Option (BufSt Tid)
  | .create t params env =>
    if s.Idle t then
      match createValidate env params with
      | .error _ => some s
      | .ok allocType =>
        if s.lock = none ∧ env.Fits params.size.toNat then
          match createFill env allocType params s.dev s.mem with
          | (.error _, dev, mem) => some { s with dev := dev, mem := mem }
          | (.ok slot, dev, mem) =>
            some { s.enter t (.createFilled slot) with dev := dev, mem := mem }
        else none
    else none
  | .createPublish t =>
    match s.section? t with
    | some (.createFilled slot) =>
      some { s.unlock.goto t (.createCopy (s.dev.buffers slot).id) with
        dev := createPublish s.dev slot }
    | _ => none
  | .createCopy t copyOk =>
    match s.user t with
    -- a handle that cannot be returned is destroyed again
    | .createCopy bufId => some (s.goto t (if copyOk then .idle else .destroy bufId))
    | _ => none
  | .destroyCall t bufId => if s.Idle t then some (s.goto t (.destroy bufId)) else none
  | .destroyLocked t =>
    match s.user t with
    | .destroy bufId =>
      if s.lock = none then
        match destroyCheck s.dev bufId with
        | .error _ => some (s.goto t .idle)
        | .ok slot => some (s.enter t (.destroyChecked slot))
      else none
    | _ => none
  | .destroyFree t =>
    match s.section? t with
    | some (.destroyChecked slot) =>
      let (dev, mem) := destroyFree s.dev s.mem slot
      some { s.unlock.goto t .idle with dev := dev, mem := mem }
    | _ => none
  | .mmap t pgoff size inserts =>
    if s.Idle t ∧ s.lock = none then
      match mmapLocked s.dev pgoff size inserts with
      | .error _ => some s
      | .ok vma => some (s.enter t (.mmapInserted vma))
    else none
  | .mmapCount t =>
    match s.section? t with
    | some (.mmapInserted vma) =>
      some { s.unlock with
        vmas := vma :: s.vmas
        dev := s.dev.setMmapCount vma.buf ((s.dev.buffers vma.buf).mmapCount + 1) }
    | _ => none
  | .vmaOpen vma mapped =>
    -- a copy of a live VMA, or the part of it that a split leaves
    if vma ∈ s.vmas ∧ mapped.all (· ∈ vma.mapped) then
      some { s with
        vmas := { vma with mapped := mapped } :: s.vmas
        dev := s.dev.setMmapCount vma.buf ((s.dev.buffers vma.buf).mmapCount + 1) }
    else none
  | .vmaClose vma =>
    if vma ∈ s.vmas then
      some { s with
        vmas := s.vmas.erase vma
        dev := s.dev.setMmapCount vma.buf ((s.dev.buffers vma.buf).mmapCount - 1) }
    else none
  | .exportLocked t bufId kzallocOk =>
    if s.Idle t ∧ s.lock = none then
      match exportCheck s.dev bufId with
      | .error _ => some s
      | .ok slot =>
        if kzallocOk then
          let (ctx, ctxHeap) := s.ctxHeap.alloc
          some { s.enter t (.exportCtx slot ctx) with
            ctxHeap := ctxHeap, ctxs := Function.update s.ctxs ctx (exportCtxOf s.dev slot) }
        else some s
    else none
  | .exportBuf t exportOk =>
    match s.section? t with
    | some (.exportCtx slot ctx) =>
      if exportOk then
        let d := s.nextDmabuf
        some { s.enter t (.exportBuf slot ctx d) with
          dmabufs := Function.update s.dmabufs d ⟨.fresh, ctx⟩, nextDmabuf := d + 1 }
      else some { s.unlock with ctxHeap := s.ctxHeap.free ctx }
    | _ => none
  | .exportFd t fd =>
    match s.section? t with
    | some (.exportBuf slot ctx d) =>
      match fd with
      | .ok => some ((s.setPhase d (.live 1)).enter t (.exportFd slot ctx d))
      | .failDeferred => some ((s.setPhase d .dying).enter t (.exportPut ctx))
      | .failSync => some ((s.setPhase d .releasing).enter t (.exportPutSync d))
    | _ => none
  | .exportPublish t =>
    match s.section? t with
    | some (.exportFd slot _ d) =>
      some { s.unlock with
        dev := s.dev.setExported slot (some d), counting := insert t s.counting }
    | _ => none
  | .exportCount t =>
    if t ∈ s.counting then
      some { s with
        counting := s.counting.erase t
        dev := { s.dev with
          stats := { s.dev.stats with dmabufsExported := s.dev.stats.dmabufsExported + 1 } } }
    else none
  | .exportFree t =>
    match s.section? t with
    | some (.exportPut ctx) => some { s.unlock with ctxHeap := s.ctxHeap.free ctx }
    | _ => none
  | .dmabufGet d =>
    match (s.dmabufs d).phase with
    | .live refs => some (s.setPhase d (.live (refs + 1)))
    | _ => none
  | .dmabufPut d =>
    match (s.dmabufs d).phase with
    | .live (refs + 2) => some (s.setPhase d (.live (refs + 1)))
    | .live 1 => some (s.setPhase d .dying)
    | _ => none
  | .releaseEnter d =>
    match (s.dmabufs d).phase with
    | .dying =>
      some { s.setPhase d .releasing with
        ctxUseAfterFree := s.ctxUseAfterFree || (s.dmabufs d).priv ∉ s.ctxHeap.live }
    | _ => none
  | .releaseLocked d =>
    match (s.dmabufs d).phase with
    | .releasing =>
      if s.lock = none then
        some { s.setPhase d .cleared with
          dev := s.dev.setExported (s.ctxs (s.dmabufs d).priv).buf none }
      else none
    | _ => none
  | .releaseCount d =>
    match (s.dmabufs d).phase with
    | .cleared =>
      some { s.setPhase d .counted with
        dev := { s.dev with
          stats := { s.dev.stats with dmabufsReleased := s.dev.stats.dmabufsReleased + 1 } } }
    | _ => none
  | .releaseFree d =>
    match (s.dmabufs d).phase with
    | .counted =>
      some { s.setPhase d .gone with ctxHeap := s.ctxHeap.free (s.dmabufs d).priv }
    | _ => none

def bufInit (Tid : Type) : BufSt Tid :=
  { dev := bufTableInit, mem := .empty, lock := none, user := fun _ => .idle, vmas := []
    ctxs := fun _ => { buf := 0, pages := none, nrPages := 0, size := 0, vaddr := none }
    ctxHeap := .empty, ctxUseAfterFree := false, dmabufs := fun _ => ⟨.unused, 0⟩, nextDmabuf := 0
    counting := ∅ }

def bufSys (Tid : Type) [DecidableEq Tid] : Transition.Sys (BufSt Tid) (BufAct Tid) where
  init := bufInit Tid
  step := bufStep

/-! ## What each step does -/

-- Its equations are made here, once for the proofs below.
attribute [local simp] bufStep

theorem section?_some {s : BufSt Tid} {t : Tid} {sec : BufSection} (h : s.section? t = some sec) :
    s.lock = some (t, sec) := by
  unfold BufSt.section? at h
  split at h
  · rename_i t' sec' hl
    split at h
    · rename_i ht; cases h; rw [hl, ht]
    · cases h
  · cases h

theorem mmapInsert_subset {buf : DmaplaneBuffer} {size : Nat} {inserts : Nat → Bool}
    {mapped : List Nat} (h : mmapInsert buf size inserts = some mapped) :
    ∀ p ∈ mapped, p ∈ buf.blocks := by
  unfold mmapInsert at h
  intro p hp
  split at h
  · rename_i hty
    split at h <;> cases h
    rw [DmaplaneBuffer.blocks, hty]; exact hp
  · rename_i hty
    simp only at h
    split at h <;> cases h
    obtain ⟨page, hpage, rfl⟩ := List.mem_map.mp hp
    have hmem := List.mem_of_mem_take hpage
    rw [DmaplaneBuffer.blocks, hty]
    cases harr : buf.pages with
    | none => rw [harr] at hmem; cases hmem
    | some array =>
      rw [harr] at hmem
      exact List.mem_append_right _ (List.mem_append_left _ (List.mem_map_of_mem hmem))

theorem mmapLocked_ok {dev : BufTable} {pgoff : BitVec 64} {size : Nat} {inserts : Nat → Bool}
    {vma : Vma} (h : mmapLocked dev pgoff size inserts = .ok vma) :
    (dev.buffers vma.buf).inUse = true ∧ ∀ p ∈ vma.mapped, p ∈ (dev.buffers vma.buf).blocks := by
  simp only [mmapLocked] at h
  split at h
  · cases h
  · rename_i slot hfind
    split at h
    · cases h
    · split at h
      · cases h
      · rename_i hins; cases h
        exact ⟨(findBuffer_some hfind).1, mmapInsert_subset hins⟩

theorem exportCheck_ok {dev : BufTable} {bufId : BitVec 32} {slot : Fin maxBuffers}
    (h : exportCheck dev bufId = .ok slot) :
    (dev.buffers slot).inUse = true ∧ (dev.buffers slot).allocType = .pages ∧
      (dev.buffers slot).dmabufExported = false := by
  simp only [exportCheck] at h
  split at h
  · cases h
  · rename_i slot' hfind
    split at h
    · cases h
    · rename_i hty
      split at h
      · cases h
      · rename_i he; cases h
        exact ⟨(findBuffer_some hfind).1, by simpa using hty, by simpa using he⟩

/-- The steps of `bufSys`, each with what its guards have established. -/
inductive BufFlow (s : BufSt Tid) : BufAct Tid → BufSt Tid → Prop where
  | pc (a : BufAct Tid) (user : Tid → BufPc) : BufFlow s a { s with user := user }
  | createFailed {a : BufAct Tid} {dev : BufTable} {mem : Heap} : s.lock = none →
      s.mem.Alloced mem [] →
      (dev = s.dev ∨ ∃ slot, (s.dev.buffers slot).inUse = false ∧ SameBut s.dev dev slot ∧
        (dev.buffers slot).inUse = false ∧ (dev.buffers slot).dmabufExported = false) →
      BufFlow s a { s with dev := dev, mem := mem }
  | createFilled {a : BufAct Tid} {t : Tid} {slot : Fin maxBuffers} {type : BufType}
      {params : DmaplaneBufParams} {dev : BufTable} {mem : Heap} : s.lock = none →
      (s.dev.buffers slot).inUse = false → SameBut s.dev dev slot →
      Filled type params s.dev.nextBufId (dev.buffers slot) →
      s.mem.Alloced mem (dev.buffers slot).blocks →
      BufFlow s a { s with dev := dev, mem := mem, lock := some (t, .createFilled slot) }
  | createPublish {t : Tid} {slot : Fin maxBuffers} {user : Tid → BufPc} :
      s.lock = some (t, .createFilled slot) →
      BufFlow s (.createPublish t)
        { s with lock := none, user := user, dev := createPublish s.dev slot }
  | destroyChecked {t : Tid} {slot : Fin maxBuffers} : s.lock = none →
      (s.dev.buffers slot).inUse = true → (s.dev.buffers slot).mapped = false →
      (s.dev.buffers slot).dmabufExported = false →
      BufFlow s (.destroyLocked t) { s with lock := some (t, .destroyChecked slot) }
  | destroyFree {t : Tid} {slot : Fin maxBuffers} {user : Tid → BufPc} :
      s.lock = some (t, .destroyChecked slot) →
      BufFlow s (.destroyFree t)
        { s with
          lock := none, user := user
          dev := (destroyFree s.dev s.mem slot).1, mem := (destroyFree s.dev s.mem slot).2 }
  | mmapInserted {a : BufAct Tid} {t : Tid} {vma : Vma} : s.lock = none →
      (s.dev.buffers vma.buf).inUse = true →
      (∀ p ∈ vma.mapped, p ∈ (s.dev.buffers vma.buf).blocks) →
      BufFlow s a { s with lock := some (t, .mmapInserted vma) }
  | mmapCount {t : Tid} {vma : Vma} : s.lock = some (t, .mmapInserted vma) →
      BufFlow s (.mmapCount t)
        { s with
          lock := none, vmas := vma :: s.vmas
          dev := s.dev.setMmapCount vma.buf ((s.dev.buffers vma.buf).mmapCount + 1) }
  | vmaOpen {vma : Vma} {mapped : List Nat} : vma ∈ s.vmas → (∀ p ∈ mapped, p ∈ vma.mapped) →
      BufFlow s (.vmaOpen vma mapped)
        { s with
          vmas := { vma with mapped := mapped } :: s.vmas
          dev := s.dev.setMmapCount vma.buf ((s.dev.buffers vma.buf).mmapCount + 1) }
  | vmaClose {a : BufAct Tid} {vma : Vma} : vma ∈ s.vmas →
      BufFlow s a
        { s with
          vmas := s.vmas.erase vma
          dev := s.dev.setMmapCount vma.buf ((s.dev.buffers vma.buf).mmapCount - 1) }
  | exportCtx {a : BufAct Tid} {t : Tid} {slot : Fin maxBuffers} : s.lock = none →
      t ∉ s.counting → (s.dev.buffers slot).inUse = true → (s.dev.buffers slot).allocType = .pages →
      (s.dev.buffers slot).dmabufExported = false →
      BufFlow s a
        { s with
          lock := some (t, .exportCtx slot s.ctxHeap.alloc.1), ctxHeap := s.ctxHeap.alloc.2
          ctxs := Function.update s.ctxs s.ctxHeap.alloc.1 (exportCtxOf s.dev slot) }
  | exportBuf {a : BufAct Tid} {t : Tid} {slot : Fin maxBuffers} {ctx : Nat} :
      s.lock = some (t, .exportCtx slot ctx) →
      BufFlow s a
        { s with
          lock := some (t, .exportBuf slot ctx s.nextDmabuf)
          dmabufs := Function.update s.dmabufs s.nextDmabuf ⟨.fresh, ctx⟩
          nextDmabuf := s.nextDmabuf + 1 }
  | exportBufFailed {a : BufAct Tid} {t : Tid} {slot : Fin maxBuffers} {ctx : Nat} :
      s.lock = some (t, .exportCtx slot ctx) →
      BufFlow s a { s with lock := none, ctxHeap := s.ctxHeap.free ctx }
  | exportFd {t : Tid} {slot : Fin maxBuffers} {ctx d : Nat} :
      s.lock = some (t, .exportBuf slot ctx d) →
      BufFlow s (.exportFd t .ok)
        { s.setPhase d (.live 1) with lock := some (t, .exportFd slot ctx d) }
  | exportFdFailed {t : Tid} {slot : Fin maxBuffers} {ctx d : Nat} {phase : DmabufPhase}
      {fd : FdResult} {sec : BufSection} : fd ≠ .ok → s.lock = some (t, .exportBuf slot ctx d) →
      (sec = .exportPut ctx ∨ sec = .exportPutSync d) →
      BufFlow s (.exportFd t fd) { s.setPhase d phase with lock := some (t, sec) }
  | exportPublish {a : BufAct Tid} {t : Tid} {slot : Fin maxBuffers} {ctx d : Nat} :
      s.lock = some (t, .exportFd slot ctx d) →
      BufFlow s a
        { s with
          lock := none, dev := s.dev.setExported slot (some d), counting := insert t s.counting }
  | exportCount {a : BufAct Tid} {t : Tid} : t ∈ s.counting →
      BufFlow s a
        { s with
          counting := s.counting.erase t
          dev := { s.dev with
            stats := { s.dev.stats with dmabufsExported := s.dev.stats.dmabufsExported + 1 } } }
  | exportFree {a : BufAct Tid} {t : Tid} {ctx : Nat} : s.lock = some (t, .exportPut ctx) →
      BufFlow s a { s with lock := none, ctxHeap := s.ctxHeap.free ctx }
  | refs {a : BufAct Tid} {d refs : Nat} {phase : DmabufPhase} :
      (s.dmabufs d).phase = .live refs → (phase = .dying ∨ ∃ refs', phase = .live refs') →
      BufFlow s a (s.setPhase d phase)
  | releaseEnter {a : BufAct Tid} {d : Nat} : (s.dmabufs d).phase = .dying →
      BufFlow s a
        { s.setPhase d .releasing with
          ctxUseAfterFree := s.ctxUseAfterFree || (s.dmabufs d).priv ∉ s.ctxHeap.live }
  | releaseLocked {a : BufAct Tid} {d : Nat} : s.lock = none →
      (s.dmabufs d).phase = .releasing →
      BufFlow s a
        { s.setPhase d .cleared with
          dev := s.dev.setExported (s.ctxs (s.dmabufs d).priv).buf none }
  | releaseCount {a : BufAct Tid} {d : Nat} : (s.dmabufs d).phase = .cleared →
      BufFlow s a
        { s.setPhase d .counted with
          dev := { s.dev with
            stats := { s.dev.stats with dmabufsReleased := s.dev.stats.dmabufsReleased + 1 } } }
  | releaseFree {a : BufAct Tid} {d : Nat} : (s.dmabufs d).phase = .counted →
      BufFlow s a
        { s.setPhase d .gone with ctxHeap := s.ctxHeap.free (s.dmabufs d).priv }

theorem bufStep_flow {s s' : BufSt Tid} {a : BufAct Tid} (h : bufStep s a = some s') :
    BufFlow s a s' := by
  cases a with
  | create t params env =>
    simp only [bufStep] at h
    split at h
    · split at h
      · cases h; exact .pc _ s.user
      · split at h
        · rename_i hidle type hv hl
          split at h
          · rename_i e dev mem hc; cases h
            obtain ⟨hall, hdev⟩ := createFill_error hc
            exact .createFailed hl.1 hall hdev
          · rename_i slot dev mem hc; cases h
            obtain ⟨hfree, hsame, hfilled, hall⟩ := createFill_ok hl.2 hc
            exact .createFilled hl.1 hfree hsame hfilled hall
        · cases h
    · cases h
  | createPublish t =>
    simp only [bufStep] at h
    split at h
    · rename_i hsec; cases h; exact .createPublish (section?_some hsec)
    · cases h
  | createCopy t copyOk =>
    simp only [bufStep] at h
    split at h <;> cases h
    exact .pc _ _
  | destroyCall t bufId =>
    simp only [bufStep] at h
    split at h <;> cases h
    exact .pc _ _
  | destroyLocked t =>
    simp only [bufStep] at h
    split at h
    · split at h
      · rename_i hl
        split at h
        · cases h; exact .pc _ _
        · rename_i slot hc; cases h
          obtain ⟨hin, _, hm, he⟩ := destroyCheck_ok hc
          exact .destroyChecked hl hin hm he
      · cases h
    · cases h
  | destroyFree t =>
    simp only [bufStep] at h
    split at h
    · rename_i hsec; cases h; exact .destroyFree (section?_some hsec)
    · cases h
  | mmap t pgoff size inserts =>
    simp only [bufStep] at h
    split at h
    · rename_i hl
      split at h
      · cases h; exact .pc _ s.user
      · rename_i vma hm; cases h
        obtain ⟨hin, hsub⟩ := mmapLocked_ok hm
        exact .mmapInserted hl.2 hin hsub
    · cases h
  | mmapCount t =>
    simp only [bufStep] at h
    split at h
    · rename_i hsec; cases h; exact .mmapCount (section?_some hsec)
    · cases h
  | vmaOpen vma mapped =>
    simp only [bufStep] at h
    split at h
    · rename_i hv; cases h; exact .vmaOpen hv.1 (by simpa using hv.2)
    · cases h
  | vmaClose vma =>
    simp only [bufStep] at h
    split at h
    · rename_i hv; cases h; exact .vmaClose hv
    · cases h
  | exportLocked t bufId kzallocOk =>
    simp only [bufStep] at h
    split at h
    · rename_i hl
      split at h
      · cases h; exact .pc _ s.user
      · rename_i slot hc
        split at h
        · cases h
          obtain ⟨hin, hty, he⟩ := exportCheck_ok hc
          exact .exportCtx hl.2 hl.1.2.1 hin hty he
        · cases h; exact .pc _ s.user
    · cases h
  | exportBuf t exportOk =>
    simp only [bufStep] at h
    split at h
    · rename_i hsec
      split at h
      · cases h; exact .exportBuf (section?_some hsec)
      · cases h; exact .exportBufFailed (section?_some hsec)
    · cases h
  | exportFd t fd =>
    simp only [bufStep] at h
    split at h
    · rename_i hsec
      cases fd with
      | ok => cases h; exact .exportFd (section?_some hsec)
      | failDeferred => cases h; exact .exportFdFailed (by simp) (section?_some hsec) (.inl rfl)
      | failSync => cases h; exact .exportFdFailed (by simp) (section?_some hsec) (.inr rfl)
    · cases h
  | exportPublish t =>
    simp only [bufStep] at h
    split at h
    · rename_i hsec; cases h; exact .exportPublish (section?_some hsec)
    · cases h
  | exportCount t =>
    simp only [bufStep] at h
    split at h
    · rename_i ht; cases h; exact .exportCount ht
    · cases h
  | exportFree t =>
    simp only [bufStep] at h
    split at h
    · rename_i hsec; cases h; exact .exportFree (section?_some hsec)
    · cases h
  | dmabufGet d =>
    simp only [bufStep] at h
    split at h
    · rename_i refs hp; cases h; exact .refs hp (.inr ⟨_, rfl⟩)
    · cases h
  | dmabufPut d =>
    simp only [bufStep] at h
    split at h
    · rename_i refs hp; cases h; exact .refs hp (.inr ⟨_, rfl⟩)
    · rename_i hp; cases h; exact .refs hp (.inl rfl)
    · cases h
  | releaseEnter d =>
    simp only [bufStep] at h
    split at h
    · rename_i hp; cases h; exact .releaseEnter hp
    · cases h
  | releaseLocked d =>
    simp only [bufStep] at h
    split at h
    · rename_i hp
      split at h
      · rename_i hl; cases h; exact .releaseLocked hl hp
      · cases h
    · cases h
  | releaseCount d =>
    simp only [bufStep] at h
    split at h
    · rename_i hp; cases h; exact .releaseCount hp
    · cases h
  | releaseFree d =>
    simp only [bufStep] at h
    split at h
    · rename_i hp; cases h; exact .releaseFree hp
    · cases h

end Dmaplane
