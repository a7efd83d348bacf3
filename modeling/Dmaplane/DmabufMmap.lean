import Dmaplane.BufferMmap

/-!
# Dmaplane.DmabufMmap

mmap of a dma-buf fd (`dmaplane_dmabuf_mmap`, `driver/dmabuf_export.c`), against the same range
seen through `/dev/dmaplane` and through the kernel mapping.

The dma-buf core hands the callback a VMA whose `vm_pgoff` is the page of the buffer it starts at.
`dmaplane_mmap` finds the buffer id in that field; the callback has its buffer in `priv`, and its
loop inserts the pages from the first on.
-/

namespace Dmaplane

/-- `struct vm_area_struct`; `size` is `vm_end - vm_start`. -/
structure VmArea where
  vmPgoff : Nat
  size : Nat
  deriving DecidableEq, Repr

/-- `ctx->pages[i]`. -/
def DmaplaneDmabufCtx.page (ctx : DmaplaneDmabufCtx) (i : Nat) : Option (Nat × Nat) :=
  (ctx.pages.bind fun array => array.pages[i]?).map fun page => (page.block, 0)

/-- `dmaplane_dmabuf_mmap`: what the pages of the VMA map, in order. -/
def dmaplaneDmabufMmap (ctx : DmaplaneDmabufCtx) (vma : VmArea) (inserts : Nat → Bool) :
    Except Errno (List (Option (Nat × Nat))) :=
  if vma.size > ctx.size.toNat then .error .EINVAL
  else
    -- `i < ctx->nr_pages && i * PAGE_SIZE < size`
    let n := min ctx.nrPages (divRoundUp vma.size pageSize)
    if (List.range n).all inserts then .ok ((List.range n).map ctx.page) else .error .EAGAIN

/-- What `vmap(buf->pages, nr_pages, VM_MAP, PAGE_KERNEL)` has put at page `i` of `buf->vaddr`. -/
def DmaplaneBuffer.vmapped (buf : DmaplaneBuffer) (i : Nat) : Option (Nat × Nat) :=
  if i < buf.nrPages then
    (buf.pages.bind fun array => array.pages[i]?).map fun page => (page.block, 0)
  else none

/-- The mapped pages are the pages `p .. p + n - 1` of the buffer, as `/dev/dmaplane` and the
kernel mapping show them. -/
def ShowsRange (buf : DmaplaneBuffer) (p n : Nat) (mapped : List (Option (Nat × Nat))) : Prop :=
  ∀ j, j < n → (buf.frame (p + j)).isSome ∧ mapped[j]? = some (buf.frame (p + j)) ∧
    (mappedFrames buf ((p + n) * pageSize))[p + j]? = mapped[j]? ∧
    mapped[j]? = some (buf.vmapped (p + j))

section Mmap

variable {buf : DmaplaneBuffer} {ctx : DmaplaneDmabufCtx} {array : PageArray} {p n i : Nat}

theorem divRoundUp_mul (n : Nat) : divRoundUp (n * pageSize) pageSize = n := by
  simp only [divRoundUp, pageSize]
  omega

/-- The block of page `i`. -/
def PageArray.frame (array : PageArray) (i : Nat) : Option (Nat × Nat) :=
  (array.pages.map (·.block))[i]?.map fun block => (block, 0)

theorem PageArray.frame_isSome (hi : i < array.pages.length) : (array.frame i).isSome := by
  rw [PageArray.frame, List.getElem?_eq_getElem (by rw [List.length_map]; exact hi)]
  rfl

/-- The pages of a buffer are different blocks. -/
theorem PageArray.frame_inj (hn : (array.pages.map (·.block)).Nodup) {j : Nat}
    (hi : i < array.pages.length) (h : array.frame i = array.frame j) : i = j := by
  have hi' : i < (array.pages.map (·.block)).length := by rw [List.length_map]; exact hi
  simp only [PageArray.frame] at h
  have hopt := Option.map_injective (fun a b hab => congrArg Prod.fst hab :
    Function.Injective fun block : Nat => (block, 0)) h
  exact (List.getElem?_inj hi' hn).mp hopt

theorem frame_pages (hty : buf.allocType = .pages) (hp : buf.pages = some array) :
    buf.frame i = array.frame i := by
  simp [DmaplaneBuffer.frame, PageArray.frame, hty, hp, Option.map_map, Function.comp_def]

theorem page_pages (hp : ctx.pages = some array) : ctx.page i = array.frame i := by
  simp [DmaplaneDmabufCtx.page, PageArray.frame, hp, Option.map_map, Function.comp_def]

theorem vmapped_pages (hp : buf.pages = some array) (hi : i < buf.nrPages) :
    buf.vmapped i = array.frame i := by
  simp [DmaplaneBuffer.vmapped, PageArray.frame, hp, hi, Option.map_map, Function.comp_def]

/-- An accepted mmap of `n` pages maps the first `n` pages, whatever its offset. -/
theorem dmaplaneDmabufMmap_ok {vma : VmArea} {inserts : Nat → Bool}
    {mapped : List (Option (Nat × Nat))} (hp : ctx.pages = some array)
    (hvma : vma.size = n * pageSize) (hle : n ≤ ctx.nrPages)
    (h : dmaplaneDmabufMmap ctx vma inserts = .ok mapped) :
    mapped = (List.range n).map array.frame := by
  have hmin : min ctx.nrPages n = n := Nat.min_eq_right hle
  rw [dmaplaneDmabufMmap, hvma, divRoundUp_mul] at h
  simp only [hmin] at h
  split at h
  · cases h
  · split at h <;> cases h
    exact List.map_congr_left fun i _ => page_pages hp

/-- Pages `0 .. n - 1` are the pages `p .. p + n - 1` for `p = 0` only. -/
theorem showsRange_iff (hty : buf.allocType = .pages) (hp : buf.pages = some array)
    (hlen : array.pages.length = buf.nrPages) (hnd : (array.pages.map (·.block)).Nodup)
    (hn : 0 < n) (hle : p + n ≤ buf.nrPages) :
    ShowsRange buf p n ((List.range n).map array.frame) ↔ p = 0 := by
  have hget : ∀ j, j < n → ((List.range n).map array.frame)[j]? = some (array.frame j) := by
    intro j hj
    rw [List.getElem?_map, List.getElem?_range hj]
    rfl
  constructor
  · intro h
    obtain ⟨-, hfirst, -⟩ := h 0 hn
    rw [hget 0 hn, frame_pages hty hp, Nat.add_zero, Option.some_inj] at hfirst
    exact (PageArray.frame_inj hnd (by omega) hfirst).symm
  · rintro rfl j hj
    have hmap : mappedFrames buf ((0 + n) * pageSize) = (List.range n).map buf.frame := by
      have hmin : min buf.nrPages (0 + n) = n := by omega
      simp only [mappedFrames, hty, divRoundUp_mul, hmin]
    rw [Nat.zero_add, hget j hj, hmap, List.getElem?_map, List.getElem?_range hj,
      frame_pages hty hp, vmapped_pages hp (by omega)]
    refine ⟨PageArray.frame_isSome (by omega), rfl, ?_, rfl⟩
    exact congrArg some (frame_pages hty hp)

end Mmap

/-- **mmap of a dma-buf.** A buffer is exported in any reachable state; `now` is the same buffer at
the time of an mmap of `n` pages at page `p`, which the core lets through and the callback
accepts. It shows that range exactly if `p` is 0. -/
theorem dmabuf_mmap_shows_iff {Tid : Type} [DecidableEq Tid] {s : BufSt Tid}
    (h : (bufSys Tid).Reachable s) {bufId : BitVec 32} {slot : Fin maxBuffers}
    (he : exportCheck s.dev bufId = .ok slot) {now : DmaplaneBuffer}
    (hnow : SameBuffer (s.dev.buffers slot) now) {p n : Nat} (hn : 0 < n)
    (hcore : p + n ≤ divRoundUp now.size.toNat pageSize) {inserts : Nat → Bool}
    {mapped : List (Option (Nat × Nat))}
    (hok : dmaplaneDmabufMmap (exportCtxOf s.dev slot) ⟨p, n * pageSize⟩ inserts = .ok mapped) :
    ShowsRange now p n mapped ↔ p = 0 := by
  have hm := memInv h
  obtain ⟨hin, hty, -⟩ := exportCheck_ok he
  obtain ⟨array, hp, hlen, hnr⟩ := (hm.wf slot (.inl hin)).pages hty
  have hsize : now.size = (s.dev.buffers slot).size := by rw [hnow]
  have hnd : (array.pages.map (·.block)).Nodup := by
    have hown := hm.owned.nodup slot
    rw [BufSt.own, if_pos (.inl hin), DmaplaneBuffer.blocks, hty, hp] at hown
    exact (List.nodup_append.mp (List.nodup_append.mp hown).2.1).1
  rw [hsize, ← hnr] at hcore
  have hmapped : mapped = (List.range n).map array.frame :=
    dmaplaneDmabufMmap_ok hp rfl (by show n ≤ (s.dev.buffers slot).nrPages; omega) hok
  rw [hmapped]
  refine showsRange_iff ?_ ?_ ?_ hnd hn ?_
  · rw [hnow]; exact hty
  · rw [hnow]; exact hp
  · rw [hnow]; exact hlen
  · rw [hnow]; exact hcore

/-! ## A buffer of two pages -/

def createTwoPages : List (BufAct (Fin 2)) :=
  [.create 0 (pagesOf 8192) oneNode, .createPublish 0, .createCopy 0 true]

/-- mmap of both pages of the exported buffer. -/
theorem dmabuf_mmap_shows_both : ∃ s : BufSt (Fin 2),
    ShowsRange (s.dev.buffers 0) 0 2 [some (1, 0), some (2, 0)] := by
  obtain ⟨s, hr, he, hsize, hok⟩ : ∃ s : BufSt (Fin 2), (bufSys (Fin 2)).Reachable s ∧
      exportCheck s.dev 1 = .ok 0 ∧ (s.dev.buffers 0).size = 8192 ∧
      dmaplaneDmabufMmap (exportCtxOf s.dev 0) ⟨0, 2 * pageSize⟩ (fun _ => true) =
        .ok [some (1, 0), some (2, 0)] :=
    Transition.Sys.exists_of_exec createTwoPages (by decide +kernel)
  exact ⟨s, (dmabuf_mmap_shows_iff hr he (.refl _) (by decide) (by rw [hsize]; decide) hok).mpr rfl⟩

/-- mmap of the second page shows the first. -/
theorem dmabuf_mmap_first_page : ∃ s : BufSt (Fin 2), (bufSys (Fin 2)).Reachable s ∧
    exportCheck s.dev 1 = .ok 0 ∧ (s.dev.buffers 0).size = 8192 ∧
    dmaplaneDmabufMmap (exportCtxOf s.dev 0) ⟨1, pageSize⟩ (fun _ => true) = .ok [some (1, 0)] ∧
    (s.dev.buffers 0).frame 1 = some (2, 0) ∧
    ¬ ShowsRange (s.dev.buffers 0) 1 1 [some (1, 0)] := by
  obtain ⟨s, hr, he, hsize, hok, hframe⟩ : ∃ s : BufSt (Fin 2), (bufSys (Fin 2)).Reachable s ∧
      exportCheck s.dev 1 = .ok 0 ∧ (s.dev.buffers 0).size = 8192 ∧
      dmaplaneDmabufMmap (exportCtxOf s.dev 0) ⟨1, pageSize⟩ (fun _ => true) =
        .ok [some (1, 0)] ∧ (s.dev.buffers 0).frame 1 = some (2, 0) :=
    Transition.Sys.exists_of_exec createTwoPages (by decide +kernel)
  refine ⟨s, hr, he, hsize, hok, hframe, fun h => ?_⟩
  obtain ⟨-, hshown, -⟩ := h 0 (by decide)
  rw [hframe] at hshown
  cases hshown

end Dmaplane
