import Dmaplane.BufferMem

/-!
# Dmaplane.BufferMmap

GET_MMAP_INFO and the mmap that user space makes of its answer, as functions of the buffer table.

The offset carries the buffer id: the ioctl returns `id << PAGE_SHIFT`, the kernel hands
`offset >> PAGE_SHIFT` to `dmaplane_mmap` as `vm_pgoff`, and rounds the length up to whole pages.
`dmaplane_mmap` narrows `vm_pgoff` to an `unsigned int` and compares the rounded length with the
unrounded size of the buffer. The checks and the inserted pages are those of `mmapLocked`; here
each page of the VMA is told apart, by `mappedFrames`.
-/

namespace Dmaplane

/-! ## The pages of a mapping -/

/-- The page behind byte `i * PAGE_SIZE` of a buffer: the block and the page within it. A page of
page-backed memory is a block of its own. -/
def DmaplaneBuffer.frame (buf : DmaplaneBuffer) (i : Nat) : Option (Nat × Nat) :=
  match buf.allocType with
  | .coherent => buf.vaddr.map fun p => (p.block, i)
  | .pages => (buf.pages.bind fun array => array.pages[i]?).map fun page => (page.block, 0)

/-- The pages of a buffer of `ceil(size / PAGE_SIZE)` pages, in order. -/
def DmaplaneBuffer.frames (buf : DmaplaneBuffer) : List (Option (Nat × Nat)) :=
  (List.range (divRoundUp buf.size.toNat pageSize)).map buf.frame

/-- What page `i` of a VMA of `size` bytes maps: `dma_mmap_coherent` maps the whole range from page
0 of the block, the `vm_insert_page` loop page `i` while `i < nr_pages && i * PAGE_SIZE < size`. -/
def mappedFrames (buf : DmaplaneBuffer) (size : Nat) : List (Option (Nat × Nat)) :=
  match buf.allocType with
  | .coherent => (List.range (size / pageSize)).map buf.frame
  | .pages => (List.range (min buf.nrPages (divRoundUp size pageSize))).map buf.frame

/-! ## The calls -/

/-- `(__u64)buf->id << PAGE_SHIFT`. -/
def mmapOffset (bufId : BitVec 32) : BitVec 64 := bufId.setWidth 64 <<< 12

/-- `dmaplane_ioctl_get_mmap_info`: `mmap_offset` and `mmap_size`. -/
def getMmapInfo (dev : BufTable) (bufId : BitVec 32) : Except Errno (BitVec 64 × BitVec 64) :=
  match dmabufRdmaFindBuffer dev bufId with
  | none => .error .ENOENT
  | some slot => .ok (mmapOffset (dev.buffers slot).id, (dev.buffers slot).size)

/-- `PAGE_ALIGN(len)`. -/
def pageAlign (len : Nat) : Nat := divRoundUp len pageSize * pageSize

/-- `mmap(NULL, len, prot, MAP_SHARED, fd, offset)`: the checks of the kernel, and
`dmaplane_mmap`. -/
def mmapCall (dev : BufTable) (offset len : BitVec 64) (inserts : Nat → Bool) : Except Errno Vma :=
  if offset.toNat % pageSize ≠ 0 ∨ len = 0 then .error .EINVAL
  else mmapLocked dev (offset >>> 12) (pageAlign len.toNat) inserts

/-! ## Arithmetic of the encoding -/

theorem mmapOffset_toNat (bufId : BitVec 32) :
    (mmapOffset bufId).toNat = bufId.toNat * pageSize := by
  have hlt := bufId.isLt
  have hwide : bufId.toNat % 2 ^ 64 = bufId.toNat := Nat.mod_eq_of_lt (by omega)
  rw [mmapOffset, BitVec.toNat_shiftLeft, BitVec.toNat_setWidth, Nat.shiftLeft_eq, hwide]
  exact Nat.mod_eq_of_lt (by omega)

theorem pgoff_toNat (offset : BitVec 64) : (offset >>> 12).toNat = offset.toNat / pageSize := by
  rw [BitVec.toNat_ushiftRight, Nat.shiftRight_eq_div_pow]

/-- Decoding gives the id back. -/
theorem mmapOffset_decode (bufId : BitVec 32) :
    (mmapOffset bufId >>> 12).truncate 32 = bufId := by
  apply BitVec.eq_of_toNat_eq
  rw [BitVec.truncate_eq_setWidth, BitVec.toNat_setWidth, pgoff_toNat, mmapOffset_toNat,
    Nat.mul_div_cancel _ (by decide : 0 < pageSize)]
  exact Nat.mod_eq_of_lt bufId.isLt

/-- A page offset below `2^32` is the encoding of the id it is narrowed to. -/
theorem pgoff_encodes {pgoff : BitVec 64} (h : pgoff.toNat < 2 ^ 32) :
    pgoff = (pgoff.truncate 32).setWidth 64 := by
  apply BitVec.eq_of_toNat_eq
  rw [BitVec.toNat_setWidth, BitVec.truncate_eq_setWidth, BitVec.toNat_setWidth,
    Nat.mod_eq_of_lt h, Nat.mod_eq_of_lt pgoff.isLt]

theorem pageAlign_le_iff {len : Nat} : pageAlign len ≤ len ↔ len % pageSize = 0 := by
  simp only [pageAlign, divRoundUp, pageSize]
  omega

theorem divRoundUp_eq {len : Nat} (h : len % pageSize = 0) :
    divRoundUp (pageAlign len) pageSize = divRoundUp len pageSize ∧
      pageAlign len / pageSize = divRoundUp len pageSize := by
  simp only [pageAlign, divRoundUp, pageSize] at h ⊢
  omega

/-! ## The buffer that CREATE_BUFFER makes -/

/-- What the mapping of a buffer rests on. -/
structure MmapBacked (buf : DmaplaneBuffer) : Prop where
  size : buf.size.toNat ≠ 0
  vaddr : buf.vaddr ≠ none
  pages : buf.allocType = .pages → ∃ array, buf.pages = some array ∧
    array.pages.length = buf.nrPages ∧ buf.nrPages = divRoundUp buf.size.toNat pageSize

theorem createFill_backed {env : AllocEnv} {allocType : BufType} {params : DmaplaneBufParams}
    {dev dev' : BufTable} {h h' : Heap} {slot : Fin maxBuffers}
    (hv : createValidate env params = .ok allocType)
    (hc : createFill env allocType params dev h = (.ok slot, dev', h')) :
    (dev'.buffers slot).size = params.size ∧ (dev'.buffers slot).id = dev.nextBufId ∧
      MmapBacked (dev'.buffers slot) := by
  have hsize : params.size.toNat ≠ 0 := by
    intro h0
    simp only [createValidate, h0, true_or, if_true] at hv
    cases hv
  have hflow := createFill_flow env allocType params dev h
  rw [hc] at hflow
  cases hflow with
  | coherent hslot henv =>
    rw [countNuma_buffers, setBuffer_self]
    refine ⟨rfl, rfl, hsize, Option.some_ne_none _, fun hty => ?_⟩
    cases hty
  | pages hslot harr hpages henv =>
    rw [countNuma_buffers, setBuffer_self]
    exact ⟨rfl, rfl, hsize, Option.some_ne_none _,
      fun _ => ⟨_, rfl, (allocPages_some hpages).1, rfl⟩⟩

/-- Publication and the counting of references keep it. -/
theorem MmapBacked.same {buf buf' : DmaplaneBuffer} (h : MmapBacked buf) (hs : SameBuffer buf buf') :
    MmapBacked buf' := by
  rw [hs]; exact ⟨h.size, h.vaddr, h.pages⟩

theorem MmapBacked.frame_isSome {buf : DmaplaneBuffer} (h : MmapBacked buf) {i : Nat}
    (hi : i < divRoundUp buf.size.toNat pageSize) : (buf.frame i).isSome = true := by
  rw [DmaplaneBuffer.frame]
  cases hty : buf.allocType with
  | coherent => simpa using Option.ne_none_iff_isSome.mp h.vaddr
  | pages =>
    obtain ⟨array, hp, hlen, hnr⟩ := h.pages hty
    have hlt : i < array.pages.length := by omega
    simp [hp, List.getElem?_eq_getElem hlt]

/-- A VMA of the buffer's own size, in whole pages, maps all of its pages. -/
theorem MmapBacked.mappedFrames {buf : DmaplaneBuffer} (h : MmapBacked buf)
    (hsize : buf.size.toNat % pageSize = 0) :
    mappedFrames buf (pageAlign buf.size.toNat) = buf.frames := by
  obtain ⟨hround, hdiv⟩ := divRoundUp_eq hsize
  rw [Dmaplane.mappedFrames, DmaplaneBuffer.frames]
  cases hty : buf.allocType with
  | coherent => simp only [hdiv]
  | pages =>
    obtain ⟨array, -, -, hnr⟩ := h.pages hty
    simp only [hround, hnr, Nat.min_self]

/-! ## The round trip -/

/-- `mmap` of what GET_MMAP_INFO returns for the buffer in `slot` is accepted for that buffer, and
maps all of its pages in order. -/
def RoundTrips (dev : BufTable) (slot : Fin maxBuffers) (inserts : Nat → Bool) : Prop :=
  ∃ offset len vma, getMmapInfo dev (dev.buffers slot).id = .ok (offset, len) ∧
    mmapCall dev offset len inserts = .ok vma ∧ vma.buf = slot ∧
    mappedFrames (dev.buffers slot) (pageAlign len.toNat) = (dev.buffers slot).frames ∧
    (dev.buffers slot).frames.all (·.isSome) = true

/-- An mmap whose page offset is not the id of a buffer in use is refused. -/
def StrayRefused (dev : BufTable) (offset len : BitVec 64) (inserts : Nat → Bool) : Prop :=
  (∀ slot, (dev.buffers slot).inUse = true →
    offset >>> 12 ≠ (dev.buffers slot).id.setWidth 64) →
  ∃ e, mmapCall dev offset len inserts = .error e

section Mmap

variable {dev : BufTable} {offset len : BitVec 64} {inserts : Nat → Bool}

/-- With the pages inserted, mmap is decided by the offset's alignment, the narrowed id and the
two sizes. -/
theorem mmapCall_ok_iff (hins : ∀ i, inserts i = true) {slot : Fin maxBuffers} :
    (∃ vma, mmapCall dev offset len inserts = .ok vma ∧ vma.buf = slot) ↔
      offset.toNat % pageSize = 0 ∧ len ≠ 0 ∧
      dmabufRdmaFindBuffer dev ((offset >>> 12).truncate 32) = some slot ∧
      pageAlign len.toNat ≤ (dev.buffers slot).size.toNat := by
  have hinsert : ∀ buf size, ∃ mapped, mmapInsert buf size inserts = some mapped := by
    intro buf size
    rw [mmapInsert]
    cases buf.allocType with
    | coherent => exact ⟨_, if_pos (hins 0)⟩
    | pages => exact ⟨_, if_pos (by rw [List.all_eq_true]; exact fun i _ => hins i)⟩
  rw [mmapCall]
  by_cases hreq : offset.toNat % pageSize ≠ 0 ∨ len = 0
  · rw [if_pos hreq]
    constructor
    · rintro ⟨vma, h, -⟩; cases h
    · rintro ⟨h0, hlen, -⟩
      exact hreq.elim (absurd h0) (absurd · hlen)
  · rw [if_neg hreq]
    simp only [not_or, not_not] at hreq
    obtain ⟨hoff, hlen⟩ := hreq
    rw [mmapLocked]
    cases hfind : dmabufRdmaFindBuffer dev ((offset >>> 12).truncate 32) with
    | none =>
      constructor
      · rintro ⟨vma, h, -⟩; cases h
      · rintro ⟨-, -, h, -⟩; cases h
    | some slot' =>
      by_cases hsize : pageAlign len.toNat > (dev.buffers slot').size.toNat
      · simp only [if_pos hsize]
        constructor
        · rintro ⟨vma, h, -⟩; cases h
        · rintro ⟨-, -, h, hle⟩
          cases h
          exact absurd hle (Nat.not_le.mpr hsize)
      · obtain ⟨mapped, hmapped⟩ := hinsert (dev.buffers slot') (pageAlign len.toNat)
        simp only [if_neg hsize, hmapped]
        constructor
        · rintro ⟨vma, h, rfl⟩
          cases h
          exact ⟨hoff, hlen, rfl, Nat.not_lt.mp hsize⟩
        · rintro ⟨-, -, h, -⟩
          cases h
          exact ⟨_, rfl, rfl⟩

theorem mmapCall_error_iff : (∃ e, mmapCall dev offset len inserts = .error e) ↔
    ¬ ∃ vma, mmapCall dev offset len inserts = .ok vma := by
  cases mmapCall dev offset len inserts with
  | error e => exact ⟨fun _ ⟨_, h⟩ => (by cases h), fun _ => ⟨e, rfl⟩⟩
  | ok vma => exact ⟨fun ⟨_, h⟩ => (by cases h), fun h => absurd ⟨vma, rfl⟩ h⟩

theorem roundTrips_iff (hins : ∀ i, inserts i = true) {slot : Fin maxBuffers}
    (hb : MmapBacked (dev.buffers slot)) :
    RoundTrips dev slot inserts ↔
      dmabufRdmaFindBuffer dev (dev.buffers slot).id = some slot ∧
        (dev.buffers slot).size.toNat % pageSize = 0 := by
  have halign : (mmapOffset (dev.buffers slot).id).toNat % pageSize = 0 := by
    rw [mmapOffset_toNat]; exact Nat.mul_mod_left _ _
  constructor
  · rintro ⟨offset, len, vma, hinfo, hmmap, hslot, -, -⟩
    rw [getMmapInfo] at hinfo
    split at hinfo
    · cases hinfo
    · rename_i slot' hfind
      cases hinfo
      have hid := (findBuffer_some hfind).2
      obtain ⟨-, -, hfind', hle⟩ := (mmapCall_ok_iff hins).mp ⟨vma, hmmap, hslot⟩
      rw [mmapOffset_decode, hid] at hfind'
      rw [hfind] at hfind'
      cases hfind'
      exact ⟨hfind, pageAlign_le_iff.mp hle⟩
  · rintro ⟨hfind, hsize⟩
    have hinfo : getMmapInfo dev (dev.buffers slot).id =
        .ok (mmapOffset (dev.buffers slot).id, (dev.buffers slot).size) := by
      rw [getMmapInfo, hfind]
    have hne : (dev.buffers slot).size ≠ 0 := fun h0 => hb.size (by rw [h0]; rfl)
    obtain ⟨vma, hmmap, hslot⟩ := (mmapCall_ok_iff hins).mpr
      ⟨halign, hne, by rw [mmapOffset_decode]; exact hfind, pageAlign_le_iff.mpr hsize⟩
    refine ⟨_, _, vma, hinfo, hmmap, hslot, hb.mappedFrames hsize, ?_⟩
    rw [DmaplaneBuffer.frames, List.all_map, List.all_eq_true]
    intro i hi
    exact hb.frame_isSome (List.mem_range.mp hi)

theorem strayRefused_iff (hins : ∀ i, inserts i = true) :
    StrayRefused dev offset len inserts ↔
      (offset >>> 12).toNat < 2 ^ 32 ∨ offset.toNat % pageSize ≠ 0 ∨ len = 0 ∨
      ∀ slot, dmabufRdmaFindBuffer dev ((offset >>> 12).truncate 32) = some slot →
        (dev.buffers slot).size.toNat < pageAlign len.toNat := by
  have hok : (∃ vma, mmapCall dev offset len inserts = .ok vma) ↔ ∃ slot,
      offset.toNat % pageSize = 0 ∧ len ≠ 0 ∧
      dmabufRdmaFindBuffer dev ((offset >>> 12).truncate 32) = some slot ∧
      pageAlign len.toNat ≤ (dev.buffers slot).size.toNat :=
    ⟨fun ⟨vma, h⟩ => ⟨vma.buf, (mmapCall_ok_iff hins).mp ⟨vma, h, rfl⟩⟩,
      fun ⟨_, h⟩ => let ⟨vma, hv, _⟩ := (mmapCall_ok_iff hins).mpr h; ⟨vma, hv⟩⟩
  rw [StrayRefused, mmapCall_error_iff, hok]
  constructor
  · intro h
    by_cases hlow : (offset >>> 12).toNat < 2 ^ 32
    · exact .inl hlow
    · -- from `2^32` on a page offset encodes no id
      have hrefused := h (fun slot _ heq => hlow (by
        have hlt := (dev.buffers slot).id.isLt
        rw [heq, BitVec.toNat_setWidth]
        exact Nat.lt_of_le_of_lt (Nat.mod_le _ _) hlt))
      by_cases hoff : offset.toNat % pageSize = 0
      · by_cases hlen : len = 0
        · exact .inr (.inr (.inl hlen))
        · refine .inr (.inr (.inr fun slot hfind => ?_))
          by_contra hle
          exact hrefused ⟨slot, hoff, hlen, hfind, Nat.not_lt.mp hle⟩
      · exact .inr (.inl hoff)
  · rintro hcond hstray ⟨slot, hoff, hlen, hfind, hle⟩
    rcases hcond with hlow | hoff' | hlen' | hlong
    · obtain ⟨hin, hid⟩ := findBuffer_some hfind
      exact hstray slot hin (by rw [hid]; exact pgoff_encodes hlow)
    · exact hoff' hoff
    · exact hlen hlen'
    · exact absurd hle (Nat.not_le.mpr (hlong slot hfind))

end Mmap

def oneNode : AllocEnv :=
  { maxNumNodes := 1, nodeOnline := fun _ => true, coherent := none, pageArray := true
    page := fun _ => some 0, vmap := some 0xffffc90000000000 }

def pagesOf (size : BitVec 64) : DmaplaneBufParams :=
  { bufId := 0, allocType := 1, size := size, numaNode := numaAny, actualNumaNode := 0 }

/-- The table after CREATE_BUFFER of `size` bytes. -/
def tableOf (size : BitVec 64) : BufTable :=
  createPublish (createFill oneNode .pages (pagesOf size) bufTableInit .empty).2.1 0

end Dmaplane
