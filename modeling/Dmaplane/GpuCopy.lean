import Dmaplane.Lib.Paged
import Dmaplane.GpuCalls

/-!
# Dmaplane.GpuCopy

The bytes that GPU_DMA_TO_HOST and GPU_DMA_FROM_HOST move: the loops `gpu_bar_memcpy_fromio` and
`gpu_bar_memcpy_toio` of `driver/gpu_p2p.c`, which walk the separately mapped 64 KB BAR pages.

Both loops make the same iterations, `barChunks`; a copy is a fold over them. An access outside
the mapped pages or outside the host memory is `none`.

* `barChunks_steps`: the invariant of the walk. The chunk at `pos` lies in the page of
  `offset + pos`, ends at the end of that page or of the copy, and the walk goes on behind it.
* `memcpyToio_flat`, `memcpyFromio_flat`: on an interval of the pages the two loops are one flat
  copy.
-/

namespace Dmaplane

open Paged

/-! ## The loops -/

/-- `bar_pages`, with the bytes behind each pointer. `num_pages` is an `int`. -/
structure BarPages where
  pages : List (List (BitVec 8))
  full : ∀ page ∈ pages, page.length = gpuPageSize
  count : pages.length < 2 ^ 31

namespace BarPages

/-- The bytes of the buffer in the order of its pages. -/
def flat (bar : BarPages) : List (BitVec 8) := bar.pages.flatten

theorem flat_length (bar : BarPages) : bar.flat.length = bar.pages.length * gpuPageSize :=
  length_flatten bar.full

theorem flat_lt (bar : BarPages) : bar.flat.length < 2 ^ 31 * gpuPageSize := by
  have hcount := bar.count
  rw [bar.flat_length]
  simp only [gpuPageSize]
  omega

def read (bar : BarPages) (pageIdx : Int) (pageOff len : Nat) : Option (List (BitVec 8)) :=
  if h : 0 ≤ pageIdx ∧ pageIdx.toNat < bar.pages.length ∧ pageOff + len ≤ gpuPageSize then
    some (slice bar.pages[pageIdx.toNat] pageOff len)
  else none

def write (bar : BarPages) (pageIdx : Int) (pageOff : Nat) (src : List (BitVec 8)) :
    Option BarPages :=
  if h : 0 ≤ pageIdx ∧ pageIdx.toNat < bar.pages.length ∧
      pageOff + src.length ≤ gpuPageSize then
    some
      { pages := bar.pages.set pageIdx.toNat
          (splice bar.pages[pageIdx.toNat] pageOff src)
        full := by
          intro page hp
          rcases List.mem_or_eq_of_mem_set hp with hp | rfl
          · exact bar.full page hp
          · have hold := bar.full _ (List.getElem_mem h.2.1)
            rw [splice_length (by rw [hold]; exact h.2.2), hold]
        count := by rw [List.length_set]; exact bar.count }
  else none

end BarPages

/-- One iteration of the loops. -/
structure BarChunk where
  pageIdx : Int
  pageOff : BitVec 64
  pos : BitVec 64
  len : BitVec 64
  deriving DecidableEq, Repr

/-- `DMAPLANE_GPU_PAGE_SIZE` as the `u64` of the loops. -/
abbrev gpuPageBytes : BitVec 64 := 65536

/-- The clamped `chunk` of an iteration with `remaining` bytes to go. -/
def chunkLen (pageOff remaining : BitVec 64) : BitVec 64 :=
  if gpuPageBytes - pageOff > remaining then remaining else gpuPageBytes - pageOff

theorem pageOff_lt (a : BitVec 64) : (a % gpuPageBytes).toNat < gpuPageSize := by
  rw [BitVec.toNat_umod]
  exact Nat.mod_lt _ (by decide)

theorem chunkLen_toNat {pageOff : BitVec 64} (remaining : BitVec 64)
    (h : pageOff.toNat < gpuPageSize) :
    (chunkLen pageOff remaining).toNat = min remaining.toNat (gpuPageSize - pageOff.toNat) := by
  have hsub : (gpuPageBytes - pageOff).toNat = gpuPageSize - pageOff.toNat := by
    rw [BitVec.toNat_sub_of_le (by rw [BitVec.le_def]; exact Nat.le_of_lt h)]; rfl
  simp only [chunkLen, gt_iff_lt, BitVec.lt_def, hsub]
  split <;> omega

/-- The body of `while (remaining > 0)` at `pos`. All sums are of `u64`; the page index is narrowed
to an `int`. -/
def barChunk (offset remaining pos : BitVec 64) : BarChunk :=
  { pageIdx := (((offset + pos) / gpuPageBytes).setWidth 32).toInt
    pageOff := (offset + pos) % gpuPageBytes
    pos := pos
    len := chunkLen ((offset + pos) % gpuPageBytes) remaining }

section Chunk

variable (offset remaining pos : BitVec 64)

@[simp] theorem barChunk_pos : (barChunk offset remaining pos).pos = pos := rfl

theorem barChunk_pageOff :
    (barChunk offset remaining pos).pageOff.toNat = (offset + pos).toNat % gpuPageSize :=
  BitVec.toNat_umod

theorem barChunk_len : (barChunk offset remaining pos).len.toNat =
    min remaining.toNat (gpuPageSize - (offset + pos).toNat % gpuPageSize) := by
  have hlen := chunkLen_toNat remaining (pageOff_lt (offset + pos))
  have hoff : ((offset + pos) % gpuPageBytes).toNat = (offset + pos).toNat % gpuPageSize :=
    BitVec.toNat_umod
  simp only [barChunk]
  rw [hlen, hoff]

theorem barChunk_len_pos (h : remaining ≠ 0) : 0 < (barChunk offset remaining pos).len.toNat := by
  have hr : remaining.toNat ≠ 0 := fun h0 => h (BitVec.eq_of_toNat_eq h0)
  have hlen := barChunk_len offset remaining pos
  simp only [gpuPageSize] at hlen
  omega

theorem barChunk_remaining : (remaining - (barChunk offset remaining pos).len).toNat =
    remaining.toNat - (barChunk offset remaining pos).len.toNat :=
  BitVec.toNat_sub_of_le (by
    have hlen := barChunk_len offset remaining pos
    rw [BitVec.le_def]
    omega)

end Chunk

/-- The iterations of the loop from `pos` on. -/
def barChunks (offset remaining pos : BitVec 64) : List BarChunk :=
  if _h : remaining = 0 then []
  else
    let c := barChunk offset remaining pos
    c :: barChunks offset (remaining - c.len) (pos + c.len)
termination_by remaining.toNat
decreasing_by
  have hpos := barChunk_len_pos offset remaining pos _h
  have hlen := barChunk_len offset remaining pos
  rw [barChunk_remaining]
  omega

/-- `memcpy_fromio(host_dst + pos, bar_pages[page_idx] + page_off, chunk)`. -/
def fromioChunk (bar : BarPages) (hostDst : List (BitVec 8)) (c : BarChunk) :
    Option (List (BitVec 8)) :=
  if c.pos.toNat + c.len.toNat ≤ hostDst.length then
    (bar.read c.pageIdx c.pageOff.toNat c.len.toNat).map (splice hostDst c.pos.toNat)
  else none

/-- `memcpy_toio(bar_pages[page_idx] + page_off, host_src + pos, chunk)`. -/
def toioChunk (hostSrc : List (BitVec 8)) (bar : BarPages) (c : BarChunk) : Option BarPages :=
  if c.pos.toNat + c.len.toNat ≤ hostSrc.length then
    bar.write c.pageIdx c.pageOff.toNat (slice hostSrc c.pos.toNat c.len.toNat)
  else none

/-- `hostDst` is the memory from `host_dst` on. -/
def gpuBarMemcpyFromio (hostDst : List (BitVec 8)) (bar : BarPages) (offset size : BitVec 64) :
    Option (List (BitVec 8)) :=
  (barChunks offset size 0).foldlM (fromioChunk bar) hostDst

def gpuBarMemcpyToio (bar : BarPages) (offset : BitVec 64) (hostSrc : List (BitVec 8))
    (size : BitVec 64) : Option BarPages :=
  (barChunks offset size 0).foldlM (toioChunk hostSrc) bar

/-! ## The walk -/

theorem barChunks_zero (offset pos : BitVec 64) : barChunks offset 0 pos = [] := by
  rw [barChunks, dif_pos rfl]

theorem barChunks_cons {offset remaining pos : BitVec 64} (h : remaining ≠ 0) :
    barChunks offset remaining pos =
      barChunk offset remaining pos ::
        barChunks offset (remaining - (barChunk offset remaining pos).len)
          (pos + (barChunk offset remaining pos).len) := by
  rw [barChunks, dif_neg h]

/-- No chunk leaves its page, whatever the interval. -/
theorem barChunks_inPage (offset remaining pos : BitVec 64) :
    ∀ c ∈ barChunks offset remaining pos,
      0 < c.len.toNat ∧ c.pageOff.toNat + c.len.toNat ≤ gpuPageSize := by
  induction remaining, pos using barChunks.induct offset with
  | case1 pos => rw [barChunks_zero]; intro c hc; cases hc
  | case2 remaining pos h c₀ ih =>
    rw [barChunks_cons h]
    intro c hc
    rcases List.mem_cons.mp hc with rfl | hc
    · have hoff := barChunk_pageOff offset remaining pos
      have hlen := barChunk_len offset remaining pos
      refine ⟨barChunk_len_pos _ _ _ h, ?_⟩
      simp only [gpuPageSize] at hoff hlen ⊢
      omega
    · exact ih c hc

/-- One iteration for each page the interval touches. -/
theorem barChunks_length (offset remaining pos : BitVec 64) :
    (barChunks offset remaining pos).length * gpuPageSize <
      (offset + pos).toNat % gpuPageSize + remaining.toNat + gpuPageSize := by
  induction remaining, pos using barChunks.induct offset with
  | case1 pos =>
    rw [barChunks_zero]
    simp only [List.length_nil, gpuPageSize]
    omega
  | case2 remaining pos h c₀ ih =>
    have hr : remaining.toNat ≠ 0 := fun h0 => h (BitVec.eq_of_toNat_eq h0)
    have hmod : (offset + pos).toNat % gpuPageSize < gpuPageSize := Nat.mod_lt _ (by decide)
    have hlen : c₀.len.toNat = min remaining.toNat
      (gpuPageSize - (offset + pos).toNat % gpuPageSize) := barChunk_len _ _ _
    have hrem : (remaining - c₀.len).toNat = remaining.toNat - c₀.len.toNat := barChunk_remaining _ _ _
    have hcons : barChunks offset remaining pos =
        c₀ :: barChunks offset (remaining - c₀.len) (pos + c₀.len) := barChunks_cons h
    clear_value c₀
    rw [hcons, List.length_cons, Nat.succ_mul]
    by_cases hlast : remaining.toNat ≤ gpuPageSize - (offset + pos).toNat % gpuPageSize
    · -- the last chunk: nothing remains
      have hzero : (remaining - c₀.len).toNat = 0 := by rw [hrem]; omega
      have h0 : remaining - c₀.len = 0 := BitVec.eq_of_toNat_eq hzero
      have hnil : barChunks offset (remaining - c₀.len) (pos + c₀.len) = [] := by
        rw [h0, barChunks_zero]
      rw [hnil, List.length_nil, Nat.zero_mul]
      omega
    · -- the chunk runs to the end of the page, the next one starts a page
      have hnext : (offset + (pos + c₀.len)).toNat % gpuPageSize = 0 := by
        rw [← BitVec.add_assoc, BitVec.toNat_add,
          Nat.mod_mod_of_dvd _ (by decide : gpuPageSize ∣ 2 ^ 64)]
        simp only [gpuPageSize] at hlen hlast ⊢
        omega
      rw [hnext, hrem, Nat.zero_add] at ih
      refine (Nat.add_lt_add_right ih gpuPageSize).trans_eq ?_
      omega

section Fits

variable {offset remaining pos : BitVec 64}

/-- What one iteration of a walk inside the pages of an `int` count does: the chunk is in page
`(offset + pos) / 64K`, and neither sum wraps. -/
structure ChunkAt (offset remaining pos : BitVec 64) (c : BarChunk) : Prop where
  idx : c.pageIdx = ((offset.toNat + pos.toNat) / gpuPageSize : Nat)
  off : c.pageOff.toNat = (offset.toNat + pos.toNat) % gpuPageSize
  len_pos : 0 < c.len.toNat
  le : c.len.toNat ≤ remaining.toNat
  inPage : (offset.toNat + pos.toNat) % gpuPageSize + c.len.toNat ≤ gpuPageSize
  nextPos : (pos + c.len).toNat = pos.toNat + c.len.toNat
  nextRemaining : (remaining - c.len).toNat = remaining.toNat - c.len.toNat

theorem chunk_at (hfit : offset.toNat + pos.toNat + remaining.toNat < 2 ^ 31 * gpuPageSize)
    (h : remaining ≠ 0) : ChunkAt offset remaining pos (barChunk offset remaining pos) := by
  simp only [gpuPageSize] at hfit
  have hadd : (offset + pos).toNat = offset.toNat + pos.toNat := by
    rw [BitVec.toNat_add]
    exact Nat.mod_eq_of_lt (by omega)
  have hlen := barChunk_len offset remaining pos
  rw [hadd] at hlen
  have hpage : (offset.toNat + pos.toNat) / gpuPageSize < 2 ^ 31 := by
    simp only [gpuPageSize]; omega
  have hdiv : (((offset + pos) / gpuPageBytes).setWidth 32).toNat =
      (offset.toNat + pos.toNat) / gpuPageSize := by
    rw [BitVec.toNat_setWidth, BitVec.toNat_udiv, hadd]
    exact Nat.mod_eq_of_lt (by show _ / gpuPageSize < _; omega)
  exact
    { idx := by
        show (((offset + pos) / gpuPageBytes).setWidth 32).toInt = _
        rw [BitVec.toInt_eq_toNat_of_lt (by rw [hdiv]; omega), hdiv]
      off := by rw [barChunk_pageOff, hadd]
      len_pos := barChunk_len_pos _ _ _ h
      le := by omega
      inPage := by simp only [gpuPageSize] at hlen ⊢; omega
      nextPos := by
        rw [BitVec.toNat_add]
        exact Nat.mod_eq_of_lt (by omega)
      nextRemaining := barChunk_remaining _ _ _ }

/-- Every iteration of a walk inside `[0, total)` stays inside it. -/
theorem barChunks_steps (offset remaining pos : BitVec 64) (total : Nat)
    (htotal : total < 2 ^ 31 * gpuPageSize) :
    offset.toNat + pos.toNat + remaining.toNat ≤ total →
      ∀ c ∈ barChunks offset remaining pos,
        c.pageIdx = ((offset.toNat + c.pos.toNat) / gpuPageSize : Nat) ∧
          offset.toNat + c.pos.toNat + c.len.toNat ≤ total := by
  induction remaining, pos using barChunks.induct offset with
  | case1 pos => rw [barChunks_zero]; intro _ c hc; cases hc
  | case2 remaining pos h c₀ ih =>
    intro hfit
    have hat : ChunkAt offset remaining pos c₀ := chunk_at (by omega) h
    have hle := hat.le
    rw [barChunks_cons h]
    intro c hc
    rcases List.mem_cons.mp hc with rfl | hc
    · exact ⟨hat.idx, by rw [barChunk_pos]; show _ + c₀.len.toNat ≤ total; omega⟩
    · exact ih (by rw [hat.nextPos, hat.nextRemaining]; omega) c hc

end Fits

/-! ## The copies -/

theorem BarPages.read_flat {bar : BarPages} {a len : Nat} (hlen : 0 < len)
    (hin : a % gpuPageSize + len ≤ gpuPageSize) (hfit : a + len ≤ bar.flat.length) :
    bar.read (a / gpuPageSize : Nat) (a % gpuPageSize) len = some (slice bar.flat a len) := by
  rw [bar.flat_length] at hfit
  have hi : a / gpuPageSize < bar.pages.length := Nat.div_lt_of_lt_mul (by
    rw [Nat.mul_comm]; omega)
  have ha : a / gpuPageSize * gpuPageSize + a % gpuPageSize = a := Nat.div_add_mod' a gpuPageSize
  rw [BarPages.read, dif_pos ⟨Int.natCast_nonneg _, hi, hin⟩]
  have hs := slice_flatten (n := len) bar.full hi hin
  rw [ha] at hs
  exact congrArg some hs.symm

theorem BarPages.write_flat (bar : BarPages) (a : Nat) (src : List (BitVec 8))
    (hlen : 0 < src.length) (hin : a % gpuPageSize + src.length ≤ gpuPageSize)
    (hfit : a + src.length ≤ bar.flat.length) :
    ∃ bar', bar.write (a / gpuPageSize : Nat) (a % gpuPageSize) src = some bar' ∧
      bar'.flat = splice bar.flat a src := by
  rw [bar.flat_length] at hfit
  have hi : a / gpuPageSize < bar.pages.length := Nat.div_lt_of_lt_mul (by
    rw [Nat.mul_comm]; omega)
  have ha : a / gpuPageSize * gpuPageSize + a % gpuPageSize = a := Nat.div_add_mod' a gpuPageSize
  refine ⟨_, by rw [BarPages.write, dif_pos ⟨Int.natCast_nonneg _, hi, hin⟩], ?_⟩
  have hs := splice_flatten bar.full hi hin
  rw [ha] at hs
  exact hs

/-- The to-copy from `pos` on, by the walk: each chunk extends the interval already written. -/
theorem memcpyToio_flat (hostSrc : List (BitVec 8)) (offset remaining pos : BitVec 64) :
    ∀ bar : BarPages, offset.toNat + pos.toNat + remaining.toNat ≤ bar.flat.length →
      pos.toNat + remaining.toNat ≤ hostSrc.length →
      ∃ bar', (barChunks offset remaining pos).foldlM (toioChunk hostSrc) bar = some bar' ∧
        bar'.flat = splice bar.flat (offset.toNat + pos.toNat)
          (slice hostSrc pos.toNat remaining.toNat) := by
  induction remaining, pos using barChunks.induct offset with
  | case1 pos =>
    intro bar _ _
    rw [barChunks_zero]
    exact ⟨bar, rfl, by simp⟩
  | case2 remaining pos h c ih =>
    intro bar hfit hsrc
    have hat : ChunkAt offset remaining pos c :=
      chunk_at (by have := bar.flat_lt; omega) h
    have hcpos : c.pos = pos := rfl
    have hcons : barChunks offset remaining pos =
        c :: barChunks offset (remaining - c.len) (pos + c.len) := barChunks_cons h
    clear_value c
    have hpos := hat.len_pos
    have hle := hat.le
    have hnext := hat.nextPos
    have hrest := hat.nextRemaining
    let src := slice hostSrc pos.toNat c.len.toNat
    have hslen : src.length = c.len.toNat := slice_length (by omega)
    obtain ⟨bar₁, hw, hflat₁⟩ := bar.write_flat (offset.toNat + pos.toNat) src (by omega)
      (by rw [hslen]; exact hat.inPage) (by omega)
    have hlen₁ : bar₁.flat.length = bar.flat.length := by
      rw [hflat₁, splice_length (by omega)]
    have hstep : toioChunk hostSrc bar c = some bar₁ := by
      rw [toioChunk, if_pos (by rw [hcpos]; omega), hat.idx, hat.off, hcpos]
      exact hw
    obtain ⟨bar', hrun, hflat'⟩ := ih bar₁ (by omega) (by omega)
    refine ⟨bar', ?_, ?_⟩
    · rw [hcons, List.foldlM_cons, hstep, Option.bind_eq_bind, Option.bind_some]
      exact hrun
    · -- the chunk and the rest of the source are adjacent
      have hjoin : splice (splice bar.flat (offset.toNat + pos.toNat) src)
          (offset.toNat + pos.toNat + c.len.toNat)
          (slice hostSrc (pos.toNat + c.len.toNat) (remaining.toNat - c.len.toNat)) =
          splice bar.flat (offset.toNat + pos.toNat) (slice hostSrc pos.toNat remaining.toNat) := by
        have hrlen : (slice hostSrc (pos.toNat + c.len.toNat)
            (remaining.toNat - c.len.toNat)).length = remaining.toNat - c.len.toNat :=
          slice_length (by omega)
        rw [← hslen, splice_append (by rw [hslen, hrlen]; omega), hslen, slice_append,
          Nat.add_sub_cancel' hle]
      rw [hflat', hflat₁, hnext, hrest, ← Nat.add_assoc]
      exact hjoin

/-- The from-copy from `pos` on. -/
theorem memcpyFromio_flat {bar : BarPages} (offset remaining pos : BitVec 64) :
    ∀ hostDst : List (BitVec 8), offset.toNat + pos.toNat + remaining.toNat ≤ bar.flat.length →
      pos.toNat + remaining.toNat ≤ hostDst.length →
      (barChunks offset remaining pos).foldlM (fromioChunk bar) hostDst =
        some (splice hostDst pos.toNat
          (slice bar.flat (offset.toNat + pos.toNat) remaining.toNat)) := by
  induction remaining, pos using barChunks.induct offset with
  | case1 pos =>
    intro hostDst _ _
    rw [barChunks_zero]
    simp
  | case2 remaining pos h c ih =>
    intro hostDst hfit hdst
    have hat : ChunkAt offset remaining pos c :=
      chunk_at (by have := bar.flat_lt; omega) h
    have hcpos : c.pos = pos := rfl
    have hcons : barChunks offset remaining pos =
        c :: barChunks offset (remaining - c.len) (pos + c.len) := barChunks_cons h
    clear_value c
    have hpos := hat.len_pos
    have hle := hat.le
    have hnext := hat.nextPos
    have hrest := hat.nextRemaining
    let got := slice bar.flat (offset.toNat + pos.toNat) c.len.toNat
    have hglen : got.length = c.len.toNat := slice_length (by omega)
    have hlen₁ : (splice hostDst pos.toNat got).length = hostDst.length :=
      splice_length (by omega)
    have hstep : fromioChunk bar hostDst c = some (splice hostDst pos.toNat got) := by
      rw [fromioChunk, if_pos (by rw [hcpos]; omega), hat.idx, hat.off, hcpos,
        BarPages.read_flat hpos hat.inPage (by omega), Option.map_some]
    have hjoin : splice (splice hostDst pos.toNat got) (pos.toNat + c.len.toNat)
        (slice bar.flat (offset.toNat + pos.toNat + c.len.toNat)
          (remaining.toNat - c.len.toNat)) =
        splice hostDst pos.toNat (slice bar.flat (offset.toNat + pos.toNat) remaining.toNat) := by
      have hrlen : (slice bar.flat (offset.toNat + pos.toNat + c.len.toNat)
          (remaining.toNat - c.len.toNat)).length = remaining.toNat - c.len.toNat :=
        slice_length (by omega)
      rw [← hglen, splice_append (by rw [hglen, hrlen]; omega), hglen, slice_append,
        Nat.add_sub_cancel' hle]
    have hrun := ih (splice hostDst pos.toNat got) (by omega) (by omega)
    rw [hnext, hrest, ← Nat.add_assoc, hjoin] at hrun
    rw [hcons, List.foldlM_cons, hstep, Option.bind_eq_bind, Option.bind_some]
    exact hrun

/-- **The page-walking copy is the flat copy.** On an interval of the pages the to-copy puts the
source in place of the interval and changes no other byte, the from-copy delivers exactly the
interval, and the one undoes the other. The walk makes one iteration for each page it touches and
never leaves a page within an iteration. -/
theorem gpu_bar_memcpy_flat (bar : BarPages) (offset size : BitVec 64)
    (hostSrc hostDst : List (BitVec 8)) (hfit : offset.toNat + size.toNat ≤ bar.flat.length)
    (hsrc : size.toNat ≤ hostSrc.length) (hdst : size.toNat ≤ hostDst.length) :
    (∃ bar', gpuBarMemcpyToio bar offset hostSrc size = some bar' ∧
      bar'.flat = splice bar.flat offset.toNat (hostSrc.take size.toNat) ∧
      bar'.flat.length = bar.flat.length ∧
      (∀ i, i < offset.toNat ∨ offset.toNat + size.toNat ≤ i → bar'.flat[i]? = bar.flat[i]?) ∧
      gpuBarMemcpyFromio hostDst bar' offset size =
        some (splice hostDst 0 (hostSrc.take size.toNat))) ∧
    gpuBarMemcpyFromio hostDst bar offset size =
      some (splice hostDst 0 (slice bar.flat offset.toNat size.toNat)) ∧
    (∀ c ∈ barChunks offset size 0, 0 < c.len.toNat ∧
      c.pageOff.toNat + c.len.toNat ≤ gpuPageSize) ∧
    (barChunks offset size 0).length * gpuPageSize <
      offset.toNat % gpuPageSize + size.toNat + gpuPageSize := by
  have hfrom : ∀ {bar : BarPages}, offset.toNat + size.toNat ≤ bar.flat.length →
      gpuBarMemcpyFromio hostDst bar offset size =
        some (splice hostDst 0 (slice bar.flat offset.toNat size.toNat)) := fun h =>
    memcpyFromio_flat offset size 0 hostDst h (by show 0 + size.toNat ≤ _; omega)
  obtain ⟨bar', hrun, hflat⟩ := memcpyToio_flat hostSrc offset size 0 bar hfit
    (by show 0 + size.toNat ≤ _; omega)
  have hslice : slice hostSrc 0 size.toNat = hostSrc.take size.toNat := by
    rw [slice, List.drop_zero]
  have htake : (hostSrc.take size.toNat).length = size.toNat := by rw [List.length_take]; omega
  have hflat' : bar'.flat = splice bar.flat offset.toNat (hostSrc.take size.toNat) := by
    rw [← hslice]; exact hflat
  have hlen : bar'.flat.length = bar.flat.length := by rw [hflat', splice_length (by omega)]
  refine ⟨⟨bar', hrun, hflat', hlen, fun i hi => ?_, ?_⟩, hfrom hfit,
    barChunks_inPage offset size 0, ?_⟩
  · rw [hflat', splice_getElem? (by omega), if_neg (by omega)]
  · have hback := slice_splice bar.flat offset.toNat (hostSrc.take size.toNat) (by omega)
    rw [htake] at hback
    rw [hfrom (by omega), hflat', hback]
  · have h0 : offset + 0 = offset := BitVec.add_zero offset
    have h := barChunks_length offset size 0
    rwa [h0] at h

/-- Twelve bytes across the boundary of two pages. -/
def twoPages : BarPages :=
  { pages := List.replicate 2 (List.replicate gpuPageSize 0)
    full := by intro page hp; rw [List.eq_of_mem_replicate hp, List.length_replicate]
    count := by rw [List.length_replicate]; omega }

theorem gpu_bar_memcpy_flat_across : ∃ bar',
    gpuBarMemcpyToio twoPages 65530 (List.replicate 12 7) 12 = some bar' ∧
      gpuBarMemcpyFromio (List.replicate 12 0) bar' 65530 12 = some (List.replicate 12 7) := by
  have hfit : (65530#64).toNat + (12#64).toNat ≤ twoPages.flat.length := by
    rw [twoPages.flat_length]; decide
  obtain ⟨⟨bar', hto, -, -, -, hfrom⟩, -⟩ := gpu_bar_memcpy_flat twoPages 65530 12
    (List.replicate 12 7) (List.replicate 12 0) hfit (by decide) (by decide)
  exact ⟨bar', hto, hfrom.trans (by decide)⟩

/-! ## The bounds -/

/-- The interval is inside both buffers, and so is every byte the copy loop touches. The host
pointer of an iteration is `vaddr + offset + pos`. -/
structure DmaBounded (gpuBuf : DmaplaneGpuBuffer) (hostBuf : DmaplaneBuffer)
    (offset size : BitVec 64) : Prop where
  gpu : offset.toNat + size.toNat ≤ gpuBuf.size.toNat
  host : offset.toNat + size.toNat ≤ hostBuf.size.toNat
  page : ∀ c ∈ barChunks offset size 0, 0 ≤ c.pageIdx ∧ c.pageIdx < gpuBuf.numPages
  inPage : ∀ c ∈ barChunks offset size 0, c.pageOff.toNat + c.len.toNat ≤ gpuPageSize
  hostByte : ∀ c ∈ barChunks offset size 0,
    (offset + c.pos).toNat + c.len.toNat ≤ hostBuf.size.toNat

/-- `size = num_pages * 64K`, with `num_pages` an `int`. -/
def DmaplaneGpuBuffer.Paged (gpuBuf : DmaplaneGpuBuffer) : Prop :=
  gpuBuf.size.toNat = gpuBuf.numPages * gpuPageSize ∧ gpuBuf.numPages < 2 ^ 31

theorem dmaBounded_of_fits {gpuBuf : DmaplaneGpuBuffer} {hostBuf : DmaplaneBuffer}
    {offset size : BitVec 64} (hp : gpuBuf.Paged)
    (hg : offset.toNat + size.toNat ≤ gpuBuf.size.toNat)
    (hh : offset.toNat + size.toNat ≤ hostBuf.size.toNat) :
    DmaBounded gpuBuf hostBuf offset size := by
  obtain ⟨hsize, hpages⟩ := hp
  have hsteps := barChunks_steps offset size 0 (offset.toNat + size.toNat)
    (by simp only [gpuPageSize] at hsize ⊢; omega)
    (by show offset.toNat + 0 + size.toNat ≤ _; omega)
  have hin := barChunks_inPage offset size 0
  refine ⟨hg, hh, fun c hc => ?_, fun c hc => (hin c hc).2, fun c hc => ?_⟩
  · obtain ⟨hidx, hle⟩ := hsteps c hc
    have hpos := (hin c hc).1
    have hlt : (offset.toNat + c.pos.toNat) / gpuPageSize < gpuBuf.numPages :=
      Nat.div_lt_of_lt_mul (by rw [Nat.mul_comm, ← hsize]; omega)
    rw [hidx]
    exact ⟨Int.natCast_nonneg _, Int.ofNat_lt.mpr hlt⟩
  · have hle := (hsteps c hc).2
    have hadd := Nat.mod_le (offset.toNat + c.pos.toNat) (2 ^ 64)
    rw [BitVec.toNat_add]
    omega

section Check

variable {d : GpuDev} {dev : BufTable} {gpuHandle hostHandle : BitVec 32} {offset size : BitVec 64}
  {gpuBuf : DmaplaneGpuBuffer} {hostBuf : DmaplaneBuffer}

/-- With both buffers found, the checks are the two comparisons of the wrapped sum. -/
theorem gpuDmaCheck_found (hg : gpuLookup gpuHandle d = .ok (.ok gpuBuf))
    (hh : hostLookup dev hostHandle = .ok hostBuf) :
    gpuDmaCheck dev gpuHandle hostHandle offset size d = .ok (.ok ()) ↔
      (offset + size).toNat ≤ gpuBuf.size.toNat ∧ (offset + size).toNat ≤ hostBuf.size.toNat := by
  simp only [gpuDmaCheck, hg, hh, bind, Except.bind]
  generalize (offset + size).toNat = total
  by_cases h1 : total ≤ gpuBuf.size.toNat
  · rw [if_neg (Nat.not_lt.mpr h1)]
    by_cases h2 : total ≤ hostBuf.size.toNat
    · rw [if_neg (Nat.not_lt.mpr h2)]
      exact ⟨fun _ => ⟨h1, h2⟩, fun _ => rfl⟩
    · rw [if_pos (Nat.lt_of_not_le h2)]
      exact ⟨fun h => (by cases h), fun h => absurd h.2 h2⟩
  · rw [if_pos (Nat.lt_of_not_le h1)]
    exact ⟨fun h => (by cases h), fun h => absurd h.1 h1⟩

theorem gpuDmaToHost_ok : (∃ d', dmaplaneGpuDmaToHost dev gpuHandle hostHandle offset size d =
    .ok (.ok (), d')) ↔ gpuDmaCheck dev gpuHandle hostHandle offset size d = .ok (.ok ()) := by
  rw [dmaplaneGpuDmaToHost]
  rcases gpuDmaCheck dev gpuHandle hostHandle offset size d with o | e | u
  · exact ⟨fun ⟨_, h⟩ => (by cases h), fun h => (by cases h)⟩
  · exact ⟨fun ⟨_, h⟩ => (by cases h), fun h => (by cases h)⟩
  · exact ⟨fun _ => rfl, fun _ => ⟨_, rfl⟩⟩

theorem gpuDmaFromHost_ok : (∃ d', dmaplaneGpuDmaFromHost dev gpuHandle hostHandle offset size d =
    .ok (.ok (), d')) ↔ gpuDmaCheck dev gpuHandle hostHandle offset size d = .ok (.ok ()) := by
  rw [dmaplaneGpuDmaFromHost]
  rcases gpuDmaCheck dev gpuHandle hostHandle offset size d with o | e | u
  · exact ⟨fun ⟨_, h⟩ => (by cases h), fun h => (by cases h)⟩
  · exact ⟨fun ⟨_, h⟩ => (by cases h), fun h => (by cases h)⟩
  · exact ⟨fun _ => rfl, fun _ => ⟨_, rfl⟩⟩

/-- **When the checks bound the copy.** A call on two buffers it finds stays inside both exactly
when `offset + size` does not wrap or the wrapped sum is refused by one of the two sizes. -/
theorem gpu_dma_bounded_iff (hg : gpuLookup gpuHandle d = .ok (.ok gpuBuf))
    (hh : hostLookup dev hostHandle = .ok hostBuf) (hp : gpuBuf.Paged) :
    ((∃ d', dmaplaneGpuDmaToHost dev gpuHandle hostHandle offset size d = .ok (.ok (), d')) ∨
        (∃ d', dmaplaneGpuDmaFromHost dev gpuHandle hostHandle offset size d = .ok (.ok (), d')) →
      DmaBounded gpuBuf hostBuf offset size) ↔
    (offset.toNat + size.toNat < 2 ^ 64 ∨ gpuBuf.size.toNat < (offset + size).toNat ∨
      hostBuf.size.toNat < (offset + size).toNat) := by
  rw [gpuDmaToHost_ok, gpuDmaFromHost_ok, or_self, gpuDmaCheck_found hg hh]
  constructor
  · intro hbound
    by_contra hwrap
    have hin := (hbound (by omega)).gpu
    have := gpuBuf.size.isLt
    omega
  · rintro hcond ⟨h1, h2⟩
    have hadd : (offset + size).toNat = offset.toNat + size.toNat := by
      rw [BitVec.toNat_add]
      exact Nat.mod_eq_of_lt (by omega)
    exact dmaBounded_of_fits hp (by omega) (by omega)

end Check

/-! One page of VRAM pinned, one page of host memory. -/

def pinnedPage : GpuDev :=
  { dmaplaneInit ⟨true, ⟨true, true, true⟩⟩ with
    gpu := gpuPinPublish gpuTableInit 0
      { gpuBufferZero with size := BitVec.ofNat 64 gpuPageSize, numPages := 1 } }

def hostPage : BufTable :=
  bufTableInit.setBuffer 0 { bufferZero with
    id := 1, allocType := .pages, size := BitVec.ofNat 64 pageSize, inUse := true
    vaddr := some ⟨0, 0xffff888000000000⟩, nrPages := 1 }

theorem gpu_dma_bounded_page :
    (∃ d', dmaplaneGpuDmaToHost hostPage 1 1 0 4096 pinnedPage = .ok (.ok (), d')) ∧
      DmaBounded (pinnedPage.gpu.gpuBuffers 0) (hostPage.buffers 0) 0 4096 := by
  have hg : gpuLookup 1 pinnedPage = .ok (.ok (pinnedPage.gpu.gpuBuffers 0)) := rfl
  have hh : hostLookup hostPage 1 = .ok (hostPage.buffers 0) := rfl
  have hok : ∃ d', dmaplaneGpuDmaToHost hostPage 1 1 0 4096 pinnedPage = .ok (.ok (), d') :=
    ⟨_, rfl⟩
  exact ⟨hok, (gpu_dma_bounded_iff hg hh
    ⟨by decide, by decide⟩).mpr (.inl (by decide)) (.inl hok)⟩

/-- `offset = 2^64 - 4096`, `size = 8192`: the sum is 4096, the first page index is -1. -/
theorem gpu_dma_wraps : ∃ (gpuBuf : DmaplaneGpuBuffer) (hostBuf : DmaplaneBuffer),
    gpuLookup 1 pinnedPage = .ok (.ok gpuBuf) ∧ hostLookup hostPage 1 = .ok hostBuf ∧
      gpuBuf.Paged ∧
      (∃ d', dmaplaneGpuDmaToHost hostPage 1 1 (-4096) 8192 pinnedPage = .ok (.ok (), d')) ∧
      (∃ d', dmaplaneGpuDmaFromHost hostPage 1 1 (-4096) 8192 pinnedPage = .ok (.ok (), d')) ∧
      (barChunks (-4096) 8192 0).head? = some ⟨-1, 61440, 0, 4096⟩ ∧
      ¬ DmaBounded gpuBuf hostBuf (-4096) 8192 := by
  refine ⟨_, _, rfl, rfl, ⟨by decide, by decide⟩, ⟨_, rfl⟩, ⟨_, rfl⟩, ?_, fun hb => ?_⟩
  · rw [barChunks_cons (by decide)]
    decide
  · exact absurd hb.gpu (by decide)

end Dmaplane
