import Dmaplane.Lib.System
import Dmaplane.MrResources

/-!
# Dmaplane.GpuMapping

The kernel mappings of pinned VRAM: `dmaplane_gpu_pin` maps every BAR page on its own and, where
the physical pages follow each other, all of them once more as `rdma_vaddr`. The copies go through
the first, RDMA through the second.

A mapping is what `ioremap_wc` makes of a physical range, a linear image of it. The system is the
GPU table under GPU_PIN, GPU_UNPIN and NVIDIA's callback, with the page table and the mappings of
each slot beside it; `BarMapped` is what holds of every buffer in use.
-/

namespace Dmaplane

/-! ## Mappings -/

/-- A range mapped by `ioremap_wc(phys, size)`. -/
structure IoMap where
  vaddr : BitVec 64
  phys : BitVec 64
  size : Nat
  deriving DecidableEq, Repr

/-- The physical address behind `vaddr + off`. -/
def IoMap.reach (map : IoMap) (off : Nat) : Option (BitVec 64) :=
  if off < map.size then some (map.phys + BitVec.ofNat 64 off) else none

/-- The page table and the mappings of a slot. -/
structure GpuBar where
  /-- `page_table->pages[i]->physical_address`. -/
  pageTable : List (BitVec 64)
  barPages : List IoMap
  rdma : Option IoMap
  deriving DecidableEq

/-- The physical address the copies reach at byte `off`. -/
def GpuBar.pageReach (bar : GpuBar) (off : Nat) : Option (BitVec 64) :=
  bar.barPages[off / gpuPageSize]?.bind fun map => map.reach (off % gpuPageSize)

/-! ## GPU_PIN -/

/-- What NVIDIA's driver and the kernel answer to one GPU_PIN. -/
structure BarEnv where
  /-- The physical addresses of the page table's entries. -/
  getPages : Except Errno (List (BitVec 64))
  versionOk : Bool
  sgt : Bool
  kcalloc : Bool
  /-- `ioremap_wc` of page `i`. -/
  ioremapPage : Nat → Option (BitVec 64)
  /-- `ioremap_wc` of the whole range. -/
  ioremapRange : Option (BitVec 64)
  /-- What `pages[0]` reads as in a table without entries. -/
  wild : BitVec 64
  numaNode : Int

/-- The loop over the pages from `i` on; it ends at the first `ioremap_wc` that fails. -/
def mapPages (ioremapPage : Nat → Option (BitVec 64)) : Nat → List (BitVec 64) →
    Option (List IoMap)
  | _, [] => some []
  | i, phys :: rest =>
    match ioremapPage i with
    | none => none
    | some vaddr => (mapPages ioremapPage (i + 1) rest).map (⟨vaddr, phys, gpuPageSize⟩ :: ·)

namespace BarEnv

/-- `num_pages` is an `int`: from `2^31` entries on it is negative, and `kcalloc` fails. -/
def kcallocOk (env : BarEnv) (pages : List (BitVec 64)) : Bool :=
  env.kcalloc && decide (pages.length < 2 ^ 31)

def pages (env : BarEnv) : List (BitVec 64) :=
  match env.getPages with
  | .ok pages => pages
  | .error _ => []

def pinEnv (env : BarEnv) : GpuPinEnv :=
  { getPages := env.getPages, versionOk := env.versionOk, sgt := env.sgt
    barPages := env.kcallocOk env.pages
    ioremapPages := (mapPages env.ioremapPage 0 env.pages).isSome
    rdmaVaddr := env.ioremapRange, numaNode := env.numaNode }

/-- The mappings of the buffer `buf` that GPU_PIN has prepared. -/
def bar (env : BarEnv) (buf : DmaplaneGpuBuffer) : GpuBar :=
  { pageTable := env.pages
    barPages := (mapPages env.ioremapPage 0 env.pages).getD []
    rdma := buf.rdmaVaddr.map fun map => ⟨map.addr, env.pages.headD env.wild, map.size⟩ }

end BarEnv

/-! ## The system -/

structure GpuMaps where
  gpu : GpuTable
  bars : Fin maxGpuBuffers → GpuBar

inductive GpuMapsAct where
  | pin (gpuVa size : BitVec 64) (env : BarEnv)
  | unpin (handle : BitVec 32)
  /-- The callback of NVIDIA's driver. -/
  | revoke (slot : Fin maxGpuBuffers)

def GpuMaps.pin (s : GpuMaps) (gpuVa size : BitVec 64) (env : BarEnv) : GpuMaps :=
  match gpuPinPrepare s.gpu gpuVa size env.pinEnv with
  | (.error _, gpu) => { s with gpu := gpu }
  | (.ok (slot, buf), gpu) =>
    { gpu := gpuPinPublish gpu slot buf, bars := Function.update s.bars slot (env.bar buf) }

/-- GPU_UNPIN unmaps both. -/
def GpuMaps.unpin (s : GpuMaps) (handle : BitVec 32) : GpuMaps :=
  match gpuFindBuffer s.gpu handle with
  | none => s
  | some slot =>
    { gpu := (gpuUnpin s.gpu handle).2, bars := Function.update s.bars slot ⟨[], [], none⟩ }

def gpuMapsSys : Transition.Sys GpuMaps GpuMapsAct where
  init := { gpu := gpuTableInit, bars := fun _ => ⟨[], [], none⟩ }
  step := fun s a =>
    match a with
    | .pin gpuVa size env => some (s.pin gpuVa size env)
    | .unpin handle => some (s.unpin handle)
    | .revoke slot => some { s with gpu := gpuUnpinCallback s.gpu slot }

/-! ## The mappings of a buffer in use -/

/-- The pages of the table are consecutive. -/
def Consecutive (pages : List (BitVec 64)) : Prop :=
  ∀ i phys, pages[i]? = some phys →
    pages.head? = some (phys - BitVec.ofNat 64 i * BitVec.ofNat 64 gpuPageSize)

theorem contiguous_iff (pages : List (BitVec 64)) : contiguous pages = true ↔ Consecutive pages := by
  simp only [contiguous, Consecutive, List.all_eq_true, List.mem_range, beq_iff_eq]
  constructor
  · intro h i phys hi
    have hlt : i < pages.length := (List.getElem?_eq_some_iff.mp hi).1
    have heq := h i hlt
    rw [hi] at heq
    obtain ⟨p0, hp0, hadd⟩ := Option.map_eq_some_iff.mp heq.symm
    rw [hp0, ← hadd, BitVec.add_sub_cancel]
  · intro h i hi
    have hget : pages[i]? = some pages[i] := List.getElem?_eq_getElem hi
    rw [h i _ hget, hget, Option.map_some, BitVec.sub_add_cancel]

/-- What GPU_PIN establishes and nothing changes while the buffer is in use. -/
structure BarMapped (buf : DmaplaneGpuBuffer) (bar : GpuBar) : Prop where
  numPages : buf.numPages = bar.pageTable.length
  barPages : bar.barPages.map (fun map => (map.phys, map.size)) =
    bar.pageTable.map fun phys => (phys, gpuPageSize)
  rdmaVaddr : buf.rdmaVaddr = bar.rdma.map fun map => ⟨map.vaddr, map.size⟩
  consecutive : bar.rdma ≠ none → Consecutive bar.pageTable
  rdmaSize : ∀ map, bar.rdma = some map → map.size = bar.pageTable.length * gpuPageSize
  rdmaPhys : ∀ map phys, bar.rdma = some map → bar.pageTable.head? = some phys → map.phys = phys

theorem mapPages_some {ioremapPage : Nat → Option (BitVec 64)} {pages : List (BitVec 64)} :
    ∀ {i : Nat} {maps : List IoMap}, mapPages ioremapPage i pages = some maps →
      maps.map (fun map => (map.phys, map.size)) = pages.map fun phys => (phys, gpuPageSize) := by
  induction pages with
  | nil => intro i maps h; cases h; rfl
  | cons phys rest ih =>
    intro i maps h
    simp only [mapPages] at h
    split at h
    · cases h
    · obtain ⟨maps', hrest, rfl⟩ := Option.map_eq_some_iff.mp h
      rw [List.map_cons, List.map_cons, ih hrest]

/-- A pin that succeeds has taken a page table, has mapped each of its pages, and maps the whole
only if they are contiguous. -/
theorem gpuPinPrepare_mapped {gpu tab : GpuTable} {gpuVa size : BitVec 64} {env : GpuPinEnv}
    {slot : Fin maxGpuBuffers} {buf : DmaplaneGpuBuffer}
    (h : gpuPinPrepare gpu gpuVa size env = (.ok (slot, buf), tab)) :
    tab = gpu ∧ ∃ pages, env.getPages = .ok pages ∧ env.ioremapPages = true ∧
      buf.numPages = pages.length ∧
      buf.rdmaVaddr = if contiguous pages then
        env.rdmaVaddr.map fun addr => ⟨addr, pages.length * gpuPageSize⟩ else none := by
  unfold gpuPinPrepare at h
  split at h
  · cases h
  · split at h
    · cases h
    · simp only at h
      split at h
      · cases h
      · rename_i pages hpages
        split at h
        · cases h
        · split at h
          · cases h
          · rename_i hsteps
            cases h
            simp only [Bool.or_eq_true, Bool.not_eq_true', not_or, Bool.not_eq_false] at hsteps
            exact ⟨rfl, pages, hpages, hsteps.2, rfl, rfl⟩

/-- A pin that fails leaves the buffers in use alone. -/
theorem gpuPinPrepare_failed {gpu tab : GpuTable} {gpuVa size : BitVec 64} {env : GpuPinEnv}
    {e : Errno} (h : gpuPinPrepare gpu gpuVa size env = (.error e, tab)) (k : Fin maxGpuBuffers)
    (hin : (tab.gpuBuffers k).inUse = true) : tab.gpuBuffers k = gpu.gpuBuffers k := by
  have hset : ∀ (slot : Fin maxGpuBuffers) (buf : DmaplaneGpuBuffer), buf.inUse = false →
      tab = gpu.setGpuBuffer slot buf → tab.gpuBuffers k = gpu.gpuBuffers k := by
    rintro slot buf hbuf rfl
    by_cases hk : k = slot
    · subst hk
      simp [GpuTable.setGpuBuffer, hbuf] at hin
    · simp [GpuTable.setGpuBuffer, hk]
  unfold gpuPinPrepare at h
  split at h
  · cases h; rfl
  · split at h
    · cases h; rfl
    · simp only at h
      split at h
      · cases h; exact hset _ _ rfl rfl
      · split at h
        · cases h; exact hset _ _ rfl rfl
        · split at h <;> cases h
          exact hset _ _ rfl rfl

theorem bar_mapped {gpu tab : GpuTable} {gpuVa size : BitVec 64} {env : BarEnv}
    {slot : Fin maxGpuBuffers} {buf : DmaplaneGpuBuffer}
    (h : gpuPinPrepare gpu gpuVa size env.pinEnv = (.ok (slot, buf), tab)) :
    BarMapped buf (env.bar buf) := by
  obtain ⟨-, pages, hget, hpages, hnum, hrdma⟩ := gpuPinPrepare_mapped h
  have hp : env.pages = pages := by
    have : env.getPages = .ok pages := hget
    rw [BarEnv.pages, this]
  obtain ⟨maps, hmaps⟩ := Option.isSome_iff_exists.mp hpages
  -- where `rdma_vaddr` is set, the pages are contiguous and it spans them all
  have hset : ∀ map, (env.bar buf).rdma = some map → contiguous pages = true ∧
      map.size = pages.length * gpuPageSize ∧ map.phys = pages.headD env.wild := by
    intro map hmap
    obtain ⟨m, hm, rfl⟩ := Option.map_eq_some_iff.mp hmap
    rw [hrdma] at hm
    split at hm
    · rename_i hc
      obtain ⟨addr, -, rfl⟩ := Option.map_eq_some_iff.mp hm
      exact ⟨hc, rfl, by rw [hp]⟩
    · cases hm
  exact
    { numPages := by rw [hnum]; exact congrArg List.length hp.symm
      barPages := by
        show ((mapPages env.ioremapPage 0 env.pages).getD []).map _ = env.pages.map _
        rw [hmaps]
        exact mapPages_some hmaps
      rdmaVaddr := by simp [BarEnv.bar, Option.map_map, Function.comp_def]
      consecutive := by
        intro hne
        obtain ⟨map, hmap⟩ := Option.ne_none_iff_exists'.mp hne
        rw [← contiguous_iff]
        exact (congrArg contiguous hp).trans (hset map hmap).1
      rdmaSize := by
        intro map hmap
        exact (hset map hmap).2.1.trans
          (congrArg (fun l : List (BitVec 64) => l.length * gpuPageSize) hp.symm)
      rdmaPhys := by
        intro map phys hmap hhead
        have hhead' : pages.head? = some phys := by rw [← hp]; exact hhead
        rw [(hset map hmap).2.2, List.headD_eq_head?_getD, hhead', Option.getD_some] }

/-! ## Every reachable state -/

def Mapped (s : GpuMaps) : Prop :=
  ∀ k, (s.gpu.gpuBuffers k).inUse = true → BarMapped (s.gpu.gpuBuffers k) (s.bars k)

theorem mapped_pin {s : GpuMaps} (hi : Mapped s) (gpuVa size : BitVec 64) (env : BarEnv) :
    Mapped (s.pin gpuVa size env) := by
  intro k
  cases hpin : gpuPinPrepare s.gpu gpuVa size env.pinEnv with
  | mk r tab =>
    cases r with
    | error e =>
      intro hin
      simp only [GpuMaps.pin, hpin] at hin ⊢
      have hsame := gpuPinPrepare_failed hpin k hin
      rw [hsame] at hin ⊢
      exact hi k hin
    | ok p =>
      obtain ⟨slot, buf⟩ := p
      obtain ⟨rfl, -⟩ := gpuPinPrepare_mapped hpin
      have hbar := bar_mapped hpin
      simp only [GpuMaps.pin, hpin, gpuPinPublish, GpuTable.setGpuBuffer]
      by_cases hk : k = slot
      · subst hk
        intro _
        simp only [Function.update_self]
        exact ⟨hbar.numPages, hbar.barPages, hbar.rdmaVaddr, hbar.consecutive, hbar.rdmaSize,
          hbar.rdmaPhys⟩
      · simp only [Function.update_of_ne hk]
        exact hi k

theorem mapped_unpin {s : GpuMaps} (hi : Mapped s) (handle : BitVec 32) :
    Mapped (s.unpin handle) := by
  intro k
  cases hfind : gpuFindBuffer s.gpu handle with
  | none => simp only [GpuMaps.unpin, hfind]; exact hi k
  | some slot =>
    simp only [GpuMaps.unpin, hfind, gpuUnpin, GpuTable.setGpuBuffer]
    by_cases hk : k = slot
    · subst hk
      intro hin
      simp at hin
    · simp only [Function.update_of_ne hk]
      exact hi k

theorem mapped_revoke {s : GpuMaps} (hi : Mapped s) (slot : Fin maxGpuBuffers) :
    Mapped { s with gpu := gpuUnpinCallback s.gpu slot } := by
  intro k
  simp only [gpuUnpinCallback, GpuTable.setGpuBuffer]
  by_cases hk : k = slot
  · subst hk
    simp only [Function.update_self]
    intro hin
    have h := hi k hin
    exact ⟨h.numPages, h.barPages, h.rdmaVaddr, h.consecutive, h.rdmaSize, h.rdmaPhys⟩
  · simp only [Function.update_of_ne hk]
    exact hi k

theorem mapped_of_reachable {s : GpuMaps} (h : gpuMapsSys.Reachable s) : Mapped s := by
  refine h.invariant ?_ fun s a s' hi hs => ?_
  · intro k hin
    simp [gpuMapsSys, gpuTableInit, gpuBufferZero] at hin
  · cases a with
    | pin gpuVa size env => cases hs; exact mapped_pin hi gpuVa size env
    | unpin handle => cases hs; exact mapped_unpin hi handle
    | revoke slot => cases hs; exact mapped_revoke hi slot

/-! ## The two paths -/

/-- Behind byte `off` of the per-page mappings is byte `off % 64K` of page `off / 64K`. -/
theorem pageReach_eq {buf : DmaplaneGpuBuffer} {bar : GpuBar} (h : BarMapped buf bar) (off : Nat) :
    bar.pageReach off = bar.pageTable[off / gpuPageSize]?.map
      (· + BitVec.ofNat 64 (off % gpuPageSize)) := by
  have hat := congrArg (·[off / gpuPageSize]?) h.barPages
  simp only [List.getElem?_map] at hat
  rw [GpuBar.pageReach]
  cases hmap : bar.barPages[off / gpuPageSize]? with
  | none =>
    rw [hmap, Option.map_none, eq_comm, Option.map_eq_none_iff] at hat
    rw [hat]; rfl
  | some map =>
    rw [hmap, Option.map_some, eq_comm, Option.map_eq_some_iff] at hat
    obtain ⟨phys, hphys, heq⟩ := hat
    obtain ⟨rfl, hsize⟩ := Prod.mk.inj heq
    rw [hphys, Option.bind_some, Option.map_some, IoMap.reach, ← hsize,
      if_pos (Nat.mod_lt _ (by decide))]

theorem rdma_reach {buf : DmaplaneGpuBuffer} {bar : GpuBar} (h : BarMapped buf bar) {map : IoMap}
    (hmap : bar.rdma = some map) {off : Nat} (hoff : off < buf.numPages * gpuPageSize) :
    ∃ phys, map.reach off = some phys ∧ bar.pageReach off = some phys := by
  have hlen := h.numPages
  have hi : off / gpuPageSize < bar.pageTable.length := Nat.div_lt_of_lt_mul (by
    rw [Nat.mul_comm, ← hlen]; exact hoff)
  have hget : bar.pageTable[off / gpuPageSize]? = some bar.pageTable[off / gpuPageSize] :=
    List.getElem?_eq_getElem hi
  have hhead := h.consecutive (by rw [hmap]; exact Option.some_ne_none _) _ _ hget
  have hphys := h.rdmaPhys map _ hmap hhead
  refine ⟨map.phys + BitVec.ofNat 64 off, ?_, ?_⟩
  · rw [IoMap.reach, if_pos (by rw [h.rdmaSize map hmap, ← hlen]; exact hoff)]
  · have hsplit : BitVec.ofNat 64 off =
        BitVec.ofNat 64 (off / gpuPageSize) * BitVec.ofNat 64 gpuPageSize +
          BitVec.ofNat 64 (off % gpuPageSize) := by
      rw [← BitVec.ofNat_mul, ← BitVec.ofNat_add, Nat.div_add_mod']
    rw [pageReach_eq h, hget, Option.map_some, hphys, hsplit, ← BitVec.add_assoc,
      BitVec.sub_add_cancel]

/-- **The two access paths denote the same memory.** In every reachable state, for every buffer in
use: through `rdma_vaddr`, where there is one, each byte of the buffer is at the physical address
that the page walk gives it; and a buffer with a page out of line has no `rdma_vaddr`, so that
GPU_REGISTER_MR on it fails and changes nothing. -/
theorem rdma_vaddr_agrees {s : GpuMaps} (h : gpuMapsSys.Reachable s) {k : Fin maxGpuBuffers}
    (hin : (s.gpu.gpuBuffers k).inUse = true) :
    (∀ map, (s.bars k).rdma = some map →
      ∀ off, off < (s.gpu.gpuBuffers k).numPages * gpuPageSize →
        ∃ phys, map.reach off = some phys ∧ (s.bars k).pageReach off = some phys) ∧
    (∀ i phys first, (s.bars k).pageTable[i]? = some phys →
      (s.bars k).pageTable.head? = some first →
      phys ≠ first + BitVec.ofNat 64 i * BitVec.ofNat 64 gpuPageSize →
      (s.gpu.gpuBuffers k).rdmaVaddr = none ∧
      ∀ handle env mr, gpuFindBuffer s.gpu handle = some k →
        ∃ e, dmaplaneGpuRegisterMr s.gpu handle env mr = (.error e, mr)) := by
  have hbar := mapped_of_reachable h k hin
  refine ⟨fun map hmap off hoff => rdma_reach hbar hmap hoff,
    fun i phys first hget hhead hne => ?_⟩
  have hnone : (s.bars k).rdma = none := by
    by_contra hrdma
    have hcons := hbar.consecutive hrdma i phys hget
    rw [hhead, Option.some.injEq] at hcons
    exact hne (by rw [hcons, BitVec.sub_add_cancel])
  have hvaddr : (s.gpu.gpuBuffers k).rdmaVaddr = none := by rw [hbar.rdmaVaddr, hnone]; rfl
  refine ⟨hvaddr, fun handle env mr hfind => ?_⟩
  obtain ⟨e, he⟩ : ∃ e, gpuRegisterLookup mr.ctx s.gpu handle = .error e := by
    simp only [gpuRegisterLookup, hfind, hvaddr]
    split
    · exact ⟨_, rfl⟩
    · split
      · exact ⟨_, rfl⟩
      · exact ⟨_, rfl⟩
  exact ⟨e, by rw [dmaplaneGpuRegisterMr, he]⟩

/-! A pin of two pages in a row, and one of two pages apart. -/

def pinTwoPages (first second : BitVec 64) : GpuMapsAct :=
  .pin 0x7f0000000000 131072
    { getPages := .ok [first, second], versionOk := true, sgt := true, kcalloc := true
      ioremapPage := fun i => some (0xffffc90000000000 + BitVec.ofNat 64 i * 0x20000)
      ioremapRange := some 0xffffc90000100000, wild := 0, numaNode := 0 }

theorem rdma_vaddr_agrees_two : ∃ s, gpuMapsSys.Reachable s ∧
    (∃ map, (s.bars 0).rdma = some map ∧
      ∃ phys, map.reach 65540 = some phys ∧ (s.bars 0).pageReach 65540 = some phys) ∧
    (s.gpu.gpuBuffers 1).rdmaVaddr = none := by
  obtain ⟨s, hr, hin0, hin1, hnum, hrdma, hpt⟩ : ∃ s, gpuMapsSys.Reachable s ∧
      (s.gpu.gpuBuffers 0).inUse = true ∧ (s.gpu.gpuBuffers 1).inUse = true ∧
      (s.gpu.gpuBuffers 0).numPages = 2 ∧
      (s.bars 0).rdma = some ⟨0xffffc90000100000, 0xe0000000, 131072⟩ ∧
      (s.bars 1).pageTable = [0xe0100000, 0xe0200000] :=
    Transition.Sys.exists_of_exec
      [pinTwoPages 0xe0000000 0xe0010000, pinTwoPages 0xe0100000 0xe0200000] (by decide +kernel)
  refine ⟨s, hr, ⟨_, hrdma, ?_⟩, ?_⟩
  · exact (rdma_vaddr_agrees hr hin0).1 _ hrdma 65540 (by rw [hnum]; decide)
  · exact ((rdma_vaddr_agrees hr hin1).2 1 0xe0200000 0xe0100000 (by rw [hpt]; rfl)
      (by rw [hpt]; rfl) (by decide)).1

end Dmaplane
