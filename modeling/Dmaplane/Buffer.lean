import Dmaplane.Lib.Heap
import Dmaplane.Lib.Handle
import Dmaplane.Channel

/-!
# Dmaplane.Buffer

The host buffers of `driver/dmabuf_rdma.c`: CREATE_BUFFER, DESTROY_BUFFER and the lookup by
handle, as functions on the buffer table and on the heap of the kernel's allocators.

CREATE_BUFFER is cut where it becomes visible: `createFill` is the section under `buf_lock` up to
the last allocation, `createPublish` the rest. DESTROY_BUFFER is cut between its checks
(`destroyCheck`) and the release of the memory (`destroyFree`). A pointer carries the block of the
heap it points into beside its address, so a pointer to freed memory is recognisable.
-/

namespace Dmaplane

/-- `DMAPLANE_MAX_BUFFERS`. -/
abbrev maxBuffers : Nat := 64

/-- `DMAPLANE_MAX_BUF_SIZE`. -/
abbrev maxBufSize : Nat := 2 ^ 30

/-- `PAGE_SIZE`. -/
abbrev pageSize : Nat := 4096

/-- `DMAPLANE_NUMA_ANY`. -/
abbrev numaAny : Int := -1

/-- `DMAPLANE_BUF_TYPE_*`. -/
inductive BufType where
  | coherent | pages
  deriving DecidableEq, Repr

structure Ptr where
  block : Nat
  addr : BitVec 64
  deriving DecidableEq, Repr

/-- A `struct page` with the node `page_to_nid` reads from it. -/
structure Page where
  block : Nat
  node : Int
  deriving DecidableEq, Repr

/-- The `kvcalloc`ed array of page pointers. -/
structure PageArray where
  block : Nat
  pages : List Page
  deriving DecidableEq, Repr

structure DmaplaneBuffer where
  id : BitVec 32
  allocType : BufType
  size : BitVec 64
  inUse : Bool
  vaddr : Option Ptr
  dmaHandle : BitVec 64
  pages : Option PageArray
  nrPages : Nat
  mmapCount : BitVec 32
  dmabufExported : Bool
  /-- The dma-buf object that wraps the buffer. -/
  dmabuf : Option Nat
  numaNode : Int
  actualNumaNode : Int
  deriving DecidableEq

/-- `memset(buf, 0, sizeof(*buf))`. -/
def bufferZero : DmaplaneBuffer :=
  { id := 0, allocType := .coherent, size := 0, inUse := false, vaddr := none, dmaHandle := 0
    pages := none, nrPages := 0, mmapCount := 0, dmabufExported := false, dmabuf := none
    numaNode := 0, actualNumaNode := 0 }

structure BufStats where
  buffersCreated : BitVec 64
  buffersDestroyed : BitVec 64
  numaLocalAllocs : BitVec 64
  numaRemoteAllocs : BitVec 64
  numaAnonAllocs : BitVec 64
  dmabufsExported : BitVec 64
  dmabufsReleased : BitVec 64
  deriving DecidableEq

structure BufTable where
  buffers : Fin maxBuffers → DmaplaneBuffer
  nextBufId : BitVec 32
  stats : BufStats

def BufTable.setBuffer (dev : BufTable) (slot : Fin maxBuffers) (buf : DmaplaneBuffer) :
    BufTable :=
  { dev with buffers := Function.update dev.buffers slot buf }

/-- The table `dmaplane_init` leaves. -/
def bufTableInit : BufTable :=
  { buffers := fun _ => bufferZero, nextBufId := 1
    stats := { buffersCreated := 0, buffersDestroyed := 0, numaLocalAllocs := 0,
               numaRemoteAllocs := 0, numaAnonAllocs := 0, dmabufsExported := 0,
               dmabufsReleased := 0 } }

structure DmaplaneBufParams where
  bufId : BitVec 32
  allocType : BitVec 32
  size : BitVec 64
  numaNode : Int
  actualNumaNode : Int
  deriving DecidableEq

/-- What the kernel's allocators answer to one CREATE_BUFFER. -/
structure AllocEnv where
  maxNumNodes : Int
  nodeOnline : Int → Bool
  /-- Address, DMA handle and node of the coherent block. -/
  coherent : Option (BitVec 64 × BitVec 64 × Int)
  pageArray : Bool
  /-- The node of the `i`-th page, `none` when `alloc_pages_node` fails. -/
  page : Nat → Option Int
  vmap : Option (BitVec 64)

/-- A kernel mapping of `size` bytes is not at NULL and ends below the top of the address space,
where the `ERR_PTR` values are. -/
def MapsAt (size : Nat) : Option (BitVec 64) → Prop
  | some addr => addr ≠ 0 ∧ addr.toNat + size < 2 ^ 64
  | none => True

instance (size : Nat) : (addr : Option (BitVec 64)) → Decidable (MapsAt size addr)
  | some _ => inferInstanceAs (Decidable (_ ∧ _))
  | none => isTrue trivial

def AllocEnv.Fits (env : AllocEnv) (size : Nat) : Prop :=
  MapsAt size (env.coherent.map (·.1)) ∧ MapsAt size env.vmap

instance (env : AllocEnv) (size : Nat) : Decidable (env.Fits size) :=
  inferInstanceAs (Decidable (_ ∧ _))

def divRoundUp (n d : Nat) : Nat := (n + d - 1) / d

/-! ## CREATE_BUFFER -/

/-- The checks before `buf_lock`; the result is the decoded allocation type. -/
def createValidate (env : AllocEnv) (params : DmaplaneBufParams) : Except Errno BufType :=
  if params.size.toNat = 0 ∨ params.size.toNat > maxBufSize then .error .EINVAL
  else
    match params.allocType.toNat with
    | 0 | 1 =>
      if params.numaNode ≠ numaAny ∧
          (params.numaNode < 0 ∨ params.numaNode ≥ env.maxNumNodes ∨
            !env.nodeOnline params.numaNode) then .error .EINVAL
      else .ok (if params.allocType.toNat = 0 then .coherent else .pages)
    | _ => .error .EINVAL

/-- The `alloc_pages_node` loop for pages `0 .. n-1`; a failure frees the pages it has. -/
def allocPages (page : Nat → Option Int) : Nat → Heap → Option (List Page) × Heap
  | 0, h => (some [], h)
  | n + 1, h =>
    match allocPages page n h with
    | (none, h) => (none, h)
    | (some pages, h) =>
      match page n with
      | none => (none, h.freeAll (pages.map (·.block)).reverse)
      | some node =>
        let (block, h) := h.alloc
        (some (pages ++ [⟨block, node⟩]), h)

/-- `dev->next_buf_id` after an id has been taken from it. -/
def BufTable.takeId (dev : BufTable) : BufTable := { dev with nextBufId := Handle.nextId dev.nextBufId }

def BufTable.countNuma (dev : BufTable) (target : Int) (isLocal : Bool) : BufTable :=
  { dev with
    stats :=
      if target = numaAny then
        { dev.stats with numaAnonAllocs := dev.stats.numaAnonAllocs + 1 }
      else if isLocal then
        { dev.stats with numaLocalAllocs := dev.stats.numaLocalAllocs + 1 }
      else { dev.stats with numaRemoteAllocs := dev.stats.numaRemoteAllocs + 1 } }

/-- `page_to_nid(buf->pages[0])`. -/
def firstNode (pages : List Page) : Int := (pages.head?.map (·.node)).getD (-1)

/-- The node reported for page-backed memory: the target when at least half of the pages are on
it, else the node of page 0. -/
def majorityNode (target : Int) (pages : List Page) : Int :=
  if target = numaAny then firstNode pages
  else
    let localCount := (pages.filter (·.node = target)).length
    let remoteCount := (pages.filter (·.node ≠ target)).length
    if localCount ≥ remoteCount then target else firstNode pages

/-- The linear scan for a free slot. -/
def BufTable.freeSlot (dev : BufTable) : Option (Fin maxBuffers) :=
  (List.finRange maxBuffers).find? fun i => !(dev.buffers i).inUse

/-- `dmabuf_rdma_create_buffer` under `buf_lock`, up to the last allocation. A failure after the
slot was found has consumed an id and leaves the slot not in use. -/
def createFill (env : AllocEnv) (allocType : BufType) (params : DmaplaneBufParams)
    (dev : BufTable) (h : Heap) : Except Errno (Fin maxBuffers) × BufTable × Heap :=
  match dev.freeSlot with
  | none => (.error .ENOMEM, dev, h)
  | some slot =>
    let buf := { bufferZero with
      id := dev.nextBufId, allocType := allocType, size := params.size, numaNode := params.numaNode }
    let dev := dev.takeId
    match allocType with
    | .coherent =>
      match env.coherent with
      | none => (.error .ENOMEM, dev.setBuffer slot buf, h)
      | some (addr, dmaHandle, node) =>
        let (block, h) := h.alloc
        let buf := { buf with
          vaddr := some ⟨block, addr⟩, dmaHandle := dmaHandle, actualNumaNode := node }
        (.ok slot,
          (dev.setBuffer slot buf).countNuma params.numaNode (node = params.numaNode), h)
    | .pages =>
      let nrPages := divRoundUp params.size.toNat pageSize
      if !env.pageArray then (.error .ENOMEM, dev.setBuffer slot buf, h)
      else
        let (array, h) := h.alloc
        match allocPages env.page nrPages h with
        | (none, h) => (.error .ENOMEM, dev.setBuffer slot buf, h.free array)
        | (some pages, h) =>
          let buf := { buf with
            nrPages := nrPages, actualNumaNode := majorityNode params.numaNode pages }
          let allLocal := pages.all (·.node = params.numaNode)
          match env.vmap with
          | none =>
            (.error .ENOMEM, (dev.setBuffer slot buf).countNuma params.numaNode allLocal,
              h.freeAll (pages.map (·.block) ++ [array]))
          | some addr =>
            let (block, h) := h.alloc
            let buf := { buf with pages := some ⟨array, pages⟩, vaddr := some ⟨block, addr⟩ }
            (.ok slot, (dev.setBuffer slot buf).countNuma params.numaNode allLocal, h)

/-- The rest of the section: the buffer becomes visible. -/
def createPublish (dev : BufTable) (slot : Fin maxBuffers) : BufTable :=
  let dev := dev.setBuffer slot { dev.buffers slot with inUse := true, mmapCount := 0 }
  { dev with stats := { dev.stats with buffersCreated := dev.stats.buffersCreated + 1 } }

/-! ## Lookup and DESTROY_BUFFER -/

def dmabufRdmaFindBuffer (dev : BufTable) (bufId : BitVec 32) : Option (Fin maxBuffers) :=
  (List.finRange maxBuffers).find? fun i => (dev.buffers i).inUse && (dev.buffers i).id == bufId

/-- `atomic_read(&buf->mmap_count) > 0`: the counter is a signed 32-bit integer. -/
def DmaplaneBuffer.mapped (buf : DmaplaneBuffer) : Bool := (0 : Int) < buf.mmapCount.toInt

def destroyCheck (dev : BufTable) (bufId : BitVec 32) : Except Errno (Fin maxBuffers) :=
  match dmabufRdmaFindBuffer dev bufId with
  | none => .error .ENOENT
  | some slot =>
    if (dev.buffers slot).mapped then .error .EBUSY
    else if (dev.buffers slot).dmabufExported then .error .EBUSY
    else .ok slot

/-- The blocks of a buffer, in the order in which DESTROY_BUFFER frees them. -/
def DmaplaneBuffer.blocks (buf : DmaplaneBuffer) : List Nat :=
  match buf.allocType with
  | .coherent => (buf.vaddr.map (·.block)).toList
  | .pages =>
    (buf.vaddr.map (·.block)).toList ++
      match buf.pages with
      | some array => array.pages.map (·.block) ++ [array.block]
      | none => []

def destroyFree (dev : BufTable) (h : Heap) (slot : Fin maxBuffers) : BufTable × Heap :=
  let buf := dev.buffers slot
  let dev := dev.setBuffer slot { buf with inUse := false }
  ({ dev with stats := { dev.stats with buffersDestroyed := dev.stats.buffersDestroyed + 1 } },
    h.freeAll buf.blocks)

/-! ## What the sections do -/

@[simp] theorem setBuffer_self {dev : BufTable} {slot : Fin maxBuffers} {buf : DmaplaneBuffer} :
    (dev.setBuffer slot buf).buffers slot = buf := Function.update_self ..

@[simp] theorem setBuffer_of_ne {dev : BufTable} {slot i : Fin maxBuffers} {buf : DmaplaneBuffer}
    (h : i ≠ slot) : (dev.setBuffer slot buf).buffers i = dev.buffers i :=
  Function.update_of_ne h ..

@[simp] theorem setBuffer_nextBufId {dev : BufTable} {slot : Fin maxBuffers}
    {buf : DmaplaneBuffer} : (dev.setBuffer slot buf).nextBufId = dev.nextBufId := rfl

@[simp] theorem countNuma_buffers {dev : BufTable} {target : Int} {isLocal : Bool} :
    (dev.countNuma target isLocal).buffers = dev.buffers := rfl

@[simp] theorem countNuma_nextBufId {dev : BufTable} {target : Int} {isLocal : Bool} :
    (dev.countNuma target isLocal).nextBufId = dev.nextBufId := rfl

theorem freeSlot_some {dev : BufTable} {slot : Fin maxBuffers} (h : dev.freeSlot = some slot) :
    (dev.buffers slot).inUse = false := by
  unfold BufTable.freeSlot at h
  have hp := List.find?_some h
  simpa using hp

theorem allocPages_some {page : Nat → Option Int} {n : Nat} {h h' : Heap} {pages : List Page}
    (ha : allocPages page n h = (some pages, h')) :
    pages.length = n ∧ h.Alloced h' (pages.map (·.block)) := by
  induction n generalizing h' pages with
  | zero => cases ha; exact ⟨rfl, .refl h⟩
  | succ n ih =>
    simp only [allocPages] at ha
    split at ha
    · cases ha
    · rename_i pages₁ h₁ hpages
      split at ha
      · cases ha
      · cases ha
        obtain ⟨hlen, hall⟩ := ih hpages
        refine ⟨by simp [hlen], ?_⟩
        rw [List.map_append]
        exact hall.trans (Heap.alloced_alloc h₁)

theorem allocPages_none {page : Nat → Option Int} {n : Nat} {h h' : Heap}
    (ha : allocPages page n h = (none, h')) : h.Alloced h' [] := by
  induction n generalizing h' with
  | zero => cases ha
  | succ n ih =>
    simp only [allocPages] at ha
    split at ha
    · rename_i hpages; cases ha; exact ih hpages
    · rename_i pages₁ h₁ hpages
      split at ha
      · cases ha
        exact (allocPages_some hpages).2.freeAll (List.reverse_perm _)
      · cases ha

/-- The slot as CREATE_BUFFER has it before the first allocation. -/
def bufferNew (dev : BufTable) (allocType : BufType) (params : DmaplaneBufParams) :
    DmaplaneBuffer :=
  { bufferZero with
    id := dev.nextBufId, allocType := allocType, size := params.size, numaNode := params.numaNode }

/-- The ways through `createFill`, each with what its branches have established. -/
inductive CreateFlow (env : AllocEnv) (params : DmaplaneBufParams) (dev : BufTable) (h : Heap) :
    BufType → Except Errno (Fin maxBuffers) × BufTable × Heap → Prop where
  | noSlot {type : BufType} : dev.freeSlot = none →
      CreateFlow env params dev h type (.error .ENOMEM, dev, h)
  | coherentFailed {slot : Fin maxBuffers} : dev.freeSlot = some slot → env.coherent = none →
      CreateFlow env params dev h .coherent
        (.error .ENOMEM, dev.takeId.setBuffer slot (bufferNew dev .coherent params), h)
  | coherent {slot : Fin maxBuffers} {addr dmaHandle : BitVec 64} {node : Int} :
      dev.freeSlot = some slot → env.coherent = some (addr, dmaHandle, node) →
      CreateFlow env params dev h .coherent
        (.ok slot,
          (dev.takeId.setBuffer slot { bufferNew dev .coherent params with
            vaddr := some ⟨h.alloc.1, addr⟩, dmaHandle := dmaHandle
            actualNumaNode := node }).countNuma params.numaNode (node = params.numaNode),
          h.alloc.2)
  | arrayFailed {slot : Fin maxBuffers} : dev.freeSlot = some slot → env.pageArray = false →
      CreateFlow env params dev h .pages
        (.error .ENOMEM, dev.takeId.setBuffer slot (bufferNew dev .pages params), h)
  | pageFailed {slot : Fin maxBuffers} {h' : Heap} : dev.freeSlot = some slot →
      env.pageArray = true →
      allocPages env.page (divRoundUp params.size.toNat pageSize) h.alloc.2 = (none, h') →
      CreateFlow env params dev h .pages
        (.error .ENOMEM, dev.takeId.setBuffer slot (bufferNew dev .pages params),
          h'.free h.alloc.1)
  | vmapFailed {slot : Fin maxBuffers} {pages : List Page} {h' : Heap} :
      dev.freeSlot = some slot → env.pageArray = true →
      allocPages env.page (divRoundUp params.size.toNat pageSize) h.alloc.2 = (some pages, h') →
      env.vmap = none →
      CreateFlow env params dev h .pages
        (.error .ENOMEM,
          (dev.takeId.setBuffer slot { bufferNew dev .pages params with
            nrPages := divRoundUp params.size.toNat pageSize
            actualNumaNode := majorityNode params.numaNode pages }).countNuma params.numaNode
              (pages.all (·.node = params.numaNode)),
          h'.freeAll (pages.map (·.block) ++ [h.alloc.1]))
  | pages {slot : Fin maxBuffers} {pages : List Page} {h' : Heap} {addr : BitVec 64} :
      dev.freeSlot = some slot → env.pageArray = true →
      allocPages env.page (divRoundUp params.size.toNat pageSize) h.alloc.2 = (some pages, h') →
      env.vmap = some addr →
      CreateFlow env params dev h .pages
        (.ok slot,
          (dev.takeId.setBuffer slot { bufferNew dev .pages params with
            nrPages := divRoundUp params.size.toNat pageSize
            actualNumaNode := majorityNode params.numaNode pages
            pages := some ⟨h.alloc.1, pages⟩
            vaddr := some ⟨h'.alloc.1, addr⟩ }).countNuma params.numaNode
              (pages.all (·.node = params.numaNode)),
          h'.alloc.2)

theorem createFill_flow (env : AllocEnv) (type : BufType) (params : DmaplaneBufParams)
    (dev : BufTable) (h : Heap) :
    CreateFlow env params dev h type (createFill env type params dev h) := by
  cases hslot : dev.freeSlot with
  | none => simp only [createFill, hslot]; exact .noSlot hslot
  | some slot =>
    simp only [createFill, hslot]
    cases type with
    | coherent =>
      cases henv : env.coherent with
      | none => exact .coherentFailed hslot henv
      | some block => exact .coherent hslot henv
    | pages =>
      cases harr : env.pageArray with
      | false => exact .arrayFailed hslot harr
      | true =>
        simp only [Bool.not_true, Bool.false_eq_true, if_false]
        split
        · rename_i h' hpages; exact .pageFailed hslot harr hpages
        · rename_i pages h' hpages
          split
          · rename_i henv; exact .vmapFailed hslot harr hpages henv
          · rename_i addr henv; exact .pages hslot harr hpages henv

/-- The buffer that a successful `createFill` leaves in its slot. -/
structure Filled (type : BufType) (params : DmaplaneBufParams) (bufId : BitVec 32)
    (buf : DmaplaneBuffer) : Prop where
  inUse : buf.inUse = false
  id : buf.id = bufId
  allocType : buf.allocType = type
  size : buf.size = params.size
  exported : buf.dmabufExported = false
  vaddr : ∃ p, buf.vaddr = some p ∧ p.addr ≠ 0 ∧ p.addr.toNat + params.size.toNat < 2 ^ 64
  pages : type = .pages → ∃ array, buf.pages = some array ∧
    array.pages.length = buf.nrPages ∧ buf.nrPages = divRoundUp params.size.toNat pageSize

/-- All slots but `slot` and the dma-buf counters are as before; an id has been taken. -/
structure SameBut (dev dev' : BufTable) (slot : Fin maxBuffers) : Prop where
  buffers : ∀ i, i ≠ slot → dev'.buffers i = dev.buffers i
  nextBufId : dev'.nextBufId = Handle.nextId dev.nextBufId
  exported : dev'.stats.dmabufsExported = dev.stats.dmabufsExported
  released : dev'.stats.dmabufsReleased = dev.stats.dmabufsReleased

theorem sameBut_setBuffer (dev : BufTable) (slot : Fin maxBuffers) (buf : DmaplaneBuffer) :
    SameBut dev (dev.takeId.setBuffer slot buf) slot :=
  ⟨fun _ h => setBuffer_of_ne h, rfl, rfl, rfl⟩

theorem SameBut.countNuma {dev dev' : BufTable} {slot : Fin maxBuffers} (h : SameBut dev dev' slot)
    (target : Int) (isLocal : Bool) : SameBut dev (dev'.countNuma target isLocal) slot := by
  refine ⟨h.buffers, h.nextBufId, ?_, ?_⟩
  · rw [← h.exported, BufTable.countNuma]
    split
    · rfl
    · split <;> rfl
  · rw [← h.released, BufTable.countNuma]
    split
    · rfl
    · split <;> rfl

/-- A successful `createFill` has taken a free slot and allocated what the buffer there holds. -/
theorem createFill_alloced {env : AllocEnv} {allocType : BufType} {params : DmaplaneBufParams}
    {dev dev' : BufTable} {h h' : Heap} {slot : Fin maxBuffers}
    (hc : createFill env allocType params dev h = (.ok slot, dev', h')) :
    (dev.buffers slot).inUse = false ∧ SameBut dev dev' slot ∧
      h.Alloced h' (dev'.buffers slot).blocks := by
  have hflow := createFill_flow env allocType params dev h
  rw [hc] at hflow
  cases hflow with
  | coherent hslot henv =>
    refine ⟨freeSlot_some hslot, (sameBut_setBuffer dev slot _).countNuma _ _, ?_⟩
    rw [countNuma_buffers, setBuffer_self]
    exact Heap.alloced_alloc h
  | @pages _ pages h₂ _ hslot harr hpages henv =>
    refine ⟨freeSlot_some hslot, (sameBut_setBuffer dev slot _).countNuma _ _, ?_⟩
    rw [countNuma_buffers, setBuffer_self]
    have hmem := ((Heap.alloced_alloc h).trans (allocPages_some hpages).2).trans
      (Heap.alloced_alloc h₂)
    refine hmem.perm ?_
    refine List.perm_append_comm.trans (List.Perm.append_left _ ?_)
    exact List.perm_append_comm

theorem createFill_ok {env : AllocEnv} {allocType : BufType} {params : DmaplaneBufParams}
    {dev dev' : BufTable} {h h' : Heap} {slot : Fin maxBuffers}
    (hfits : env.Fits params.size.toNat)
    (hc : createFill env allocType params dev h = (.ok slot, dev', h')) :
    (dev.buffers slot).inUse = false ∧ SameBut dev dev' slot ∧
      Filled allocType params dev.nextBufId (dev'.buffers slot) ∧
      h.Alloced h' (dev'.buffers slot).blocks := by
  obtain ⟨hfree, hsame, hall⟩ := createFill_alloced hc
  refine ⟨hfree, hsame, ?_, hall⟩
  have hflow := createFill_flow env allocType params dev h
  rw [hc] at hflow
  cases hflow with
  | coherent hslot henv =>
    rw [countNuma_buffers, setBuffer_self]
    refine ⟨rfl, rfl, rfl, rfl, rfl, ⟨_, rfl, by simpa [MapsAt, henv] using hfits.1⟩, ?_⟩
    intro hty; cases hty
  | pages hslot harr hpages henv =>
    rw [countNuma_buffers, setBuffer_self]
    exact ⟨rfl, rfl, rfl, rfl, rfl, ⟨_, rfl, by simpa [MapsAt, henv] using hfits.2⟩,
      fun _ => ⟨_, rfl, (allocPages_some hpages).1, rfl⟩⟩

theorem createFill_error {env : AllocEnv} {allocType : BufType} {params : DmaplaneBufParams}
    {dev dev' : BufTable} {h h' : Heap} {e : Errno}
    (hc : createFill env allocType params dev h = (.error e, dev', h')) :
    h.Alloced h' [] ∧ (dev' = dev ∨ ∃ slot, (dev.buffers slot).inUse = false ∧
      SameBut dev dev' slot ∧ (dev'.buffers slot).inUse = false ∧
      (dev'.buffers slot).dmabufExported = false) := by
  have hflow := createFill_flow env allocType params dev h
  rw [hc] at hflow
  cases hflow with
  | noSlot => exact ⟨.refl h, .inl rfl⟩
  | coherentFailed hslot | arrayFailed hslot =>
    refine ⟨.refl h, .inr ⟨_, freeSlot_some hslot, sameBut_setBuffer dev _ _, ?_⟩⟩
    rw [setBuffer_self]; exact ⟨rfl, rfl⟩
  | pageFailed hslot harr hpages =>
    refine ⟨?_, .inr ⟨_, freeSlot_some hslot, sameBut_setBuffer dev _ _,
      by rw [setBuffer_self]; exact ⟨rfl, rfl⟩⟩⟩
    -- the array is freed after the pages of the failed loop
    have hall := (Heap.alloced_alloc h).trans (allocPages_none hpages)
    exact hall.freeAll (List.Perm.refl [h.alloc.1])
  | vmapFailed hslot harr hpages =>
    refine ⟨?_, .inr ⟨_, freeSlot_some hslot, (sameBut_setBuffer dev _ _).countNuma _ _,
      by rw [countNuma_buffers, setBuffer_self]; exact ⟨rfl, rfl⟩⟩⟩
    exact ((Heap.alloced_alloc h).trans (allocPages_some hpages).2).freeAll
      List.perm_append_comm

theorem findBuffer_some {dev : BufTable} {bufId : BitVec 32} {slot : Fin maxBuffers}
    (h : dmabufRdmaFindBuffer dev bufId = some slot) :
    (dev.buffers slot).inUse = true ∧ (dev.buffers slot).id = bufId := by
  unfold dmabufRdmaFindBuffer at h
  have hp := List.find?_some h
  simpa using hp

theorem destroyCheck_ok {dev : BufTable} {bufId : BitVec 32} {slot : Fin maxBuffers}
    (h : destroyCheck dev bufId = .ok slot) :
    (dev.buffers slot).inUse = true ∧ (dev.buffers slot).id = bufId ∧
      (dev.buffers slot).mapped = false ∧ (dev.buffers slot).dmabufExported = false := by
  simp only [destroyCheck] at h
  split at h
  · cases h
  · rename_i slot' hfind
    split at h
    · cases h
    · rename_i hm
      split at h
      · cases h
      · rename_i he; cases h
        obtain ⟨hin, hid⟩ := findBuffer_some hfind
        exact ⟨hin, hid, by simpa using hm, by simpa using he⟩

end Dmaplane
