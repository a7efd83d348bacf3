import Dmaplane.Lib.System
import Dmaplane.Buffer
import Mathlib.Data.Fintype.Card

/-!
# Dmaplane.BufferConserved

What CREATE_BUFFER and DESTROY_BUFFER leave behind, as whole calls: the memory that is still
allocated and the statistics.

* The memory that is out is that of the buffers in use, and no allocation is freed twice
  (`BufferMemory`).
* The NUMA counters are bumped before the last allocation, so a create whose `vmap` fails is
  counted (`VmapFails`); all others keep `BufferCounts`.
-/

namespace Dmaplane

/-- `dmabuf_rdma_create_buffer`; on success with the slot it has filled. -/
def dmabufRdmaCreateBuffer (env : AllocEnv) (params : DmaplaneBufParams) (dev : BufTable)
    (h : Heap) : Except Errno (Fin maxBuffers) × BufTable × Heap :=
  match createValidate env params with
  | .error e => (.error e, dev, h)
  | .ok allocType =>
    match createFill env allocType params dev h with
    | (.error e, dev, h) => (.error e, dev, h)
    | (.ok slot, dev, h) => (.ok slot, createPublish dev slot, h)

/-- `dmabuf_rdma_destroy_buffer`; on success with the slot it has freed. -/
def dmabufRdmaDestroyBuffer (dev : BufTable) (h : Heap) (bufId : BitVec 32) :
    Except Errno (Fin maxBuffers) × BufTable × Heap :=
  match destroyCheck dev bufId with
  | .error e => (.error e, dev, h)
  | .ok slot => (.ok slot, destroyFree dev h slot)

inductive BufCall where
  | create (params : DmaplaneBufParams) (env : AllocEnv)
  | destroy (bufId : BitVec 32)

/-- The table and the allocators. -/
structure BufCallSt where
  dev : BufTable
  mem : Heap

def bufCallStep (s : BufCallSt) : BufCall → Option BufCallSt
  | .create params env =>
    let r := dmabufRdmaCreateBuffer env params s.dev s.mem
    some ⟨r.2.1, r.2.2⟩
  | .destroy bufId =>
    let r := dmabufRdmaDestroyBuffer s.dev s.mem bufId
    some ⟨r.2.1, r.2.2⟩

/-- Runs of CREATE_BUFFER and DESTROY_BUFFER. -/
def bufCallSys : Transition.Sys BufCallSt BufCall where
  init := { dev := bufTableInit, mem := .empty }
  step := bufCallStep

/-! ## Outcomes of a call -/

section Calls

variable {env : AllocEnv} {params : DmaplaneBufParams} {dev dev' : BufTable} {h h' : Heap}
  {slot : Fin maxBuffers} {e : Errno}

/-- Every slot holds what it held, but for `slot`, which was free. -/
structure Taken (dev dev' : BufTable) (slot : Fin maxBuffers) : Prop where
  free : (dev.buffers slot).inUse = false
  others : ∀ i, i ≠ slot → dev'.buffers i = dev.buffers i

theorem createBuffer_ok (hc : dmabufRdmaCreateBuffer env params dev h = (.ok slot, dev', h')) :
    ∃ type dev₁, createValidate env params = .ok type ∧
      createFill env type params dev h = (.ok slot, dev₁, h') ∧ dev' = createPublish dev₁ slot := by
  simp only [dmabufRdmaCreateBuffer] at hc
  split at hc
  · cases hc
  · rename_i type hv
    split at hc
    · cases hc
    · rename_i slot₁ dev₁ h₁ hfill
      cases hc
      exact ⟨type, dev₁, hv, hfill, rfl⟩

theorem createBuffer_error (hc : dmabufRdmaCreateBuffer env params dev h = (.error e, dev', h')) :
    (createValidate env params = .error e ∧ dev' = dev ∧ h' = h) ∨
      ∃ type, createValidate env params = .ok type ∧
        createFill env type params dev h = (.error e, dev', h') := by
  simp only [dmabufRdmaCreateBuffer] at hc
  split at hc
  · rename_i hv; cases hc; exact .inl ⟨hv, rfl, rfl⟩
  · rename_i type hv
    split at hc
    · rename_i e₁ dev₁ h₁ hfill
      cases hc
      exact .inr ⟨type, hv, hfill⟩
    · cases hc

theorem destroyBuffer_ok {bufId : BitVec 32}
    (hd : dmabufRdmaDestroyBuffer dev h bufId = (.ok slot, dev', h')) :
    (dev.buffers slot).inUse = true ∧ dev' = (destroyFree dev h slot).1 ∧
      h' = (destroyFree dev h slot).2 := by
  simp only [dmabufRdmaDestroyBuffer] at hd
  split at hd
  · cases hd
  · rename_i slot₁ hcheck
    cases hd
    exact ⟨(destroyCheck_ok hcheck).1, rfl, rfl⟩

theorem destroyBuffer_error {bufId : BitVec 32}
    (hd : dmabufRdmaDestroyBuffer dev h bufId = (.error e, dev', h')) : dev' = dev ∧ h' = h := by
  simp only [dmabufRdmaDestroyBuffer] at hd
  split at hd
  · cases hd; exact ⟨rfl, rfl⟩
  · cases hd

end Calls

/-! ## Memory -/

/-- What a buffer holds: one coherent block, or a mapping, `ceil(size / PAGE_SIZE)` pages and the
array of the pages. -/
structure HoldsMemory (buf : DmaplaneBuffer) : Prop where
  coherent : buf.allocType = .coherent → ∃ p, buf.vaddr = some p ∧ buf.blocks = [p.block]
  pages : buf.allocType = .pages → ∃ p array, buf.vaddr = some p ∧ buf.pages = some array ∧
    array.pages.length = buf.nrPages ∧ buf.nrPages = divRoundUp buf.size.toNat pageSize ∧
    buf.blocks = p.block :: (array.pages.map (·.block) ++ [array.block])

/-- The blocks of the slots in use. -/
def BufTable.own (dev : BufTable) (i : Fin maxBuffers) : List Nat :=
  if (dev.buffers i).inUse then (dev.buffers i).blocks else []

/-- The memory that is out is that of the buffers in use, each block in one of them and once. -/
structure BufferMemory (s : BufCallSt) : Prop where
  exact : s.mem.Exact s.dev.own
  holds : ∀ i, (s.dev.buffers i).inUse = true → HoldsMemory (s.dev.buffers i)

section Memory

variable {env : AllocEnv} {params : DmaplaneBufParams} {dev dev' : BufTable} {h h' : Heap}
  {slot : Fin maxBuffers} {type : BufType}

theorem createFill_holds (hc : createFill env type params dev h = (.ok slot, dev', h')) :
    HoldsMemory (dev'.buffers slot) := by
  have hflow := createFill_flow env type params dev h
  rw [hc] at hflow
  cases hflow with
  | coherent hslot henv =>
    rw [countNuma_buffers, setBuffer_self]
    refine ⟨fun _ => ⟨_, rfl, rfl⟩, fun hty => ?_⟩
    cases hty
  | pages hslot harr hpages henv =>
    rw [countNuma_buffers, setBuffer_self]
    refine ⟨fun hty => ?_, fun _ => ⟨_, _, rfl, rfl, (allocPages_some hpages).1, rfl, rfl⟩⟩
    cases hty

theorem own_congr (hi : ∀ i, (dev'.buffers i).inUse = true → dev'.buffers i = dev.buffers i)
    (hin : ∀ i, (dev'.buffers i).inUse = (dev.buffers i).inUse) : dev'.own = dev.own := by
  funext i
  rw [BufTable.own, BufTable.own, ← hin i]
  split
  · rename_i h; rw [hi i h]
  · rfl

/-- A failed `createFill` leaves every slot as it was, or not in use. -/
theorem createFill_error_slots {e : Errno}
    (hc : createFill env type params dev h = (.error e, dev', h')) :
    (∀ i, (dev'.buffers i).inUse = true → dev'.buffers i = dev.buffers i) ∧
      ∀ i, (dev'.buffers i).inUse = (dev.buffers i).inUse := by
  obtain ⟨-, rfl | ⟨slot, hfree, hsame, hfree', -⟩⟩ := createFill_error hc
  · exact ⟨fun _ _ => rfl, fun _ => rfl⟩
  · constructor
    · intro i hin
      refine hsame.buffers i ?_
      rintro rfl
      rw [hfree'] at hin; cases hin
    · intro i
      by_cases hne : i = slot
      · rw [hne, hfree', hfree]
      · rw [hsame.buffers i hne]

theorem own_publish (hsame : SameBut dev dev' slot) :
    (createPublish dev' slot).own = Function.update dev.own slot (dev'.buffers slot).blocks := by
  funext i
  by_cases hne : i = slot
  · subst hne
    rw [Function.update_self]
    simp only [BufTable.own, createPublish, setBuffer_self, if_true]
    rfl
  · rw [Function.update_of_ne hne]
    simp only [BufTable.own, createPublish, setBuffer_of_ne hne, hsame.buffers i hne]

theorem own_destroyFree :
    (destroyFree dev h slot).1.own = Function.update dev.own slot [] := by
  funext i
  by_cases hne : i = slot
  · subst hne
    rw [Function.update_self]
    simp [BufTable.own, destroyFree]
  · rw [Function.update_of_ne hne]
    simp only [BufTable.own, destroyFree, setBuffer_of_ne hne]

theorem BufferMemory.create {s : BufCallSt} (hm : BufferMemory s) :
    BufferMemory ⟨(dmabufRdmaCreateBuffer env params s.dev s.mem).2.1,
      (dmabufRdmaCreateBuffer env params s.dev s.mem).2.2⟩ := by
  generalize hr : dmabufRdmaCreateBuffer env params s.dev s.mem = r
  obtain ⟨res, dev', h'⟩ := r
  cases res with
  | error e =>
    rcases createBuffer_error hr with ⟨-, rfl, rfl⟩ | ⟨type, -, hc⟩
    · exact hm
    · obtain ⟨hbuf, hin⟩ := createFill_error_slots hc
      refine ⟨?_, fun i hi => ?_⟩
      · show h'.Exact dev'.own
        rw [own_congr hbuf hin]
        exact hm.exact.alloced_nil (createFill_error hc).1
      · show HoldsMemory (dev'.buffers i)
        rw [hbuf i hi]
        exact hm.holds i (by rw [← hin i]; exact hi)
  | ok slot =>
    obtain ⟨type, dev₁, -, hc, rfl⟩ := createBuffer_ok hr
    obtain ⟨hfree, hsame, hall⟩ := createFill_alloced hc
    refine ⟨?_, fun i hi => ?_⟩
    · show h'.Exact (createPublish dev₁ slot).own
      rw [own_publish hsame]
      exact hm.exact.give (by simp [BufTable.own, hfree]) hall
    · show HoldsMemory ((createPublish dev₁ slot).buffers i)
      by_cases hne : i = slot
      · have hold := createFill_holds hc
        rw [hne, createPublish, setBuffer_self]
        exact ⟨hold.coherent, hold.pages⟩
      · have hbuf : (createPublish dev₁ slot).buffers i = s.dev.buffers i :=
          (setBuffer_of_ne hne).trans (hsame.buffers i hne)
        rw [hbuf]
        exact hm.holds i (by rw [← hbuf]; exact hi)

theorem BufferMemory.destroy {s : BufCallSt} (hm : BufferMemory s) (bufId : BitVec 32) :
    BufferMemory ⟨(dmabufRdmaDestroyBuffer s.dev s.mem bufId).2.1,
      (dmabufRdmaDestroyBuffer s.dev s.mem bufId).2.2⟩ := by
  generalize hr : dmabufRdmaDestroyBuffer s.dev s.mem bufId = r
  obtain ⟨res, dev', h'⟩ := r
  cases res with
  | error e =>
    obtain ⟨rfl, rfl⟩ := destroyBuffer_error hr
    exact hm
  | ok slot =>
    obtain ⟨hin, rfl, rfl⟩ := destroyBuffer_ok hr
    have hown : s.dev.own slot = (s.dev.buffers slot).blocks := if_pos hin
    refine ⟨?_, fun i hi => ?_⟩
    · show Heap.Exact _ (destroyFree s.dev s.mem slot).1.own
      rw [own_destroyFree]
      exact hm.exact.freeAll (List.Perm.of_eq hown.symm)
    · have hne : i ≠ slot := by
        rintro rfl
        simp [destroyFree] at hi
      have hbuf : (destroyFree s.dev s.mem slot).1.buffers i = s.dev.buffers i :=
        setBuffer_of_ne hne
      show HoldsMemory ((destroyFree s.dev s.mem slot).1.buffers i)
      rw [hbuf]
      exact hm.holds i (by rw [← hbuf]; exact hi)

theorem bufferMemory {s : BufCallSt} (hr : bufCallSys.Reachable s) : BufferMemory s := by
  refine hr.invariant ?_ fun s a s' hm hs => ?_
  · exact ⟨Heap.exact_empty, fun i hi => by cases hi⟩
  · cases a with
    | create params env => cases hs; exact hm.create
    | destroy bufId => cases hs; exact hm.destroy bufId

/-- A failed create gives back all that it has allocated, once, and leaves the slots as they were. -/
structure CreateUndone (s : BufCallSt) (dev' : BufTable) (mem' : Heap) : Prop where
  live : mem'.live = s.mem.live
  once : mem'.faults = 0
  free : ∀ i, (dev'.buffers i).inUse = (s.dev.buffers i).inUse

/-- A destroy frees the buffer's blocks, each of them once, and no other block. -/
structure Destroyed (s : BufCallSt) (slot : Fin maxBuffers) (dev' : BufTable) (mem' : Heap) :
    Prop where
  distinct : (s.dev.buffers slot).blocks.Nodup
  live : ∀ p, p ∈ mem'.live ↔ p ∈ s.mem.live ∧ p ∉ (s.dev.buffers slot).blocks
  once : (∀ p ∈ (s.dev.buffers slot).blocks, p ∈ s.mem.live) ∧ mem'.faults = 0
  free : (dev'.buffers slot).inUse = false ∧
    ∀ i, i ≠ slot → dev'.buffers i = s.dev.buffers i

theorem BufferMemory.createUndone {s : BufCallSt} (hm : BufferMemory s) {e : Errno}
    (hc : dmabufRdmaCreateBuffer env params s.dev s.mem = (.error e, dev', h')) :
    CreateUndone s dev' h' := by
  rcases createBuffer_error hc with ⟨-, rfl, rfl⟩ | ⟨type, -, hc⟩
  · exact ⟨rfl, hm.exact.faults, fun _ => rfl⟩
  · have hall := (createFill_error hc).1
    refine ⟨?_, hall.faults.trans hm.exact.faults, (createFill_error_slots hc).2⟩
    ext p
    rw [hall.mem]
    exact or_iff_left (List.not_mem_nil)

theorem BufferMemory.destroyed {s : BufCallSt} (hm : BufferMemory s) {bufId : BitVec 32}
    (hd : dmabufRdmaDestroyBuffer s.dev s.mem bufId = (.ok slot, dev', h')) :
    Destroyed s slot dev' h' := by
  obtain ⟨hin, rfl, rfl⟩ := destroyBuffer_ok hd
  have hown : s.dev.own slot = (s.dev.buffers slot).blocks := if_pos hin
  have hnd := hm.exact.nodup slot
  have hlive := hm.exact.live slot
  have hfaults := hm.exact.faults_freeAll (List.Perm.of_eq hown.symm)
  rw [hown] at hnd hlive
  refine ⟨hnd, fun p => ?_, ⟨hlive, hfaults.trans hm.exact.faults⟩, ?_, fun i hne => ?_⟩
  · simp only [destroyFree, Heap.mem_freeAll]
    exact and_comm
  · simp [destroyFree]
  · exact setBuffer_of_ne hne

end Memory

/-- **Page ownership is conserved.** After any run of creates and destroys, with any allocation
failing, what is allocated is what the buffers in use hold; a create that fails next undoes
itself, and a destroy frees its buffer. -/
theorem buffer_memory_conserved {s : BufCallSt} (hr : bufCallSys.Reachable s) :
    BufferMemory s ∧
    (∀ env params e dev' mem',
      dmabufRdmaCreateBuffer env params s.dev s.mem = (.error e, dev', mem') →
      CreateUndone s dev' mem') ∧
    ∀ bufId slot dev' mem',
      dmabufRdmaDestroyBuffer s.dev s.mem bufId = (.ok slot, dev', mem') →
      Destroyed s slot dev' mem' := by
  have hm := bufferMemory hr
  exact ⟨hm, fun _ _ _ _ _ => hm.createUndone, fun _ _ _ _ => hm.destroyed⟩

/-! ## Statistics -/

def BufTable.usedSlots (dev : BufTable) : Finset (Fin maxBuffers) :=
  Finset.univ.filter fun i => (dev.buffers i).inUse = true

/-- The creates that the three NUMA counters have counted. -/
def BufStats.numaAllocs (stats : BufStats) : BitVec 64 :=
  stats.numaLocalAllocs + stats.numaRemoteAllocs + stats.numaAnonAllocs

structure BufferCounts (dev : BufTable) : Prop where
  slots : dev.stats.buffersCreated - dev.stats.buffersDestroyed =
    BitVec.ofNat 64 dev.usedSlots.card
  numa : dev.stats.numaAllocs = dev.stats.buffersCreated

/-- CREATE_BUFFER gets its pages, and then no mapping for them. -/
def VmapFails (env : AllocEnv) (params : DmaplaneBufParams) (dev : BufTable) : Prop :=
  createValidate env params = .ok .pages ∧ dev.freeSlot ≠ none ∧ env.pageArray = true ∧
    (∀ i, i < divRoundUp params.size.toNat pageSize → env.page i ≠ none) ∧ env.vmap = none

/-- No create of the run fails at its `vmap`. -/
def MapsPages (s : BufCallSt) : BufCall → Prop
  | .create params env => ¬ VmapFails env params s.dev
  | .destroy _ => True

section Counts

variable {env : AllocEnv} {params : DmaplaneBufParams} {dev dev' : BufTable} {h h' : Heap}
  {slot : Fin maxBuffers} {type : BufType} {e : Errno}

@[simp] theorem mem_usedSlots {i : Fin maxBuffers} :
    i ∈ dev.usedSlots ↔ (dev.buffers i).inUse = true := by simp [BufTable.usedSlots]

theorem usedSlots_congr (hin : ∀ i, (dev'.buffers i).inUse = (dev.buffers i).inUse) :
    dev'.usedSlots = dev.usedSlots := by
  ext i
  rw [mem_usedSlots, mem_usedSlots, hin]

/-- The allocator that grants every page grants them all. -/
theorem allocPages_isSome {page : Nat → Option Int} {n : Nat} :
    (∀ i, i < n → page i ≠ none) ↔ ∃ pages h', allocPages page n h = (some pages, h') := by
  induction n with
  | zero => exact iff_of_true (fun i hi => absurd hi (Nat.not_lt_zero i)) ⟨_, _, rfl⟩
  | succ n ih =>
    constructor
    · intro hall
      obtain ⟨pages, h', hpages⟩ := ih.mp fun i hi => hall i (Nat.lt_succ_of_lt hi)
      obtain ⟨node, hnode⟩ := Option.ne_none_iff_exists'.mp (hall n (Nat.lt_succ_self n))
      simp only [allocPages, hpages, hnode]
      exact ⟨_, _, rfl⟩
    · rintro ⟨pages, h', hpages⟩ i hi
      simp only [allocPages] at hpages
      split at hpages
      · cases hpages
      · rename_i pages₁ h₁ hfirst
        split at hpages
        · cases hpages
        · rename_i node hnode
          rcases Nat.lt_succ_iff_lt_or_eq.mp hi with hlt | rfl
          · exact ih.mpr ⟨_, _, hfirst⟩ i hlt
          · rw [hnode]; exact Option.some_ne_none node

/-- One of the three counters is bumped. -/
theorem numaAllocs_countNuma (target : Int) (isLocal : Bool) :
    (dev.countNuma target isLocal).stats.numaAllocs = dev.stats.numaAllocs + 1 ∧
      (dev.countNuma target isLocal).stats.buffersCreated = dev.stats.buffersCreated ∧
      (dev.countNuma target isLocal).stats.buffersDestroyed = dev.stats.buffersDestroyed := by
  simp only [BufTable.countNuma, BufStats.numaAllocs]
  split_ifs
  · exact ⟨by ring, rfl, rfl⟩
  · exact ⟨by ring, rfl, rfl⟩
  · exact ⟨by ring, rfl, rfl⟩

/-- A successful `createFill` is counted once. -/
theorem createFill_counted (hc : createFill env type params dev h = (.ok slot, dev', h')) :
    dev'.stats.numaAllocs = dev.stats.numaAllocs + 1 ∧
      dev'.stats.buffersCreated = dev.stats.buffersCreated ∧
      dev'.stats.buffersDestroyed = dev.stats.buffersDestroyed := by
  have hflow := createFill_flow env type params dev h
  rw [hc] at hflow
  cases hflow with
  | coherent => exact numaAllocs_countNuma _ _
  | pages => exact numaAllocs_countNuma _ _

/-- A failed one is not, unless it has failed at its `vmap`. -/
theorem createFill_uncounted (hv : createValidate env params = .ok type)
    (hc : createFill env type params dev h = (.error e, dev', h')) :
    dev'.stats = dev.stats ↔ ¬ VmapFails env params dev := by
  have hflow := createFill_flow env type params dev h
  rw [hc] at hflow
  cases hflow with
  | noSlot hslot => exact iff_of_true rfl fun hf => hf.2.1 hslot
  | coherentFailed =>
    refine iff_of_true rfl fun ⟨hty, _⟩ => ?_
    rw [hv] at hty
    cases hty
  | arrayFailed hslot harr =>
    refine iff_of_true rfl fun ⟨_, _, hgot, _⟩ => ?_
    rw [harr] at hgot
    cases hgot
  | pageFailed hslot harr hpages =>
    refine iff_of_true rfl fun ⟨_, _, _, hgot, _⟩ => ?_
    obtain ⟨pages, h₂, hall⟩ := (allocPages_isSome (h := h.alloc.2)).mp hgot
    rw [hpages] at hall
    cases hall
  | @vmapFailed slot pages _ hslot harr hpages henv =>
    have hfails : VmapFails env params dev :=
      ⟨hv, by rw [hslot]; exact Option.some_ne_none _, harr,
        allocPages_isSome.mpr ⟨_, _, hpages⟩, henv⟩
    refine iff_of_false (fun hstats => ?_) (not_not.mpr hfails)
    -- a counter has gone up
    have hsame := congrArg BufStats.numaAllocs hstats
    rw [(numaAllocs_countNuma _ _).1] at hsame
    exact absurd (add_eq_left.mp hsame) (by decide)

/-- A failed create leaves the statistics, unless it has failed at its `vmap`. -/
theorem createBuffer_uncounted
    (hc : dmabufRdmaCreateBuffer env params dev h = (.error e, dev', h')) :
    dev'.stats = dev.stats ↔ ¬ VmapFails env params dev := by
  rcases createBuffer_error hc with ⟨hv, rfl, rfl⟩ | ⟨type, hv, hfill⟩
  · refine iff_of_true rfl fun ⟨hty, _⟩ => ?_
    rw [hv] at hty
    cases hty
  · exact createFill_uncounted hv hfill

/-- One that fails there returns an error. -/
theorem createBuffer_ok_maps
    (hc : dmabufRdmaCreateBuffer env params dev h = (.ok slot, dev', h')) :
    ¬ VmapFails env params dev := by
  obtain ⟨type, dev₁, hv, hfill, -⟩ := createBuffer_ok hc
  rintro ⟨hty, -, -, -, hnone⟩
  have hflow := createFill_flow env type params dev h
  rw [hfill] at hflow
  cases hflow with
  | coherent => rw [hv] at hty; cases hty
  | pages _ _ _ hvmap => rw [hnone] at hvmap; cases hvmap

theorem usedSlots_publish (hsame : SameBut dev dev' slot) :
    (createPublish dev' slot).usedSlots = insert slot dev.usedSlots := by
  ext i
  rw [Finset.mem_insert, mem_usedSlots, mem_usedSlots]
  by_cases hne : i = slot
  · simp [createPublish, hne]
  · simp [createPublish, hne, hsame.buffers i hne]

theorem usedSlots_destroyFree : (destroyFree dev h slot).1.usedSlots = dev.usedSlots.erase slot := by
  ext i
  rw [Finset.mem_erase, mem_usedSlots, mem_usedSlots]
  by_cases hne : i = slot
  · simp [destroyFree, hne]
  · simp [destroyFree, hne]

theorem BufferCounts.create {s : BufCallSt} (hb : BufferCounts s.dev)
    (hmaps : ¬ VmapFails env params s.dev) :
    BufferCounts (dmabufRdmaCreateBuffer env params s.dev s.mem).2.1 := by
  generalize hr : dmabufRdmaCreateBuffer env params s.dev s.mem = r
  obtain ⟨res, dev', h'⟩ := r
  cases res with
  | error e =>
    have hstats := (createBuffer_uncounted hr).mpr hmaps
    have hslots : dev'.usedSlots = s.dev.usedSlots := by
      rcases createBuffer_error hr with ⟨-, rfl, -⟩ | ⟨type, -, hc⟩
      · rfl
      · exact usedSlots_congr (createFill_error_slots hc).2
    refine ⟨?_, ?_⟩
    · show dev'.stats.buffersCreated - dev'.stats.buffersDestroyed = _
      rw [hstats, hslots]
      exact hb.slots
    · show dev'.stats.numaAllocs = dev'.stats.buffersCreated
      rw [hstats]
      exact hb.numa
  | ok slot =>
    obtain ⟨type, dev₁, -, hc, rfl⟩ := createBuffer_ok hr
    obtain ⟨hfree, hsame, -⟩ := createFill_alloced hc
    obtain ⟨hnuma, hcreated, hdestroyed⟩ := createFill_counted hc
    have hnew : slot ∉ s.dev.usedSlots := by rw [mem_usedSlots, hfree]; exact Bool.false_ne_true
    refine ⟨?_, ?_⟩
    · show dev₁.stats.buffersCreated + 1 - dev₁.stats.buffersDestroyed = _
      rw [usedSlots_publish hsame, Finset.card_insert_of_notMem hnew, BitVec.ofNat_add,
        ← hb.slots, hcreated, hdestroyed]
      show _ = _ + (1 : BitVec 64)
      ring
    · show dev₁.stats.numaAllocs = dev₁.stats.buffersCreated + 1
      rw [hnuma, hcreated, hb.numa]

theorem BufferCounts.destroy {s : BufCallSt} (hb : BufferCounts s.dev) (bufId : BitVec 32) :
    BufferCounts (dmabufRdmaDestroyBuffer s.dev s.mem bufId).2.1 := by
  generalize hr : dmabufRdmaDestroyBuffer s.dev s.mem bufId = r
  obtain ⟨res, dev', h'⟩ := r
  cases res with
  | error e =>
    obtain ⟨rfl, rfl⟩ := destroyBuffer_error hr
    exact hb
  | ok slot =>
    obtain ⟨hin, rfl, rfl⟩ := destroyBuffer_ok hr
    have hcard := Finset.card_erase_add_one (mem_usedSlots.mpr hin)
    refine ⟨?_, hb.numa⟩
    have hslots := hb.slots
    rw [← hcard, BitVec.ofNat_add] at hslots
    show s.dev.stats.buffersCreated - (s.dev.stats.buffersDestroyed + 1) =
      BitVec.ofNat 64 (destroyFree s.dev s.mem slot).1.usedSlots.card
    rw [usedSlots_destroyFree, ← sub_sub, hslots]
    exact add_sub_cancel_right _ (1 : BitVec 64)

end Counts

theorem bufferCounts {s : BufCallSt} (hr : bufCallSys.ReachableWith MapsPages s) :
    BufferCounts s.dev := by
  refine hr.invariant (I := fun s => BufferCounts s.dev) ⟨?_, rfl⟩ fun s a s' hb hok hs => ?_
  · have hnone : bufTableInit.usedSlots = ∅ := by
      rw [Finset.eq_empty_iff_forall_notMem]
      intro i hi
      cases mem_usedSlots.mp hi
    show (0 : BitVec 64) - 0 = BitVec.ofNat 64 bufTableInit.usedSlots.card
    rw [hnone]
    rfl
  · cases a with
    | create params env => cases hs; exact hb.create hok
    | destroy bufId => cases hs; exact hb.destroy bufId

/-- After a call the counts are right, and a create that fails has left the counters. -/
structure CallCounted (s : BufCallSt) (a : BufCall) (s' : BufCallSt) : Prop where
  counts : BufferCounts s'.dev
  failed : ∀ params env e, a = .create params env →
    (dmabufRdmaCreateBuffer env params s.dev s.mem).1 = .error e → s'.dev.stats = s.dev.stats

/-- **The buffer statistics.** In a run none of whose creates fails at its `vmap`, the counts are
right after every call; the next call keeps them so exactly if it is not such a create either. -/
theorem buffer_counts_iff {s s' : BufCallSt} (hr : bufCallSys.ReachableWith MapsPages s)
    {a : BufCall} (hs : bufCallStep s a = some s') :
    BufferCounts s.dev ∧ (CallCounted s a s' ↔ MapsPages s a) := by
  have hb := bufferCounts hr
  refine ⟨hb, ?_⟩
  cases a with
  | create params env =>
    cases hs
    generalize hres : dmabufRdmaCreateBuffer env params s.dev s.mem = r
    obtain ⟨res, dev', h'⟩ := r
    constructor
    · intro hcounted
      cases res with
      | ok slot => exact createBuffer_ok_maps hres
      | error e =>
        exact (createBuffer_uncounted hres).mp (hcounted.failed params env e rfl (by rw [hres]))
    · intro hmaps
      have hcounts := hb.create hmaps
      rw [hres] at hcounts
      refine ⟨hcounts, fun params' env' e h hfail => ?_⟩
      cases h
      rw [hres] at hfail
      cases hfail
      exact (createBuffer_uncounted hres).mpr hmaps
  | destroy bufId =>
    cases hs
    refine iff_of_true ⟨hb.destroy bufId, fun params env e h => ?_⟩ trivial
    cases h

/-! ## Two pages of which one, or only the mapping, is missing -/

def twoPageParams : DmaplaneBufParams :=
  { bufId := 0, allocType := 1, size := 8192, numaNode := numaAny, actualNumaNode := 0 }

/-- The allocators have `n` pages. -/
def grants (n : Nat) (vmap : Option (BitVec 64)) : AllocEnv :=
  { maxNumNodes := 1, nodeOnline := fun _ => true, coherent := none, pageArray := true
    page := fun i => if i < n then some 0 else none, vmap := vmap }

/-- A create fails at its second page, the next two succeed, and the first buffer is destroyed. -/
def createCreateDestroy : List BufCall :=
  [.create twoPageParams (grants 1 none), .create twoPageParams (grants 2 (some 0xffffc90000000000)),
   .create twoPageParams (grants 2 (some 0xffffc90000100000)), .destroy 2]

instance (s : BufCallSt) (a : BufCall) : Decidable (MapsPages s a) := by
  cases a with
  | create params env =>
    exact inferInstanceAs (Decidable (¬ (_ ∧ _ ∧ _ ∧ (∀ i, i < _ → _) ∧ _)))
  | destroy bufId => exact isTrue trivial

theorem buffer_memory_conserved_run : ∃ s, bufCallSys.Reachable s ∧ s.mem.live = {6, 7, 8, 9} ∧
    BufferMemory s := by
  obtain ⟨s, hr, hlive⟩ : ∃ s, bufCallSys.Reachable s ∧ s.mem.live = {6, 7, 8, 9} :=
    Transition.Sys.exists_of_exec createCreateDestroy (by decide +kernel)
  exact ⟨s, hr, hlive, (buffer_memory_conserved hr).1⟩

/-- After that a create that gets one page of two is counted right: not at all. -/
theorem buffer_counts_run : ∃ s s', s.dev.stats.buffersCreated = 2 ∧
    s.dev.stats.buffersDestroyed = 1 ∧ BufferCounts s.dev ∧
      CallCounted s (.create twoPageParams (grants 1 none)) s' := by
  obtain ⟨s, hr, hc, hd⟩ : ∃ s, bufCallSys.ReachableWith MapsPages s ∧
      s.dev.stats.buffersCreated = 2 ∧ s.dev.stats.buffersDestroyed = 1 :=
    Transition.Sys.exists_of_execWith createCreateDestroy (by decide +kernel)
  obtain ⟨hb, hiff⟩ := buffer_counts_iff hr (a := .create twoPageParams (grants 1 none)) rfl
  refine ⟨s, _, hc, hd, hb, hiff.mpr fun hfails => ?_⟩
  -- the second page is not there
  exact hfails.2.2.2.1 1 (by decide) rfl

/-- The `vmap` of the first create fails: the create is counted, and no buffer is. -/
theorem failed_create_counted : ∃ s, bufCallSys.Reachable s ∧
    (dmabufRdmaCreateBuffer (grants 2 none) twoPageParams bufTableInit .empty).1 = .error .ENOMEM ∧
    s.dev.stats.numaAnonAllocs = 1 ∧ s.dev.stats.buffersCreated = 0 ∧ ¬ BufferCounts s.dev := by
  obtain ⟨s, hr, hnuma, hc, hall⟩ : ∃ s, bufCallSys.Reachable s ∧
      s.dev.stats.numaAnonAllocs = 1 ∧ s.dev.stats.buffersCreated = 0 ∧
      s.dev.stats.numaAllocs = 1 :=
    Transition.Sys.exists_of_exec [.create twoPageParams (grants 2 none)] (by decide +kernel)
  refine ⟨s, hr, rfl, hnuma, hc, fun hb => ?_⟩
  have := hb.numa
  rw [hall, hc] at this
  cases this

end Dmaplane
