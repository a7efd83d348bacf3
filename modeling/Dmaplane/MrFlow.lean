import Dmaplane.MrSys

/-!
# Dmaplane.MrFlow

What the steps of `mrSys` do. To the MR table they do two things: entries go (`Shrinks`), or one is
published. A thread that moves on has what `Entering` says, and all that is used of the GPU table
is in `GpuFlow`.
-/

namespace Dmaplane

/-! ## The MR table -/

/-- The entries in use are among the old ones; no id is issued. -/
structure Shrinks (tab tab' : MrTable) : Prop where
  mrs : ∀ i, (tab'.mrs i).inUse = true → tab'.mrs i = tab.mrs i
  nextMrId : tab'.nextMrId = tab.nextMrId

theorem Shrinks.refl (tab : MrTable) : Shrinks tab tab := ⟨fun _ _ => rfl, rfl⟩

theorem Shrinks.trans {tab tab' tab'' : MrTable} (h : Shrinks tab tab') (h' : Shrinks tab' tab'') :
    Shrinks tab tab'' := by
  refine ⟨fun i hi => ?_, h'.nextMrId.trans h.nextMrId⟩
  have he := h'.mrs i hi
  rw [he] at hi ⊢
  exact h.mrs i hi

theorem freeMrSlot_some {tab : MrTable} {slot : Fin maxMrs} (h : tab.freeMrSlot = some slot) :
    (tab.mrs slot).inUse = false := by
  unfold MrTable.freeMrSlot at h
  have hp := List.find?_some h
  simpa using hp

theorem registerMap_ok {tab tab' : MrTable} {snap : RegSnapshot} {env : MapEnv} {sgt : SgTable}
    {frmr : Option IbMr} (hfit : env.Fits snap.size.toNat)
    (h : registerMap tab snap env = (.ok (sgt, frmr), tab')) :
    Shrinks tab tab' ∧ sgt.pages = snap.pages ∧
      ∀ mr, frmr = some mr → mr.iova.toNat + snap.size.toNat < 2 ^ 64 := by
  unfold registerMap at h
  split at h
  · cases h
  · simp only at h
    split at h
    · split at h
      · cases h
      · rename_i lkey rkey iova henv; cases h
        refine ⟨⟨fun _ _ => rfl, rfl⟩, rfl, ?_⟩
        intro mr hmr; cases hmr
        simpa [MapEnv.Fits, henv] using hfit
    · cases h
      refine ⟨⟨fun _ _ => rfl, rfl⟩, rfl, ?_⟩
      intro mr hmr; cases hmr

theorem registerMap_error {tab tab' : MrTable} {snap : RegSnapshot} {env : MapEnv} {e : Errno}
    (h : registerMap tab snap env = (.error e, tab')) : Shrinks tab tab' := by
  unfold registerMap at h
  split at h
  · cases h; exact .refl _
  · simp only at h
    split at h
    · split at h <;> cases h
      exact ⟨fun _ _ => rfl, rfl⟩
    · cases h

theorem registerPublish_ok {ctx : MrCtx} {tab tab' : MrTable} {snap : RegSnapshot} {sgt : SgTable}
    {frmr : Option IbMr} {mrId : BitVec 32}
    (h : registerPublish ctx tab snap sgt frmr = (.ok mrId, tab')) :
    ∃ slot, tab.freeMrSlot = some slot ∧
      tab' = tab.publish slot (registerEntry ctx tab snap sgt frmr) := by
  unfold registerPublish at h
  split at h <;> cases h
  exact ⟨_, by assumption, rfl⟩

theorem registerPublish_error {ctx : MrCtx} {tab tab' : MrTable} {snap : RegSnapshot}
    {sgt : SgTable} {frmr : Option IbMr} {e : Errno}
    (h : registerPublish ctx tab snap sgt frmr = (.error e, tab')) : Shrinks tab tab' := by
  unfold registerPublish at h
  split at h <;> cases h
  cases frmr <;> exact ⟨fun _ _ => rfl, rfl⟩

/-- DEREGISTER_MR clears the slot it finds and changes no other. -/
theorem deregister_found (ctx : MrCtx) {tab : MrTable} {mrId : BitVec 32} {slot : Fin maxMrs}
    (h : dmabufRdmaFindMr tab mrId = some slot) :
    ((deregister ctx tab mrId).2.mrs slot).inUse = false ∧
      (∀ i, i ≠ slot → (deregister ctx tab mrId).2.mrs i = tab.mrs i) ∧
      (deregister ctx tab mrId).2.nextMrId = tab.nextMrId := by
  unfold deregister
  rw [h]
  simp only
  split <;> split <;> (try split) <;>
    exact ⟨by simp [MrTable.setMr],
      fun i hi => by simp [MrTable.setMr, MrTable.freeSgt, MrTable.deregIbMr, hi], rfl⟩

theorem deregister_shrinks (ctx : MrCtx) (tab : MrTable) (mrId : BitVec 32) :
    Shrinks tab (deregister ctx tab mrId).2 := by
  cases h : dmabufRdmaFindMr tab mrId with
  | none =>
    have hsame : (deregister ctx tab mrId).2 = tab := by unfold deregister; rw [h]
    rw [hsame]; exact .refl tab
  | some slot =>
    obtain ⟨hself, hne, hnext⟩ := deregister_found ctx h
    refine ⟨fun i hi => ?_, hnext⟩
    by_cases hs : i = slot
    · rw [hs, hself] at hi; cases hi
    · exact hne i hs

/-- The scan finds the first match. -/
theorem findMr_first {tab : MrTable} {j : Fin maxMrs} (hj : (tab.mrs j).inUse = true)
    (hbefore : ∀ i < j, (tab.mrs i).inUse = false) :
    dmabufRdmaFindMr tab (tab.mrs j).id = some j := by
  unfold dmabufRdmaFindMr
  refine List.find?_eq_some_iff_getElem.mpr ⟨by simp [hj], j, by simp, by simp, ?_⟩
  intro i hi
  have hlt : i < maxMrs := Nat.lt_trans hi j.isLt
  have hfree := hbefore ⟨i, hlt⟩ hi
  simp [hfree]

theorem deregisterAll_shrinks (ctx : MrCtx) (tab : MrTable) (js : List (Fin maxMrs)) :
    Shrinks tab (deregisterAll ctx tab js) := by
  induction js generalizing tab with
  | nil => exact .refl tab
  | cons j js ih =>
    rw [deregisterAll]
    refine Shrinks.trans ?_ (ih _)
    split
    · exact deregister_shrinks ctx tab _
    · exact .refl tab

/-- TEARDOWN_RDMA's loop leaves no MR, although it deregisters by id: the entries before the
current one are gone, so the id finds the current one. -/
theorem deregisterAll_clears (ctx : MrCtx) {tab : MrTable} {js : List (Fin maxMrs)}
    (hsorted : js.Pairwise (· < ·)) (hall : ∀ i, (tab.mrs i).inUse = true → i ∈ js)
    (i : Fin maxMrs) : ((deregisterAll ctx tab js).mrs i).inUse = false := by
  induction js generalizing tab with
  | nil =>
    by_contra h
    cases hall i (by simpa [deregisterAll] using h)
  | cons j js ih =>
    obtain ⟨hj, hsorted⟩ := List.pairwise_cons.mp hsorted
    rw [deregisterAll]
    refine ih hsorted fun i hi => ?_
    split at hi
    · rename_i hin
      have hbefore : ∀ k < j, (tab.mrs k).inUse = false := by
        intro k hk
        by_contra h
        rcases List.mem_cons.mp (hall k (by simpa using h)) with rfl | hmem
        · exact lt_irrefl _ hk
        · exact absurd (hj k hmem) (not_lt.mpr hk.le)
      obtain ⟨hself, hne, _⟩ := deregister_found ctx (findMr_first hin hbefore)
      have hij : i ≠ j := by rintro rfl; rw [hself] at hi; cases hi
      rw [hne i hij] at hi
      exact (List.mem_cons.mp (hall i hi)).resolve_left hij
    · rename_i hin
      have hij : i ≠ j := by rintro rfl; exact hin hi
      exact (List.mem_cons.mp (hall i hi)).resolve_left hij

/-! ## The GPU table -/

/-- What a step does to one slot of the GPU table. -/
inductive GpuFlow {Tid : Type} (gpu : GpuTable) : MrAct Tid → GpuTable → Prop where
  | same {a : MrAct Tid} : GpuFlow gpu a gpu
  | failed {a : MrAct Tid} {slot : Fin maxGpuBuffers} {buf : DmaplaneGpuBuffer} :
      (gpu.gpuBuffers slot).inUse = false → buf.inUse = false → buf.rdmaVaddr = none →
      GpuFlow gpu a (gpu.setGpuBuffer slot buf)
  | pinned {gpuVa size : BitVec 64} {env : GpuPinEnv} {slot : Fin maxGpuBuffers}
      {buf : DmaplaneGpuBuffer} {tab : GpuTable} :
      gpuPinPrepare gpu gpuVa size env = (.ok (slot, buf), tab) →
      (∀ map, buf.rdmaVaddr = some map → map.addr.toNat + map.size < 2 ^ 64) →
      GpuFlow gpu (.gpuPin gpuVa size env) (gpuPinPublish gpu slot buf)
  | unpinned {a : MrAct Tid} {slot : Fin maxGpuBuffers} {unpinsTotal : BitVec 64} :
      GpuFlow gpu a
        { gpu.setGpuBuffer slot
            { gpu.gpuBuffers slot with rdmaVaddr := none, inUse := false } with
          unpinsTotal := unpinsTotal }
  | revoked {a : MrAct Tid} {slot : Fin maxGpuBuffers} : GpuFlow gpu a (gpuUnpinCallback gpu slot)

theorem gpuPinPrepare_ok {gpu tab : GpuTable} {gpuVa size : BitVec 64} {env : GpuPinEnv}
    {slot : Fin maxGpuBuffers} {buf : DmaplaneGpuBuffer} (hfit : env.Fits)
    (h : gpuPinPrepare gpu gpuVa size env = (.ok (slot, buf), tab)) :
    tab = gpu ∧ ∀ map, buf.rdmaVaddr = some map → map.addr.toNat + map.size < 2 ^ 64 := by
  unfold gpuPinPrepare at h
  split at h
  · cases h
  · split at h
    · cases h
    · simp only at h
      split at h
      · cases h
      · rename_i pages hpages
        split at h
        · cases h
        · split at h
          · cases h
          · cases h
            refine ⟨rfl, fun map hmap => ?_⟩
            simp only at hmap
            split at hmap
            · obtain ⟨addr, haddr, rfl⟩ := Option.map_eq_some_iff.mp hmap
              have hm : MapsAt (pages.length * gpuPageSize) env.rdmaVaddr := by
                simpa [GpuPinEnv.Fits, hpages] using hfit
              rw [haddr] at hm
              exact hm.2
            · cases hmap

theorem gpuPinPrepare_error {Tid : Type} {gpu tab : GpuTable} {gpuVa size : BitVec 64}
    {env : GpuPinEnv} {e : Errno} {a : MrAct Tid}
    (h : gpuPinPrepare gpu gpuVa size env = (.error e, tab)) : GpuFlow gpu a tab := by
  unfold gpuPinPrepare at h
  split at h
  · cases h; exact .same
  · split at h
    · cases h; exact .same
    · rename_i slot hslot
      have hfree : (gpu.gpuBuffers slot).inUse = false := by
        unfold GpuTable.freeGpuSlot at hslot
        have hp := List.find?_some hslot
        simpa using hp
      simp only at h
      split at h
      · cases h; exact .failed hfree rfl rfl
      · split at h
        · cases h; exact .failed hfree rfl rfl
        · split at h <;> cases h
          exact .failed hfree rfl rfl

/-! ## The steps -/

-- Their equations are made here, once for the proofs below.
attribute [local simp] ctxStep registerStep gpuStep opStep mrStep

/-- The buffer that REGISTER_MR has copied its fields from. -/
structure SnapshotOf (buf : DmaplaneBuffer) (snap : RegSnapshot) : Prop where
  inUse : buf.inUse = true
  id : buf.id = snap.bufId
  allocType : buf.allocType = .pages
  vaddr : buf.vaddr = some snap.vaddr
  size : buf.size = snap.size
  pages : ∃ array, buf.pages = some array ∧ snap.pages = array.pages.take buf.nrPages

theorem registerSnapshot_ok {ctx : MrCtx} {dev : BufTable} {bufId accessFlags : BitVec 32}
    {kvmallocOk : Bool} {snap : RegSnapshot}
    (h : registerSnapshot ctx dev bufId accessFlags kvmallocOk = .ok snap) :
    ctx.initialized = true ∧ ∃ slot, SnapshotOf (dev.buffers slot) snap := by
  unfold registerSnapshot at h
  split at h
  · cases h
  · rename_i hinit
    split at h
    · cases h
    · rename_i slot hfind
      obtain ⟨hin, hid⟩ := findBuffer_some hfind
      simp only at h
      split at h
      · rename_i array hty hpages
        split at h
        · cases h
        · split at h
          · cases h
          · split at h
            · cases h
            · rename_i vaddr hvaddr; cases h
              exact ⟨by simpa using hinit, slot, hin, hid, hty, hvaddr, rfl, array, hpages, rfl⟩
      · cases h

theorem gpuRegisterLookup_ok {ctx : MrCtx} {gpu : GpuTable} {handle : BitVec 32}
    {slot : Fin maxGpuBuffers} (h : gpuRegisterLookup ctx gpu handle = .ok slot) :
    ctx.initialized = true := by
  unfold gpuRegisterLookup at h
  split at h
  · cases h
  · rename_i hinit; simpa using hinit

theorem gpuRegisterMap_ok {gpu : GpuTable} {tab tab' : MrTable} {slot : Fin maxGpuBuffers}
    {sgtOk : Bool} {sgt : SgTable} (h : gpuRegisterMap gpu tab slot sgtOk = (.ok sgt, tab')) :
    Shrinks tab tab' ∧ sgt.pages = [] := by
  unfold gpuRegisterMap at h
  split at h <;> cases h
  exact ⟨⟨fun _ _ => rfl, rfl⟩, rfl⟩

theorem gpuRegisterMap_error {gpu : GpuTable} {tab tab' : MrTable} {slot : Fin maxGpuBuffers}
    {sgtOk : Bool} {e : Errno} (h : gpuRegisterMap gpu tab slot sgtOk = (.error e, tab')) :
    Shrinks tab tab' := by
  unfold gpuRegisterMap at h
  split at h <;> cases h
  exact .refl tab

variable {Tid : Type}

/-- What a thread has established when it moves to a place. -/
def Entering (s : MrSt Tid) (t : Tid) : MrPc → Prop
  | .register snap => s.ctx.initialized = true ∧ ∃ slot, SnapshotOf (s.buf.dev.buffers slot) snap
  | .registerMapped snap sgt frmr => s.pc t = .register snap ∧ sgt.pages = snap.pages ∧
      ∀ mr, frmr = some mr → mr.iova.toNat + snap.size.toNat < 2 ^ 64
  | .gpuRegister _ => s.ctx.initialized = true
  | .gpuRegisterMapped slot sgt => s.pc t = .gpuRegister slot ∧ sgt.pages = []
  | .opValidate op mrs => op.validates = true ∧ op.lookup s.tab = some mrs
  | .opPost op mrs none => op.validates = false ∧ op.lookup s.tab = some mrs
  | .opPost op mrs (some snap) => s.pc t = .opValidate op mrs ∧
      ∃ mr rest, mrs = mr :: rest ∧ op.validate s.buf.dev mr = .ok snap
  | _ => True

/-- The entry that `t` is about to publish. -/
inductive Publishes (s : MrSt Tid) (t : Tid) : DmaplaneMrEntry → Prop where
  | host {snap : RegSnapshot} {sgt : SgTable} {frmr : Option IbMr} :
      s.pc t = .registerMapped snap sgt frmr →
      Publishes s t (registerEntry s.ctx s.tab snap sgt frmr)
  | gpu {slot : Fin maxGpuBuffers} {sgt : SgTable} : s.pc t = .gpuRegisterMapped slot sgt →
      Publishes s t (gpuRegisterEntry s.ctx s.gpu s.tab slot sgt)

variable [DecidableEq Tid]

inductive MrFlow (s : MrSt Tid) : MrAct Tid → MrSt Tid → Prop where
  | same {a : MrAct Tid} : MrFlow s a s
  | buf {a : BufAct Tid} {buf : BufSt Tid} : bufStep s.buf a = some buf →
      MrFlow s (.buf a) { s with buf := buf }
  | gpu {a : MrAct Tid} {gpu : GpuTable} : GpuFlow s.gpu a gpu → MrFlow s a { s with gpu := gpu }
  | peer {a : MrAct Tid} {peerConnected : Bool} :
      MrFlow s a { s with ctx := { s.ctx with peerConnected := peerConnected } }
  | setup {a : MrAct Tid} {t : Tid} {ctx : MrCtx} : s.readers = ∅ → s.ctx.initialized = false →
      ctx.initialized = true → MrFlow s a ({ s with ctx := ctx }.goto t .setupCopy)
  | undo {t : Tid} : s.readers = ∅ →
      MrFlow s (.setupUndo t) ({ s with ctx := s.ctx.teardown }.goto t .idle)
  | teardown {a : MrAct Tid} : s.readers = ∅ →
      MrFlow s a { s with
        tab := deregisterAll s.ctx s.tab (List.finRange maxMrs), ctx := s.ctx.teardown }
  | dereg {a : MrAct Tid} {mrId : BitVec 32} :
      MrFlow s a { s with tab := (deregister s.ctx s.tab mrId).2 }
  | move {a : MrAct Tid} {t : Tid} {tab : MrTable} {pc : MrPc} : Shrinks s.tab tab →
      Entering s t pc → MrFlow s a ({ s with tab := tab }.goto t pc)
  | publish {a : MrAct Tid} {t : Tid} {slot : Fin maxMrs} {mr : DmaplaneMrEntry} {tab : MrTable}
      {pc : MrPc} : (a = .registerPublish t ∨ a = .gpuRegisterPublish t) →
      s.tab.freeMrSlot = some slot → Publishes s t mr →
      tab.mrs = Function.update s.tab.mrs slot mr →
      tab.nextMrId = Handle.nextId s.tab.nextMrId →
      (∃ mrId, pc = .registerCopy mrId ∨ pc = .gpuRegisterCopy mrId) →
      MrFlow s a ({ s with tab := tab }.goto t pc)

theorem ctxStep_flow {s s' : MrSt Tid} {a : MrAct Tid} (h : ctxStep s a = some s') :
    MrFlow s a s' := by
  cases a with
  | connectPeer =>
    simp only [ctxStep] at h
    split at h <;> cases h
    exact .peer
  | destroyPeer =>
    simp only [ctxStep] at h
    split at h <;> cases h
    exact .peer
  | setupRdma t lkey =>
    simp only [ctxStep] at h
    split at h
    · rename_i hpc
      split at h
      · cases h; exact .same
      · rename_i hinit; cases h
        exact .setup hpc.2 (by simpa using hinit) rfl
    · cases h
  | setupCopy t copyOk =>
    simp only [ctxStep] at h
    split at h <;> cases h
    refine .move (.refl _) ?_
    cases copyOk <;> trivial
  | setupUndo t =>
    simp only [ctxStep] at h
    split at h
    · rename_i hpc; cases h
      exact .undo hpc.2
    · cases h
  | teardownRdma =>
    simp only [ctxStep] at h
    split at h
    · rename_i hr; cases h
      exact .teardown hr
    · cases h
  | _ => cases h

theorem registerStep_flow {s s' : MrSt Tid} {a : MrAct Tid} (h : registerStep s a = some s') :
    MrFlow s a s' := by
  cases a with
  | registerMr t bufId accessFlags kvmallocOk =>
    simp only [registerStep] at h
    split at h
    · split at h
      · cases h; exact .same
      · rename_i snap hsnap; cases h
        exact .move (.refl _) (registerSnapshot_ok hsnap)
    · cases h
  | registerMap t env =>
    simp only [registerStep] at h
    split at h
    · rename_i snap hpc
      split at h
      · rename_i hfit
        split at h
        · rename_i e tab hmap; cases h
          exact .move (registerMap_error hmap) trivial
        · rename_i sgt frmr tab hmap; cases h
          obtain ⟨hshr, hpages, hiova⟩ := registerMap_ok hfit hmap
          exact .move hshr ⟨hpc, hpages, hiova⟩
      · cases h
    · cases h
  | registerPublish t =>
    simp only [registerStep] at h
    split at h
    · rename_i snap sgt frmr hpc
      split at h
      · rename_i e tab hpub; cases h
        exact .move (registerPublish_error hpub) trivial
      · rename_i mrId tab hpub; cases h
        obtain ⟨slot, hslot, rfl⟩ := registerPublish_ok hpub
        exact .publish (.inl rfl) hslot (.host hpc) rfl rfl ⟨mrId, .inl rfl⟩
    · cases h
  | registerCopy t copyOk =>
    simp only [registerStep] at h
    split at h <;> cases h
    refine .move (.refl _) ?_
    cases copyOk <;> trivial
  | registerUndo t =>
    simp only [registerStep] at h
    split at h <;> cases h
    exact .move (deregister_shrinks _ _ _) trivial
  | deregisterMr t mrId =>
    simp only [registerStep] at h
    split at h <;> cases h
    exact .dereg
  | _ => cases h

theorem gpuStep_flow {s s' : MrSt Tid} {a : MrAct Tid} (h : gpuStep s a = some s') :
    MrFlow s a s' := by
  cases a with
  | gpuPin gpuVa size env =>
    simp only [gpuStep] at h
    split at h
    · rename_i hfit
      split at h
      · rename_i e gpu hpin; cases h
        exact .gpu (gpuPinPrepare_error hpin)
      · rename_i slot buf gpu hpin; cases h
        obtain ⟨rfl, hmap⟩ := gpuPinPrepare_ok hfit hpin
        exact .gpu (.pinned hpin hmap)
    · cases h
  | gpuUnpin handle =>
    simp only [gpuStep] at h
    cases h
    refine .gpu ?_
    unfold gpuUnpin
    split
    · exact .same
    · exact .unpinned
  | gpuRevoke slot =>
    simp only [gpuStep] at h
    cases h
    exact .gpu .revoked
  | gpuRegisterMr t handle =>
    simp only [gpuStep] at h
    split at h
    · split at h
      · cases h; exact .same
      · rename_i slot hlook; cases h
        exact .move (.refl _) (gpuRegisterLookup_ok hlook)
    · cases h
  | gpuRegisterMap t sgtOk =>
    simp only [gpuStep] at h
    split at h
    · rename_i slot hpc
      split at h
      · rename_i e tab hmap; cases h
        exact .move (gpuRegisterMap_error hmap) trivial
      · rename_i sgt tab hmap; cases h
        obtain ⟨hshr, hpages⟩ := gpuRegisterMap_ok hmap
        exact .move hshr ⟨hpc, hpages⟩
    · cases h
  | gpuRegisterPublish t =>
    simp only [gpuStep] at h
    split at h
    · rename_i slot sgt hpc
      unfold gpuRegisterPublish at h
      split at h
      · rename_i e tab hpub
        split at hpub <;> cases hpub
        cases h
        exact .move ⟨fun _ _ => rfl, rfl⟩ trivial
      · rename_i mrId tab hpub
        split at hpub <;> cases hpub
        rename_i mrSlot hslot
        cases h
        exact .publish (.inr rfl) hslot (.gpu hpc) rfl rfl ⟨s.tab.nextMrId, .inr rfl⟩
    · cases h
  | gpuRegisterCopy t copyOk =>
    simp only [gpuStep] at h
    split at h <;> cases h
    refine .move (.refl _) ?_
    cases copyOk <;> trivial
  | gpuRegisterUndo t =>
    simp only [gpuStep] at h
    split at h <;> cases h
    exact .move (deregister_shrinks _ _ _) trivial
  | _ => cases h

theorem opStep_flow {s s' : MrSt Tid} {a : MrAct Tid} (h : opStep s a = some s') :
    MrFlow s a s' := by
  cases a with
  | op t op =>
    simp only [opStep] at h
    split at h
    · split at h
      · rename_i mrs _ hlook; cases h
        refine .move (.refl _) ?_
        cases hv : op.validates
        · exact ⟨hv, hlook⟩
        · exact ⟨hv, hlook⟩
      · cases h; exact .same
    · cases h
  | opValidate t =>
    simp only [opStep] at h
    split at h
    · rename_i op mr mrs hpc
      split at h
      · split at h
        · cases h; exact .move (.refl _) trivial
        · rename_i snap hval; cases h
          exact .move (.refl _) ⟨hpc, mr, mrs, rfl, hval⟩
      · cases h
    · cases h
  | post t wr =>
    simp only [opStep] at h
    split at h
    · split at h <;> cases h
      exact .same
    · cases h
  | opEnd t =>
    simp only [opStep] at h
    split at h <;> cases h
    exact .move (.refl _) trivial
  | _ => cases h

theorem mrStep_flow {s s' : MrSt Tid} {a : MrAct Tid} (h : mrStep s a = some s') :
    MrFlow s a s' := by
  unfold mrStep at h
  split at h
  · split at h <;> cases h
    exact .buf (by assumption)
  all_goals first
    | exact gpuStep_flow h
    | exact registerStep_flow h
    | exact opStep_flow h
    | exact ctxStep_flow h

/-- The buffers run as they do alone. -/
theorem buf_reachable {ok : MrSt Tid → MrAct Tid → Prop} {s : MrSt Tid}
    (h : (mrSys Tid).ReachableWith ok s) : (bufSys Tid).Reachable s.buf := by
  refine Transition.Sys.Steps.project (T := bufSys Tid) (MrSt.buf) ?_ h
  intro s a s' _ hs
  cases mrStep_flow hs with
  | buf hb => exact .inr ⟨_, trivial, hb⟩
  | _ => exact .inl rfl

end Dmaplane
