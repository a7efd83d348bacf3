import Dmaplane.MrFlow
import Dmaplane.MrResources
import Mathlib.Data.Fintype.Card

/-!
# Dmaplane.MrConserved

What registrations allocate belongs to the MRs in use, whatever fails. A failing call has allocated
and freed the same blocks (`Untouched`); one that succeeds has given its blocks to the slot it
filled (`Registered`).
-/

namespace Dmaplane

open Heap

/-- The block of the slot's sg_table. -/
def sgtBlocks (mrs : Fin maxMrs → DmaplaneMrEntry) (i : Fin maxMrs) : List Nat :=
  ((mrs i).sgt.map (·.block)).toList

def ibMrBlocks (mrs : Fin maxMrs → DmaplaneMrEntry) (i : Fin maxMrs) : List Nat :=
  ((mrs i).mr.map (·.block)).toList

def inUseSlots (mrs : Fin maxMrs → DmaplaneMrEntry) : Finset (Fin maxMrs) :=
  Finset.univ.filter fun i => (mrs i).inUse = true

/-- The invariant between operations. -/
structure MrConserved (s : MrRes) : Prop where
  sgts : s.tab.sgts.Exact (sgtBlocks s.tab.mrs)
  ibMrs : s.tab.ibMrs.Exact (ibMrBlocks s.tab.mrs)
  copies : s.pageCopies.live = ∅
  copyFaults : s.pageCopies.faults = 0
  inUse : ∀ i, (s.tab.mrs i).inUse = true → (s.tab.mrs i).sgt.isSome = true ∧
    (s.tab.mrs i).mr.isSome = needFastreg (s.flags i)
  idle : ∀ i, (s.tab.mrs i).inUse = false → (s.tab.mrs i).sgt = none ∧ (s.tab.mrs i).mr = none
  count : s.tab.mrsRegistered - s.tab.mrsDeregistered =
    BitVec.ofNat 64 (inUseSlots s.tab.mrs).card
  ctx : s.ctx.initialized = true → s.ctx.ibDev = true
  ready : ∀ i, (s.tab.mrs i).inUse = true → s.ctx.initialized = true

/-- The same table and counters; what was allocated is freed. -/
structure Untouched (s s' : MrRes) : Prop where
  ctx : s'.ctx = s.ctx
  mrs : s'.tab.mrs = s.tab.mrs
  nextMrId : s'.tab.nextMrId = s.tab.nextMrId
  registered : s'.tab.mrsRegistered = s.tab.mrsRegistered
  deregistered : s'.tab.mrsDeregistered = s.tab.mrsDeregistered
  gpuRegistered : s'.tab.gpuMrsRegistered = s.tab.gpuMrsRegistered
  flags : s'.flags = s.flags
  sgts : Alloced s.tab.sgts s'.tab.sgts []
  ibMrs : Alloced s.tab.ibMrs s'.tab.ibMrs []
  copies : Alloced s.pageCopies s'.pageCopies []

/-- `slot` was free and holds `mr`, registered with the access flags `accessFlags`. -/
structure Registered (s s' : MrRes) (slot : Fin maxMrs) (mr : DmaplaneMrEntry)
    (accessFlags : BitVec 32) : Prop where
  initialized : s.ctx.initialized = true
  free : (s.tab.mrs slot).inUse = false
  ctx : s'.ctx = s.ctx
  mrs : s'.tab.mrs = Function.update s.tab.mrs slot mr
  registered : s'.tab.mrsRegistered = s.tab.mrsRegistered + 1
  deregistered : s'.tab.mrsDeregistered = s.tab.mrsDeregistered
  flags : s'.flags = Function.update s.flags slot accessFlags
  inUse : mr.inUse = true
  sgt : mr.sgt.isSome = true
  fastreg : mr.mr.isSome = needFastreg accessFlags
  sgts : Alloced s.tab.sgts s'.tab.sgts (mr.sgt.map (·.block)).toList
  ibMrs : Alloced s.tab.ibMrs s'.tab.ibMrs (mr.mr.map (·.block)).toList
  copies : Alloced s.pageCopies s'.pageCopies []

/-! ## Slots -/

section Slots

variable {mrs : Fin maxMrs → DmaplaneMrEntry} {slot : Fin maxMrs} {mr : DmaplaneMrEntry}

theorem sgtBlocks_update : sgtBlocks (Function.update mrs slot mr) =
    Function.update (sgtBlocks mrs) slot (mr.sgt.map (·.block)).toList := by
  funext i
  by_cases hi : i = slot
  · subst hi; simp [sgtBlocks]
  · simp [sgtBlocks, hi]

theorem ibMrBlocks_update : ibMrBlocks (Function.update mrs slot mr) =
    Function.update (ibMrBlocks mrs) slot (mr.mr.map (·.block)).toList := by
  funext i
  by_cases hi : i = slot
  · subst hi; simp [ibMrBlocks]
  · simp [ibMrBlocks, hi]

theorem card_inUse_fill (hfree : (mrs slot).inUse = false) (hmr : mr.inUse = true) :
    (inUseSlots (Function.update mrs slot mr)).card = (inUseSlots mrs).card + 1 := by
  have hins : inUseSlots (Function.update mrs slot mr) = insert slot (inUseSlots mrs) := by
    ext i
    by_cases hi : i = slot
    · subst hi; simp [inUseSlots, hmr]
    · simp [inUseSlots, hi]
  rw [hins, Finset.card_insert_of_notMem (by simp [inUseSlots, hfree])]

theorem card_inUse_clear (hin : (mrs slot).inUse = true) (hmr : mr.inUse = false) :
    (inUseSlots (Function.update mrs slot mr)).card + 1 = (inUseSlots mrs).card := by
  have herase : inUseSlots (Function.update mrs slot mr) = (inUseSlots mrs).erase slot := by
    ext i
    by_cases hi : i = slot
    · subst hi; simp [inUseSlots, hmr]
    · simp [inUseSlots, hi]
  have hmem : slot ∈ inUseSlots mrs := by simp [inUseSlots, hin]
  rw [herase, Finset.card_erase_add_one hmem]

end Slots

/-! ## Registration -/

section Register

variable {s s' : MrRes}

theorem MrConserved.untouched (hs : MrConserved s) (h : Untouched s s') : MrConserved s' := by
  obtain ⟨h1, h2, h3, h4, h5, h6, h7, h8, h9⟩ := hs
  refine ⟨?_, ?_, ?_, h.copies.faults.trans h4, ?_, ?_, ?_, ?_, ?_⟩
  · rw [h.mrs]; exact h1.alloced_nil h.sgts
  · rw [h.mrs]; exact h2.alloced_nil h.ibMrs
  · ext p; rw [h.copies.mem]; simp [h3]
  · rw [h.mrs, h.flags]; exact h5
  · rw [h.mrs]; exact h6
  · rw [h.mrs, h.registered, h.deregistered]; exact h7
  · rw [h.ctx]; exact h8
  · rw [h.mrs, h.ctx]; exact h9

theorem MrConserved.registered (hs : MrConserved s) {slot : Fin maxMrs} {mr : DmaplaneMrEntry}
    {accessFlags : BitVec 32} (h : Registered s s' slot mr accessFlags) : MrConserved s' := by
  obtain ⟨hsgt, hibMr⟩ := hs.idle slot h.free
  refine ⟨?_, ?_, ?_, h.copies.faults.trans hs.copyFaults, fun i hi => ?_, fun i hi => ?_, ?_, ?_,
    fun i _ => ?_⟩
  · rw [h.mrs, sgtBlocks_update]
    exact hs.sgts.give (by simp [sgtBlocks, hsgt]) h.sgts
  · rw [h.mrs, ibMrBlocks_update]
    exact hs.ibMrs.give (by simp [ibMrBlocks, hibMr]) h.ibMrs
  · ext p; rw [h.copies.mem]; simp [hs.copies]
  · rw [h.mrs] at hi ⊢
    rw [h.flags]
    by_cases hslot : i = slot
    · subst hslot
      simp only [Function.update_self]
      exact ⟨h.sgt, h.fastreg⟩
    · simp only [Function.update_of_ne hslot] at hi ⊢
      exact hs.inUse i hi
  · rw [h.mrs] at hi ⊢
    by_cases hslot : i = slot
    · subst hslot
      rw [Function.update_self, h.inUse] at hi; cases hi
    · simp only [Function.update_of_ne hslot] at hi ⊢
      exact hs.idle i hi
  · rw [h.registered, h.deregistered, h.mrs, card_inUse_fill h.free h.inUse]
    have hc := hs.count
    bv_omega
  · rw [h.ctx]; exact hs.ctx
  · rw [h.ctx]; exact h.initialized

/-- What one part of a registration does to the table: blocks of the two heaps only. -/
structure Allocates (tab tab' : MrTable) (sgts ibMrs : List Nat) : Prop where
  same : tab' = { tab with sgts := tab'.sgts, ibMrs := tab'.ibMrs }
  sgts : Alloced tab.sgts tab'.sgts sgts
  ibMrs : Alloced tab.ibMrs tab'.ibMrs ibMrs

theorem Allocates.refl (tab : MrTable) : Allocates tab tab [] [] := ⟨rfl, .refl _, .refl _⟩

theorem Allocates.trans {tab tab₁ tab₂ : MrTable} {a b c d : List Nat}
    (h : Allocates tab tab₁ a b) (h' : Allocates tab₁ tab₂ c d) :
    Allocates tab tab₂ (a ++ c) (b ++ d) :=
  ⟨by rw [h'.same, h.same], h.sgts.trans h'.sgts, h.ibMrs.trans h'.ibMrs⟩

theorem Allocates.freeSgt {tab tab' : MrTable} {sgt : SgTable} {b : List Nat}
    (h : Allocates tab tab' [sgt.block] b) : Allocates tab (tab'.freeSgt sgt) [] b :=
  ⟨by rw [MrTable.freeSgt, h.same], h.sgts.freeAll (.refl _), h.ibMrs⟩

theorem Allocates.deregIbMr {tab tab' : MrTable} {mr : IbMr} {a : List Nat}
    (h : Allocates tab tab' a [mr.block]) : Allocates tab (tab'.deregIbMr mr) a [] :=
  ⟨by rw [MrTable.deregIbMr, h.same], h.sgts, h.ibMrs.freeAll (.refl _)⟩

/-- The block of what a call returned, if it returned anything. -/
def got {α : Type} (block : α → Nat) : Except Errno α → List Nat
  | .error _ => []
  | .ok a => [block a]

theorem buildSgt_allocates (tab : MrTable) (pages : List Page) (env : RegisterEnv) :
    Allocates tab (registerMrBuildSgt tab pages env).2
      (got (·.block) (registerMrBuildSgt tab pages env).1) [] := by
  have halloc : Allocates tab { tab with sgts := tab.sgts.alloc.2 } [tab.sgts.alloc.1] [] :=
    ⟨rfl, alloced_alloc _, .refl _⟩
  unfold registerMrBuildSgt
  split
  · exact .refl _
  · simp only []
    split
    · exact halloc.freeSgt
    · split
      · exact halloc.freeSgt
      · exact halloc

theorem fastreg_allocates (tab : MrTable) (sgt : SgTable) (env : RegisterEnv) :
    Allocates tab (registerMrFastreg tab sgt env).2 []
      (got (·.block) (registerMrFastreg tab sgt env).1) := by
  have halloc : Allocates tab { tab with ibMrs := tab.ibMrs.alloc.2 } [] [tab.ibMrs.alloc.1] :=
    ⟨rfl, .refl _, alloced_alloc _⟩
  unfold registerMrFastreg
  split
  · exact .refl _
  · rename_i lkey rkey iova _
    have hundo : Allocates tab (MrTable.deregIbMr { tab with ibMrs := tab.ibMrs.alloc.2 }
        ⟨tab.ibMrs.alloc.1, lkey, rkey, iova⟩) [] [] := Allocates.deregIbMr halloc
    simp only []
    split
    · exact hundo
    · split
      · exact hundo
      · split
        · exact hundo
        · split
          · exact hundo
          · exact hundo
          · exact hundo
          · exact halloc

/-- Either nothing is left of the registration, or one slot is filled. -/
def Outcome (s : MrRes) (accessFlags : BitVec 32) (r : Except Errno (BitVec 32) × MrRes) : Prop :=
  ((∃ e, r.1 = .error e) ∧ Untouched s r.2) ∨
    ((∃ mrId, r.1 = .ok mrId) ∧ ∃ slot mr, Registered s r.2 slot mr accessFlags)

/-- `s'` is `s` in the middle of a registration. -/
structure Midway (s s' : MrRes) (sgts ibMrs : List Nat) : Prop where
  ctx : s'.ctx = s.ctx
  flags : s'.flags = s.flags
  tab : Allocates s.tab s'.tab sgts ibMrs
  copies : Alloced s.pageCopies s'.pageCopies []

theorem Midway.untouched (h : Midway s s' [] []) : Untouched s s' := by
  have hsame := h.tab.same
  exact ⟨h.ctx, by rw [hsame], by rw [hsame], by rw [hsame], by rw [hsame], by rw [hsame], h.flags,
    h.tab.sgts, h.tab.ibMrs, h.copies⟩

theorem Midway.publish {snap : RegSnapshot} {sgt : SgTable} {frmr : Option IbMr}
    (h : Midway s s' [sgt.block] (frmr.map (·.block)).toList) (hinit : s.ctx.initialized = true)
    (hfast : frmr.isSome = needFastreg snap.accessFlags) :
    Outcome s snap.accessFlags (s'.publish snap sgt frmr) := by
  have hsame := h.tab.same
  unfold MrRes.publish registerPublish
  cases hslot : s'.tab.freeMrSlot with
  | none =>
    refine .inl ⟨⟨_, rfl⟩, Midway.untouched ⟨h.ctx, h.flags, ?_, h.copies⟩⟩
    cases frmr with
    | none => exact h.tab.freeSgt
    | some mr =>
      have htab : Allocates s.tab s'.tab [sgt.block] [mr.block] := h.tab
      exact htab.deregIbMr.freeSgt
  | some slot =>
    have hmrs : s'.tab.mrs = s.tab.mrs := by rw [hsame]
    have hreg : s'.tab.mrsRegistered = s.tab.mrsRegistered := by rw [hsame]
    have hdereg : s'.tab.mrsDeregistered = s.tab.mrsDeregistered := by rw [hsame]
    refine .inr ⟨⟨_, rfl⟩, slot, registerEntry s'.ctx s'.tab snap sgt frmr, hinit,
      hmrs ▸ freeMrSlot_some hslot, h.ctx, ?_, ?_, hdereg, ?_, rfl, rfl, hfast, h.tab.sgts,
      h.tab.ibMrs, h.copies⟩
    · show Function.update s'.tab.mrs slot _ = _
      rw [hmrs]
    · show s'.tab.mrsRegistered + 1 = _
      rw [hreg]
    · show Function.update s'.flags slot _ = _
      rw [h.flags]

theorem registerMapped_outcome {snap : RegSnapshot} {env : RegisterEnv} {copy : Nat}
    (hctx : s'.ctx = s.ctx) (hflags : s'.flags = s.flags) (htab : s'.tab = s.tab)
    (hcopy : Alloced s.pageCopies s'.pageCopies [copy]) (hinit : s.ctx.initialized = true) :
    Outcome s snap.accessFlags (registerMapped s' snap env copy) := by
  have hsgt := buildSgt_allocates s'.tab snap.pages env
  unfold registerMapped
  generalize registerMrBuildSgt s'.tab snap.pages env = r at hsgt ⊢
  obtain ⟨r, tab⟩ := r
  have hfree : Alloced s.pageCopies (s'.pageCopies.free copy) [] := hcopy.freeAll (.refl _)
  cases r with
  | error e =>
    exact .inl ⟨⟨_, rfl⟩, Midway.untouched ⟨hctx, hflags, htab ▸ hsgt, hfree⟩⟩
  | ok sgt =>
    have hmid : Midway s ((s'.withTab tab).kvfree copy) [sgt.block] [] :=
      ⟨hctx, hflags, htab ▸ hsgt, hfree⟩
    simp only []
    split
    · rename_i hneed
      have hfast := fastreg_allocates ((s'.withTab tab).kvfree copy).tab sgt env
      generalize registerMrFastreg ((s'.withTab tab).kvfree copy).tab sgt env = q at hfast ⊢
      obtain ⟨q, tab'⟩ := q
      cases q with
      | error e =>
        have hboth := hmid.tab.trans hfast
        exact .inl ⟨⟨_, rfl⟩, Midway.untouched ⟨hctx, hflags, hboth.freeSgt, hfree⟩⟩
      | ok frmr =>
        exact Midway.publish ⟨hctx, hflags, hmid.tab.trans hfast, hfree⟩ hinit hneed.symm
    · rename_i hneed
      exact hmid.publish hinit (by simpa using hneed)

theorem registerMr_outcome (dev : BufTable) (bufId accessFlags : BitVec 32) (env : RegisterEnv)
    (s : MrRes) : Outcome s accessFlags (rdmaEngineRegisterMr dev bufId accessFlags env s) := by
  have hnone : Untouched s s :=
    Midway.untouched ⟨rfl, rfl, .refl _, .refl _⟩
  unfold rdmaEngineRegisterMr
  split
  · exact .inl ⟨⟨_, rfl⟩, hnone⟩
  rename_i hinit
  split
  · exact .inl ⟨⟨_, rfl⟩, hnone⟩
  simp only []
  split
  · split
    · exact .inl ⟨⟨_, rfl⟩, hnone⟩
    · split
      · exact .inl ⟨⟨_, rfl⟩, hnone⟩
      · split
        · exact .inl ⟨⟨_, rfl⟩, Midway.untouched
            ⟨rfl, rfl, .refl _, (alloced_alloc s.pageCopies).freeAll (.refl _)⟩⟩
        · exact registerMapped_outcome rfl rfl rfl (alloced_alloc s.pageCopies)
            (by simpa using hinit)
  · exact .inl ⟨⟨_, rfl⟩, hnone⟩

theorem gpuRegisterMr_outcome (gpu : GpuTable) (handle : BitVec 32) (env : GpuRegisterEnv)
    (s : MrRes) : Outcome s 0 (dmaplaneGpuRegisterMr gpu handle env s) := by
  have hnone : Untouched s s := Midway.untouched ⟨rfl, rfl, .refl _, .refl _⟩
  have halloc : Allocates s.tab { s.tab with sgts := s.tab.sgts.alloc.2 } [s.tab.sgts.alloc.1] [] :=
    ⟨rfl, alloced_alloc _, .refl _⟩
  unfold dmaplaneGpuRegisterMr
  split
  · exact .inl ⟨⟨_, rfl⟩, hnone⟩
  rename_i slot hlookup
  split
  · exact .inl ⟨⟨_, rfl⟩, hnone⟩
  simp only []
  split
  · exact .inl ⟨⟨_, rfl⟩, Midway.untouched ⟨rfl, rfl, halloc.freeSgt, .refl _⟩⟩
  unfold gpuRegisterPublish
  cases hslot : s.tab.freeMrSlot with
  | none =>
    simp only [MrTable.freeMrSlot] at hslot ⊢
    simp only [hslot]
    exact .inl ⟨⟨_, rfl⟩, Midway.untouched ⟨rfl, rfl, halloc.freeSgt, .refl _⟩⟩
  | some mrSlot =>
    have hfree := freeMrSlot_some hslot
    simp only [MrTable.freeMrSlot] at hslot ⊢
    simp only [hslot]
    exact .inr ⟨⟨_, rfl⟩, mrSlot, _, gpuRegisterLookup_ok hlookup, hfree, rfl, rfl, rfl, rfl, rfl,
      rfl, rfl, rfl, halloc.sgts, .refl _, .refl _⟩

theorem MrConserved.outcome (hs : MrConserved s) {accessFlags : BitVec 32}
    {r : Except Errno (BitVec 32) × MrRes} (h : Outcome s accessFlags r) : MrConserved r.2 := by
  rcases h with ⟨_, h⟩ | ⟨_, slot, mr, h⟩
  · exact hs.untouched h
  · exact hs.registered h

end Register

/-! ## Deregistration -/

section Deregister

variable {s : MrRes}

/-- With the device present, DEREGISTER_MR frees all that its slot owns. -/
theorem deregister_eq {ctx : MrCtx} {tab : MrTable} {mrId : BitVec 32} {slot : Fin maxMrs}
    (hdev : ctx.ibDev = true) (hslot : dmabufRdmaFindMr tab mrId = some slot)
    (hsgt : (tab.mrs slot).sgt.isSome = true) :
    (deregister ctx tab mrId).2 =
      { tab with
        mrs := Function.update tab.mrs slot
          { tab.mrs slot with sgt := none, mr := none, inUse := false }
        sgts := tab.sgts.freeAll (sgtBlocks tab.mrs slot)
        ibMrs := tab.ibMrs.freeAll (ibMrBlocks tab.mrs slot)
        mrsDeregistered := tab.mrsDeregistered + 1 } := by
  obtain ⟨sgt, hsgt⟩ := Option.isSome_iff_exists.mp hsgt
  unfold deregister
  rw [hslot]
  simp only [hsgt, hdev, if_true, sgtBlocks, ibMrBlocks]
  cases hmr : (tab.mrs slot).mr <;> rfl

theorem MrConserved.deregister (hs : MrConserved s) (mrId : BitVec 32) :
    MrConserved (rdmaEngineDeregisterMr mrId s) := by
  unfold rdmaEngineDeregisterMr
  cases hslot : dmabufRdmaFindMr s.tab mrId with
  | none =>
    have hsame : (Dmaplane.deregister s.ctx s.tab mrId).2 = s.tab := by
      unfold Dmaplane.deregister; rw [hslot]
    rw [hsame]; exact hs
  | some slot =>
    have hin := (findMr_some hslot).1
    rw [deregister_eq (hs.ctx (hs.ready slot hin)) hslot (hs.inUse slot hin).1]
    refine ⟨?_, ?_, hs.copies, hs.copyFaults, fun i hi => ?_, fun i hi => ?_, ?_, hs.ctx,
      fun i hi => ?_⟩
    · show (s.tab.sgts.freeAll _).Exact (sgtBlocks (Function.update s.tab.mrs slot _))
      rw [sgtBlocks_update]
      exact hs.sgts.freeAll (.refl _)
    · show (s.tab.ibMrs.freeAll _).Exact (ibMrBlocks (Function.update s.tab.mrs slot _))
      rw [ibMrBlocks_update]
      exact hs.ibMrs.freeAll (.refl _)
    · simp only [MrRes.withTab] at hi ⊢
      by_cases hslot : i = slot
      · subst hslot
        rw [Function.update_self] at hi; cases hi
      · rw [Function.update_of_ne hslot] at hi ⊢
        exact hs.inUse i hi
    · simp only [MrRes.withTab] at hi ⊢
      by_cases hslot : i = slot
      · subst hslot
        rw [Function.update_self]; exact ⟨rfl, rfl⟩
      · rw [Function.update_of_ne hslot] at hi ⊢
        exact hs.idle i hi
    · have hcard : (inUseSlots (Function.update s.tab.mrs slot
          { s.tab.mrs slot with sgt := none, mr := none, inUse := false })).card + 1 =
          (inUseSlots s.tab.mrs).card := card_inUse_clear hin rfl
      have hc := hs.count
      show s.tab.mrsRegistered - (s.tab.mrsDeregistered + 1) = _
      rw [← hcard] at hc
      simp only [MrRes.withTab]
      bv_omega
    · simp only [MrRes.withTab] at hi ⊢
      exact hs.ready slot hin

theorem MrConserved.deregisterAll (hs : MrConserved s) (js : List (Fin maxMrs)) :
    MrConserved (s.withTab (Dmaplane.deregisterAll s.ctx s.tab js)) := by
  induction js generalizing s with
  | nil => exact hs
  | cons j js ih =>
    rw [Dmaplane.deregisterAll]
    split
    · exact ih (hs.deregister (s.tab.mrs j).id)
    · exact ih hs

theorem conserved_undo (hs : MrConserved s) {accessFlags : BitVec 32} (copyOk : Bool)
    {r : Except Errno (BitVec 32) × MrRes} (h : Outcome s accessFlags r) :
    MrConserved (undoUnless copyOk r) := by
  have hr := hs.outcome h
  obtain ⟨r, s'⟩ := r
  cases r with
  | error e => exact hr
  | ok mrId =>
    cases copyOk with
    | true => exact hr
    | false => exact hr.deregister mrId

/-- With no MR in use, nothing depends on the context. -/
theorem MrConserved.withCtx (hs : MrConserved s) (ctx : MrCtx)
    (hctx : ctx.initialized = true → ctx.ibDev = true)
    (hidle : ∀ i, (s.tab.mrs i).inUse = false) : MrConserved { s with ctx := ctx } :=
  ⟨hs.sgts, hs.ibMrs, hs.copies, hs.copyFaults, hs.inUse, hs.idle, hs.count, hctx,
    fun i hi => by rw [hidle i] at hi; cases hi⟩

end Deregister

/-! ## Runs -/

section Runs

variable {s : MrRes}

theorem teardown_ctx {ctx : MrCtx} (h : ctx.initialized = true → ctx.ibDev = true) :
    ctx.teardown.initialized = true → ctx.teardown.ibDev = true := by
  unfold MrCtx.teardown
  split
  · intro hc; cases hc
  · exact h

theorem conserved_init : MrConserved mrResInit where
  sgts := exact_empty
  ibMrs := exact_empty
  copies := rfl
  copyFaults := rfl
  inUse := fun _ h => by cases h
  idle := fun _ _ => ⟨rfl, rfl⟩
  count := by
    have hnone : inUseSlots mrResInit.tab.mrs = ∅ :=
      Finset.filter_eq_empty_iff.mpr fun i _ h => by cases h
    rw [hnone]; rfl
  ctx := fun h => by cases h
  ready := fun _ h => by cases h

theorem conserved_step (hs : MrConserved s) (op : MrOp) : MrConserved (mrOp s op) := by
  cases op with
  | setup lkey ok copyOk =>
    simp only [mrOp]
    split
    · exact hs
    · rename_i hc
      simp only [Bool.or_eq_true, not_or, Bool.not_eq_true] at hc
      refine hs.withCtx _ ?_ fun i => ?_
      · cases copyOk with
        | true => exact fun _ => rfl
        | false =>
          simp only [Bool.false_eq_true, if_false]
          exact teardown_ctx fun _ => rfl
      · by_contra hi
        have := hs.ready i (by simpa using hi)
        rw [hc.1] at this; cases this
  | teardown =>
    have hall := hs.deregisterAll (List.finRange maxMrs)
    have hclear := deregisterAll_clears s.ctx (List.pairwise_lt_finRange maxMrs)
      fun i (_ : (s.tab.mrs i).inUse = true) => List.mem_finRange i
    simp only [mrOp]
    generalize deregisterAll s.ctx s.tab (List.finRange maxMrs) = tab at *
    exact hall.withCtx _ (teardown_ctx hs.ctx) hclear
  | register dev bufId accessFlags env copyOk =>
    exact conserved_undo hs copyOk (registerMr_outcome dev bufId accessFlags env s)
  | gpuRegister gpu handle env copyOk =>
    exact conserved_undo hs copyOk (gpuRegisterMr_outcome gpu handle env s)
  | deregister mrId => exact hs.deregister mrId

/-- The same table, next id and counters. -/
structure SameTable (s s' : MrRes) : Prop where
  mrs : s'.tab.mrs = s.tab.mrs
  nextMrId : s'.tab.nextMrId = s.tab.nextMrId
  registered : s'.tab.mrsRegistered = s.tab.mrsRegistered
  deregistered : s'.tab.mrsDeregistered = s.tab.mrsDeregistered
  gpuRegistered : s'.tab.gpuMrsRegistered = s.tab.gpuMrsRegistered

theorem Outcome.sameTable {accessFlags : BitVec 32} {r : Except Errno (BitVec 32) × MrRes}
    (h : Outcome s accessFlags r) {e : Errno} (he : r.1 = .error e) : SameTable s r.2 := by
  rcases h with ⟨_, h⟩ | ⟨⟨mrId, hok⟩, _⟩
  · exact ⟨h.mrs, h.nextMrId, h.registered, h.deregistered, h.gpuRegistered⟩
  · rw [hok] at he; cases he

/-- **MR resource conservation.** Whatever fails, in every state between operations each MR in use
owns one live sg_table and, iff it was registered for remote access, one live `ib_mr`, nothing
else that a registration allocated is live, none was freed twice, and the counters count the
slots in use; a registration that fails leaves the table, the next id and the counters. -/
theorem mr_conserved (h : mrResSys.Reachable s) :
    MrConserved s ∧
    (∀ dev bufId accessFlags env e, (rdmaEngineRegisterMr dev bufId accessFlags env s).1 = .error e →
      SameTable s (rdmaEngineRegisterMr dev bufId accessFlags env s).2) ∧
    ∀ gpu handle env e, (dmaplaneGpuRegisterMr gpu handle env s).1 = .error e →
      SameTable s (dmaplaneGpuRegisterMr gpu handle env s).2 := by
  refine ⟨h.invariant conserved_init fun s op s' hs hstep => ?_, ?_, ?_⟩
  · cases hstep; exact conserved_step hs op
  · intro dev bufId accessFlags env e he
    exact (registerMr_outcome dev bufId accessFlags env s).sameTable he
  · intro gpu handle env e he
    exact (gpuRegisterMr_outcome gpu handle env s).sameTable he

/-! ## A remote-access registration -/

/-- Buffer 1, of one page. -/
def onePageTable : BufTable :=
  bufTableInit.setBuffer 0
    { bufferZero with
      id := 1, allocType := .pages, size := 4096, inUse := true, vaddr := some ⟨0, 4096⟩
      pages := some ⟨0, [⟨1, 0⟩]⟩, nrPages := 1 }

def grantRegister : RegisterEnv :=
  { kvmalloc := true, kzalloc := true, sgAllocTable := true, dmaMapped := 1
    allocMr := .ok (2, 3, 4096), mapMrSg := .ok 1, postSend := none, pollCq := .cqe true }

/-- A registration whose completion does not arrive, then one that succeeds. -/
theorem mr_conserved_fastreg :
    ∃ s : MrRes, mrResSys.Reachable s ∧ (s.tab.mrs 0).mr.isSome = true ∧
      s.tab.sgts.live = {1} ∧ s.tab.mrsRegistered - s.tab.mrsDeregistered =
        BitVec.ofNat 64 (inUseSlots s.tab.mrs).card := by
  obtain ⟨s, hr, hmr, hlive⟩ : ∃ s : MrRes, mrResSys.Reachable s ∧
      (s.tab.mrs 0).mr.isSome = true ∧ s.tab.sgts.live = {1} :=
    Transition.Sys.exists_of_exec
      [.setup 7 true true, .register onePageTable 1 3 { grantRegister with pollCq := .timeout } true,
        .register onePageTable 1 3 grantRegister true] (by decide +kernel)
  exact ⟨s, hr, hmr, hlive, (mr_conserved hr).1.count⟩

end Runs

end Dmaplane
