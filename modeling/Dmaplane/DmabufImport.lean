import Dmaplane.BufferVisible
import Dmaplane.DmabufMmap

/-!
# Dmaplane.DmabufImport

The importers of a dma-buf: attach, map, unmap and detach (`driver/dmabuf_export.c`), beside all
that `bufSys` does.

A device attaches with a reference to the dma-buf of its own, which it drops after it has detached;
it unmaps before it detaches. A mapping is three allocations: the table, its entries and the
addresses in the device's address space. The entries name the pages of the buffer.

`importers_see_buffer` — an attached dma-buf is live, a mapped table shows exactly the pages of the
buffer, which are not freed under it, and nothing of a table is lost.
-/

namespace Dmaplane

open BufSt

/-- What `dmaplane_dmabuf_map` returns: the table, its entries and their mapping as blocks, and the
page of each entry. -/
structure DmabufSgt where
  sgt : Nat
  sgl : Nat
  iova : Nat
  pages : List (Option (Nat × Nat))
  deriving DecidableEq, Repr

/-- In the order in which `dmaplane_dmabuf_unmap` releases them. -/
def DmabufSgt.blocks (t : DmabufSgt) : List Nat := [t.iova, t.sgl, t.sgt]

structure DmabufAttachment where
  dmabuf : Nat
  sgts : List DmabufSgt
  deriving DecidableEq, Repr

/-- How the calls of `dmaplane_dmabuf_map` turn out. -/
structure DmabufMapEnv where
  kzalloc : Bool
  sgAllocTable : Option Errno
  dmaMapSgtable : Option Errno

/-- `dmaplane_dmabuf_map`, but for the counter. -/
def dmaplaneDmabufMap (ctx : DmaplaneDmabufCtx) (env : DmabufMapEnv) (h : Heap) :
    Except Errno DmabufSgt × Heap :=
  if env.kzalloc then
    let (sgt, h) := h.alloc
    match env.sgAllocTable with
    | some e => (.error e, h.free sgt)
    | none =>
      let (sgl, h) := h.alloc
      match env.dmaMapSgtable with
      | some e => (.error e, (h.free sgl).free sgt)
      | none =>
        let (iova, h) := h.alloc
        (.ok ⟨sgt, sgl, iova, (List.range ctx.nrPages).map ctx.page⟩, h)
  else (.error .ENOMEM, h)

structure ImportSt (Tid : Type) where
  buf : BufSt Tid
  attaches : List DmabufAttachment
  /-- `ctx->attach_count`. -/
  attachCount : Nat → BitVec 32
  sgHeap : Heap
  attachments : BitVec 64
  detachments : BitVec 64
  maps : BitVec 64
  unmaps : BitVec 64
  /-- Callbacks that found their context freed. -/
  staleReads : Nat

inductive ImportAct (Tid : Type) where
  | buf (a : BufAct Tid)
  | attach (d : Nat)
  | detach (att : DmabufAttachment)
  | map (att : DmabufAttachment) (env : DmabufMapEnv)
  | unmap (att : DmabufAttachment) (t : DmabufSgt)

variable {Tid : Type} [DecidableEq Tid]

namespace ImportSt

def attachedTo (s : ImportSt Tid) (d : Nat) : Nat := s.attaches.countP (·.dmabuf = d)

/-- `dmabuf->priv`. -/
def priv (s : ImportSt Tid) (d : Nat) : Nat := (s.buf.dmabufs d).priv

/-- A callback of the dma-buf `d` reads its context. -/
def readCtx (s : ImportSt Tid) (d : Nat) : ImportSt Tid :=
  { s with staleReads := s.staleReads + if s.priv d ∈ s.buf.ctxHeap.live then 0 else 1 }

/-- The references of the attachments are left to their owners. -/
def Spare (s : ImportSt Tid) : BufAct Tid → Bool
  | .dmabufPut d =>
    match (s.buf.dmabufs d).phase with
    | .live refs => s.attachedTo d < refs
    | _ => true
  | _ => true

def dmaplaneDmabufAttach (s : ImportSt Tid) (d : Nat) : ImportSt Tid :=
  let s := s.readCtx d
  { s with
    attachCount := Function.update s.attachCount (s.priv d) (s.attachCount (s.priv d) + 1)
    attachments := s.attachments + 1
    attaches := ⟨d, []⟩ :: s.attaches }

def dmaplaneDmabufDetach (s : ImportSt Tid) (att : DmabufAttachment) : ImportSt Tid :=
  let s := s.readCtx att.dmabuf
  let ctx := s.priv att.dmabuf
  { s with
    attachCount := Function.update s.attachCount ctx (s.attachCount ctx - 1)
    detachments := s.detachments + 1
    attaches := s.attaches.erase att }

/-- An attachment gets other tables. -/
def setSgts (s : ImportSt Tid) (att : DmabufAttachment) (sgts : List DmabufSgt) : ImportSt Tid :=
  { s with attaches := { att with sgts := sgts } :: s.attaches.erase att }

end ImportSt

def importStep (s : ImportSt Tid) : ImportAct Tid → Option (ImportSt Tid)
  | .buf a =>
    if s.Spare a then (bufStep s.buf a).map fun buf => { s with buf := buf } else none
  | .attach d =>
    (bufStep s.buf (.dmabufGet d)).map fun buf => { s with buf := buf }.dmaplaneDmabufAttach d
  | .detach att =>
    if att ∈ s.attaches ∧ att.sgts = [] then
      let s := s.dmaplaneDmabufDetach att
      (bufStep s.buf (.dmabufPut att.dmabuf)).map fun buf => { s with buf := buf }
    else none
  | .map att env =>
    if att ∈ s.attaches then
      let s := s.readCtx att.dmabuf
      match dmaplaneDmabufMap (s.buf.ctxs (s.priv att.dmabuf)) env s.sgHeap with
      | (.error _, h) => some { s with sgHeap := h }
      | (.ok t, h) =>
        some { s.setSgts att (t :: att.sgts) with sgHeap := h, maps := s.maps + 1 }
    else none
  | .unmap att t =>
    if att ∈ s.attaches ∧ t ∈ att.sgts then
      let s := s.readCtx att.dmabuf
      some { s.setSgts att (att.sgts.erase t) with
        sgHeap := s.sgHeap.freeAll t.blocks, unmaps := s.unmaps + 1 }
    else none

def importSys (Tid : Type) [DecidableEq Tid] : Transition.Sys (ImportSt Tid) (ImportAct Tid) where
  init := { buf := bufInit Tid, attaches := [], attachCount := fun _ => 0, sgHeap := .empty
            attachments := 0, detachments := 0, maps := 0, unmaps := 0, staleReads := 0 }
  step := importStep

/-! ## What a step leaves of an attached dma-buf -/

-- Its equations are made here, once for the proofs below.
attribute [local simp] importStep

section Attached

variable {s s' : BufSt Tid} {a : BufAct Tid} {d refs : Nat}

/-- A dma-buf that wraps a buffer did so before, with the same context, or has just been made. -/
theorem wrapping_step (hx : ExportInv s) (h : bufStep s a = some s')
    (hw : (s'.dmabufs d).phase.wrapping = true) :
    ((s.dmabufs d).phase.wrapping = true ∧ (s'.dmabufs d).priv = (s.dmabufs d).priv ∧
        s'.ctxs (s.dmabufs d).priv = s.ctxs (s.dmabufs d).priv) ∨
      ∃ t slot ctx, s.lock = some (t, .exportCtx slot ctx) ∧ d = s.nextDmabuf ∧
        (s'.dmabufs d).priv = ctx ∧ s'.ctxs = s.ctxs := by
  have hset : ∀ {d' : Nat} {phase : DmabufPhase},
      ((s.setPhase d' phase).dmabufs d).phase.wrapping = true →
      ((s.dmabufs d').phase.wrapping = true ∨ phase.wrapping = false) →
      (s.dmabufs d).phase.wrapping = true ∧
        ((s.setPhase d' phase).dmabufs d).priv = (s.dmabufs d).priv := by
    intro d' phase hnew hold
    by_cases hd : d = d'
    · subst hd
      rw [setPhase_self] at hnew ⊢
      exact ⟨hold.resolve_right (by rw [hnew]; exact Bool.noConfusion), rfl⟩
    · rw [setPhase_of_ne hd] at hnew ⊢
      exact ⟨hnew, rfl⟩
  cases bufStep_flow h with
  | exportCtx hl =>
    exact .inl ⟨hw, rfl, Function.update_of_ne (hx.priv_ne_alloc hw) _ _⟩
  | exportBuf hl =>
    rename_i t slot ctx
    by_cases hd : d = s.nextDmabuf
    · subst hd
      exact .inr ⟨t, slot, ctx, hl, rfl, by simp only [Function.update_self], rfl⟩
    · simp only [Function.update_of_ne hd] at hw ⊢
      exact .inl ⟨hw, trivial, trivial⟩
  | exportFd hl | exportFdFailed _ hl =>
    obtain ⟨-, -, hfresh, -⟩ := hx.sec _ _ hl
    obtain ⟨h1, h2⟩ := hset hw (.inl (by rw [hfresh]; rfl))
    exact .inl ⟨h1, h2, rfl⟩
  | refs hp | releaseEnter hp =>
    obtain ⟨h1, h2⟩ := hset hw (.inl (by rw [hp]; rfl))
    exact .inl ⟨h1, h2, rfl⟩
  | releaseLocked | releaseCount | releaseFree =>
    obtain ⟨h1, h2⟩ := hset hw (.inr rfl)
    exact .inl ⟨h1, h2, rfl⟩
  | pc | createFailed | createFilled | createPublish | destroyChecked | destroyFree | mmapInserted
  | mmapCount | vmaOpen | vmaClose | exportBufFailed | exportPublish | exportCount | exportFree =>
    exact .inl ⟨hw, rfl, rfl⟩

/-- What a step does to the references of a dma-buf. -/
inductive RefsFlow (a : BufAct Tid) (d : Nat) : Nat → DmabufPhase → Prop where
  | keep (refs : Nat) : RefsFlow a d refs (.live refs)
  | get (refs : Nat) : a = .dmabufGet d → RefsFlow a d refs (.live (refs + 1))
  | put (refs : Nat) : a = .dmabufPut d → RefsFlow a d (refs + 2) (.live (refs + 1))
  | last : a = .dmabufPut d → RefsFlow a d 1 .dying

theorem refs_step (hx : ExportInv s) (h : bufStep s a = some s')
    (hp : (s.dmabufs d).phase = .live refs) : RefsFlow a d refs (s'.dmabufs d).phase := by
  have hset : ∀ {d' : Nat} {old phase : DmabufPhase}, (s.dmabufs d').phase = old →
      (∀ refs, old ≠ .live refs) →
      RefsFlow a d refs ((s.setPhase d' phase).dmabufs d).phase := by
    intro d' old phase hold hno
    have hne : d ≠ d' := by
      rintro rfl
      exact hno refs (hold.symm.trans hp)
    rw [setPhase_of_ne hne, hp]
    exact .keep refs
  have hsame : RefsFlow a d refs (s.dmabufs d).phase := by rw [hp]; exact .keep refs
  cases a with
  | dmabufGet e =>
    simp only [bufStep] at h
    split at h <;> cases h
    rename_i refs' he
    by_cases hd : d = e
    · subst hd
      rw [hp] at he
      cases he
      rw [setPhase_self]
      exact .get refs rfl
    · rw [setPhase_of_ne hd]; exact hsame
  | dmabufPut e =>
    simp only [bufStep] at h
    split at h <;> cases h
    all_goals
      rename_i he
      by_cases hd : d = e
      · subst hd
        rw [hp] at he
        cases he
        rw [setPhase_self]
        first | exact .put _ rfl | exact .last rfl
      · rw [setPhase_of_ne hd]; exact hsame
  | exportBuf t exportOk =>
    simp only [bufStep] at h
    split at h
    · split at h <;> cases h
      · have hne : d ≠ s.nextDmabuf := by
          rintro rfl
          rw [hx.unused _ (Nat.le_refl _)] at hp; cases hp
        simp only [Function.update_of_ne hne]
        exact hsame
      · exact hsame
    · cases h
  | exportFd t fd =>
    simp only [bufStep] at h
    split at h
    · rename_i slot ctx d' hsec
      obtain ⟨-, -, hfresh, -⟩ := hx.sec _ _ (section?_some hsec)
      have hold : (s.dmabufs d').phase = .fresh := by rw [hfresh]
      split at h <;> cases h
      all_goals exact hset hold (by simp)
    · cases h
  | releaseEnter e | releaseLocked e | releaseCount e | releaseFree e =>
    simp only [bufStep] at h
    repeat' split at h
    all_goals cases h
    all_goals exact hset (by assumption) (by simp)
  | create | createPublish | createCopy | destroyCall | destroyLocked | destroyFree | mmap
  | mmapCount | vmaOpen | vmaClose | exportLocked | exportPublish | exportCount | exportFree =>
    simp only [bufStep] at h
    repeat' split at h
    all_goals cases h
    all_goals exact hsame

/-- The context of a dma-buf with references stays. -/
theorem priv_step (hx : ExportInv s) (h : bufStep s a = some s')
    (hp : (s.dmabufs d).phase = .live refs) :
    (s'.dmabufs d).priv = (s.dmabufs d).priv ∧
      s'.ctxs (s.dmabufs d).priv = s.ctxs (s.dmabufs d).priv := by
  have hflow := refs_step hx h hp
  have hw : (s'.dmabufs d).phase.wrapping = true := by
    generalize (s'.dmabufs d).phase = phase at hflow
    cases hflow <;> rfl
  rcases wrapping_step hx h hw with ⟨-, hpriv⟩ | ⟨-, -, -, -, rfl, -⟩
  · exact hpriv
  · rw [hx.unused _ (Nat.le_refl _)] at hp
    cases hp

/-- Only buffers made of pages are exported. -/
structure PagesInv (s : BufSt Tid) : Prop where
  wraps : ∀ d, (s.dmabufs d).phase.wrapping = true →
    (s.dev.buffers (s.ctxs (s.dmabufs d).priv).buf).allocType = .pages
  pending : ∀ t slot ctx, s.lock = some (t, .exportCtx slot ctx) →
    (s.dev.buffers slot).allocType = .pages

/-- What is exported, or about to be, keeps its kind. -/
theorem allocType_step (hx : ExportInv s) (hm : MemInv s) (h : bufStep s a = some s')
    {i : Fin maxBuffers} (hin : (s.dev.buffers i).inUse = true)
    (hclaim : i ∈ s.flagged ∨ ∀ t, s.lock ≠ some (t, .destroyChecked i)) :
    (s'.dev.buffers i).allocType = (s.dev.buffers i).allocType := by
  rcases inUse_step h hm hin with hsame | ⟨t, -, hl⟩
  · rw [hsame]
  · rcases hclaim with hf | hno
    · exact absurd hf (hx.sec _ _ hl)
    · exact absurd hl (hno t)

theorem pagesInv_step (hx : ExportInv s) (hm : MemInv s) (hi : PagesInv s)
    (h : bufStep s a = some s') : PagesInv s' := by
  refine ⟨fun d hw => ?_, fun t slot ctx hl => ?_⟩
  · rcases wrapping_step hx h hw with ⟨hold, hpriv, hctx⟩ | ⟨t, slot, ctx, hl, -, hpriv, hctxs⟩
    · have hwr : s.wrapped d = some (s.ctxs (s.dmabufs d).priv).buf := if_pos hold
      have hc := hx.slots.used d _ hwr
      rw [hpriv, hctx, allocType_step hx hm h (hx.inUse _ hc) ?_]
      · exact hi.wraps d hold
      · by_cases hf : (s.ctxs (s.dmabufs d).priv).buf ∈ s.flagged
        · exact .inl hf
        · refine .inr fun t hl => ?_
          have hexp : s.exporting = none := by rw [exporting, hl]; rfl
          exact hf (claimed_eq_flagged hexp ▸ hc)
    · obtain ⟨-, hin, -, hb⟩ := hx.sec _ _ hl
      rw [hpriv, hctxs, hb, allocType_step hx hm h hin (.inr fun t' hl' => ?_)]
      · exact hi.pending t slot ctx hl
      · rw [hl] at hl'; cases hl'
  · by_cases hold : s.lock = some (t, .exportCtx slot ctx)
    · obtain ⟨-, hin, -, -⟩ := hx.sec _ _ hold
      rw [allocType_step hx hm h hin (.inr fun t' hl' => ?_)]
      · exact hi.pending t slot ctx hold
      · rw [hold] at hl'; cases hl'
    · cases bufStep_flow h with
      | exportCtx _ _ _ hty => cases hl; exact hty
      | exportFdFailed _ _ hsec => rcases hsec with rfl | rfl <;> cases hl
      | pc | createFailed | vmaOpen | vmaClose | exportCount | refs | releaseEnter | releaseLocked
      | releaseCount | releaseFree => exact absurd hl hold
      | createFilled | createPublish | destroyChecked | destroyFree | mmapInserted | mmapCount
      | exportBuf | exportBufFailed | exportFd | exportPublish | exportFree => cases hl

theorem pagesInv (h : (bufSys Tid).ReachableWith FdSucceeds s) : PagesInv s := by
  refine h.invariant₂ (I := fun s => ExportInv s ∧ MemInv s)
    (fun s hs => ⟨exportInv hs, memInv hs.reachable⟩) ⟨fun d hw => ?_, fun t slot ctx hl => ?_⟩
    fun s a s' hI hi _ hs => pagesInv_step hI.1 hI.2 hi hs
  · cases hw
  · cases hl

end Attached

/-- A failed map has released what it has allocated; a table names the pages of the context. -/
theorem dmaplaneDmabufMap_spec (ctx : DmaplaneDmabufCtx) (env : DmabufMapEnv) (h : Heap) :
    (∃ e, (dmaplaneDmabufMap ctx env h).1 = .error e ∧
        h.Alloced (dmaplaneDmabufMap ctx env h).2 []) ∨
      ∃ t, (dmaplaneDmabufMap ctx env h).1 = .ok t ∧
        h.Alloced (dmaplaneDmabufMap ctx env h).2 t.blocks ∧
        t.pages = (List.range ctx.nrPages).map ctx.page := by
  have h1 := Heap.alloced_alloc h
  have h2 := h1.trans (Heap.alloced_alloc h.alloc.2)
  have h3 := h2.trans (Heap.alloced_alloc h.alloc.2.alloc.2)
  unfold dmaplaneDmabufMap
  cases env.kzalloc with
  | false => exact .inl ⟨_, rfl, Heap.Alloced.refl h⟩
  | true =>
    cases env.sgAllocTable with
    | some e => exact .inl ⟨e, rfl, h1.freeAll (List.Perm.refl _)⟩
    | none =>
      cases env.dmaMapSgtable with
      | some e => exact .inl ⟨e, rfl, h2.freeAll (List.Perm.swap _ _ _)⟩
      | none => exact .inr ⟨_, rfl, h3.perm (List.reverse_perm _).symm, rfl⟩

/-! ## The invariant -/

namespace ImportSt

def tables (s : ImportSt Tid) : List DmabufSgt := s.attaches.flatMap (·.sgts)

def ctx (s : ImportSt Tid) (d : Nat) : DmaplaneDmabufCtx := s.buf.ctxs (s.priv d)

/-- The references that are there for the attachments. -/
def Backed (s : ImportSt Tid) (d : Nat) : Prop :=
  ∃ refs, (s.buf.dmabufs d).phase = .live refs ∧ s.attachedTo d ≤ refs

end ImportSt

structure ImportInv (s : ImportSt Tid) : Prop where
  refs : ∀ d, 0 < s.attachedTo d → s.Backed d
  count : ∀ ctx, s.attachCount ctx =
    BitVec.ofNat 32 (s.attaches.countP fun att => s.priv att.dmabuf = ctx)
  attaches : s.attachments - s.detachments = BitVec.ofNat 64 s.attaches.length
  tables : s.maps - s.unmaps = BitVec.ofNat 64 s.tables.length
  heap : s.sgHeap.Holds (s.tables.flatMap (·.blocks))
  pages : ∀ att ∈ s.attaches, ∀ t ∈ att.sgts,
    t.pages = (List.range (s.ctx att.dmabuf).nrPages).map (s.ctx att.dmabuf).page
  fresh : s.staleReads = 0

section Import

variable {s : ImportSt Tid} {d refs : Nat} {att : DmabufAttachment}

omit [DecidableEq Tid] in
theorem attachedTo_pos (h : att ∈ s.attaches) : 0 < s.attachedTo att.dmabuf :=
  List.countP_pos_iff.mpr ⟨att, h, by simp⟩

omit [DecidableEq Tid] in
/-- The context of a live dma-buf is there. -/
theorem readCtx_live (hx : ExportInv s.buf) (hp : (s.buf.dmabufs d).phase = .live refs) :
    s.readCtx d = s := by
  have hlive : s.priv d ∈ s.buf.ctxHeap.live :=
    hx.ctxs.used (some d) _ (by rw [ctxOwner, hp]; rfl)
  rw [ImportSt.readCtx, if_pos hlive]; rfl

/-- A step of the buffers that leaves the attachments their references. -/
theorem ImportInv.withBuf (hi : ImportInv s) (hx : ExportInv s.buf) {a : BufAct Tid}
    {buf : BufSt Tid} (h : bufStep s.buf a = some buf)
    (hrefs : ∀ d, 0 < s.attachedTo d → { s with buf := buf }.Backed d) :
    ImportInv { s with buf := buf } := by
  have hkeep : ∀ att ∈ s.attaches, (buf.dmabufs att.dmabuf).priv = s.priv att.dmabuf ∧
      buf.ctxs (s.priv att.dmabuf) = s.ctx att.dmabuf := by
    intro att hatt
    obtain ⟨refs, hp, -⟩ := hi.refs _ (attachedTo_pos hatt)
    exact priv_step hx h hp
  refine ⟨hrefs, fun ctx => ?_, hi.attaches, hi.tables, hi.heap, fun att hatt t ht => ?_, hi.fresh⟩
  · rw [hi.count ctx]
    refine congrArg _ (List.countP_congr fun att hatt => ?_)
    rw [← (hkeep att hatt).1]
    exact Iff.rfl
  · obtain ⟨hpriv, hctx⟩ := hkeep att hatt
    have hsame : { s with buf := buf }.ctx att.dmabuf = s.ctx att.dmabuf := by
      show buf.ctxs (buf.dmabufs att.dmabuf).priv = _
      rw [hpriv, hctx]
    rw [hsame]
    exact hi.pages att hatt t ht

omit [DecidableEq Tid] in
theorem ImportInv.attach (hi : ImportInv s) (hx : ExportInv s.buf)
    (hp : (s.buf.dmabufs d).phase = .live refs) (hlt : s.attachedTo d < refs) :
    ImportInv (s.dmaplaneDmabufAttach d) := by
  unfold ImportSt.dmaplaneDmabufAttach
  rw [readCtx_live hx hp]
  refine ⟨fun d' hd' => ?_, fun ctx => ?_, ?_, hi.tables, hi.heap, ?_, hi.fresh⟩
  · by_cases hne : d' = d
    · subst hne
      refine ⟨refs, hp, ?_⟩
      simp only [ImportSt.attachedTo, List.countP_cons, decide_true, if_true]
      exact hlt
    · have hsame : (⟨d, []⟩ :: s.attaches).countP (·.dmabuf = d') = s.attachedTo d' :=
        List.countP_cons_of_neg (by simpa using Ne.symm hne)
      obtain ⟨refs', hp', hle⟩ := hi.refs d' (hsame ▸ hd')
      exact ⟨refs', hp', hsame.le.trans hle⟩
  · have hcons : (⟨d, []⟩ :: s.attaches).countP (fun att => s.priv att.dmabuf = ctx) =
        s.attaches.countP (fun att => s.priv att.dmabuf = ctx) +
          if s.priv d = ctx then 1 else 0 := by
      rw [List.countP_cons]; simp
    refine Eq.trans ?_ (congrArg _ hcons.symm)
    by_cases hc : s.priv d = ctx
    · subst hc
      simp only [Function.update_self, if_true, ofNat_succ, ← hi.count]
    · simp only [Function.update_of_ne (Ne.symm hc), if_neg hc, Nat.add_zero, ← hi.count]
  · have := hi.attaches
    simp only [List.length_cons, ofNat_succ]
    bv_omega
  · intro att hatt t ht
    rcases List.mem_cons.mp hatt with rfl | hatt
    · cases ht
    · exact hi.pages att hatt t ht

omit [DecidableEq Tid] in
theorem ImportInv.detach (hi : ImportInv s) (hx : ExportInv s.buf) (hatt : att ∈ s.attaches)
    (hempty : att.sgts = []) :
    ImportInv (s.dmaplaneDmabufDetach att) ∧
      ∃ refs, (s.buf.dmabufs att.dmabuf).phase = .live refs ∧
        (s.dmaplaneDmabufDetach att).attachedTo att.dmabuf < refs := by
  obtain ⟨refs, hp, hle⟩ := hi.refs _ (attachedTo_pos hatt)
  have hperm := List.perm_cons_erase hatt
  unfold ImportSt.dmaplaneDmabufDetach
  rw [readCtx_live hx hp]
  have hcount : ∀ d, (s.attaches.erase att).countP (·.dmabuf = d) +
      (if att.dmabuf = d then 1 else 0) = s.attachedTo d := by
    intro d
    rw [ImportSt.attachedTo, hperm.countP_eq, List.countP_cons]
    simp
  have hflat : s.tables.Perm ((s.attaches.erase att).flatMap (·.sgts)) := by
    have := hperm.flatMap_right (·.sgts)
    rwa [List.flatMap_cons, hempty, List.nil_append] at this
  have hself := hcount att.dmabuf
  rw [if_pos rfl] at hself
  refine ⟨⟨fun d hd => ?_, fun ctx => ?_, ?_, ?_, hi.heap.perm (hflat.flatMap_right _), ?_,
    hi.fresh⟩, refs, hp, ?_⟩
  · have hd' := hcount d
    obtain ⟨refs', hp', hle'⟩ := hi.refs d (Nat.lt_of_lt_of_le hd (Nat.le.intro hd'))
    exact ⟨refs', hp', (Nat.le.intro hd').trans hle'⟩
  · have hcons : s.attaches.countP (fun att => s.priv att.dmabuf = ctx) =
        (s.attaches.erase att).countP (fun att => s.priv att.dmabuf = ctx) +
          if s.priv att.dmabuf = ctx then 1 else 0 := by
      rw [hperm.countP_eq, List.countP_cons]; simp
    have hc := (hi.count ctx).trans (congrArg _ hcons)
    by_cases hctx : s.priv att.dmabuf = ctx
    · subst hctx
      rw [if_pos rfl, ofNat_succ] at hc
      simp only [Function.update_self, hc]
      exact BitVec.add_sub_cancel _ _
    · rw [if_neg hctx] at hc
      simp only [Function.update_of_ne (Ne.symm hctx), hc]
      rfl
  · have hlen := hperm.length_eq
    have := hi.attaches
    rw [hlen, List.length_cons, ofNat_succ] at this
    show s.attachments - (s.detachments + 1) = _
    bv_omega
  · exact hi.tables.trans (congrArg _ hflat.length_eq)
  · exact fun b hb => hi.pages b (List.mem_of_mem_erase hb)
  · show (s.attaches.erase att).countP (·.dmabuf = att.dmabuf) < refs
    omega

omit [DecidableEq Tid] in
/-- One attachment gets other tables; `rest` are the blocks of the other attachments. -/
theorem ImportInv.setSgts (hi : ImportInv s) (hatt : att ∈ s.attaches) (sgts : List DmabufSgt)
    (maps unmaps : BitVec 64) {h' : Heap}
    (hheap : ∀ rest, s.sgHeap.Holds (att.sgts.flatMap (·.blocks) ++ rest) →
      h'.Holds (sgts.flatMap (·.blocks) ++ rest))
    (hcount : maps - unmaps + BitVec.ofNat 64 att.sgts.length =
      s.maps - s.unmaps + BitVec.ofNat 64 sgts.length)
    (hpages : ∀ t ∈ sgts,
      t.pages = (List.range (s.ctx att.dmabuf).nrPages).map (s.ctx att.dmabuf).page) :
    ImportInv { s.setSgts att sgts with sgHeap := h', maps := maps, unmaps := unmaps } := by
  have hperm := List.perm_cons_erase hatt
  have hcountP : ∀ p : Nat → Bool, ({ att with sgts := sgts } :: s.attaches.erase att).countP
      (fun b => p b.dmabuf) = s.attaches.countP fun b => p b.dmabuf := by
    intro p
    rw [hperm.countP_eq, List.countP_cons, List.countP_cons]
  have hflat : s.tables.Perm (att.sgts ++ (s.attaches.erase att).flatMap (·.sgts)) :=
    hperm.flatMap_right fun b : DmabufAttachment => b.sgts
  refine ⟨fun d hd => ?_, fun ctx => ?_, ?_, ?_, ?_, fun b hb => ?_, hi.fresh⟩
  · have hsame := hcountP (· = d)
    obtain ⟨refs, hp, hle⟩ := hi.refs d (Nat.lt_of_lt_of_le hd hsame.le)
    exact ⟨refs, hp, hsame.le.trans hle⟩
  · exact (hi.count ctx).trans (congrArg _ (hcountP fun d => s.priv d = ctx).symm)
  · have hlen : (({ att with sgts := sgts } : DmabufAttachment) :: s.attaches.erase att).length =
        s.attaches.length := hperm.length_eq.symm
    exact hi.attaches.trans (congrArg _ hlen.symm)
  · have hold := hi.tables
    rw [hflat.length_eq, List.length_append, BitVec.ofNat_add] at hold
    show maps - unmaps = BitVec.ofNat 64 (sgts ++ (s.attaches.erase att).flatMap (·.sgts)).length
    rw [List.length_append, BitVec.ofNat_add]
    bv_omega
  · show h'.Holds ((sgts ++ (s.attaches.erase att).flatMap (·.sgts)).flatMap (·.blocks))
    rw [List.flatMap_append]
    refine hheap _ (hi.heap.perm ?_)
    rw [← List.flatMap_append]
    exact hflat.flatMap_right _
  · rcases List.mem_cons.mp hb with rfl | hb
    · exact hpages
    · exact hi.pages b (List.mem_of_mem_erase hb)

omit [DecidableEq Tid] in
theorem ImportInv.map (hi : ImportInv s) (hatt : att ∈ s.attaches) {t : DmabufSgt} {h' : Heap}
    (ha : s.sgHeap.Alloced h' t.blocks)
    (ht : t.pages = (List.range (s.ctx att.dmabuf).nrPages).map (s.ctx att.dmabuf).page) :
    ImportInv { s.setSgts att (t :: att.sgts) with sgHeap := h', maps := s.maps + 1 } := by
  refine hi.setSgts hatt _ _ s.unmaps (fun rest hr => ?_) ?_ fun t' ht' => ?_
  · rw [List.flatMap_cons, List.append_assoc]
    exact hr.alloced ha
  · rw [List.length_cons, ofNat_succ]
    bv_omega
  · rcases List.mem_cons.mp ht' with rfl | ht'
    · exact ht
    · exact hi.pages att hatt t' ht'

omit [DecidableEq Tid] in
theorem ImportInv.unmap (hi : ImportInv s) (hatt : att ∈ s.attaches) {t : DmabufSgt}
    (ht : t ∈ att.sgts) :
    ImportInv { s.setSgts att (att.sgts.erase t) with
      sgHeap := s.sgHeap.freeAll t.blocks, unmaps := s.unmaps + 1 } := by
  have hperm := List.perm_cons_erase ht
  refine hi.setSgts hatt _ s.maps _ (fun rest hr => ?_) ?_ fun t' ht' =>
    hi.pages att hatt t' (List.mem_of_mem_erase ht')
  · refine (hr.perm ?_).freeAll
    rw [← List.append_assoc, ← List.flatMap_cons]
    exact (hperm.flatMap_right _).append_right rest
  · rw [hperm.length_eq, List.length_cons, ofNat_succ]
    bv_omega

/-- A reference that the attachments do not need may be dropped. -/
theorem ImportInv.spare (hi : ImportInv s) (hx : ExportInv s.buf) {a : BufAct Tid} {buf : BufSt Tid}
    (hspare : s.Spare a = true) (h : bufStep s.buf a = some buf) :
    ImportInv { s with buf := buf } := by
  refine hi.withBuf hx h fun d hd => ?_
  obtain ⟨refs, hp, hle⟩ := hi.refs d hd
  have hflow := refs_step hx h hp
  generalize hph : (buf.dmabufs d).phase = phase at hflow
  cases hflow with
  | keep => exact ⟨refs, hph, hle⟩
  | get _ ha => exact ⟨refs + 1, hph, Nat.le_succ_of_le hle⟩
  | put refs ha =>
    subst ha
    simp only [ImportSt.Spare, hp, decide_eq_true_eq] at hspare
    exact ⟨refs + 1, hph, Nat.le_of_lt_succ hspare⟩
  | last ha =>
    subst ha
    simp only [ImportSt.Spare, hp, decide_eq_true_eq] at hspare
    omega

theorem importInv_step {s' : ImportSt Tid} {a : ImportAct Tid} (hi : ImportInv s)
    (hx : ExportInv s.buf) (h : importStep s a = some s') : ImportInv s' := by
  cases a with
  | buf a =>
    simp only [importStep] at h
    split at h
    · rename_i hspare
      obtain ⟨buf, hs, rfl⟩ := Option.map_eq_some_iff.mp h
      exact hi.spare hx hspare hs
    · cases h
  | attach d =>
    obtain ⟨buf, hs, rfl⟩ := Option.map_eq_some_iff.mp h
    have hi' := hi.spare hx rfl hs
    have hx' := exportInv_step (a := .dmabufGet d) hx trivial hs
    obtain ⟨refs, hp, hp'⟩ : ∃ refs, (s.buf.dmabufs d).phase = .live refs ∧
        (buf.dmabufs d).phase = .live (refs + 1) := by
      simp only [bufStep] at hs
      split at hs <;> cases hs
      rename_i refs hp
      exact ⟨refs, hp, by rw [setPhase_self]⟩
    refine hi'.attach hx' hp' ?_
    rcases Nat.eq_zero_or_pos (s.attachedTo d) with h0 | hpos
    · exact Nat.lt_succ_of_le (h0.trans_le (Nat.zero_le _))
    · obtain ⟨refs', hp₁, hle⟩ := hi.refs d hpos
      rw [hp] at hp₁
      cases hp₁
      exact Nat.lt_succ_of_le hle
  | detach att =>
    simp only [importStep] at h
    split at h
    · rename_i hok
      obtain ⟨buf, hs, rfl⟩ := Option.map_eq_some_iff.mp h
      obtain ⟨hi', refs, hp, hlt⟩ := hi.detach hx hok.1 hok.2
      refine hi'.spare hx ?_ hs
      show (match (s.buf.dmabufs att.dmabuf).phase with
        | .live refs => decide ((s.dmaplaneDmabufDetach att).attachedTo att.dmabuf < refs)
        | _ => true) = true
      rw [hp]
      exact decide_eq_true hlt
    · cases h
  | map att env =>
    simp only [importStep] at h
    split at h
    · rename_i hatt
      obtain ⟨refs, hp, -⟩ := hi.refs _ (attachedTo_pos hatt)
      rw [readCtx_live hx hp] at h
      have hspec := dmaplaneDmabufMap_spec (s.ctx att.dmabuf) env s.sgHeap
      change (match dmaplaneDmabufMap (s.ctx att.dmabuf) env s.sgHeap with
        | (.error _, h) => some { s with sgHeap := h }
        | (.ok t, h) => some { s.setSgts att (t :: att.sgts) with
            sgHeap := h, maps := s.maps + 1 }) = some s' at h
      generalize dmaplaneDmabufMap (s.ctx att.dmabuf) env s.sgHeap = r at hspec h
      obtain ⟨res, h'⟩ := r
      rcases hspec with ⟨e, rfl, ha⟩ | ⟨t, rfl, ha, hpages⟩ <;> cases h
      · exact ⟨hi.refs, hi.count, hi.attaches, hi.tables, hi.heap.alloced ha, hi.pages, hi.fresh⟩
      · exact hi.map hatt ha hpages
    · cases h
  | unmap att t =>
    simp only [importStep] at h
    split at h
    · rename_i hok
      obtain ⟨refs, hp, -⟩ := hi.refs _ (attachedTo_pos hok.1)
      rw [readCtx_live hx hp] at h
      cases h
      exact hi.unmap hok.1 hok.2
    · cases h

end Import

/-! ## Runs -/

/-- Every buffer has fewer than `2 ^ 31` VMAs, and `dma_buf_fd` succeeds. -/
def ImportsCounted (s : ImportSt Tid) : ImportAct Tid → Prop
  | .buf a => MmapsCounted s.buf a
  | _ => True

section Runs

variable {s : ImportSt Tid}

/-- To the buffers, an importer takes and drops a reference. -/
theorem importSys_buf (h : (importSys Tid).ReachableWith ImportsCounted s) :
    (bufSys Tid).ReachableWith MmapsCounted s.buf := by
  refine Transition.Sys.Steps.project (T := bufSys Tid) ImportSt.buf ?_ h
  intro s a s' hok hs
  cases a with
  | buf a =>
    simp only [importSys, importStep] at hs
    split at hs
    · obtain ⟨buf, hbuf, rfl⟩ := Option.map_eq_some_iff.mp hs
      exact .inr ⟨a, hok, hbuf⟩
    · cases hs
  | attach d =>
    obtain ⟨buf, hbuf, rfl⟩ := Option.map_eq_some_iff.mp hs
    exact .inr ⟨.dmabufGet d, trivial, hbuf⟩
  | detach att =>
    simp only [importSys, importStep] at hs
    split at hs
    · obtain ⟨buf, hbuf, rfl⟩ := Option.map_eq_some_iff.mp hs
      exact .inr ⟨.dmabufPut att.dmabuf, trivial, hbuf⟩
    · cases hs
  | map att env =>
    simp only [importSys, importStep] at hs
    split at hs
    · split at hs <;> cases hs
      · exact .inl rfl
      · exact .inl rfl
    · cases hs
  | unmap att t =>
    simp only [importSys, importStep] at hs
    split at hs <;> cases hs
    exact .inl rfl

theorem importInv (h : (importSys Tid).ReachableWith ImportsCounted s) : ImportInv s := by
  refine h.invariant₂ (I := fun s => ExportInv s.buf) (fun s hs => ?_) ?_ ?_
  · exact exportInv ((importSys_buf hs).mono fun _ _ => MmapsCounted.fdSucceeds)
  · have hzero : (0 : BitVec 64) - 0 = BitVec.ofNat 64 0 := by decide
    refine ⟨fun d hd => ?_, fun ctx => rfl, hzero, hzero, Heap.holds_empty, fun att hatt => ?_, rfl⟩
    · cases hd
    · cases hatt
  · exact fun s a s' hx hi _ hs => importInv_step hi hx hs

/-- What holds while devices have a buffer attached and mapped. -/
structure ImportSt.ImportOk (s : ImportSt Tid) : Prop where
  /-- An attached dma-buf is live, wraps a buffer in use and holds a reference for each
  attachment. -/
  attached : ∀ att ∈ s.attaches, ∃ slot refs, (s.buf.dmabufs att.dmabuf).phase = .live refs ∧
    s.attachedTo att.dmabuf ≤ refs ∧ s.buf.wrapped att.dmabuf = some slot ∧
    (s.buf.dev.buffers slot).inUse = true ∧
    -- every mapped table names the pages of that buffer, in order, and they are live
    ∀ t ∈ att.sgts,
      t.pages = (List.range (s.buf.dev.buffers slot).nrPages).map (s.buf.dev.buffers slot).frame ∧
      ∀ i < (s.buf.dev.buffers slot).nrPages, ∃ p ∈ s.buf.mem.live, t.pages[i]? = some (some (p, 0))
  count : ∀ d, (s.buf.dmabufs d).phase.ownsCtx = true →
    s.attachCount (s.priv d) = BitVec.ofNat 32 (s.attachedTo d)
  balance : s.attachments - s.detachments = BitVec.ofNat 64 s.attaches.length ∧
    s.maps - s.unmaps = BitVec.ofNat 64 s.tables.length
  /-- No table is lost, released twice or shared. -/
  tables : s.sgHeap.Holds (s.tables.flatMap (·.blocks))
  fresh : s.staleReads = 0

omit [DecidableEq Tid] in
/-- The mapped pages are pages of the buffer. -/
theorem frame_live {s : BufSt Tid} (hm : MemInv s) {slot : Fin maxBuffers}
    (hin : (s.dev.buffers slot).inUse = true) (hty : (s.dev.buffers slot).allocType = .pages)
    {i : Nat} (hi : i < (s.dev.buffers slot).nrPages) :
    ∃ p ∈ s.mem.live, (s.dev.buffers slot).frame i = some (p, 0) := by
  obtain ⟨array, harr, hlen, -⟩ := (hm.wf slot (.inl hin)).pages hty
  have hi' : i < array.pages.length := hlen ▸ hi
  refine ⟨array.pages[i].block, hm.live hin ?_, ?_⟩
  · rw [DmaplaneBuffer.blocks, hty, harr]
    exact List.mem_append_right _
      (List.mem_append_left _ (List.mem_map_of_mem (List.getElem_mem hi')))
  · simp [DmaplaneBuffer.frame, hty, harr, hi']

theorem importers_see_buffer (s : ImportSt Tid)
    (h : (importSys Tid).ReachableWith ImportsCounted s) : s.ImportOk := by
  have hi := importInv h
  have hb := importSys_buf h
  have hx := exportInv (hb.mono fun _ _ => MmapsCounted.fdSucceeds)
  have hpages := pagesInv (hb.mono fun _ _ => MmapsCounted.fdSucceeds)
  refine ⟨fun att hatt => ?_, fun d hd => ?_, ⟨hi.attaches, hi.tables⟩, hi.heap, hi.fresh⟩
  · obtain ⟨refs, hp, hle⟩ := hi.refs _ (attachedTo_pos hatt)
    have hw : (s.buf.dmabufs att.dmabuf).phase.wrapping = true := by rw [hp]; rfl
    have hwr : s.buf.wrapped att.dmabuf = some (s.ctx att.dmabuf).buf := if_pos hw
    obtain ⟨hin, hctx, -⟩ := (buffers_visible hb).wraps _ _ hwr
    have hty : (s.buf.dev.buffers (s.ctx att.dmabuf).buf).allocType = .pages := hpages.wraps _ hw
    refine ⟨_, refs, hp, hle, hwr, hin, fun t ht => ?_⟩
    have hframe : t.pages = (List.range (s.buf.dev.buffers (s.ctx att.dmabuf).buf).nrPages).map
        (s.buf.dev.buffers (s.ctx att.dmabuf).buf).frame := by
      rw [hi.pages att hatt t ht]
      generalize (s.ctx att.dmabuf).buf = slot at hctx hty
      rw [ImportSt.ctx, ImportSt.priv, hctx]
      refine List.map_congr_left fun i _ => ?_
      rw [DmaplaneBuffer.frame, hty]; rfl
    refine ⟨hframe, fun i hlt => ?_⟩
    obtain ⟨p, hlive, hf⟩ := frame_live (memInv hb.reachable) hin hty hlt
    refine ⟨p, hlive, ?_⟩
    rw [hframe, List.getElem?_map, List.getElem?_range hlt, ← hf]; rfl
  · rw [hi.count]
    refine congrArg _ (List.countP_congr fun att hatt => ?_)
    obtain ⟨refs, hp, -⟩ := hi.refs _ (attachedTo_pos hatt)
    have hown : s.buf.ctxOwner (some att.dmabuf) = some (s.priv att.dmabuf) := by
      rw [ctxOwner, hp]; rfl
    have hown' : s.buf.ctxOwner (some d) = some (s.priv d) := if_pos hd
    rw [decide_eq_true_eq, decide_eq_true_eq]
    -- two dma-bufs have not the same context
    refine ⟨fun he => ?_, fun he => by rw [he]⟩
    rw [he] at hown
    exact Option.some.inj (hx.ctxs.unique _ _ _ hown hown')

/-- A device attaches to an exported buffer and maps it, while the fd is closed. -/
def attachAndMap : List (ImportAct (Fin 2)) :=
  (createOnePage ++ ([.exportLocked 0 1 true, .exportBuf 0 true, .exportFd 0 .ok] :
    List (BufAct (Fin 2)))).map .buf ++
    [.attach 0, .buf (.exportPublish 0), .buf (.dmabufPut 0),
      .map ⟨0, []⟩ ⟨true, none, some .ENOMEM⟩, .map ⟨0, []⟩ ⟨true, none, none⟩]

instance (s : ImportSt Tid) (a : ImportAct Tid) : Decidable (ImportsCounted s a) :=
  match a with
  | .buf a => inferInstanceAs (Decidable (MmapsCounted s.buf a))
  | .attach _ | .detach _ | .map .. | .unmap .. => inferInstanceAs (Decidable True)

theorem importers_see_buffer_mapped : ∃ s : ImportSt (Fin 2), s.maps = 1 ∧ s.unmaps = 0 ∧
    (s.buf.dmabufs 0).phase = .live 1 ∧ s.ImportOk := by
  obtain ⟨s, hr, hmaps, hunmaps, hp⟩ : ∃ s : ImportSt (Fin 2),
      (importSys (Fin 2)).ReachableWith ImportsCounted s ∧ s.maps = 1 ∧ s.unmaps = 0 ∧
        (s.buf.dmabufs 0).phase = .live 1 :=
    Transition.Sys.exists_of_execWith attachAndMap (by decide +kernel)
  exact ⟨s, hmaps, hunmaps, hp, importers_see_buffer s hr⟩

end Runs

end Dmaplane
