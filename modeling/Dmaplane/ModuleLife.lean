import Dmaplane.Device
import Dmaplane.GpuDisabled

/-!
# Dmaplane.ModuleLife

The module loaded and unloaded any number of times: `dmaplane_init` of `driver/main.c` with its
error ladder, the ioctls of `Device` while it is loaded, and `dmaplane_exit`.

What `dmaplane_init` registers is a record of objects made with one another, so that a release too
many, too early or forgotten shows. The memory allocators and the verbs layer outlive the module:
`zeroed` is the device that `kzalloc` gives, on what is left of the last one.

* `module_life` — a load that fails and an unload leave nothing behind, whatever happened before.
-/

namespace Dmaplane

/-- What `dmaplane_init` gets. `platform_device_alloc` and `platform_device_add` are two, since the
ladder tells them apart. -/
inductive LoadField where
  | dev | pdev | pdevAdded | region | cdev | cls | device | debugfs
  | gpuBuffers | getPages | putPages | freePageTable
  deriving DecidableEq, Repr

/-- What an object is made with, and needs until it is released. -/
def loadDeps : LoadField → List LoadField
  | .dev | .getPages | .putPages | .freePageTable => []
  | .pdev | .region | .cls | .debugfs | .gpuBuffers => [.dev]
  | .pdevAdded => [.pdev]
  | .cdev => [.dev, .region]
  | .device => [.cls, .region]

abbrev LoadObjs := Objects LoadField

/-- What the kernel answers to one load; `none` is success. -/
structure LoadEnv where
  kzalloc : Bool
  pdevAlloc : Bool
  pdevAdd : Option Errno
  mask64 : Option Errno
  mask32 : Option Errno
  region : Option Errno
  cdevAdd : Option Errno
  cls : Option Errno
  device : Option Errno
  debugfs : Bool
  /-- With `CONFIG_DMAPLANE_GPU`, what the GPU section finds. -/
  gpu : Option GpuInitEnv

namespace LoadObjs

def tryCreate (o : LoadObjs) (f : LoadField) (ok : Bool) : LoadObjs :=
  Objects.tryCreate loadDeps o f ok

/-- `dmaplane_gpu_exit`. -/
def gpuExit (o : LoadObjs) : LoadObjs :=
  Objects.destroyAll o [.getPages, .putPages, .freePageTable]

/-- `dmaplane_gpu_init`. -/
def gpuInit (found : NvSymbols) (o : LoadObjs) : Option Errno × LoadObjs :=
  let o := ((o.tryCreate .getPages found.getPages).tryCreate .putPages found.putPages).tryCreate
    .freePageTable found.freePageTable
  if o.ptr .getPages = none ∨ o.ptr .putPages = none ∨ o.ptr .freePageTable = none then
    (some .ENOENT, gpuExit o)
  else (none, o)

/-- The GPU section of `dmaplane_init`. -/
def gpuSection (env : GpuInitEnv) (o : LoadObjs) : LoadObjs :=
  let o := o.tryCreate .gpuBuffers env.kcalloc
  if !env.kcalloc then o
  else
    match gpuInit env.symbols o with
    | (some _, o) => o.destroy .gpuBuffers
    | (none, o) => o

def errFreeDev (o : LoadObjs) : LoadObjs := o.destroy .dev
def errPutPdev (o : LoadObjs) : LoadObjs := errFreeDev (o.destroy .pdev)
/-- `platform_device_unregister` puts the device as well. -/
def unregisterPdev (o : LoadObjs) : LoadObjs := (o.destroy .pdevAdded).destroy .pdev
def errUnregPdev (o : LoadObjs) : LoadObjs := errFreeDev (unregisterPdev o)
def errUnregRegion (o : LoadObjs) : LoadObjs := errUnregPdev (o.destroy .region)
def errCdevDel (o : LoadObjs) : LoadObjs := errUnregRegion (o.destroy .cdev)
def errClassDestroy (o : LoadObjs) : LoadObjs := errCdevDel (o.destroy .cls)

end LoadObjs

open LoadObjs

/-- `dmaplane_init`; its GPU section alone is in `GpuCalls`. -/
def LoadObjs.dmaplaneInit (env : LoadEnv) (o : LoadObjs) : Option Errno × LoadObjs :=
  let o := o.tryCreate .dev env.kzalloc
  if !env.kzalloc then (some .ENOMEM, o)
  else
    let o := o.tryCreate .pdev env.pdevAlloc
    if !env.pdevAlloc then (some .ENOMEM, errFreeDev o)
    else
      let o := o.tryCreate .pdevAdded env.pdevAdd.isNone
      match env.pdevAdd with
      | some e => (some e, errPutPdev o)
      | none =>
        match env.mask64, env.mask32 with
        | some _, some e => (some e, errUnregPdev o)
        | _, _ =>
          let o := o.tryCreate .region env.region.isNone
          match env.region with
          | some e => (some e, errUnregPdev o)
          | none =>
            let o := o.tryCreate .cdev env.cdevAdd.isNone
            match env.cdevAdd with
            | some e => (some e, errUnregRegion o)
            | none =>
              let o := o.tryCreate .cls env.cls.isNone
              match env.cls with
              | some e => (some e, errCdevDel o)
              | none =>
                let o := o.tryCreate .device env.device.isNone
                match env.device with
                | some e => (some e, errClassDestroy o)
                | none =>
                  let o := o.tryCreate .debugfs env.debugfs
                  (none, match env.gpu with
                    | some gpu => gpuSection gpu o
                    | none => o)

/-! ## The module -/

/-- The device as `dmaplane_init` sets it up. The heaps are not the module's. -/
def DeviceSt.zeroed (d : DeviceSt) : DeviceSt :=
  { buf := ⟨bufTableInit, d.buf.mem⟩
    rdma := { rdmaInit with
      objs := { d.rdma.objs with ptr := fun _ => none }, gidRefs := d.rdma.gidRefs }
    mr := { mrResInit with
      tab := { mrTableInit with sgts := d.mr.tab.sgts, ibMrs := d.mr.tab.ibMrs }
      pageCopies := d.mr.pageCopies }
    stranded := d.stranded }

structure ModuleSt where
  objs : LoadObjs
  dev : DeviceSt
  loaded : Bool
  /-- Blocks of DMA memory that were allocated when their platform device was unregistered. -/
  orphans : Nat

inductive ModuleAct where
  | insmod (env : LoadEnv)
  | call (c : DevCall)
  | rmmod

/-- `dmaplane_exit`. -/
def ModuleSt.dmaplaneExit (s : ModuleSt) : ModuleSt :=
  let o := s.objs.destroyIf .debugfs
  let o := (((o.destroy .device).destroy .cls).destroy .cdev).destroy .region
  let o := gpuExit (o.destroyIf .gpuBuffers)
  let dev := s.dev.dmaplaneExit
  { objs := errFreeDev (unregisterPdev o)
    dev := dev
    loaded := false
    orphans := s.orphans + dev.buf.mem.live.card }

def moduleStep (s : ModuleSt) : ModuleAct → Option ModuleSt
  | .insmod env =>
    if s.loaded then none
    else
      match LoadObjs.dmaplaneInit env s.objs with
      | (some _, objs) => some { s with objs := objs }
      | (none, objs) => some { s with objs := objs, dev := s.dev.zeroed, loaded := true }
  | .call c => if s.loaded then some { s with dev := devCall s.dev c } else none
  | .rmmod => if s.loaded then some s.dmaplaneExit else none

def moduleSys : Transition.Sys ModuleSt ModuleAct where
  init := { objs := .empty, dev := deviceSys.init, loaded := false, orphans := 0 }
  step := moduleStep

/-! ## Loading -/

/-- What a loaded module has, with debugfs or without, with a GPU or without. -/
def loadedFields (debugfs gpu : Bool) : List LoadField :=
  (if gpu then [.freePageTable, .putPages, .getPages, .gpuBuffers] else []) ++
    (if debugfs then [.debugfs] else []) ++
      [.device, .cls, .cdev, .region, .pdevAdded, .pdev, .dev]

/-- From nothing, the fields `fs` are there. -/
abbrev Holds (o₀ o : LoadObjs) (fs : List LoadField) : Prop := Objects.Built loadDeps o₀ o fs

section Load

variable {o₀ o : LoadObjs} {fs : List LoadField}

section Ladder

variable (hnull : ∀ g, o₀.ptr g = none)
include hnull

theorem Holds.errFreeDev (h : Holds o₀ o [.dev]) : Holds o₀ (errFreeDev o) [] :=
  h.release hnull (by decide) (by decide)

theorem Holds.errPutPdev (h : Holds o₀ o [.pdev, .dev]) : Holds o₀ (errPutPdev o) [] :=
  .errFreeDev hnull (h.release hnull (by decide) (by decide))

theorem Holds.errUnregPdev (h : Holds o₀ o [.pdevAdded, .pdev, .dev]) : Holds o₀ (errUnregPdev o) [] :=
  .errFreeDev hnull
    ((h.release hnull (by decide) (by decide)).release hnull (by decide) (by decide))

theorem Holds.errUnregRegion (h : Holds o₀ o [.region, .pdevAdded, .pdev, .dev]) :
    Holds o₀ (errUnregRegion o) [] :=
  .errUnregPdev hnull (h.release hnull (by decide) (by decide))

theorem Holds.errCdevDel (h : Holds o₀ o [.cdev, .region, .pdevAdded, .pdev, .dev]) :
    Holds o₀ (errCdevDel o) [] :=
  .errUnregRegion hnull (h.release hnull (by decide) (by decide))

theorem Holds.errClassDestroy (h : Holds o₀ o [.cls, .cdev, .region, .pdevAdded, .pdev, .dev]) :
    Holds o₀ (errClassDestroy o) [] :=
  .errCdevDel hnull (h.release hnull (by decide) (by decide))

theorem Holds.tryCreate (h : Holds o₀ o fs) {f : LoadField} (hf : f ∉ fs)
    (hd : ∀ d ∈ loadDeps f, d ∈ fs) (ok : Bool) :
    Holds o₀ (o.tryCreate f ok) (if ok then f :: fs else fs) := by
  obtain ⟨hok, hfail⟩ := h.stage hnull hf hd
  cases ok with
  | true => exact hok
  | false =>
    rw [LoadObjs.tryCreate, hfail]
    exact h

theorem Holds.ptr_none_iff (h : Holds o₀ o fs) (f : LoadField) : o.ptr f = none ↔ f ∉ fs :=
  ⟨fun hn hm => (h.new f hm).2 hn, fun hm => (h.old f hm).trans (hnull f)⟩

/-- Nothing is made with the symbols. -/
theorem Holds.gpuExit (h : Holds o₀ o fs) :
    Holds o₀ (gpuExit o)
      (((fs.filter (· ≠ .getPages)).filter (· ≠ .putPages)).filter (· ≠ .freePageTable)) := by
  have h1 := h.releaseIf hnull (f := .getPages) fun g _ => by cases g <;> decide
  have h2 := h1.releaseIf hnull (f := .putPages) fun g _ => by cases g <;> decide
  exact h2.releaseIf hnull (f := .freePageTable) fun g _ => by cases g <;> decide

/-- All three symbols, or none of them. -/
theorem Holds.gpuInit {debugfs : Bool}
    (h : Holds o₀ o (.gpuBuffers :: loadedFields debugfs false)) (found : NvSymbols) :
    if found.getPages && found.putPages && found.freePageTable then
      (gpuInit found o).1 = none ∧ Holds o₀ (gpuInit found o).2 (loadedFields debugfs true)
    else
      (gpuInit found o).1 = some .ENOENT ∧
        Holds o₀ (gpuInit found o).2 (.gpuBuffers :: loadedFields debugfs false) := by
  have h1 := h.tryCreate hnull (f := .getPages) (by cases debugfs <;> decide)
    (fun d hd => by cases hd) found.getPages
  have h2 := h1.tryCreate hnull (f := .putPages)
    (by cases found.getPages <;> cases debugfs <;> decide) (fun d hd => by cases hd) found.putPages
  have h3 := h2.tryCreate hnull (f := .freePageTable)
    (by cases found.getPages <;> cases found.putPages <;> cases debugfs <;> decide)
    (fun d hd => by cases hd) found.freePageTable
  unfold LoadObjs.gpuInit
  generalize ((o.tryCreate .getPages found.getPages).tryCreate .putPages found.putPages).tryCreate
    .freePageTable found.freePageTable = o₃ at h3 ⊢
  simp only [h3.ptr_none_iff hnull]
  have hexit := h3.gpuExit hnull
  obtain ⟨getPages, putPages, freePageTable⟩ := found
  cases getPages <;> cases putPages <;> cases freePageTable <;> cases debugfs <;>
    first
      | exact ⟨rfl, h3⟩
      | exact ⟨rfl, hexit⟩

/-- The GPU section gets the array and the three symbols, or nothing. -/
theorem Holds.gpuSection {debugfs : Bool} (h : Holds o₀ o (loadedFields debugfs false))
    (env : GpuInitEnv) : Holds o₀ (gpuSection env o) (loadedFields debugfs env.enabled) := by
  have harr := h.tryCreate hnull (f := .gpuBuffers) (by cases debugfs <;> decide)
    (by cases debugfs <;> decide) env.kcalloc
  unfold LoadObjs.gpuSection
  cases hk : env.kcalloc with
  | false =>
    rw [hk] at harr
    rw [GpuInitEnv.enabled, hk]
    exact harr
  | true =>
    rw [hk] at harr
    simp only [Bool.not_true, Bool.false_eq_true, if_false, if_true] at harr ⊢
    have hinit := harr.gpuInit hnull env.symbols
    generalize LoadObjs.gpuInit env.symbols (o.tryCreate .gpuBuffers true) = r at hinit ⊢
    obtain ⟨err, o₁⟩ := r
    rw [GpuInitEnv.enabled, hk, Bool.true_and]
    split at hinit
    · rename_i hall
      obtain ⟨rfl, hall'⟩ := hinit
      rw [hall]
      exact hall'
    · rename_i hmiss
      obtain ⟨rfl, hnone⟩ := hinit
      rw [Bool.not_eq_true] at hmiss
      rw [hmiss]
      cases debugfs with
      | true => exact hnone.release hnull (by decide) (by decide)
      | false => exact hnone.release hnull (by decide) (by decide)

end Ladder

/-- The kernel grants what a load cannot do without. -/
structure LoadEnv.Grants (env : LoadEnv) : Prop where
  kzalloc : env.kzalloc = true
  pdevAlloc : env.pdevAlloc = true
  pdevAdd : env.pdevAdd = none
  mask : env.mask64 = none ∨ env.mask32 = none
  region : env.region = none
  cdevAdd : env.cdevAdd = none
  cls : env.cls = none
  device : env.device = none

def LoadEnv.hasGpu (env : LoadEnv) : Bool := env.gpu.any (·.enabled)

/-- A load gets all of its objects, or leaves none. -/
def LoadDone (env : LoadEnv) (o : LoadObjs) (r : Option Errno × LoadObjs) : Prop :=
  ((∃ e, r.1 = some e) ∧ ¬ env.Grants ∧ Holds o r.2 []) ∨
    (r.1 = none ∧ env.Grants ∧ Holds o r.2 (loadedFields env.debugfs env.hasGpu))

theorem LoadDone.failed {env : LoadEnv} {e : Errno} {o' : LoadObjs} (hno : ¬ env.Grants)
    (h : Holds o o' []) : LoadDone env o (some e, o') := .inl ⟨⟨e, rfl⟩, hno, h⟩

theorem init_done (env : LoadEnv) (hs : Objects.Sound loadDeps o) (hnull : ∀ g, o.ptr g = none) :
    LoadDone env o (LoadObjs.dmaplaneInit env o) := by
  have h0 : Holds o o [] := .refl hs
  have h1 := h0.tryCreate hnull (f := .dev) List.not_mem_nil (by decide) env.kzalloc
  unfold LoadObjs.dmaplaneInit
  cases hk : env.kzalloc with
  | false =>
    rw [hk] at h1
    exact .failed (fun hg => by rw [hg.kzalloc] at hk; cases hk) h1
  | true =>
  rw [hk] at h1
  have h2 := h1.tryCreate hnull (f := .pdev) (by decide) (by decide) env.pdevAlloc
  simp only [Bool.not_true, Bool.false_eq_true, if_false]
  generalize o.tryCreate .dev true = o₁ at h1 h2 ⊢
  cases hp : env.pdevAlloc with
  | false =>
    rw [hp] at h2
    exact .failed (fun hg => by rw [hg.pdevAlloc] at hp; cases hp) (h2.errFreeDev hnull)
  | true =>
  rw [hp] at h2
  have h3 := h2.tryCreate hnull (f := .pdevAdded) (by decide) (by decide) env.pdevAdd.isNone
  simp only [Bool.not_true, Bool.false_eq_true, if_false]
  generalize o₁.tryCreate .pdev true = o₂ at h2 h3 ⊢
  cases ha : env.pdevAdd with
  | some e =>
    rw [ha] at h3
    exact .failed (fun hg => by rw [hg.pdevAdd] at ha; cases ha) (h3.errPutPdev hnull)
  | none =>
  rw [ha] at h3
  simp only [Option.isNone_none] at h3 ⊢
  generalize o₂.tryCreate .pdevAdded true = o₃ at h3 ⊢
  split
  · rename_i e64 e h64 h32
    refine .failed (fun hg => ?_) (h3.errUnregPdev hnull)
    rcases hg.mask with hm | hm
    · rw [h64] at hm; cases hm
    · rw [h32] at hm; cases hm
  · rename_i hmask
    have hmask : env.mask64 = none ∨ env.mask32 = none := by
      by_contra hno
      obtain ⟨h64, h32⟩ := not_or.mp hno
      obtain ⟨e64, h64⟩ := Option.ne_none_iff_exists'.mp h64
      obtain ⟨e32, h32⟩ := Option.ne_none_iff_exists'.mp h32
      exact hmask e64 e32 h64 h32
    have h4 := h3.tryCreate hnull (f := .region) (by decide) (by decide) env.region.isNone
    cases hr : env.region with
    | some e =>
      rw [hr] at h4
      exact .failed (fun hg => by rw [hg.region] at hr; cases hr) (h4.errUnregPdev hnull)
    | none =>
    rw [hr] at h4
    simp only [Option.isNone_none] at h4 ⊢
    generalize o₃.tryCreate .region true = o₄ at h4 ⊢
    have h5 := h4.tryCreate hnull (f := .cdev) (by decide) (by decide) env.cdevAdd.isNone
    cases hc : env.cdevAdd with
    | some e =>
      rw [hc] at h5
      exact .failed (fun hg => by rw [hg.cdevAdd] at hc; cases hc) (h5.errUnregRegion hnull)
    | none =>
    rw [hc] at h5
    simp only [Option.isNone_none] at h5 ⊢
    generalize o₄.tryCreate .cdev true = o₅ at h5 ⊢
    have h6 := h5.tryCreate hnull (f := .cls) (by decide) (by decide) env.cls.isNone
    cases hcl : env.cls with
    | some e =>
      rw [hcl] at h6
      exact .failed (fun hg => by rw [hg.cls] at hcl; cases hcl) (h6.errCdevDel hnull)
    | none =>
    rw [hcl] at h6
    simp only [Option.isNone_none] at h6 ⊢
    generalize o₅.tryCreate .cls true = o₆ at h6 ⊢
    have h7 := h6.tryCreate hnull (f := .device) (by decide) (by decide) env.device.isNone
    cases hd : env.device with
    | some e =>
      rw [hd] at h7
      exact .failed (fun hg => by rw [hg.device] at hd; cases hd) (h7.errClassDestroy hnull)
    | none =>
    rw [hd] at h7
    simp only [Option.isNone_none] at h7 ⊢
    generalize o₆.tryCreate .device true = o₇ at h7 ⊢
    have h8 : Holds o (o₇.tryCreate .debugfs env.debugfs) (loadedFields env.debugfs false) := by
      have h8 := h7.tryCreate hnull (f := .debugfs) (by decide) (by decide) env.debugfs
      cases hdbg : env.debugfs <;> rw [hdbg] at h8 <;> exact h8
    refine .inr ⟨rfl, ⟨hk, hp, ha, hmask, hr, hc, hcl, hd⟩, ?_⟩
    cases hgpu : env.gpu with
    | none => rw [LoadEnv.hasGpu, hgpu]; exact h8
    | some gpu => rw [LoadEnv.hasGpu, hgpu]; exact h8.gpuSection hnull gpu

end Load

/-! ## Loading again -/

section Life

variable {s s' : ModuleSt}

/-- An unloaded device is as good as none. -/
theorem Unloaded.zeroed {d : DeviceSt} (h : Unloaded d) : DeviceInv d.zeroed := by
  refine ⟨⟨⟨Heap.exact_nobody h.memory.1 h.memory.2, fun i hi => (by cases hi)⟩,
    fun i hi => (by cases hi), bufTableInit_balanced⟩, ?_, ?_, ⟨rfl, rfl⟩, h.stranded⟩
  · obtain ⟨hlive, hfaults, hbad, hgid⟩ := h.verbs
    refine ⟨⟨fun p => ?_, fun f g p hf => (by cases hf), fun f p hf => (by cases hf), hfaults, hbad⟩,
      fun hi => (by cases hi), fun _ _ => rfl, ⟨fun _ => rfl, fun _ => rfl⟩, fun hc => (by cases hc),
      hgid⟩
    refine iff_of_false (fun hp => ?_) (fun ⟨f, hf⟩ => by cases hf)
    have hp : p ∈ d.rdma.objs.heap.live := hp
    rw [hlive] at hp
    exact Finset.notMem_empty p hp
  · exact ⟨Heap.exact_nobody h.mappings.1 h.mappings.2, Heap.exact_nobody h.ibMrs.1 h.ibMrs.2,
      h.copies.1, h.copies.2, conserved_init.inUse, conserved_init.idle, conserved_init.count,
      conserved_init.ctx, conserved_init.ready⟩

/-- An unload releases all that a load got. -/
theorem Holds.dmaplaneExit {o₀ : LoadObjs} (hnull : ∀ g, o₀.ptr g = none) {debugfs gpu : Bool}
    (h : Holds o₀ s.objs (loadedFields debugfs gpu)) : Holds o₀ s.dmaplaneExit.objs [] := by
  have h1 := h.releaseIf hnull (f := .debugfs) fun g _ => by cases g <;> decide
  have h2 := h1.release hnull (f := .device) (by cases debugfs <;> cases gpu <;> decide)
    fun g _ => by cases g <;> decide
  have h3 := h2.release hnull (f := .cls) (by cases debugfs <;> cases gpu <;> decide)
    (by cases debugfs <;> cases gpu <;> decide)
  have h4 := h3.release hnull (f := .cdev) (by cases debugfs <;> cases gpu <;> decide)
    (by cases debugfs <;> cases gpu <;> decide)
  have h5 := h4.release hnull (f := .region) (by cases debugfs <;> cases gpu <;> decide)
    (by cases debugfs <;> cases gpu <;> decide)
  have h6 := h5.releaseIf hnull (f := .gpuBuffers) fun g _ => by cases g <;> decide
  have h6 := Holds.gpuExit hnull h6
  have h7 := h6.release hnull (f := .pdevAdded) (by cases debugfs <;> cases gpu <;> decide)
    (by cases debugfs <;> cases gpu <;> decide)
  have h8 := h7.release hnull (f := .pdev) (by cases debugfs <;> cases gpu <;> decide)
    (by cases debugfs <;> cases gpu <;> decide)
  have h9 := h8.release hnull (f := .dev) (by cases debugfs <;> cases gpu <;> decide)
    (by cases debugfs <;> cases gpu <;> decide)
  cases debugfs <;> cases gpu <;> exact h9

structure ModuleInv (s : ModuleSt) : Prop where
  loaded : s.loaded = true → DeviceInv s.dev ∧
    ∃ o₀ debugfs gpu, (∀ g, o₀.ptr g = none) ∧ Holds o₀ s.objs (loadedFields debugfs gpu)
  unloaded : s.loaded = false → Unloaded s.dev ∧ Objects.Sound loadDeps s.objs ∧
    ∀ g, s.objs.ptr g = none
  orphans : s.orphans = 0

theorem ModuleInv.step (h : ModuleInv s) {a : ModuleAct} (hs : moduleStep s a = some s') :
    ModuleInv s' := by
  cases a with
  | insmod env =>
    simp only [moduleStep] at hs
    split at hs
    · cases hs
    · rename_i hl
      obtain ⟨hdev, hsound, hnull⟩ := h.unloaded (by simpa using hl)
      have hdone := init_done env hsound hnull
      generalize LoadObjs.dmaplaneInit env s.objs = r at hdone hs
      obtain ⟨err, objs⟩ := r
      rcases hdone with ⟨⟨e, he⟩, -, hh⟩ | ⟨hok, -, hh⟩
      · cases he
        cases hs
        exact ⟨fun hl' => absurd hl' hl, fun _ => ⟨hdev, hh.sound, fun g => hh.old g List.not_mem_nil ▸
          hnull g⟩, h.orphans⟩
      · cases hok
        cases hs
        exact ⟨fun _ => ⟨hdev.zeroed, s.objs, _, _, hnull, hh⟩, fun hl' => (by cases hl'), h.orphans⟩
  | call c =>
    simp only [moduleStep] at hs
    split at hs <;> cases hs
    rename_i hl
    obtain ⟨hdev, hobjs⟩ := h.loaded hl
    exact ⟨fun _ => ⟨hdev.call c, hobjs⟩, fun hl' => (by rw [hl] at hl'; cases hl'), h.orphans⟩
  | rmmod =>
    simp only [moduleStep] at hs
    split at hs <;> cases hs
    rename_i hl
    obtain ⟨hdev, o₀, debugfs, gpu, hnull, hh⟩ := h.loaded hl
    have hexit := hdev.exit
    have hout := hh.dmaplaneExit hnull
    refine ⟨fun hl' => (by cases hl'), fun _ => ⟨hexit, hout.sound, fun g => ?_⟩, ?_⟩
    · rw [hout.old g List.not_mem_nil]
      exact hnull g
    · show s.orphans + s.dev.dmaplaneExit.buf.mem.live.card = 0
      rw [hexit.memory.1, h.orphans]
      rfl

theorem moduleInv (h : moduleSys.Reachable s) : ModuleInv s := by
  refine h.invariant ⟨fun hl => (by cases hl), fun _ => ⟨?_, Objects.sound_empty, fun _ => rfl⟩, rfl⟩
    fun s a s' hi hs => hi.step hs
  exact ⟨⟨rfl, rfl⟩, ⟨rfl, rfl, rfl, rfl⟩, ⟨rfl, rfl⟩, ⟨rfl, rfl⟩, ⟨rfl, rfl⟩, rfl, rfl, rfl⟩

end Life

/-- The kernel has all but a device node, or all. -/
def loadEnv (device : Option Errno) : LoadEnv :=
  { kzalloc := true, pdevAlloc := true, pdevAdd := none, mask64 := some .EINVAL, mask32 := none
    region := none, cdevAdd := none, cls := none, device := device, debugfs := true
    gpu := some ⟨true, ⟨true, true, false⟩⟩ }

end Dmaplane
