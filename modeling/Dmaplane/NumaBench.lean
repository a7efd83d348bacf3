import Dmaplane.Buffer
import Dmaplane.Sustained

/-!
# Dmaplane.NumaBench

`dmaplane_numa_bench` of `driver/numa_topology.c`: the loop over the cells, and the kthread that
measures each of them.

A cell gives its worker three objects: the two buffers and the cell record, a local of the loop
body. They are blocks of one heap here (`NumaLocal`), with the `cpumask`; leaving the body frees the
record. A step is one of the benchmark's, one of the worker's, or the wait running out after 60
seconds, which can happen whenever the worker has not signalled.

* `NumaInv` — without such a timeout: the live blocks are those of the locals in scope, and a worker
  that has not signalled holds blocks of these.
* `numa_bench_frees_after_done` — what follows for the objects given to a worker.
-/

namespace Dmaplane

/-! ## Buffers -/

/-- What the allocators answer to one `alloc_node_buffer`. -/
structure NodeAllocEnv where
  pageArray : Bool
  page : Nat → Option Int
  vmap : Bool

/-- `struct node_buffer`, allocated. -/
structure NodeBuffer where
  vaddr : Nat
  pages : PageArray
  deriving DecidableEq

/-- Its blocks, in the order in which `free_node_buffer` frees them. -/
def NodeBuffer.blocks (nb : NodeBuffer) : List Nat :=
  nb.vaddr :: (nb.pages.pages.map (·.block) ++ [nb.pages.block])

/-- `alloc_node_buffer`; every failure is `-ENOMEM`. -/
def allocNodeBuffer (env : NodeAllocEnv) (size : Nat) (h : Heap) : Option NodeBuffer × Heap :=
  if !env.pageArray then (none, h)
  else
    let (array, h) := h.alloc
    match allocPages env.page (divRoundUp size pageSize) h with
    | (none, h) => (none, h.free array)
    | (some pages, h) =>
      if !env.vmap then (none, h.freeAll (pages.map (·.block) ++ [array]))
      else
        let (vaddr, h) := h.alloc
        (some ⟨vaddr, ⟨array, pages⟩⟩, h)

theorem allocNodeBuffer_some {env : NodeAllocEnv} {size : Nat} {h h' : Heap} {nb : NodeBuffer}
    (ha : allocNodeBuffer env size h = (some nb, h')) : h.Alloced h' nb.blocks := by
  simp only [allocNodeBuffer] at ha
  split at ha
  · cases ha
  · split at ha
    · cases ha
    · rename_i pages h₂ hpages
      split at ha
      · cases ha
      · cases ha
        have hall := ((Heap.alloced_alloc h).trans (allocPages_some hpages).2).trans
          (Heap.alloced_alloc h₂)
        refine hall.perm ((List.perm_append_singleton _ _).trans (List.Perm.cons _ ?_))
        exact (List.perm_append_singleton _ _).symm

theorem allocNodeBuffer_none {env : NodeAllocEnv} {size : Nat} {h h' : Heap}
    (ha : allocNodeBuffer env size h = (none, h')) : h.Alloced h' [] := by
  simp only [allocNodeBuffer] at ha
  split at ha
  · cases ha; exact .refl h
  · split at ha
    · rename_i h₂ hpages
      cases ha
      have hall := (Heap.alloced_alloc h).trans (allocPages_none hpages)
      exact hall.freeAll (List.Perm.refl [h.alloc.1])
    · rename_i pages h₂ hpages
      split at ha
      · cases ha
        exact ((Heap.alloced_alloc h).trans (allocPages_some hpages).2).freeAll
          List.perm_append_comm
      · cases ha

/-! ## Cells and workers -/

/-- `struct numa_bench_cell`, but for the completion. -/
structure NumaBenchCell where
  dst : Nat
  src : Nat
  size : BitVec 64
  iterations : UInt32
  elapsedNs : BitVec 64
  bwMbps : BitVec 64
  status : Option Errno
  deriving DecidableEq

/-- What the worker writes at the end of its loop. -/
def NumaBenchCell.measured (cell : NumaBenchCell) (elapsedNs : BitVec 64) : NumaBenchCell :=
  let totalBytes := cell.size * BitVec.ofNat 64 cell.iterations.toNat
  { cell with
    elapsedNs := elapsedNs
    bwMbps := if elapsedNs > 0 then totalBytes * 1000 / elapsedNs else cell.bwMbps
    status := none }

/-- Where `numa_bench_thread` is. -/
inductive NumaThreadPc where
  /-- Created and not yet woken. -/
  | created
  | fillSrc
  | fillDst
  | begin
  | copy (i : Nat) (start : Ktime)
  | finish (start : Ktime)
  | complete
  /-- It has signalled. -/
  | exited
  deriving DecidableEq, Repr

structure NumaThread where
  pc : NumaThreadPc
  /-- The cell it was given. -/
  cell : Nat
  /-- The blocks of the three objects. -/
  given : List Nat
  deriving DecidableEq

/-- `wake_up_process`: it matters to a thread that has not run yet. -/
def NumaThread.wake (w : NumaThread) : NumaThread :=
  if w.pc = .created then { w with pc := .fillSrc } else w

/-- The locals of the loop body with memory behind them. -/
inductive NumaLocal where
  | mask
  | dst
  | src
  | cell
  deriving DecidableEq, Repr

/-- Where the benchmark goes when it has released what it has to. -/
inductive NumaNext where
  | rows (ci : Nat)
  | cells (ci bi : Nat)
  | out (ret : Option Errno)
  deriving DecidableEq, Repr

inductive NumaPc where
  /-- `for (ci = 0; ci < nr_nodes; ci++)`. -/
  | rows (ci : Nat)
  /-- `for (bi = 0; bi < nr_nodes; bi++)`, and the target buffer. -/
  | cells (ci bi : Nat)
  /-- The scratch buffer. -/
  | allocSrc (ci bi : Nat)
  | create (ci bi : Nat)
  | wake (ci bi : Nat)
  | wait (ci bi : Nat)
  | collect (ci bi : Nat)
  | release (todo : List NumaLocal) (next : NumaNext)
  | out (ret : Option Errno)
  deriving DecidableEq, Repr

/-- A request, on a machine with these online nodes. -/
structure NumaConfig where
  bufferSize : BitVec 64
  iterations : UInt32
  onlineNodes : Nat

/-- `DMAPLANE_MAX_NUMA_NODES`. -/
abbrev maxNumaNodes : Nat := 8

/-- `nr_nodes`. -/
def NumaConfig.nrNodes (cfg : NumaConfig) : Nat := min cfg.onlineNodes maxNumaNodes

/-- The checks of `dmaplane_numa_bench`. -/
def NumaConfig.rejected (cfg : NumaConfig) : Bool :=
  cfg.bufferSize = 0 || cfg.bufferSize > 64 <<< 20 || cfg.iterations = 0 ||
    cfg.iterations > 100000

structure NumaSt where
  heap : Heap
  pc : NumaPc
  mask : Option Nat
  dstBuf : Option NodeBuffer
  srcBuf : Option NodeBuffer
  cell : Option Nat
  /-- The records, by block. -/
  cells : Nat → NumaBenchCell
  /-- The worker created last. -/
  worker : Option NumaThread
  /-- Accesses of a worker to a block that is not live. -/
  staleAccesses : Nat
  /-- The matrices of the parameters. -/
  bwMbps : Nat → Nat → BitVec 64
  latNs : Nat → Nat → BitVec 64

def cellZero : NumaBenchCell :=
  { dst := 0, src := 0, size := 0, iterations := 0, elapsedNs := 0, bwMbps := 0, status := none }

def numaInit (cfg : NumaConfig) : NumaSt :=
  { heap := .empty, pc := if cfg.rejected then .out (some .EINVAL) else .rows 0, mask := none
    dstBuf := none, srcBuf := none, cell := none, cells := fun _ => cellZero, worker := none
    staleAccesses := 0, bwMbps := fun _ _ => 0, latNs := fun _ _ => 0 }

/-- The blocks behind a local. -/
def NumaSt.own (s : NumaSt) : NumaLocal → List Nat
  | .mask => s.mask.toList
  | .dst => (s.dstBuf.map NodeBuffer.blocks).getD []
  | .src => (s.srcBuf.map NodeBuffer.blocks).getD []
  | .cell => s.cell.toList

def NumaSt.clear (s : NumaSt) : NumaLocal → NumaSt
  | .mask => { s with mask := none }
  | .dst => { s with dstBuf := none }
  | .src => { s with srcBuf := none }
  | .cell => { s with cell := none }

def NumaNext.pc : NumaNext → NumaPc
  | .rows ci => .rows ci
  | .cells ci bi => .cells ci bi
  | .out ret => .out ret

/-! ## Steps -/

/-- What the kernel answers to a step of the benchmark. -/
structure NumaAnswer where
  /-- `find_cpu_on_node` finds one. -/
  cpu : Bool
  cpumask : Bool
  buffer : NodeAllocEnv
  /-- The error of `kthread_create`, if it has one. -/
  kthread : Option Errno

/-- The cell as it is set up for its worker. -/
def NumaSt.newCell (cfg : NumaConfig) (s : NumaSt) : NumaBenchCell :=
  { dst := (s.dstBuf.map (·.vaddr)).getD 0, src := (s.srcBuf.map (·.vaddr)).getD 0
    size := cfg.bufferSize, iterations := cfg.iterations, elapsedNs := 0, bwMbps := 0
    status := some .EINVAL }

/-- `params->bw_mbps[ci][bi]` and `params->lat_ns[ci][bi]`. -/
def NumaSt.store (s : NumaSt) (ci bi : Nat) (cell : NumaBenchCell) : NumaSt :=
  { s with
    bwMbps := Function.update s.bwMbps ci (Function.update (s.bwMbps ci) bi cell.bwMbps)
    latNs :=
      if cell.iterations > 0 ∧ cell.elapsedNs > 0 then
        Function.update s.latNs ci (Function.update (s.latNs ci) bi
          (cell.elapsedNs / BitVec.ofNat 64 cell.iterations.toNat))
      else s.latNs }

/-- The worker has signalled `cell.done`. -/
def NumaSt.signalled (s : NumaSt) : Bool := s.worker.any (·.pc = .exited)

def mainStep (cfg : NumaConfig) (ans : NumaAnswer) (s : NumaSt) : Option NumaSt :=
  match s.pc with
  | .rows ci =>
    if ci < cfg.nrNodes then
      if !ans.cpu then some { s with pc := .rows (ci + 1) }
      else if !ans.cpumask then some { s with pc := .out (some .ENOMEM) }
      else
        let (mask, h) := s.heap.alloc
        some { s with heap := h, mask := some mask, pc := .cells ci 0 }
    else some { s with pc := .out none }
  | .cells ci bi =>
    if bi < cfg.nrNodes then
      match allocNodeBuffer ans.buffer cfg.bufferSize.toNat s.heap with
      | (none, h) => some { s with heap := h, pc := .release [.mask] (.out (some .ENOMEM)) }
      | (some nb, h) => some { s with heap := h, dstBuf := some nb, pc := .allocSrc ci bi }
    else some { s with pc := .release [.mask] (.rows (ci + 1)) }
  | .allocSrc ci bi =>
    match allocNodeBuffer ans.buffer cfg.bufferSize.toNat s.heap with
    | (none, h) => some { s with heap := h, pc := .release [.dst, .mask] (.out (some .ENOMEM)) }
    | (some nb, h) => some { s with heap := h, srcBuf := some nb, pc := .create ci bi }
  | .create ci bi =>
    let (cell, h) := s.heap.alloc
    let s' := { s with
      heap := h, cell := some cell, cells := Function.update s.cells cell (s.newCell cfg) }
    match ans.kthread with
    | some e => some { s' with pc := .release [.src, .dst, .mask, .cell] (.out (some e)) }
    | none =>
      some { s' with
        pc := .wake ci bi
        worker := some ⟨.created, cell, s.own .src ++ s.own .dst ++ [cell]⟩ }
  | .wake ci bi =>
    some { s with pc := .wait ci bi, worker := s.worker.map NumaThread.wake }
  | .wait ci bi => if s.signalled then some { s with pc := .collect ci bi } else none
  | .collect ci bi =>
    some { s.store ci bi ((s.cell.map s.cells).getD cellZero) with
      pc := .release [.src, .dst, .cell] (.cells ci (bi + 1)) }
  | .release (o :: todo) next =>
    some { s.clear o with heap := s.heap.freeAll (s.own o), pc := .release todo next }
  | .release [] next => some { s with pc := next.pc }
  | .out _ => none

/-- 60 seconds have passed: the exit of a worker that is too slow. -/
def timeoutStep (s : NumaSt) : Option NumaSt :=
  match s.pc with
  | .wait _ _ =>
    if s.signalled then none
    else some { s with pc := .release [.src, .dst, .mask, .cell] (.out (some .ETIMEDOUT)) }
  | _ => none

/-- The worker uses the memory at `ps`. -/
def NumaSt.access (s : NumaSt) (ps : List Nat) : NumaSt :=
  { s with staleAccesses := s.staleAccesses + (ps.filter (· ∉ s.heap.live)).length }

/-- A step of `numa_bench_thread`; `now` is what the clock shows. -/
def workerStep (now : Ktime) (s : NumaSt) : Option NumaSt :=
  match s.worker with
  | none => none
  | some w =>
    let cell := s.cells w.cell
    let goto := fun (pc : NumaThreadPc) (s : NumaSt) => { s with worker := some { w with pc := pc } }
    match w.pc with
    | .created => none
    | .fillSrc => some (goto .fillDst (s.access [w.cell, cell.src]))
    | .fillDst => some (goto .begin (s.access [w.cell, cell.dst]))
    | .begin => some (goto (.copy 0 now) s)
    | .copy i start =>
      if i < cell.iterations.toNat then
        some (goto (.copy (i + 1) start) (s.access [w.cell, cell.dst, cell.src]))
      else some (goto (.finish start) (s.access [w.cell]))
    | .finish start =>
      let s := s.access [w.cell]
      some (goto .complete
        { s with cells := Function.update s.cells w.cell (cell.measured (now - start)) })
    | .complete => some (goto .exited (s.access [w.cell]))
    | .exited => none

inductive NumaAct where
  | main (ans : NumaAnswer)
  | timeout
  | worker (now : Ktime)

def numaSys (cfg : NumaConfig) : Transition.Sys NumaSt NumaAct where
  init := numaInit cfg
  step := fun s a =>
    match a with
    | .main ans => mainStep cfg ans s
    | .timeout => timeoutStep s
    | .worker now => workerStep now s

/-! ## What the steps keep -/

theorem own_clear (s : NumaSt) (o : NumaLocal) : (s.clear o).own = Function.update s.own o [] := by
  funext o'
  by_cases h : o' = o
  · subst h
    rw [Function.update_self]
    cases o' <;> rfl
  · rw [Function.update_of_ne h]
    cases o <;> cases o' <;> first | exact absurd rfl h | rfl

/-- The locals in scope whose memory is still to be released. -/
def NumaNext.holds : NumaNext → List NumaLocal
  | .rows _ => []
  | .cells _ _ => [.mask]
  | .out _ => []

def NumaPc.holds : NumaPc → List NumaLocal
  | .rows _ => []
  | .cells _ _ => [.mask]
  | .allocSrc _ _ => [.dst, .mask]
  | .create _ _ => [.src, .dst, .mask]
  | .wake _ _ | .wait _ _ | .collect _ _ => [.src, .dst, .cell, .mask]
  | .release todo next => todo ++ next.holds
  | .out _ => []

theorem holds_next (next : NumaNext) : next.pc.holds = next.holds := by cases next <;> rfl

/-- The worker of this cell may be at work. -/
def NumaPc.running : NumaPc → Bool
  | .wake _ _ | .wait _ _ => true
  | _ => false

/-- A worker that has not signalled: its objects are those of the loop body, and the pointers it
follows lead into them. -/
structure ThreadOk (s : NumaSt) (w : NumaThread) : Prop where
  running : s.pc.running = true
  given : ∀ p ∈ w.given, p ∈ s.own .src ∨ p ∈ s.own .dst ∨ p ∈ s.own .cell
  cell : w.cell ∈ w.given
  src : (s.cells w.cell).src ∈ w.given
  dst : (s.cells w.cell).dst ∈ w.given

structure NumaInv (s : NumaSt) : Prop where
  exact : Heap.Exact s.heap s.own
  holds : ∀ o, s.own o ≠ [] ↔ o ∈ s.pc.holds
  nodup : s.pc.holds.Nodup
  thread : ∀ w, s.worker = some w → w.pc ≠ .exited → ThreadOk s w
  stale : s.staleAccesses = 0

/-- The wait does not run out. -/
def NoTimeout (_ : NumaSt) (a : NumaAct) : Prop := a ≠ .timeout

section Inv

variable {cfg : NumaConfig} {s s' : NumaSt} {w : NumaThread}

theorem NumaInv.empty (h : NumaInv s) {o : NumaLocal} (ho : o ∉ s.pc.holds) : s.own o = [] :=
  not_not.mp fun hne => ho ((h.holds o).mp hne)

theorem NumaInv.live (h : NumaInv s) (hw : s.worker = some w) (hpc : w.pc ≠ .exited) {p : Nat}
    (hp : p ∈ w.given) : p ∈ s.heap.live := by
  rcases (h.thread w hw hpc).given p hp with hp | hp | hp <;> exact h.exact.live _ p hp

/-- Away from a running worker, the worker plays no part. -/
theorem NumaInv.idle (h : NumaInv s) (hpc : s.pc.running = false) (hw : s.worker = some w) :
    w.pc = .exited := by
  by_contra hne
  have := (h.thread w hw hne).running
  rw [hpc] at this
  cases this

/-- A step that gives a new object to a local. -/
theorem NumaInv.give (h : NumaInv s) {o : NumaLocal} {ps : List Nat} (ho : o ∉ s.pc.holds)
    (ha : s.heap.Alloced s'.heap ps) (hps : ps ≠ []) (hown : s'.own = Function.update s.own o ps)
    (hholds : s'.pc.holds.Perm (o :: s.pc.holds)) (hstale : s'.staleAccesses = s.staleAccesses)
    (hthread : ∀ w, s'.worker = some w → w.pc ≠ .exited → ThreadOk s' w) : NumaInv s' := by
  refine ⟨by rw [hown]; exact h.exact.give (h.empty ho) ha, fun o' => ?_,
    hholds.nodup_iff.mpr (List.nodup_cons.mpr ⟨ho, h.nodup⟩), hthread, hstale.trans h.stale⟩
  rw [hown, hholds.mem_iff, List.mem_cons]
  by_cases he : o' = o
  · subst he
    rw [Function.update_self]
    exact iff_of_true hps (.inl rfl)
  · rw [Function.update_of_ne he, h.holds o']
    exact ⟨.inr, fun hor => hor.resolve_left he⟩

/-- A step that leaves the memory as it is. -/
theorem NumaInv.keep (h : NumaInv s) (ha : s.heap.Alloced s'.heap []) (hown : s'.own = s.own)
    (hholds : s'.pc.holds.Perm s.pc.holds) (hstale : s'.staleAccesses = s.staleAccesses)
    (hthread : ∀ w, s'.worker = some w → w.pc ≠ .exited → ThreadOk s' w) : NumaInv s' := by
  refine ⟨by rw [hown]; exact h.exact.alloced_nil ha, fun o => ?_,
    hholds.nodup_iff.mpr h.nodup, hthread, hstale.trans h.stale⟩
  rw [hown, hholds.mem_iff]
  exact h.holds o

/-- A step of the benchmark while no worker is at work, to a state where none is either. -/
theorem NumaInv.noThread (h : NumaInv s) (hpc : s.pc.running = false) (hw : s'.worker = s.worker)
    (w : NumaThread) (hw' : s'.worker = some w) (hne : w.pc ≠ .exited) : ThreadOk s' w :=
  absurd (h.idle hpc (hw.symm.trans hw')) hne

/-- The step of the release loop. -/
theorem NumaInv.release (h : NumaInv s) {o : NumaLocal} {todo : List NumaLocal} {next : NumaNext}
    (hpc : s.pc = .release (o :: todo) next) :
    NumaInv { s.clear o with heap := s.heap.freeAll (s.own o), pc := .release todo next } := by
  have hold : s.pc.holds = o :: (todo ++ next.holds) := by rw [hpc]; rfl
  have hnd := h.nodup
  rw [hold] at hnd
  obtain ⟨hno, hnd⟩ := List.nodup_cons.mp hnd
  have hclear : ({ s.clear o with heap := s.heap.freeAll (s.own o), pc := .release todo next } :
      NumaSt).own = Function.update s.own o [] := by
    rw [← own_clear]
    cases o <;> rfl
  have hworker : (s.clear o).worker = s.worker := by cases o <;> rfl
  have hstale : (s.clear o).staleAccesses = s.staleAccesses := by cases o <;> rfl
  refine ⟨?_, fun o' => ?_, hnd, h.noThread (by rw [hpc]; rfl) hworker, hstale.trans h.stale⟩
  · rw [hclear]
    exact h.exact.freeAll (List.Perm.refl _)
  · rw [hclear]
    show _ ↔ o' ∈ todo ++ next.holds
    by_cases he : o' = o
    · subst he
      rw [Function.update_self]
      exact iff_of_false (not_not.mpr rfl) hno
    · rw [Function.update_of_ne he, h.holds o', hold, List.mem_cons]
      exact or_iff_right he

theorem numaInv_init (cfg : NumaConfig) : NumaInv (numaInit cfg) := by
  have hown : (numaInit cfg).own = fun _ => [] := by funext o; cases o <;> rfl
  have hholds : (numaInit cfg).pc.holds = [] := by
    show (if cfg.rejected then NumaPc.out _ else NumaPc.rows 0).holds = []
    split <;> rfl
  refine ⟨by rw [hown]; exact Heap.exact_empty, fun o => ?_, by rw [hholds]; exact List.nodup_nil,
    fun w hw => (by cases hw), rfl⟩
  rw [hown, hholds]
  exact iff_of_false (not_not.mpr rfl) List.not_mem_nil

/-! ### The steps of the benchmark -/

theorem NumaInv.rows (h : NumaInv s) {ci : Nat} (hpc : s.pc = .rows ci) {ans : NumaAnswer}
    (hs : mainStep cfg ans s = some s') : NumaInv s' := by
  have hidle : s.pc.running = false := by rw [hpc]; rfl
  have hperm : ([] : List NumaLocal).Perm s.pc.holds := by rw [hpc]; exact .refl _
  simp only [mainStep, hpc] at hs
  split at hs
  · split at hs
    · cases hs
      exact h.keep (.refl _) rfl hperm rfl (h.noThread hidle rfl)
    · split at hs
      · cases hs
        exact h.keep (.refl _) rfl hperm rfl (h.noThread hidle rfl)
      · cases hs
        refine h.give (o := .mask) (by rw [hpc]; exact List.not_mem_nil)
          (Heap.alloced_alloc _) (List.cons_ne_nil _ _) ?_ (by rw [hpc]; exact .refl _) rfl
          (h.noThread hidle rfl)
        funext o
        cases o <;> rfl
  · cases hs
    exact h.keep (.refl _) rfl hperm rfl (h.noThread hidle rfl)

theorem NumaInv.cells (h : NumaInv s) {ci bi : Nat} (hpc : s.pc = .cells ci bi) {ans : NumaAnswer}
    (hs : mainStep cfg ans s = some s') : NumaInv s' := by
  have hidle : s.pc.running = false := by rw [hpc]; rfl
  have hperm : [NumaLocal.mask].Perm s.pc.holds := by rw [hpc]; exact .refl _
  simp only [mainStep, hpc] at hs
  split at hs
  · split at hs
    · rename_i h' ha
      cases hs
      exact h.keep (allocNodeBuffer_none ha) rfl hperm rfl (h.noThread hidle rfl)
    · rename_i nb h' ha
      cases hs
      refine h.give (o := .dst) (by rw [hpc]; simp [NumaPc.holds]) (allocNodeBuffer_some ha)
        (List.cons_ne_nil _ _) ?_ (by rw [hpc]; exact .refl _) rfl (h.noThread hidle rfl)
      funext o
      cases o <;> rfl
  · cases hs
    exact h.keep (.refl _) rfl hperm rfl (h.noThread hidle rfl)

theorem NumaInv.allocSrc (h : NumaInv s) {ci bi : Nat} (hpc : s.pc = .allocSrc ci bi)
    {ans : NumaAnswer} (hs : mainStep cfg ans s = some s') : NumaInv s' := by
  have hidle : s.pc.running = false := by rw [hpc]; rfl
  simp only [mainStep, hpc] at hs
  split at hs
  · rename_i h' ha
    cases hs
    exact h.keep (allocNodeBuffer_none ha) rfl (by rw [hpc]; exact .refl _) rfl
      (h.noThread hidle rfl)
  · rename_i nb h' ha
    cases hs
    refine h.give (o := .src) (by rw [hpc]; simp [NumaPc.holds]) (allocNodeBuffer_some ha)
      (List.cons_ne_nil _ _) ?_ (by rw [hpc]; exact .refl _) rfl (h.noThread hidle rfl)
    funext o
    cases o <;> rfl

theorem vaddr_mem {nb : Option NodeBuffer} (h : (nb.map NodeBuffer.blocks).getD [] ≠ []) :
    (nb.map (·.vaddr)).getD 0 ∈ (nb.map NodeBuffer.blocks).getD [] := by
  cases nb with
  | none => exact absurd rfl h
  | some nb => exact List.mem_cons_self

/-- The new worker is given the objects of the loop body. -/
theorem NumaInv.create (h : NumaInv s) {ci bi : Nat} (hpc : s.pc = .create ci bi)
    {ans : NumaAnswer} (hs : mainStep cfg ans s = some s') : NumaInv s' := by
  have hsrc : s.own .src ≠ [] := (h.holds .src).mpr (by rw [hpc]; simp [NumaPc.holds])
  have hdst : s.own .dst ≠ [] := (h.holds .dst).mpr (by rw [hpc]; simp [NumaPc.holds])
  have hcell : NumaLocal.cell ∉ s.pc.holds := by rw [hpc]; simp [NumaPc.holds]
  simp only [mainStep, hpc] at hs
  cases hk : ans.kthread with
  | some e =>
    simp only [hk] at hs
    cases hs
    refine h.give hcell (Heap.alloced_alloc _) (List.cons_ne_nil _ _) ?_
      (by rw [hpc]; exact (by decide : [NumaLocal.src, .dst, .mask, .cell].Perm
        [.cell, .src, .dst, .mask])) rfl (h.noThread (by rw [hpc]; rfl) rfl)
    funext o
    cases o <;> rfl
  | none =>
    simp only [hk] at hs
    cases hs
    refine h.give hcell (Heap.alloced_alloc _) (List.cons_ne_nil _ _) ?_
      (by rw [hpc]; exact (by decide : [NumaLocal.src, .dst, .cell, .mask].Perm
        [.cell, .src, .dst, .mask])) rfl fun w hw _ => ?_
    · funext o
      cases o <;> rfl
    · cases hw
      have hat : Function.update s.cells s.heap.alloc.1 (s.newCell cfg) s.heap.alloc.1 =
          s.newCell cfg := Function.update_self ..
      refine ⟨rfl, fun p hp => ?_, List.mem_append_right _ (List.mem_singleton.mpr rfl), ?_, ?_⟩
      · rcases List.mem_append.mp hp with hp | hp
        · exact (List.mem_append.mp hp).imp_right .inl
        · exact .inr (.inr hp)
      · show (Function.update s.cells s.heap.alloc.1 (s.newCell cfg) s.heap.alloc.1).src ∈ _
        rw [hat]
        exact List.mem_append_left _ (List.mem_append_left _ (vaddr_mem hsrc))
      · show (Function.update s.cells s.heap.alloc.1 (s.newCell cfg) s.heap.alloc.1).dst ∈ _
        rw [hat]
        exact List.mem_append_left _ (List.mem_append_right _ (vaddr_mem hdst))

theorem NumaInv.wake (h : NumaInv s) {ci bi : Nat} (hpc : s.pc = .wake ci bi) {ans : NumaAnswer}
    (hs : mainStep cfg ans s = some s') : NumaInv s' := by
  simp only [mainStep, hpc] at hs
  cases hs
  refine h.keep (.refl _) rfl (by rw [hpc]; exact .refl _) rfl fun w hw hne => ?_
  obtain ⟨w₀, hw₀, rfl⟩ := Option.map_eq_some_iff.mp hw
  have hgiven : w₀.wake.given = w₀.given ∧ w₀.wake.cell = w₀.cell := by
    rw [NumaThread.wake]
    split <;> exact ⟨rfl, rfl⟩
  have hne₀ : w₀.pc ≠ .exited := by
    intro he
    refine hne ?_
    rw [NumaThread.wake, if_neg (by rw [he]; decide)]
    exact he
  obtain ⟨-, hg, hc, hsrc, hdst⟩ := h.thread w₀ hw₀ hne₀
  refine ⟨rfl, ?_, ?_, ?_, ?_⟩
  · rw [hgiven.1]; exact hg
  · rw [hgiven.1, hgiven.2]; exact hc
  · rw [hgiven.1, hgiven.2]; exact hsrc
  · rw [hgiven.1, hgiven.2]; exact hdst

/-- The wait ends by the signal of the worker. -/
theorem NumaInv.wait (h : NumaInv s) {ci bi : Nat} (hpc : s.pc = .wait ci bi) {ans : NumaAnswer}
    (hs : mainStep cfg ans s = some s') : NumaInv s' := by
  simp only [mainStep, hpc] at hs
  split at hs
  · rename_i hsig
    cases hs
    refine h.keep (.refl _) rfl (by rw [hpc]; exact .refl _) rfl fun w hw hne => ?_
    have hw' : s.worker = some w := hw
    rw [NumaSt.signalled, hw'] at hsig
    exact absurd (of_decide_eq_true hsig) hne
  · cases hs

theorem NumaInv.collect (h : NumaInv s) {ci bi : Nat} (hpc : s.pc = .collect ci bi)
    {ans : NumaAnswer} (hs : mainStep cfg ans s = some s') : NumaInv s' := by
  simp only [mainStep, hpc] at hs
  cases hs
  exact h.keep (.refl _) (by funext o; cases o <;> rfl) (by rw [hpc]; exact .refl _) rfl
    (h.noThread (by rw [hpc]; rfl) rfl)

theorem NumaInv.main (h : NumaInv s) {ans : NumaAnswer} (hs : mainStep cfg ans s = some s') :
    NumaInv s' := by
  cases hpc : s.pc with
  | rows ci => exact h.rows hpc hs
  | cells ci bi => exact h.cells hpc hs
  | allocSrc ci bi => exact h.allocSrc hpc hs
  | create ci bi => exact h.create hpc hs
  | wake ci bi => exact h.wake hpc hs
  | wait ci bi => exact h.wait hpc hs
  | collect ci bi => exact h.collect hpc hs
  | release todo next =>
    simp only [mainStep, hpc] at hs
    cases todo with
    | cons o todo =>
      cases hs
      exact h.release hpc
    | nil =>
      cases hs
      refine h.keep (.refl _) rfl ?_ rfl (h.noThread (by rw [hpc]; rfl) rfl)
      rw [hpc]
      exact List.Perm.of_eq (holds_next next)
  | out ret =>
    simp only [mainStep, hpc] at hs
    cases hs

/-! ### The steps of the worker -/

theorem access_live {ps : List Nat} (h : ∀ p ∈ ps, p ∈ s.heap.live) : s.access ps = s := by
  have hnil : ps.filter (· ∉ s.heap.live) = [] := by
    refine List.filter_eq_nil_iff.mpr fun p hp => ?_
    rw [decide_eq_true_eq]
    exact not_not.mpr (h p hp)
  rw [NumaSt.access, hnil]
  rfl

/-- The worker goes on, with the pointers of its cell as they were. -/
theorem NumaInv.goOn (h : NumaInv s) (hw : s.worker = some w) (hne : w.pc ≠ .exited)
    (pc : NumaThreadPc) (cells : Nat → NumaBenchCell)
    (hcells : (cells w.cell).src = (s.cells w.cell).src ∧
      (cells w.cell).dst = (s.cells w.cell).dst) :
    NumaInv { s with cells := cells, worker := some { w with pc := pc } } := by
  refine h.keep (.refl _) (by funext o; cases o <;> rfl) (.refl _) rfl fun w' hw' _ => ?_
  cases hw'
  obtain ⟨hrun, hg, hc, hsrc, hdst⟩ := h.thread w hw hne
  refine ⟨hrun, hg, hc, ?_, ?_⟩
  · show (cells w.cell).src ∈ w.given
    rw [hcells.1]
    exact hsrc
  · show (cells w.cell).dst ∈ w.given
    rw [hcells.2]
    exact hdst

theorem NumaInv.worker (h : NumaInv s) {now : Ktime} (hs : workerStep now s = some s') :
    NumaInv s' := by
  cases hw : s.worker with
  | none =>
    rw [workerStep, hw] at hs
    cases hs
  | some w =>
    by_cases hne : w.pc = .exited
    · simp only [workerStep, hw, hne] at hs
      cases hs
    · obtain ⟨-, -, hc, hsrc, hdst⟩ := h.thread w hw hne
      have hlive : ∀ p ∈ [w.cell, (s.cells w.cell).dst, (s.cells w.cell).src],
          p ∈ s.heap.live := by
        intro p hp
        simp only [List.mem_cons, List.not_mem_nil, or_false] at hp
        rcases hp with rfl | rfl | rfl
        · exact h.live hw hne hc
        · exact h.live hw hne hdst
        · exact h.live hw hne hsrc
      have haccess : ∀ ps, ps ⊆ [w.cell, (s.cells w.cell).dst, (s.cells w.cell).src] →
          s.access ps = s := fun ps hps => access_live fun p hp => hlive p (hps hp)
      have hgo := fun pc => h.goOn hw hne pc s.cells ⟨rfl, rfl⟩
      cases hpc : w.pc with
      | created => simp only [workerStep, hw, hpc] at hs; cases hs
      | fillSrc =>
        simp only [workerStep, hw, hpc, haccess _ (by simp : [w.cell, (s.cells w.cell).src] ⊆ _)]
          at hs
        cases hs
        exact hgo _
      | fillDst =>
        simp only [workerStep, hw, hpc, haccess _ (by simp : [w.cell, (s.cells w.cell).dst] ⊆ _)]
          at hs
        cases hs
        exact hgo _
      | begin =>
        simp only [workerStep, hw, hpc] at hs
        cases hs
        exact hgo _
      | copy i start =>
        simp only [workerStep, hw, hpc, haccess _ (List.Subset.refl _),
          haccess _ (by simp : [w.cell] ⊆ _)] at hs
        split at hs <;> cases hs <;> exact hgo _
      | finish start =>
        simp only [workerStep, hw, hpc, haccess _ (by simp : [w.cell] ⊆ _)] at hs
        cases hs
        refine h.goOn hw hne _ _ ?_
        rw [Function.update_self]
        exact ⟨rfl, rfl⟩
      | complete =>
        simp only [workerStep, hw, hpc, haccess _ (by simp : [w.cell] ⊆ _)] at hs
        cases hs
        exact hgo _
      | exited => exact absurd hpc hne

theorem numaInv (hr : (numaSys cfg).ReachableWith NoTimeout s) : NumaInv s := by
  refine hr.invariant (numaInv_init cfg) fun s a s' h hok hs => ?_
  cases a with
  | main ans => exact h.main hs
  | timeout => exact absurd rfl hok
  | worker now => exact h.worker hs

end Inv

/-! ## The objects of a worker -/

/-- No object given to a worker has been freed, or has gone out of scope, before that worker has
signalled. -/
def NumaSt.FreesAfterDone (s : NumaSt) : Prop :=
  ∀ w, s.worker = some w → w.pc ≠ .exited → ∀ p ∈ w.given, p ∈ s.heap.live

/-- **The NUMA benchmark.** In every run whose waits do not run out: no object is freed before the
worker it was given to has signalled, no worker touches a freed one, no block is freed twice, and
when the benchmark returns, every block has been freed. -/
theorem numa_bench_frees_after_done (cfg : NumaConfig) {s : NumaSt}
    (hr : (numaSys cfg).ReachableWith NoTimeout s) :
    s.FreesAfterDone ∧ s.staleAccesses = 0 ∧ s.heap.faults = 0 ∧
      ∀ ret, s.pc = .out ret → s.heap.live = ∅ := by
  have h := numaInv hr
  refine ⟨fun w hw hne p hp => h.live hw hne hp, h.stale, h.exact.faults, fun ret hpc => ?_⟩
  refine Finset.eq_empty_of_forall_notMem fun p hp => ?_
  obtain ⟨o, ho⟩ := h.exact.all p hp
  rw [h.empty (by rw [hpc]; exact List.not_mem_nil)] at ho
  cases ho

instance (s : NumaSt) (a : NumaAct) : Decidable (NoTimeout s a) :=
  decidable_of_bool (match a with | .timeout => false | _ => true) (by
    cases a <;> simp [NoTimeout])

/-- One node, one page, one copy. -/
def numaConfigOne : NumaConfig := { bufferSize := 4096, iterations := 1, onlineNodes := 1 }

/-- The kernel has what it is asked for. -/
def numaAnswerOk : NumaAnswer :=
  { cpu := true, cpumask := true, kthread := none
    buffer := { pageArray := true, page := fun _ => some 0, vmap := true } }

/-- From the start to the wait for the worker. -/
def numaToWait : List NumaAct := List.replicate 5 (.main numaAnswerOk)

/-- All of the worker. -/
def numaWork : List NumaAct := List.replicate 7 (.worker 0)

/-- A cell measured in time, and the return. -/
theorem numa_bench_frees_after_done_one :
    ∃ s, (numaSys numaConfigOne).ReachableWith NoTimeout s ∧ s.pc = .out none ∧
      s.heap.live = ∅ := by
  obtain ⟨s, hr, hpc⟩ : ∃ s, (numaSys numaConfigOne).ReachableWith NoTimeout s ∧ s.pc = .out none :=
    Transition.Sys.exists_of_execWith
      (numaToWait ++ numaWork ++ List.replicate 10 (.main numaAnswerOk)) (by decide +kernel)
  exact ⟨s, hr, hpc, (numa_bench_frees_after_done numaConfigOne hr).2.2.2 none hpc⟩

/-- The worker is slower than 60 seconds: the benchmark frees what it works on and returns, and the
worker then goes through freed memory up to its `complete`. -/
theorem numa_bench_timeout_frees :
    (∃ s, (numaSys numaConfigOne).Reachable s ∧ s.pc = .out (some .ETIMEDOUT) ∧
      ¬ s.FreesAfterDone) ∧
    ∃ s, (numaSys numaConfigOne).Reachable s ∧ s.signalled = true ∧ s.staleAccesses = 10 := by
  constructor
  · obtain ⟨s, hr, hpc, hany⟩ := Transition.Sys.exists_of_exec (S := numaSys numaConfigOne)
      (P := fun s => s.pc = .out (some .ETIMEDOUT) ∧ (s.worker.any fun w =>
        w.pc = .fillSrc ∧ w.given.any (· ∉ s.heap.live)) = true)
      (numaToWait ++ .timeout :: List.replicate 5 (.main numaAnswerOk)) (by decide +kernel)
    refine ⟨s, hr, hpc, fun hsafe => ?_⟩
    obtain ⟨w, hw, hdec⟩ := (Option.any_eq_true _ _).mp hany
    obtain ⟨hwpc, hgiven⟩ := of_decide_eq_true hdec
    obtain ⟨p, hp, hdead⟩ := List.any_eq_true.mp hgiven
    exact of_decide_eq_true hdead (hsafe w hw (by rw [hwpc]; decide) p hp)
  · exact Transition.Sys.exists_of_exec (S := numaSys numaConfigOne)
      (P := fun s => s.signalled = true ∧ s.staleAccesses = 10)
      (numaToWait ++ .timeout :: List.replicate 5 (.main numaAnswerOk) ++ numaWork)
      (by decide +kernel)

end Dmaplane
