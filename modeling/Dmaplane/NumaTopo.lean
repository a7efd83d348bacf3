import Dmaplane.Lib.Compact
import Dmaplane.Buffer
import Dmaplane.NumaBench

/-!
# Dmaplane.NumaTopo

`dmaplane_query_numa_topo` and the node enumeration of `dmaplane_numa_bench`
(`driver/numa_topology.c`). Node numbers may be sparse; both functions list the first
`DMAPLANE_MAX_NUMA_NODES` online nodes at the indices 0, 1, … of fixed arrays.

* `fillNodes_get`, `fillDistances_get` — what an index of the arrays holds, from `compact_get`.
* `TopoOk`                             — what the reply says of the machine.
* `numa_topo_describes`                — every reply of QUERY_NUMA_TOPO, and that the rows of the
  benchmark are about the same nodes.
-/

namespace Dmaplane

open Compaction

/-- A `struct zone`: `managed_zone(z)` and its `NR_FREE_PAGES`. -/
structure Zone where
  managed : Bool
  freePages : BitVec 64
  deriving DecidableEq

/-- What the kernel says of the machine. The online nodes and CPUs are bitmaps there, so that
they come in ascending order. -/
structure NumaMachine where
  onlineNodes : List Nat
  onlineCpus : List Nat
  cpuToNode : Nat → Nat
  presentPages : Nat → BitVec 64
  nodeZones : Nat → List Zone
  nodeDistance : Nat → Nat → BitVec 32
  nodes_sorted : onlineNodes.Pairwise (· < ·)
  cpus_sorted : onlineCpus.Pairwise (· < ·)
  /-- `num_online_cpus()` is an `unsigned int`. -/
  cpus_fit : onlineCpus.length < 2 ^ 32

/-- `struct dmaplane_numa_topo`. -/
structure NumaTopo where
  nrNodes : BitVec 32
  nrCpus : BitVec 32
  nodeCpuCount : Fin maxNumaNodes → BitVec 32
  nodeOnline : Fin maxNumaNodes → BitVec 32
  nodeMemTotalKb : Fin maxNumaNodes → BitVec 64
  nodeMemFreeKb : Fin maxNumaNodes → BitVec 64
  distances : Fin maxNumaNodes → Fin maxNumaNodes → BitVec 32

/-- `memset(topo, 0, sizeof(*topo))`. -/
def numaTopoZero : NumaTopo :=
  { nrNodes := 0, nrCpus := 0, nodeCpuCount := fun _ => 0, nodeOnline := fun _ => 0
    nodeMemTotalKb := fun _ => 0, nodeMemFreeKb := fun _ => 0, distances := fun _ _ => 0 }

/-- `node_cpu_count[idx]++` for each online CPU with `cpu_to_node(cpu) == node`. -/
def countCpus (m : NumaMachine) (node : Nat) (count : BitVec 32) : BitVec 32 :=
  m.onlineCpus.foldl (fun count cpu => if m.cpuToNode cpu = node then count + 1 else count) count

/-- The loop over `NODE_DATA(node)->node_zones`. -/
def sumFreePages (m : NumaMachine) (node : Nat) : BitVec 64 :=
  (m.nodeZones node).foldl (fun free z => if z.managed then free + z.freePages else free) 0

/-- `((__u64)pages * PAGE_SIZE) >> 10`. -/
def pagesToKb (pages : BitVec 64) : BitVec 64 := (pages * BitVec.ofNat 64 pageSize) >>> 10

/-- The body of the first `for_each_online_node`. -/
def fillNode (m : NumaMachine) (idx : Fin maxNumaNodes) (node : Nat) (topo : NumaTopo) :
    NumaTopo :=
  { topo with
    nodeOnline := Function.update topo.nodeOnline idx 1
    nodeCpuCount :=
      Function.update topo.nodeCpuCount idx (countCpus m node (topo.nodeCpuCount idx))
    nodeMemTotalKb :=
      Function.update topo.nodeMemTotalKb idx (pagesToKb (m.presentPages node))
    nodeMemFreeKb := Function.update topo.nodeMemFreeKb idx (pagesToKb (sumFreePages m node)) }

def setDistance (ni nj : Fin maxNumaNodes) (d : BitVec 32) (topo : NumaTopo) : NumaTopo :=
  { topo with
    distances := Function.update topo.distances ni (Function.update (topo.distances ni) nj d) }

/-- The inner loop over the distance matrix: the row of `node`. -/
def fillDistances (m : NumaMachine) (ni : Fin maxNumaNodes) (node : Nat) (topo : NumaTopo) :
    NumaTopo :=
  (compact (fun nj j => setDistance ni nj (m.nodeDistance node j)) m.onlineNodes 0 topo).2

/-- `dmaplane_query_numa_topo`. `node_to_idx` is allocated, written and never read. -/
def dmaplaneQueryNumaTopo (kvcallocOk : Bool) (m : NumaMachine) : Except Errno NumaTopo :=
  if !kvcallocOk then .error .ENOMEM
  else
    let topo := { numaTopoZero with nrCpus := BitVec.ofNat 32 m.onlineCpus.length }
    let (nodeIdx, topo) := compact (fillNode m) m.onlineNodes 0 topo
    let topo := { topo with nrNodes := BitVec.ofNat 32 nodeIdx }
    .ok (compact (fillDistances m) m.onlineNodes 0 topo).2

/-- `dmaplane_ioctl_query_numa_topo`; the result is what `copy_to_user` leaves with the caller. -/
def ioctlQueryNumaTopo (kmallocOk kvcallocOk copyOk : Bool) (m : NumaMachine) :
    Except Errno NumaTopo :=
  if !kmallocOk then .error .ENOMEM
  else
    match dmaplaneQueryNumaTopo kvcallocOk m with
    | .error e => .error e
    | .ok topo => if copyOk then .ok topo else .error .EFAULT

/-! ## The benchmark -/

/-- The array `online_nodes[]` of `dmaplane_numa_bench`, with `nr_nodes`. -/
def benchNodes (m : NumaMachine) : Nat × (Fin maxNumaNodes → Option Nat) :=
  compact (fun i node => (Function.update · i (some node))) m.onlineNodes 0 fun _ => none

/-- `find_cpu_on_node`: the first online CPU of the node, or -1. -/
def findCpuOnNode (m : NumaMachine) (node : Nat) : Option Nat :=
  m.onlineCpus.find? fun cpu => m.cpuToNode cpu == node

/-- The `cpumask` of a row: every online CPU with `cpu_to_node(c) == cpu_node`. -/
def cpumaskOf (m : NumaMachine) (node : Nat) : Finset Nat :=
  m.onlineCpus.foldl (fun mask cpu => if m.cpuToNode cpu = node then insert cpu mask else mask) ∅

/-! ## What the loops leave -/

/-- The online CPUs of a node. -/
def NumaMachine.cpusOn (m : NumaMachine) (node : Nat) : List Nat :=
  m.onlineCpus.filter fun cpu => m.cpuToNode cpu == node

/-- The nodes that fit the arrays. -/
def NumaMachine.listed (m : NumaMachine) : List Nat := m.onlineNodes.take maxNumaNodes

variable {m : NumaMachine}

theorem countCpus_eq (node : Nat) (count : BitVec 32) :
    countCpus m node count = count + BitVec.ofNat 32 (m.cpusOn node).length := by
  unfold countCpus NumaMachine.cpusOn
  induction m.onlineCpus generalizing count with
  | nil => simp
  | cons cpu cpus ih =>
    rw [List.foldl_cons, ih]
    by_cases h : m.cpuToNode cpu = node
    · simp only [h, if_true, beq_self_eq_true, List.filter_cons_of_pos, List.length_cons,
        BitVec.ofNat_add]
      ac_rfl
    · simp [h]

theorem cpumaskOf_eq (node : Nat) : cpumaskOf m node = (m.cpusOn node).toFinset := by
  have hfold : ∀ (cpus : List Nat) (mask : Finset Nat),
      cpus.foldl (fun mask cpu => if m.cpuToNode cpu = node then insert cpu mask else mask) mask
        = mask ∪ (cpus.filter fun cpu => m.cpuToNode cpu == node).toFinset := by
    intro cpus
    induction cpus with
    | nil => intro mask; simp
    | cons cpu cpus ih =>
      intro mask
      rw [List.foldl_cons, ih]
      by_cases h : m.cpuToNode cpu = node
      · simp [h, Finset.insert_union, Finset.union_insert]
      · simp [h]
  rw [cpumaskOf, hfold, Finset.empty_union]; rfl

theorem listed_get {k : Nat} (hk : k < maxNumaNodes) : m.listed[k]? = m.onlineNodes[k]? := by
  rw [NumaMachine.listed, List.getElem?_take, if_pos hk]

/-- An array that the loop over the nodes fills. -/
theorem fillNodes_get {β : Type} {g : NumaTopo → Fin maxNumaNodes → β} {v : Nat → β → β}
    (hself : ∀ i node topo, g (fillNode m i node topo) i = v node (g topo i))
    (hne : ∀ i node topo k, k ≠ i → g (fillNode m i node topo) k = g topo k)
    (topo : NumaTopo) (k : Fin maxNumaNodes) :
    g (compact (fillNode m) m.onlineNodes 0 topo).2 k
      = (m.listed[(k : Nat)]?).elim (g topo k) (v · (g topo k)) := by
  rw [compact_get hself hne, listed_get k.isLt]

theorem fillDistances_row (ni : Fin maxNumaNodes) (node : Nat) (topo : NumaTopo)
    (nj : Fin maxNumaNodes) : (fillDistances m ni node topo).distances ni nj
      = (m.listed[(nj : Nat)]?).elim (topo.distances ni nj) (m.nodeDistance node ·) := by
  rw [fillDistances, listed_get nj.isLt]
  refine compact_get (g := fun topo nj => topo.distances ni nj)
    (v := fun j _ => m.nodeDistance node j) ?_ ?_ m.onlineNodes topo nj
  · intro nj j topo; simp [setDistance]
  · intro nj j topo k hk; simp [setDistance, hk]

theorem fillDistances_get (topo : NumaTopo) (ni nj : Fin maxNumaNodes) :
    (compact (fillDistances m) m.onlineNodes 0 topo).2.distances ni nj
      = (m.listed[(ni : Nat)]?).elim (topo.distances ni nj) fun a =>
          (m.listed[(nj : Nat)]?).elim (topo.distances ni nj) (m.nodeDistance a ·) := by
  have h := compact_get (b := fillDistances m) (g := fun topo ni => topo.distances ni)
    (v := fun a row nj => (m.listed[(nj : Nat)]?).elim (row nj) (m.nodeDistance a ·)) ?_ ?_
    m.onlineNodes topo ni
  · rw [congrFun h nj, listed_get ni.isLt]
    cases m.onlineNodes[(ni : Nat)]? <;> rfl
  · intro ni a topo; funext nj; exact fillDistances_row ni a topo nj
  · intro ni a topo k hk
    refine compact_keeps (f := fun topo => topo.distances k) ?_ m.onlineNodes 0 topo
    intro nj j topo
    simp [setDistance, hk]

theorem benchNodes_get (k : Fin maxNumaNodes) : (benchNodes m).2 k = m.listed[(k : Nat)]? := by
  rw [benchNodes, listed_get k.isLt]
  have h := compact_get (g := fun (s : Fin maxNumaNodes → Option Nat) k => s k)
    (b := fun i node => (Function.update · i (some node))) (v := fun node _ => some node)
    (fun i node s => Function.update_self ..) (fun i node s k hk => Function.update_of_ne hk ..)
    m.onlineNodes (fun _ => none) k
  refine h.trans ?_
  cases m.onlineNodes[(k : Nat)]? <;> rfl

theorem listed_count {σ : Type} (body : Fin maxNumaNodes → Nat → σ → σ) (s : σ) :
    (compact body m.onlineNodes 0 s).1 = m.listed.length := by
  rw [compact_count _ _ (Nat.zero_le _), Nat.zero_add, NumaMachine.listed, List.length_take]

theorem cpusOn_le (node : Nat) : (m.cpusOn node).length < 2 ^ 32 :=
  Nat.lt_of_le_of_lt (List.length_filter_le ..) m.cpus_fit

theorem cpusOn_nodup (node : Nat) : (m.cpusOn node).Nodup :=
  (m.cpus_sorted.imp Nat.ne_of_lt).filter _

theorem findCpuOnNode_none {node : Nat} :
    findCpuOnNode m node = none ↔ (m.cpusOn node).length = 0 := by
  rw [findCpuOnNode, List.find?_eq_none, List.length_eq_zero_iff, NumaMachine.cpusOn,
    List.filter_eq_nil_iff]

/-- Every online CPU is counted at one listed node. -/
theorem sum_cpusOn (hfit : m.onlineNodes.length ≤ maxNumaNodes)
    (hon : ∀ cpu ∈ m.onlineCpus, m.cpuToNode cpu ∈ m.onlineNodes) :
    (m.listed.map fun node => (m.cpusOn node).length).sum = m.onlineCpus.length := by
  have hnodes : m.onlineNodes.Nodup := m.nodes_sorted.imp Nat.ne_of_lt
  have hcpus : m.onlineCpus.Nodup := m.cpus_sorted.imp Nat.ne_of_lt
  have hfiber : ∀ node, (m.cpusOn node).length
      = (m.onlineCpus.toFinset.filter fun cpu => m.cpuToNode cpu = node).card := by
    intro node
    rw [← List.toFinset_card_of_nodup (cpusOn_nodup node), NumaMachine.cpusOn,
      List.toFinset_filter]
    congr 1
    ext cpu; simp
  rw [NumaMachine.listed, List.take_of_length_le hfit, ← List.sum_toFinset _ hnodes,
    ← List.toFinset_card_of_nodup hcpus]
  rw [Finset.card_eq_sum_card_fiberwise (f := m.cpuToNode) (t := m.onlineNodes.toFinset)]
  · exact Finset.sum_congr rfl fun node _ => hfiber node
  · intro cpu hcpu
    simpa using hon cpu (by simpa using hcpu)

/-! ## The reply -/

/-- Index `k` of every array, and row and column `k` of the matrix, are about the `k`-th online
node; the indices beyond the last one are zero. -/
structure TopoOk (m : NumaMachine) (topo : NumaTopo) : Prop where
  count : topo.nrNodes.toNat = m.listed.length
  cpus : topo.nrCpus.toNat = m.onlineCpus.length
  node : ∀ (k : Fin maxNumaNodes) node, m.listed[(k : Nat)]? = some node →
    topo.nodeOnline k = 1 ∧ (topo.nodeCpuCount k).toNat = (m.cpusOn node).length ∧
      topo.nodeMemTotalKb k = pagesToKb (m.presentPages node) ∧
      topo.nodeMemFreeKb k = pagesToKb (sumFreePages m node)
  distance : ∀ (k l : Fin maxNumaNodes) a b, m.listed[(k : Nat)]? = some a →
    m.listed[(l : Nat)]? = some b → topo.distances k l = m.nodeDistance a b
  unused : ∀ k : Fin maxNumaNodes, m.listed.length ≤ k →
    topo.nodeOnline k = 0 ∧ topo.nodeCpuCount k = 0 ∧ topo.nodeMemTotalKb k = 0 ∧
      topo.nodeMemFreeKb k = 0 ∧ ∀ l, topo.distances k l = 0 ∧ topo.distances l k = 0
  conserved : m.onlineNodes.length ≤ maxNumaNodes →
    (∀ cpu ∈ m.onlineCpus, m.cpuToNode cpu ∈ m.onlineNodes) →
    ∑ k, (topo.nodeCpuCount k).toNat = topo.nrCpus.toNat

/-- NUMA_BENCH numbers the nodes as QUERY_NUMA_TOPO does, and skips the rows that have no CPU
there. -/
structure BenchAgrees (m : NumaMachine) (topo : NumaTopo) : Prop where
  count : (benchNodes m).1 = topo.nrNodes.toNat
  listed : ∀ k : Fin maxNumaNodes, (benchNodes m).2 k = m.listed[(k : Nat)]?
  skipped : ∀ k node, (benchNodes m).2 k = some node →
    (findCpuOnNode m node = none ↔ topo.nodeCpuCount k = 0)
  mask : ∀ k node, (benchNodes m).2 k = some node →
    (cpumaskOf m node).card = (topo.nodeCpuCount k).toNat

/-- The reply after the first `for_each_online_node`. -/
def nodesPass (m : NumaMachine) : NumaTopo :=
  (compact (fillNode m) m.onlineNodes 0
    { numaTopoZero with nrCpus := BitVec.ofNat 32 m.onlineCpus.length }).2

theorem nodesPass_online (k : Fin maxNumaNodes) :
    (nodesPass m).nodeOnline k = (m.listed[(k : Nat)]?).elim 0 fun _ => 1 := by
  refine fillNodes_get (g := NumaTopo.nodeOnline) (v := fun _ _ => 1) ?_ ?_ _ k
  · intro i node topo; simp [fillNode]
  · intro i node topo k hk; simp [fillNode, hk]

theorem nodesPass_cpus (k : Fin maxNumaNodes) : (nodesPass m).nodeCpuCount k
    = (m.listed[(k : Nat)]?).elim 0 fun node => BitVec.ofNat 32 (m.cpusOn node).length := by
  have h : (nodesPass m).nodeCpuCount k = (m.listed[(k : Nat)]?).elim 0 (countCpus m · 0) := by
    refine fillNodes_get (g := NumaTopo.nodeCpuCount) (v := countCpus m) ?_ ?_ _ k
    · intro i node topo; simp [fillNode]
    · intro i node topo k hk; simp [fillNode, hk]
  rw [h]
  cases m.listed[(k : Nat)]? with
  | none => rfl
  | some node => exact (countCpus_eq node 0).trans (BitVec.zero_add _)

theorem nodesPass_total (k : Fin maxNumaNodes) : (nodesPass m).nodeMemTotalKb k
    = (m.listed[(k : Nat)]?).elim 0 fun node => pagesToKb (m.presentPages node) := by
  refine fillNodes_get (g := NumaTopo.nodeMemTotalKb)
    (v := fun node _ => pagesToKb (m.presentPages node)) ?_ ?_ _ k
  · intro i node topo; simp [fillNode]
  · intro i node topo k hk; simp [fillNode, hk]

theorem nodesPass_free (k : Fin maxNumaNodes) : (nodesPass m).nodeMemFreeKb k
    = (m.listed[(k : Nat)]?).elim 0 fun node => pagesToKb (sumFreePages m node) := by
  refine fillNodes_get (g := NumaTopo.nodeMemFreeKb)
    (v := fun node _ => pagesToKb (sumFreePages m node)) ?_ ?_ _ k
  · intro i node topo; simp [fillNode]
  · intro i node topo k hk; simp [fillNode, hk]

/-- What the first pass does not write. -/
theorem nodesPass_keeps {β : Type} {f : NumaTopo → β}
    (hf : ∀ i node topo, f (fillNode m i node topo) = f topo) :
    f (nodesPass m) = f { numaTopoZero with nrCpus := BitVec.ofNat 32 m.onlineCpus.length } :=
  compact_keeps hf m.onlineNodes 0 _

/-- The second pass over the nodes writes the matrix only. -/
theorem distancesPass_keeps {β : Type} {f : NumaTopo → β}
    (hf : ∀ ni nj d topo, f (setDistance ni nj d topo) = f topo) (topo : NumaTopo) :
    f (compact (fillDistances m) m.onlineNodes 0 topo).2 = f topo :=
  compact_keeps (fun ni _ topo => compact_keeps (fun nj _ => hf ni nj _) m.onlineNodes 0 topo)
    m.onlineNodes 0 topo

theorem queryNumaTopo_eq {kvcallocOk : Bool} {topo : NumaTopo}
    (h : dmaplaneQueryNumaTopo kvcallocOk m = .ok topo) :
    topo = (compact (fillDistances m) m.onlineNodes 0
      { nodesPass m with nrNodes := BitVec.ofNat 32 m.listed.length }).2 := by
  rw [dmaplaneQueryNumaTopo] at h
  split at h
  · cases h
  · rw [← listed_count (fillNode m)]
    exact (Except.ok.inj h).symm

theorem queryNumaTopo_ok {kvcallocOk : Bool} {topo : NumaTopo}
    (h : dmaplaneQueryNumaTopo kvcallocOk m = .ok topo) : TopoOk m topo := by
  have heq := queryNumaTopo_eq h
  have hlisted : m.listed.length ≤ maxNumaNodes := List.length_take_le ..
  have hcpus : ∀ k, (topo.nodeCpuCount k).toNat
      = (m.listed[(k : Nat)]?).elim 0 fun node => (m.cpusOn node).length := by
    intro k
    rw [heq, distancesPass_keeps (f := NumaTopo.nodeCpuCount) fun _ _ _ _ => rfl]
    rw [show ({ nodesPass m with nrNodes := _ } : NumaTopo).nodeCpuCount k = _ from
      nodesPass_cpus k]
    cases m.listed[(k : Nat)]? with
    | none => rfl
    | some node => simpa using Nat.mod_eq_of_lt (cpusOn_le node)
  have hcpus' : topo.nrCpus.toNat = m.onlineCpus.length := by
    rw [heq, distancesPass_keeps (f := NumaTopo.nrCpus) fun _ _ _ _ => rfl]
    show (nodesPass m).nrCpus.toNat = _
    rw [nodesPass_keeps (f := NumaTopo.nrCpus) fun _ _ _ => rfl]
    simpa using Nat.mod_eq_of_lt m.cpus_fit
  have honline : ∀ k, topo.nodeOnline k = (m.listed[(k : Nat)]?).elim 0 fun _ => 1 := by
    intro k
    rw [heq, distancesPass_keeps (f := NumaTopo.nodeOnline) fun _ _ _ _ => rfl]
    exact nodesPass_online k
  have htotal : ∀ k, topo.nodeMemTotalKb k
      = (m.listed[(k : Nat)]?).elim 0 fun node => pagesToKb (m.presentPages node) := by
    intro k
    rw [heq, distancesPass_keeps (f := NumaTopo.nodeMemTotalKb) fun _ _ _ _ => rfl]
    exact nodesPass_total k
  have hfree : ∀ k, topo.nodeMemFreeKb k
      = (m.listed[(k : Nat)]?).elim 0 fun node => pagesToKb (sumFreePages m node) := by
    intro k
    rw [heq, distancesPass_keeps (f := NumaTopo.nodeMemFreeKb) fun _ _ _ _ => rfl]
    exact nodesPass_free k
  have hdist : ∀ k l, topo.distances k l = (m.listed[(k : Nat)]?).elim 0 fun a =>
      (m.listed[(l : Nat)]?).elim 0 (m.nodeDistance a ·) := by
    intro k l
    have hzero : (nodesPass m).distances = fun _ _ => 0 :=
      nodesPass_keeps (f := NumaTopo.distances) fun _ _ _ => rfl
    rw [heq, fillDistances_get]
    simp only [hzero]
  refine ⟨?_, hcpus', ?_, ?_, ?_, ?_⟩
  · rw [heq, distancesPass_keeps (f := NumaTopo.nrNodes) fun _ _ _ _ => rfl]
    have hlt : m.listed.length < 2 ^ 32 := Nat.lt_of_le_of_lt hlisted (by decide)
    simpa using Nat.mod_eq_of_lt hlt
  · intro k node hk
    rw [honline, hcpus, htotal, hfree, hk]
    exact ⟨rfl, rfl, rfl, rfl⟩
  · intro k l a b hk hl
    rw [hdist, hk, hl]; rfl
  · intro k hk
    have hnone : m.listed[(k : Nat)]? = none := List.getElem?_eq_none hk
    refine ⟨by rw [honline, hnone]; rfl, ?_, by rw [htotal, hnone]; rfl,
      by rw [hfree, hnone]; rfl, fun l => ⟨by rw [hdist, hnone]; rfl, ?_⟩⟩
    · apply BitVec.eq_of_toNat_eq
      rw [hcpus, hnone]; rfl
    · rw [hdist, hnone]
      cases m.listed[(l : Nat)]? <;> rfl
  · intro hfit hon
    rw [hcpus', ← sum_cpusOn hfit hon, ← sum_getElem? _ m.listed hlisted]
    exact Finset.sum_congr rfl fun k _ => hcpus k

theorem benchAgrees {topo : NumaTopo} (h : TopoOk m topo) : BenchAgrees m topo := by
  have hcount : ∀ k node, (benchNodes m).2 k = some node →
      (topo.nodeCpuCount k).toNat = (m.cpusOn node).length := by
    intro k node hk
    exact (h.node k node ((benchNodes_get k).symm.trans hk)).2.1
  refine ⟨?_, benchNodes_get, ?_, ?_⟩
  · rw [benchNodes, listed_count, h.count]
  · intro k node hk
    rw [findCpuOnNode_none, ← hcount k node hk, ← BitVec.toNat_inj]; rfl
  · intro k node hk
    rw [cpumaskOf_eq, List.toFinset_card_of_nodup (cpusOn_nodup node), hcount k node hk]

/-- QUERY_NUMA_TOPO, when it succeeds, describes the machine, and NUMA_BENCH measures the same
nodes in the same rows. -/
theorem numa_topo_describes {kmallocOk kvcallocOk copyOk : Bool} {topo : NumaTopo}
    (h : ioctlQueryNumaTopo kmallocOk kvcallocOk copyOk m = .ok topo) :
    TopoOk m topo ∧ BenchAgrees m topo := by
  rw [ioctlQueryNumaTopo] at h
  split at h
  · cases h
  · cases hq : dmaplaneQueryNumaTopo kvcallocOk m with
    | error e => rw [hq] at h; cases h
    | ok topo' =>
      rw [hq] at h
      simp only at h
      split at h <;> cases h
      have hok := queryNumaTopo_ok hq
      exact ⟨hok, benchAgrees hok⟩

/-- Nodes 0 and 2 are online, and node 2 has no CPU. -/
def sparseMachine : NumaMachine :=
  { onlineNodes := [0, 2], onlineCpus := [0, 1, 5], cpuToNode := fun _ => 0
    presentPages := fun _ => 1024, nodeZones := fun _ => [⟨true, 8⟩, ⟨false, 4⟩]
    nodeDistance := fun a b => if a = b then 10 else 20
    nodes_sorted := by decide, cpus_sorted := by decide, cpus_fit := by decide }

theorem numa_topo_describes_sparse : ∃ topo, topo.distances 0 1 = 20 ∧
    topo.nodeCpuCount 0 = 3 ∧ topo.nodeCpuCount 1 = 0 ∧
    TopoOk sparseMachine topo ∧ BenchAgrees sparseMachine topo := by
  obtain ⟨topo, h, hd, h0, h1⟩ : ∃ topo,
      ioctlQueryNumaTopo true true true sparseMachine = .ok topo ∧ topo.distances 0 1 = 20 ∧
        topo.nodeCpuCount 0 = 3 ∧ topo.nodeCpuCount 1 = 0 :=
    ⟨_, rfl, by decide, by decide, by decide⟩
  exact ⟨topo, hd, h0, h1, numa_topo_describes h⟩

end Dmaplane
