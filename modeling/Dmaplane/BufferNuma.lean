import Dmaplane.Buffer

/-!
# Dmaplane.BufferNuma

The NUMA node that CREATE_BUFFER reports for page-backed memory, against where the pages are.

The allocator places every page as it likes (`AllocEnv.page`); `pagesOn` counts what it has put on
a node. The code keeps two counters, of the pages on the requested node and of all others, and
falls back on the node of page 0 (`majorityNode`).
-/

namespace Dmaplane

/-- The output fields that CREATE_BUFFER fills in. -/
def createOutput (dev : BufTable) (slot : Fin maxBuffers) (params : DmaplaneBufParams) :
    DmaplaneBufParams :=
  { params with
    bufId := (dev.buffers slot).id, actualNumaNode := (dev.buffers slot).actualNumaNode }

/-- How many of the first `n` pages are on `node`. -/
def pagesOn (page : Nat → Option Int) (n : Nat) (node : Int) : Nat :=
  (List.range n).countP (page · = some node)

/-- No node holds more of the pages than `node`. -/
def Majority (page : Nat → Option Int) (n : Nat) (node : Int) : Prop :=
  ∀ node', pagesOn page n node' ≤ pagesOn page n node

section Placement

variable {page : Nat → Option Int} {n : Nat} {h h' : Heap} {pages : List Page}

/-- The pages lie where the allocator has put them. -/
theorem allocPages_nodes (ha : allocPages page n h = (some pages, h')) :
    pages.map (fun p => some p.node) = (List.range n).map page := by
  induction n generalizing h' pages with
  | zero => cases ha; rfl
  | succ n ih =>
    simp only [allocPages] at ha
    split at ha
    · cases ha
    · rename_i pages₁ h₁ hpages
      split at ha
      · cases ha
      · rename_i node hnode
        cases ha
        rw [List.map_append, ih hpages, List.range_succ, List.map_append, List.map_singleton,
          List.map_singleton, hnode]

theorem pagesOn_eq (hp : pages.map (fun p => some p.node) = (List.range n).map page)
    (node : Int) : pagesOn page n node = pages.countP (·.node = node) := by
  have hc := congrArg (List.countP (· = some node)) hp
  rw [List.countP_map, List.countP_map] at hc
  rw [pagesOn]
  refine hc.symm.trans (List.countP_congr fun p _ => ?_)
  simp

/-- Two nodes have no page in common. -/
theorem pagesOn_add_le {node node' : Int} (hne : node ≠ node') :
    pagesOn page n node + pagesOn page n node' ≤ n := by
  have hle : pagesOn page n node ≤ (List.range n).countP fun i => ¬ page i = some node' := by
    refine List.countP_mono_left fun i _ hi => ?_
    simp only [decide_eq_true_eq] at hi ⊢
    rw [hi]
    simpa using hne
  have hlen := List.length_eq_countP_add_countP (page · = some node') (l := List.range n)
  rw [List.length_range] at hlen
  simp only [pagesOn, decide_eq_true_eq] at hle hlen ⊢
  omega

/-- At least half of the pages are a majority. -/
theorem majority_of_half {node : Int} (hh : n ≤ 2 * pagesOn page n node) :
    Majority page n node := by
  intro node'
  by_cases hne : node' = node
  · rw [hne]
  · have hsum : pagesOn page n node' + pagesOn page n node ≤ n := pagesOn_add_le hne
    omega

theorem firstNode_eq (hp : pages.map (fun p => some p.node) = (List.range n).map page)
    (hn : 0 < n) : page 0 = some (firstNode pages) := by
  obtain ⟨m, rfl⟩ := Nat.exists_eq_succ_of_ne_zero (Nat.ne_of_gt hn)
  cases pages with
  | nil =>
    rw [List.range_succ_eq_map, List.map_cons] at hp
    cases hp
  | cons p ps =>
    rw [List.range_succ_eq_map, List.map_cons, List.map_cons, List.cons.injEq] at hp
    exact hp.1.symm

/-- The code's vote, in terms of the placement. -/
theorem majorityNode_eq (hp : pages.map (fun p => some p.node) = (List.range n).map page)
    (target : Int) : majorityNode target pages =
      if target ≠ numaAny ∧ n ≤ 2 * pagesOn page n target then target else firstNode pages := by
  have hlen : pages.length = n := by
    have := congrArg List.length hp
    simpa using this
  have hlocal : (pages.filter (·.node = target)).length = pagesOn page n target := by
    rw [pagesOn_eq hp, List.countP_eq_length_filter]
  have hremote : (pages.filter (·.node ≠ target)).length = n - pagesOn page n target := by
    have hsum := List.length_eq_countP_add_countP (·.node = target) (l := pages)
    rw [pagesOn_eq hp, ← List.countP_eq_length_filter]
    simp only [decide_eq_true_eq, ne_eq] at hsum ⊢
    omega
  rw [majorityNode]
  by_cases hany : target = numaAny
  · rw [if_pos hany, if_neg fun hc => hc.1 hany]
  · simp only [hlocal, hremote]
    rw [if_neg hany]
    by_cases hhalf : n ≤ 2 * pagesOn page n target
    · rw [if_pos (by omega), if_pos ⟨hany, hhalf⟩]
    · rw [if_neg (by omega), if_neg fun hc => hhalf hc.2]

end Placement

/-- What an accepted CREATE_BUFFER of page-backed memory leaves: all pages are placed, and the node
is the one of the vote. -/
theorem createFill_node {env : AllocEnv} {params : DmaplaneBufParams} {dev dev' : BufTable}
    {h h' : Heap} {slot : Fin maxBuffers}
    (hc : createFill env .pages params dev h = (.ok slot, dev', h')) :
    ∃ pages : List Page, pages.map (fun p => some p.node) =
        (List.range (divRoundUp params.size.toNat pageSize)).map env.page ∧
      (dev'.buffers slot).actualNumaNode = majorityNode params.numaNode pages := by
  have hflow := createFill_flow env .pages params dev h
  rw [hc] at hflow
  cases hflow with
  | @pages _ pages _ _ hslot harr hpages henv =>
    rw [countNuma_buffers, setBuffer_self]
    exact ⟨pages, allocPages_nodes hpages, rfl⟩

/-- **The reported node.** An accepted page-backed CREATE_BUFFER returns a node with a majority of
the pages exactly if it was asked for a node and half of the pages are there, or page 0 happens
to lie on a node with a majority. -/
theorem reported_node_majority_iff {env : AllocEnv} {params : DmaplaneBufParams}
    {dev dev' : BufTable} {h h' : Heap} {slot : Fin maxBuffers}
    (hv : createValidate env params = .ok .pages)
    (hc : createFill env .pages params dev h = (.ok slot, dev', h')) :
    Majority env.page (divRoundUp params.size.toNat pageSize)
        (createOutput (createPublish dev' slot) slot params).actualNumaNode ↔
      (params.numaNode ≠ numaAny ∧ divRoundUp params.size.toNat pageSize ≤
        2 * pagesOn env.page (divRoundUp params.size.toNat pageSize) params.numaNode) ∨
      ∃ node, env.page 0 = some node ∧
        Majority env.page (divRoundUp params.size.toNat pageSize) node := by
  have hn : 0 < divRoundUp params.size.toNat pageSize := by
    have hsize : params.size.toNat ≠ 0 := by
      intro h0
      simp only [createValidate, h0, true_or, if_true] at hv
      cases hv
    simp only [divRoundUp, pageSize]
    omega
  obtain ⟨pages, hp, hnode⟩ := createFill_node hc
  have hout : (createOutput (createPublish dev' slot) slot params).actualNumaNode =
      majorityNode params.numaNode pages := by
    rw [← hnode, createOutput, createPublish, setBuffer_self]
  rw [hout, majorityNode_eq hp]
  have hfirst := firstNode_eq hp hn
  split
  · rename_i hhalf
    exact iff_of_true (majority_of_half hhalf.2) (.inl hhalf)
  · rename_i hhalf
    constructor
    · exact fun hm => .inr ⟨_, hfirst, hm⟩
    · rintro (hc' | ⟨node, hpage, hm⟩)
      · exact absurd hc' hhalf
      · rw [hfirst, Option.some_inj] at hpage
        rw [hpage]; exact hm

/-! ## Three pages on two nodes -/

/-- The first page is on node 1, the others are on node 2. -/
def fallback : AllocEnv :=
  { maxNumNodes := 4, nodeOnline := fun _ => true, coherent := none, pageArray := true
    page := fun i => some (if i = 0 then 1 else 2), vmap := some 0xffffc90000000000 }

def threePages (node : Int) : DmaplaneBufParams :=
  { bufId := 0, allocType := 1, size := 12288, numaNode := node, actualNumaNode := 0 }

theorem reported_node_majority_two :
    (createOutput (createPublish
      (createFill fallback .pages (threePages 2) bufTableInit .empty).2.1 0) 0
      (threePages 2)).actualNumaNode = 2 ∧ Majority fallback.page 3 2 := by
  have hv : createValidate fallback (threePages 2) = .ok .pages := by decide
  have hc : createFill fallback .pages (threePages 2) bufTableInit .empty =
      (.ok 0, (createFill fallback .pages (threePages 2) bufTableInit .empty).2) := rfl
  have hm := (reported_node_majority_iff hv hc).mpr (.inl (by decide))
  exact ⟨rfl, hm⟩

/-- Asked for `node`, CREATE_BUFFER succeeds and reports node 1, where one page is of three. -/
def ReportsFirstPage (node : Int) : Prop :=
  createValidate fallback (threePages node) = .ok .pages ∧
    (createFill fallback .pages (threePages node) bufTableInit .empty).1 = .ok 0 ∧
    (createOutput (createPublish
      (createFill fallback .pages (threePages node) bufTableInit .empty).2.1 0) 0
      (threePages node)).actualNumaNode = 1 ∧
    ¬ Majority fallback.page 3 1

/-- Asked for any node, and for node 0. -/
theorem reported_node_first_page : ReportsFirstPage numaAny ∧ ReportsFirstPage 0 := by
  have hnot : ¬ Majority fallback.page 3 1 := fun h => absurd (h 2) (by decide)
  exact ⟨⟨by decide, rfl, rfl, hnot⟩, ⟨by decide, rfl, rfl, hnot⟩⟩

end Dmaplane
