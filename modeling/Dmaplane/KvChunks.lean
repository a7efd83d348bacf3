import Dmaplane.KvBitmap
import Mathlib.Algebra.BigOperators.Group.Finset.Basic
import Mathlib.Data.Finset.Card
import Mathlib.Algebra.Order.BigOperators.Group.Finset

/-!
# Dmaplane.KvChunks

Chunk tracking for whatever `num_layers` and `chunks_per_layer` a sender or receiver is configured
with. Both are plain ints that nothing checks, so that a shift by `chunks_per_layer` and an access to
`bits[]` may be undefined (`Undefined`).

* `totalReceived_ok`, `allComplete_ok` — where they are defined the functions return what
  `KvBitmap` says.
* `exact_tracking_iff` — tracking is exact for no layers at all, and for at most `MAX_LAYERS` of
  them with at most 63 chunks each.
-/

namespace Dmaplane

/-- What C leaves undefined. -/
inductive Undefined where
  | shift
  | outOfBounds
  deriving DecidableEq, Repr

/-- `struct layer_bitmap` with its ints. -/
structure RawBitmap where
  /-- `bits[MAX_LAYERS]`. -/
  bits : Nat → BitVec 64
  chunksPerLayer : Int
  numLayers : Int

/-- `1ULL << n`. -/
def shiftOne (n : Int) : Except Undefined (BitVec 64) :=
  if 0 ≤ n ∧ n < 64 then .ok (1#64 <<< n.toNat) else .error .shift

namespace RawBitmap

/-- `bitmap_init`. -/
def init (numLayers chunksPerLayer : Int) : RawBitmap :=
  { bits := fun _ => 0, chunksPerLayer := chunksPerLayer, numLayers := numLayers }

/-- `bm->bits[i]`. -/
def word (bm : RawBitmap) (i : Nat) : Except Undefined (BitVec 64) :=
  if i < maxLayers then .ok (bm.bits i) else .error .outOfBounds

/-- `bitmap_set`; the guard makes the access and the shift defined. -/
def set (bm : RawBitmap) (layer chunk : Nat) : RawBitmap :=
  if layer < maxLayers ∧ chunk < 64 then
    { bm with bits := Function.update bm.bits layer (bm.bits layer ||| 1#64 <<< chunk) }
  else bm

/-- `bitmap_layer_complete`. -/
def layerComplete (bm : RawBitmap) (layer : Nat) : Except Undefined Bool := do
  let expected := (← shiftOne bm.chunksPerLayer) - 1
  return (← bm.word layer) &&& expected == expected

/-- `bitmap_all_complete`, which returns at the first incomplete layer. -/
def allComplete (bm : RawBitmap) : Except Undefined Bool :=
  (List.range bm.numLayers.toNat).allM bm.layerComplete

/-- `total += __builtin_popcountll(bm->bits[i])`. -/
def addPopcount (bm : RawBitmap) (total i : Nat) : Except Undefined Nat := do
  return total + (← bm.word i).cpop.toNat

/-- `bitmap_total_received`. -/
def totalReceived (bm : RawBitmap) : Except Undefined Nat :=
  (List.range bm.numLayers.toNat).foldlM bm.addPopcount 0

/-- `recv_loop_poll_and_track` from the immediate on: 1 for the sentinel, else 0. -/
def pollAndTrack (bm : RawBitmap) (imm : BitVec 32) : Nat × RawBitmap :=
  if imm = kvSentinel then (1, bm)
  else (0, bm.set (immLayer imm).toNat (immChunk imm).toNat)

/-- The immediates in the order in which they are received. -/
def receive (bm : RawBitmap) (imms : List (BitVec 32)) : RawBitmap :=
  imms.foldl (fun bm imm => (bm.pollAndTrack imm).2) bm

/-- The bitmap of `KvBitmap`, whose counts are naturals. -/
def toLayerBitmap (bm : RawBitmap) : LayerBitmap :=
  { bits := bm.bits, chunksPerLayer := bm.chunksPerLayer.toNat, numLayers := bm.numLayers.toNat }

end RawBitmap

/-- The immediate of a pair. -/
def chunkImm (p : Nat × Nat) : BitVec 32 := immEncode (BitVec.ofNat 32 p.1) (BitVec.ofNat 32 p.2)

/-- The pair belongs to the grid that the two send loops walk. -/
def InGrid (numLayers chunksPerLayer : Int) (p : Nat × Nat) : Prop :=
  p.1 < numLayers ∧ p.2 < chunksPerLayer

/-- What the receiver knows after these chunks, in this order: nothing was taken for the sentinel,
and both questions have defined and right answers. -/
structure ExactTracking (numLayers chunksPerLayer : Int) (pairs : List (Nat × Nat)) : Prop where
  noSentinel : ∀ p ∈ pairs, chunkImm p ≠ kvSentinel
  complete : ∃ b, ((RawBitmap.init numLayers chunksPerLayer).receive
      (pairs.map chunkImm)).allComplete = .ok b ∧
    (b = true ↔ ∀ p, InGrid numLayers chunksPerLayer p → p ∈ pairs)
  total : ((RawBitmap.init numLayers chunksPerLayer).receive
    (pairs.map chunkImm)).totalReceived = .ok pairs.toFinset.card

/-! ## Where everything is defined -/

section Defined

variable {bm : RawBitmap}

theorem word_ok {i : Nat} (h : i < maxLayers) : bm.word i = .ok (bm.bits i) := if_pos h

theorem word_out {i : Nat} (h : maxLayers ≤ i) : bm.word i = .error .outOfBounds :=
  if_neg (Nat.not_lt.mpr h)

theorem layerComplete_ok {layer : Nat} (hl : layer < maxLayers) (h0 : 0 ≤ bm.chunksPerLayer)
    (h64 : bm.chunksPerLayer < 64) :
    bm.layerComplete layer = .ok (bitmapLayerComplete bm.toLayerBitmap layer) := by
  rw [RawBitmap.layerComplete, shiftOne, if_pos ⟨h0, h64⟩, word_ok hl]
  rfl

theorem allM_ok {f : Nat → Except Undefined Bool} {g : Nat → Bool} (is : List Nat)
    (h : ∀ i ∈ is, f i = .ok (g i)) : is.allM f = .ok (is.all g) := by
  induction is with
  | nil => rfl
  | cons i is ih =>
    rw [List.allM_cons, h i List.mem_cons_self, List.all_cons,
      ih fun j hj => h j (List.mem_cons_of_mem _ hj)]
    cases g i <;> rfl

theorem allComplete_ok (hl : bm.numLayers ≤ maxLayers) (h0 : 0 ≤ bm.chunksPerLayer)
    (h64 : bm.chunksPerLayer < 64) :
    bm.allComplete = .ok (bitmapAllComplete bm.toLayerBitmap) := by
  refine allM_ok _ fun i hi => layerComplete_ok ?_ h0 h64
  have := List.mem_range.mp hi
  simp only [maxLayers] at hl ⊢
  omega

theorem foldlM_range_succ {f : Nat → Nat → Except Undefined Nat} {n a b : Nat}
    (h : (List.range n).foldlM f a = .ok b) : (List.range (n + 1)).foldlM f a = f b n := by
  rw [List.range_succ, List.foldlM_append, h]
  show ([n].foldlM f b) = _
  rw [List.foldlM_cons]
  cases f b n <;> rfl

theorem total_ok (n : Nat) (hn : n ≤ maxLayers) :
    (List.range n).foldlM bm.addPopcount 0 =
      .ok (∑ i ∈ Finset.range n, (bm.bits i).cpop.toNat) := by
  induction n with
  | zero => rfl
  | succ n ih =>
    rw [foldlM_range_succ (ih (by omega)), Finset.sum_range_succ, RawBitmap.addPopcount, word_ok hn]
    rfl

theorem totalReceived_ok (hl : bm.numLayers ≤ maxLayers) :
    bm.totalReceived =
      .ok (∑ i ∈ Finset.range bm.numLayers.toNat, (bm.bits i).cpop.toNat) :=
  total_ok _ (by simp only [maxLayers] at hl ⊢; omega)

theorem total_out {n : Nat} (hn : n = maxLayers) (k : Nat) :
    (List.range (n + 1 + k)).foldlM bm.addPopcount 0 = .error .outOfBounds := by
  rw [List.range_add, List.foldlM_append, foldlM_range_succ (total_ok n (Nat.le_of_eq hn)),
    RawBitmap.addPopcount, word_out (Nat.le_of_eq hn.symm)]
  rfl

/-- More layers than `bits[]` has. -/
theorem totalReceived_out (hl : (maxLayers : Int) < bm.numLayers) :
    bm.totalReceived = .error .outOfBounds := by
  have hk : bm.numLayers.toNat = maxLayers + 1 + (bm.numLayers.toNat - (maxLayers + 1)) := by
    simp only [maxLayers] at hl ⊢
    omega
  rw [RawBitmap.totalReceived, hk]
  exact total_out rfl _

/-- A shift that no 64-bit word has. -/
theorem allComplete_shift (hl : 0 < bm.numLayers)
    (h : ¬ (0 ≤ bm.chunksPerLayer ∧ bm.chunksPerLayer < 64)) :
    bm.allComplete = .error .shift := by
  obtain ⟨k, hk⟩ : ∃ k, bm.numLayers.toNat = k + 1 := ⟨bm.numLayers.toNat - 1, by omega⟩
  rw [RawBitmap.allComplete, hk, List.range_succ_eq_map, List.allM_cons, RawBitmap.layerComplete,
    shiftOne, if_neg h]
  rfl

end Defined

/-! ## What the bitmap holds -/

theorem receive_concat (bm : RawBitmap) (imms : List (BitVec 32)) (imm : BitVec 32) :
    bm.receive (imms ++ [imm]) = ((bm.receive imms).pollAndTrack imm).2 := by
  rw [RawBitmap.receive, List.foldl_concat]
  rfl

/-- Both counts are kept. -/
theorem receive_counts (bm : RawBitmap) (imms : List (BitVec 32)) :
    (bm.receive imms).chunksPerLayer = bm.chunksPerLayer ∧
      (bm.receive imms).numLayers = bm.numLayers := by
  induction imms using List.reverseRecOn with
  | nil => exact ⟨rfl, rfl⟩
  | append_singleton imms imm ih =>
    rw [receive_concat, RawBitmap.pollAndTrack]
    split
    · exact ih
    · rw [RawBitmap.set]
      split <;> exact ih

section Received

variable {numLayers chunksPerLayer : Int} {pairs : List (Nat × Nat)}

theorem chunkImm_layer {p : Nat × Nat} (hl : p.1 < 2 ^ 16) (hc : p.2 < 2 ^ 16) :
    (immLayer (chunkImm p)).toNat = p.1 := by
  rw [immLayer_toNat, chunkImm, immEncode_toNat hl hc]
  omega

theorem chunkImm_chunk {p : Nat × Nat} (hl : p.1 < 2 ^ 16) (hc : p.2 < 2 ^ 16) :
    (immChunk (chunkImm p)).toNat = p.2 := by
  rw [immChunk_toNat, chunkImm, immEncode_toNat hl hc]
  omega

theorem chunkImm_ne_sentinel {p : Nat × Nat} (hl : p.1 < maxLayers) (hc : p.2 < 64) :
    chunkImm p ≠ kvSentinel := by
  intro he
  have hl' : p.1 < 1024 := hl
  have ht := congrArg BitVec.toNat he
  rw [chunkImm, immEncode_toNat (by omega) (by omega)] at ht
  have hs : (kvSentinel : BitVec 32).toNat = 2 ^ 32 - 1 := by decide
  omega

/-- After pairs that fit the bitmap exactly their bits are set. -/
theorem receive_bits (hfit : ∀ p ∈ pairs, p.1 < maxLayers ∧ p.2 < 64) (l c : Nat) :
    (((RawBitmap.init numLayers chunksPerLayer).receive (pairs.map chunkImm)).bits l).getLsbD c =
      decide ((l, c) ∈ pairs) := by
  induction pairs using List.reverseRecOn with
  | nil => simp [RawBitmap.receive, RawBitmap.init]
  | append_singleton pairs p ih =>
    have ih' := ih fun q hq => hfit q (List.mem_append_left _ hq)
    obtain ⟨hl, hc⟩ := hfit p List.mem_concat_self
    have hl' : p.1 < 1024 := hl
    rw [List.map_append, List.map_singleton, receive_concat, RawBitmap.pollAndTrack,
      if_neg (chunkImm_ne_sentinel hl hc), chunkImm_layer (by omega) (by omega),
      chunkImm_chunk (by omega) (by omega), RawBitmap.set, if_pos ⟨hl, hc⟩]
    have hmem : (l, c) ∈ pairs ++ [p] ↔ (l, c) ∈ pairs ∨ l = p.1 ∧ c = p.2 := by
      rw [List.mem_append, List.mem_singleton, Prod.ext_iff]
    rw [decide_eq_decide.mpr hmem, Bool.decide_or]
    dsimp only
    by_cases hlp : l = p.1
    · subst hlp
      rw [Function.update_self, BitVec.getLsbD_or, ih', KvGrid.mark_getLsbD hc]
      simp
    · rw [Function.update_of_ne hlp, ih']
      simp [hlp]

theorem cpop_eq_card (x : BitVec 64) :
    x.cpop.toNat = ((Finset.range 64).filter fun c => x.getLsbD c = true).card := by
  have h : ∀ k, x.cpopNatRec k 0 = ((Finset.range k).filter fun c => x.getLsbD c = true).card := by
    intro k
    induction k with
    | zero => rfl
    | succ k ih =>
      rw [BitVec.cpopNatRec_succ, BitVec.cpopNatRec_add, ih, Finset.range_add_one,
        Finset.filter_insert]
      split
      · rename_i hk
        rw [Finset.card_insert_of_notMem (by simp), hk]
        rfl
      · rename_i hk
        rw [Bool.eq_false_iff.mpr hk]
        rfl
  rw [BitVec.toNat_cpop, h]

/-- The set bits of a layer are the distinct chunks received of it. -/
theorem cpop_receive (hfit : ∀ p ∈ pairs, p.1 < maxLayers ∧ p.2 < 64) (l : Nat) :
    (((RawBitmap.init numLayers chunksPerLayer).receive (pairs.map chunkImm)).bits l).cpop.toNat =
      (pairs.toFinset.filter fun p => p.1 = l).card := by
  rw [cpop_eq_card]
  refine Finset.card_bij (fun c _ => (l, c)) (fun c hc => ?_) (fun a _ b _ h => ?_) (fun p hp => ?_)
  · rw [Finset.mem_filter, receive_bits hfit, decide_eq_true_eq] at hc
    exact Finset.mem_filter.mpr ⟨List.mem_toFinset.mpr hc.2, rfl⟩
  · exact (Prod.mk.inj h).2
  · obtain ⟨hset, rfl⟩ := Finset.mem_filter.mp hp
    have hmem := List.mem_toFinset.mp hset
    refine ⟨p.2, Finset.mem_filter.mpr ⟨Finset.mem_range.mpr (hfit p hmem).2, ?_⟩, rfl⟩
    rw [receive_bits hfit]
    exact decide_eq_true hmem

/-- The layers of the grid add up to all that was received. -/
theorem receive_total (hfit : ∀ p ∈ pairs, p.1 < maxLayers ∧ p.2 < 64)
    (hp : ∀ p ∈ pairs, InGrid numLayers chunksPerLayer p) :
    ∑ l ∈ Finset.range ((RawBitmap.init numLayers chunksPerLayer).receive
        (pairs.map chunkImm)).numLayers.toNat,
      (((RawBitmap.init numLayers chunksPerLayer).receive (pairs.map chunkImm)).bits l).cpop.toNat =
      pairs.toFinset.card := by
  rw [(receive_counts _ _).2, Finset.sum_congr rfl fun l _ => cpop_receive hfit l]
  refine (Finset.card_eq_sum_card_fiberwise fun p hm => ?_).symm
  have hlt := (hp p (List.mem_toFinset.mp hm)).1
  exact Finset.mem_coe.mpr (Finset.mem_range.mpr (by
    show p.1 < numLayers.toNat
    omega))

theorem receive_complete_iff (hfit : ∀ p ∈ pairs, p.1 < maxLayers ∧ p.2 < 64)
    (h0 : 0 ≤ chunksPerLayer) (h64 : chunksPerLayer < 64) :
    bitmapAllComplete ((RawBitmap.init numLayers chunksPerLayer).receive
        (pairs.map chunkImm)).toLayerBitmap = true ↔
      ∀ p, InGrid numLayers chunksPerLayer p → p ∈ pairs := by
  obtain ⟨hC, hL⟩ := receive_counts (RawBitmap.init numLayers chunksPerLayer) (pairs.map chunkImm)
  have hc : ((RawBitmap.init numLayers chunksPerLayer).receive
      (pairs.map chunkImm)).toLayerBitmap.chunksPerLayer = chunksPerLayer.toNat :=
    congrArg Int.toNat hC
  have hl : ((RawBitmap.init numLayers chunksPerLayer).receive
      (pairs.map chunkImm)).toLayerBitmap.numLayers = numLayers.toNat := congrArg Int.toNat hL
  simp only [bitmapAllComplete, List.all_eq_true, List.mem_range, hl,
    KvGrid.layerComplete_iff (hc.trans_lt (by omega)), hc]
  constructor
  · intro h p hp
    have hb := h p.1 (by have := hp.1; omega) p.2 (by have := hp.2; omega)
    exact of_decide_eq_true ((receive_bits hfit p.1 p.2).symm.trans hb)
  · intro h l hl' c hc'
    exact (receive_bits hfit l c).trans (decide_eq_true (h (l, c) ⟨by omega, by omega⟩))

end Received

/-! ## When tracking is exact -/

theorem exact_of_no_layers {numLayers chunksPerLayer : Int} {pairs : List (Nat × Nat)}
    (hl : numLayers ≤ 0) (hp : ∀ p ∈ pairs, InGrid numLayers chunksPerLayer p) :
    ExactTracking numLayers chunksPerLayer pairs := by
  have hempty (p : Nat × Nat) : ¬ InGrid numLayers chunksPerLayer p := fun h => by
    have := h.1
    omega
  obtain rfl : pairs = [] := List.eq_nil_iff_forall_not_mem.mpr fun p hm => hempty p (hp p hm)
  have h0 : numLayers.toNat = 0 := by omega
  refine ⟨fun p hm => absurd hm List.not_mem_nil, ⟨true, ?_, fun _ p h => absurd h (hempty p),
    fun _ => rfl⟩, ?_⟩
  · show (List.range numLayers.toNat).allM _ = _
    rw [h0]
    rfl
  · show (List.range numLayers.toNat).foldlM _ _ = _
    rw [h0]
    rfl

theorem exact_of_fits {numLayers chunksPerLayer : Int} {pairs : List (Nat × Nat)}
    (hl : numLayers ≤ maxLayers) (h0 : 0 ≤ chunksPerLayer) (h64 : chunksPerLayer < 64)
    (hp : ∀ p ∈ pairs, InGrid numLayers chunksPerLayer p) :
    ExactTracking numLayers chunksPerLayer pairs := by
  have hfit (p : Nat × Nat) (hm : p ∈ pairs) : p.1 < maxLayers ∧ p.2 < 64 := by
    obtain ⟨h1, h2⟩ := hp p hm
    simp only [maxLayers] at hl ⊢
    omega
  obtain ⟨hC, hL⟩ := receive_counts (RawBitmap.init numLayers chunksPerLayer) (pairs.map chunkImm)
  exact ⟨fun p hm => chunkImm_ne_sentinel (hfit p hm).1 (hfit p hm).2,
    ⟨_, allComplete_ok (hL ▸ hl) (hC ▸ h0) (hC ▸ h64), receive_complete_iff hfit h0 h64⟩,
    (totalReceived_ok (hL ▸ hl)).trans (congrArg _ (receive_total hfit hp))⟩

/-- Otherwise it fails whatever is received: the expected word cannot be built, or there are more
layers than words. -/
theorem not_exact {numLayers chunksPerLayer : Int} (hpos : 0 < numLayers)
    (h : ¬ (numLayers ≤ maxLayers ∧ 0 ≤ chunksPerLayer ∧ chunksPerLayer < 64))
    (pairs : List (Nat × Nat)) : ¬ ExactTracking numLayers chunksPerLayer pairs := by
  rintro ⟨-, ⟨b, hb, -⟩, ht⟩
  obtain ⟨hC, hL⟩ := receive_counts (RawBitmap.init numLayers chunksPerLayer) (pairs.map chunkImm)
  by_cases hl : numLayers ≤ maxLayers
  · rw [allComplete_shift (hL ▸ hpos) (hC ▸ fun hc => h ⟨hl, hc⟩)] at hb
    cases hb
  · rw [totalReceived_out (hL ▸ Int.not_le.mp hl)] at ht
    cases ht

/-- Tracking is exact over every sequence of chunks of the grid exactly for these counts. -/
theorem exact_tracking_iff (numLayers chunksPerLayer : Int) :
    (∀ pairs : List (Nat × Nat), (∀ p ∈ pairs, InGrid numLayers chunksPerLayer p) →
      ExactTracking numLayers chunksPerLayer pairs) ↔
    numLayers ≤ 0 ∨ numLayers ≤ maxLayers ∧ 0 ≤ chunksPerLayer ∧ chunksPerLayer < 64 := by
  constructor
  · intro h
    by_contra hout
    rw [not_or] at hout
    exact not_exact (Int.not_le.mp hout.1) hout.2 []
      (h [] fun p hm => absurd hm List.not_mem_nil)
  · rintro (hl | ⟨hl, h0, h64⟩) pairs hp
    · exact exact_of_no_layers hl hp
    · exact exact_of_fits hl h0 h64 hp

/-- One layer of 64 chunks: the number the bitmap's comment allows. -/
theorem tracking_64_chunks : ¬ ∀ (numLayers chunksPerLayer : Int) (pairs : List (Nat × Nat)),
    (∀ p ∈ pairs, InGrid numLayers chunksPerLayer p) →
      ExactTracking numLayers chunksPerLayer pairs := by
  intro h
  have hp : ∀ p ∈ [((0 : Nat), (0 : Nat))], InGrid 1 64 p := by
    intro p hm
    rw [List.mem_singleton.mp hm]
    exact ⟨by decide, by decide⟩
  obtain ⟨b, hb, -⟩ := (h 1 64 [(0, 0)] hp).complete
  rw [allComplete_shift (by decide) (by decide)] at hb
  cases hb

end Dmaplane
