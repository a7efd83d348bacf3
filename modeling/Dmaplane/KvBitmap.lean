import Dmaplane.Lib.Numerals
import Mathlib.Data.BitVec

/-!
# Dmaplane.KvBitmap

Chunk tracking of the KVCache examples (`include/kvcache_proto.h`,
`examples/kvcache/kvcache_common.h`): the 32-bit immediate that names a chunk, and the bitmap with
one word a layer in which the receiver marks what it has seen.

The sender numbers the chunks of a transfer layer by layer. `Tracks bm r` says that the bitmap
holds exactly the first `r` of them; it is complete when `r` is their number
(`allComplete_iff`).
-/

namespace Dmaplane

/-- `MAX_LAYERS`. -/
abbrev maxLayers : Nat := 1024

/-- `KVCACHE_IMM_ENCODE`. -/
def immEncode (layer chunk : BitVec 32) : BitVec 32 :=
  (layer &&& 0xFFFF) <<< 16 ||| (chunk &&& 0xFFFF)

/-- `KVCACHE_IMM_LAYER`. -/
def immLayer (imm : BitVec 32) : BitVec 32 := (imm >>> 16) &&& 0xFFFF

/-- `KVCACHE_IMM_CHUNK`. -/
def immChunk (imm : BitVec 32) : BitVec 32 := imm &&& 0xFFFF

/-- `KVCACHE_SENTINEL`. -/
abbrev kvSentinel : BitVec 32 := 0xFFFFFFFF

structure LayerBitmap where
  /-- `bits[MAX_LAYERS]`. -/
  bits : Nat → BitVec 64
  chunksPerLayer : Nat
  numLayers : Nat

def bitmapInit (numLayers chunksPerLayer : Nat) : LayerBitmap :=
  { bits := fun _ => 0, chunksPerLayer := chunksPerLayer, numLayers := numLayers }

def bitmapSet (bm : LayerBitmap) (layer chunk : Nat) : LayerBitmap :=
  if layer < maxLayers ∧ chunk < 64 then
    { bm with bits := Function.update bm.bits layer (bm.bits layer ||| 1#64 <<< chunk) }
  else bm

def bitmapLayerComplete (bm : LayerBitmap) (layer : Nat) : Bool :=
  let expected := (1#64 <<< bm.chunksPerLayer) - 1
  (bm.bits layer &&& expected) == expected

def bitmapAllComplete (bm : LayerBitmap) : Bool :=
  (List.range bm.numLayers).all (bitmapLayerComplete bm)

/-- A layer and chunk count for which the shift `1ULL << chunks_per_layer` and the accesses to
`bits[]` are defined. -/
structure KvGrid where
  layers : Nat
  chunksPerLayer : Nat
  layers_le : layers ≤ maxLayers
  chunks_lt : chunksPerLayer < 64

def KvGrid.total (g : KvGrid) : Nat := g.layers * g.chunksPerLayer

/-- The immediate of the `i`-th chunk in the order of the two send loops. -/
def KvGrid.imm (g : KvGrid) (i : Nat) : BitVec 32 :=
  immEncode (BitVec.ofNat 32 (i / g.chunksPerLayer)) (BitVec.ofNat 32 (i % g.chunksPerLayer))

/-! ## The immediate -/

theorem and_low16 (x : BitVec 32) : (x &&& 0xFFFF).toNat = x.toNat % 2 ^ 16 := by
  rw [BitVec.toNat_and]
  exact Nat.and_two_pow_sub_one_eq_mod x.toNat 16

theorem immLayer_toNat (imm : BitVec 32) : (immLayer imm).toNat = imm.toNat / 2 ^ 16 := by
  have := imm.isLt
  rw [immLayer, and_low16, BitVec.toNat_ushiftRight, Nat.shiftRight_eq_div_pow]
  omega

theorem immChunk_toNat (imm : BitVec 32) : (immChunk imm).toNat = imm.toNat % 2 ^ 16 :=
  and_low16 imm

theorem immEncode_toNat {layer chunk : Nat} (hl : layer < 2 ^ 16) (hc : chunk < 2 ^ 16) :
    (immEncode (BitVec.ofNat 32 layer) (BitVec.ofNat 32 chunk)).toNat = layer * 2 ^ 16 + chunk := by
  rw [immEncode, BitVec.toNat_or, BitVec.toNat_shiftLeft, and_low16, and_low16, BitVec.toNat_ofNat,
    BitVec.toNat_ofNat]
  have h1 : layer % 2 ^ 32 % 2 ^ 16 = layer := by omega
  have h2 : chunk % 2 ^ 32 % 2 ^ 16 = chunk := by omega
  rw [h1, h2, Nat.mod_eq_of_lt (by rw [Nat.shiftLeft_eq]; omega),
    ← Nat.shiftLeft_add_eq_or_of_lt hc, Nat.shiftLeft_eq]

namespace KvGrid

variable (g : KvGrid) {i : Nat}

theorem div_lt (h : i < g.total) : i / g.chunksPerLayer < g.layers :=
  Nat.div_lt_of_lt_mul (by rw [Nat.mul_comm]; exact h)

theorem mod_lt (h : i < g.total) : i % g.chunksPerLayer < g.chunksPerLayer :=
  Nat.mod_lt _ (Nat.pos_of_mul_pos_left (Nat.zero_lt_of_lt h))

theorem imm_toNat (h : i < g.total) :
    (g.imm i).toNat = i / g.chunksPerLayer * 2 ^ 16 + i % g.chunksPerLayer := by
  have h1 := g.div_lt h
  have h2 := g.mod_lt h
  have hL : g.layers ≤ 1024 := g.layers_le
  have hC := g.chunks_lt
  exact immEncode_toNat (by omega) (by omega)

theorem immLayer_imm (h : i < g.total) : (immLayer (g.imm i)).toNat = i / g.chunksPerLayer := by
  have h2 := g.mod_lt h
  have hC := g.chunks_lt
  rw [immLayer_toNat, g.imm_toNat h]; omega

theorem immChunk_imm (h : i < g.total) : (immChunk (g.imm i)).toNat = i % g.chunksPerLayer := by
  have h2 := g.mod_lt h
  have hC := g.chunks_lt
  rw [immChunk_toNat, g.imm_toNat h]; omega

/-- No chunk is announced by the sentinel. -/
theorem imm_ne_sentinel (h : i < g.total) : g.imm i ≠ kvSentinel := by
  intro he
  have h1 := g.div_lt h
  have h2 := g.mod_lt h
  have hL : g.layers ≤ 1024 := g.layers_le
  have hC := g.chunks_lt
  have ht := congrArg BitVec.toNat he
  rw [g.imm_toNat h] at ht
  have hs : (kvSentinel : BitVec 32).toNat = 2 ^ 32 - 1 := by decide
  omega

/-! ## The bitmap -/

/-- The bitmap of the grid in which exactly the first `r` chunks are marked. -/
structure Tracks (bm : LayerBitmap) (r : Nat) : Prop where
  layers : bm.numLayers = g.layers
  chunks : bm.chunksPerLayer = g.chunksPerLayer
  bits : ∀ l c, l < g.layers → c < g.chunksPerLayer →
    (bm.bits l).getLsbD c = decide (l * g.chunksPerLayer + c < r)

theorem tracks_init : g.Tracks (bitmapInit g.layers g.chunksPerLayer) 0 :=
  ⟨rfl, rfl, fun l c _ _ => by simp [bitmapInit]⟩

variable {g}

theorem mark_getLsbD {n c : Nat} (hn : n < 64) : (1#64 <<< n).getLsbD c = decide (c = n) := by
  rw [← BitVec.twoPow_eq, BitVec.getLsbD_twoPow]
  by_cases hcn : c = n
  · simp [hcn, hn]
  · simp [hcn, Ne.symm hcn]

/-- Marking the next chunk. -/
theorem Tracks.set {bm : LayerBitmap} {r : Nat} (h : g.Tracks bm r) (hr : r < g.total) :
    g.Tracks (bitmapSet bm (immLayer (g.imm r)).toNat (immChunk (g.imm r)).toNat) (r + 1) := by
  have h1 := g.div_lt hr
  have h2 := g.mod_lt hr
  have hL := g.layers_le
  have hC := g.chunks_lt
  have hlt : r / g.chunksPerLayer < maxLayers ∧ r % g.chunksPerLayer < 64 := by omega
  rw [g.immLayer_imm hr, g.immChunk_imm hr, bitmapSet, if_pos hlt]
  refine ⟨h.layers, h.chunks, fun l c hl hc => ?_⟩
  have hdm := Nat.div_add_mod' r g.chunksPerLayer
  have hiff : l * g.chunksPerLayer + c = r ↔
      l = r / g.chunksPerLayer ∧ c = r % g.chunksPerLayer := by
    constructor
    · rintro rfl
      rw [Nat.add_comm, Nat.add_mul_div_right _ _ (by omega), Nat.div_eq_of_lt hc,
        Nat.add_mul_mod_self_right, Nat.mod_eq_of_lt hc]
      simp
    · rintro ⟨rfl, rfl⟩; exact hdm
  by_cases hle : l = r / g.chunksPerLayer
  · subst hle
    have hb := h.bits _ c hl hc
    simp only [Function.update_self, BitVec.getLsbD_or, hb, mark_getLsbD hlt.2, ← Bool.decide_or,
      decide_eq_decide]
    have := (hiff.trans (by simp) : _ ↔ c = r % g.chunksPerLayer)
    omega
  · simp only [Function.update_of_ne hle, h.bits l c hl hc]
    have : l * g.chunksPerLayer + c ≠ r := fun he => hle (hiff.mp he).1
    simp only [decide_eq_decide]; omega

theorem expected_getLsbD {n c : Nat} (hn : n < 64) :
    ((1#64 <<< n) - 1).getLsbD c = decide (c < n) := by
  have hlt : 2 ^ n < 2 ^ 64 := Nat.pow_lt_pow_right (by decide) hn
  have ht : ((1#64 <<< n) - 1).toNat = 2 ^ n - 1 := by
    have hpos : 0 < 2 ^ n := Nat.two_pow_pos n
    rw [BitVec.toNat_sub_of_le, ← BitVec.twoPow_eq, BitVec.toNat_twoPow, Nat.mod_eq_of_lt hlt]
    · rfl
    · rw [BitVec.le_def, ← BitVec.twoPow_eq, BitVec.toNat_twoPow, Nat.mod_eq_of_lt hlt]
      exact hpos
  rw [BitVec.getLsbD, ht, Nat.testBit_two_pow_sub_one]

/-- A layer is complete when each of its bits is set. -/
theorem layerComplete_iff {bm : LayerBitmap} {l : Nat} (hc : bm.chunksPerLayer < 64) :
    bitmapLayerComplete bm l = true ↔
      ∀ c < bm.chunksPerLayer, (bm.bits l).getLsbD c = true := by
  rw [bitmapLayerComplete, beq_iff_eq]
  constructor
  · intro h c hlt
    have hb := congrArg (fun x => x.getLsbD c) h
    rw [BitVec.getLsbD_and, expected_getLsbD hc] at hb
    simpa [hlt] using hb
  · intro h
    apply BitVec.eq_of_getLsbD_eq
    intro c _
    rw [BitVec.getLsbD_and, expected_getLsbD hc]
    by_cases hlt : c < bm.chunksPerLayer
    · simp [h c hlt]
    · simp [hlt]

/-- The bitmap is complete when all chunks are marked, and not before. -/
theorem allComplete_iff {bm : LayerBitmap} {r : Nat} (h : g.Tracks bm r) (hr : r ≤ g.total) :
    bitmapAllComplete bm = true ↔ r = g.total := by
  have hc : bm.chunksPerLayer < 64 := h.chunks ▸ g.chunks_lt
  simp only [bitmapAllComplete, List.all_eq_true, List.mem_range, layerComplete_iff hc, h.layers,
    h.chunks]
  constructor
  · intro hall
    by_contra hne
    have hlt : r < g.total := by omega
    have hb := hall _ (g.div_lt hlt) _ (g.mod_lt hlt)
    rw [h.bits _ _ (g.div_lt hlt) (g.mod_lt hlt), decide_eq_true_eq, Nat.div_add_mod'] at hb
    omega
  · rintro rfl l hl c hcl
    rw [h.bits l c hl hcl, decide_eq_true_eq]
    calc l * g.chunksPerLayer + c < (l + 1) * g.chunksPerLayer := by rw [Nat.add_mul]; omega
      _ ≤ g.total := Nat.mul_le_mul_right _ hl

end KvGrid
end Dmaplane
