import Dmaplane.Lib.Numerals
import Mathlib.Data.BitVec

/-!
# Dmaplane.KvPattern

`fill_pattern` and `verify_pattern` of `examples/kvcache/kvcache_common.h`: the bytes that tell the
chunks of a transfer apart.

* `verify_fill`       — a slot verifies for another chunk exactly when both have the same first byte
  `7 l + 13 c` modulo 256; otherwise each of its bytes is an error.
* `detects_iff_small` — the chunks of a grid are all told apart exactly when none of nine steps fits
  into it.
-/

namespace Dmaplane

/-- `(uint8_t)((layer * 7 + chunk * 13 + i) & 0xFF)`, in 32-bit arithmetic. -/
def patternByte (layer chunk i : Nat) : BitVec 8 :=
  ((BitVec.ofNat 32 layer * 7 + BitVec.ofNat 32 chunk * 13 + BitVec.ofNat 32 i) &&& 0xFF).setWidth 8

/-- `fill_pattern`; `buf` is the memory from the slot on. -/
def fillPattern (buf : Nat → BitVec 8) (layer chunk : Nat) (chunkSize : BitVec 32) :
    Nat → BitVec 8 :=
  (List.range chunkSize.toNat).foldl (fun buf i => Function.update buf i (patternByte layer chunk i))
    buf

/-- `verify_pattern`. The count is an int, and taken to wrap. -/
def verifyPattern (buf : Nat → BitVec 8) (layer chunk : Nat) (chunkSize : BitVec 32) : BitVec 32 :=
  (List.range chunkSize.toNat).foldl
    (fun errs i => if buf i ≠ patternByte layer chunk i then errs + 1 else errs) 0

/-- The slot of one chunk with the pattern of another is not accepted, its own pattern is. -/
def DetectsMisplaced (layers chunksPerLayer : Nat) : Prop :=
  ∀ chunkSize : BitVec 32, 0 < chunkSize.toNat → ∀ l c, l < layers → c < chunksPerLayer →
    ∀ buf, verifyPattern (fillPattern buf l c chunkSize) l c chunkSize = 0 ∧
      ∀ l' c', l' < layers → c' < chunksPerLayer → (l, c) ≠ (l', c') →
        verifyPattern (fillPattern buf l' c' chunkSize) l c chunkSize ≠ 0

/-! ## Bytes -/

/-- The first byte of a chunk. -/
def patternBase (layer chunk : Nat) : Nat := (7 * layer + 13 * chunk) % 256

theorem patternByte_toNat (layer chunk i : Nat) :
    (patternByte layer chunk i).toNat = (patternBase layer chunk + i) % 256 := by
  have hmask : ∀ x : BitVec 32, ((x &&& 0xFF).setWidth 8).toNat = x.toNat % 256 := by
    intro x
    rw [BitVec.toNat_setWidth, BitVec.toNat_and]
    have hand : x.toNat &&& (0xFF : BitVec 32).toNat = x.toNat % 2 ^ 8 :=
      Nat.and_two_pow_sub_one_eq_mod x.toNat 8
    rw [hand]
    omega
  have h7 : (7 : BitVec 32).toNat = 7 := rfl
  have h13 : (13 : BitVec 32).toNat = 13 := rfl
  rw [patternByte, hmask, patternBase]
  simp only [BitVec.toNat_add, BitVec.toNat_mul, BitVec.toNat_ofNat, h7, h13]
  omega

/-- Whether two chunks agree at a byte does not depend on the byte. -/
theorem patternByte_eq_iff (l c l' c' i : Nat) :
    patternByte l c i = patternByte l' c' i ↔ patternBase l c = patternBase l' c' := by
  rw [← BitVec.toNat_inj, patternByte_toNat, patternByte_toNat]
  simp only [patternBase]
  omega

theorem fillPattern_apply (buf : Nat → BitVec 8) (l c : Nat) (chunkSize : BitVec 32) (i : Nat) :
    fillPattern buf l c chunkSize i =
      if i < chunkSize.toNat then patternByte l c i else buf i := by
  rw [fillPattern]
  induction chunkSize.toNat with
  | zero => rfl
  | succ n ih =>
    rw [List.range_succ, List.foldl_concat]
    by_cases hi : i = n
    · subst hi
      rw [Function.update_self, if_pos (Nat.lt_succ_self _)]
    · rw [Function.update_of_ne hi, ih]
      congr 1
      exact propext (by omega)

theorem verify_fill (buf : Nat → BitVec 8) (l c l' c' : Nat) (chunkSize : BitVec 32) :
    verifyPattern (fillPattern buf l' c' chunkSize) l c chunkSize =
      if patternBase l c = patternBase l' c' then 0 else chunkSize := by
  have hloop : ∀ n ≤ chunkSize.toNat, (List.range n).foldl
      (fun errs i => if fillPattern buf l' c' chunkSize i ≠ patternByte l c i then errs + 1 else errs)
        (0 : BitVec 32) = if patternBase l c = patternBase l' c' then 0 else BitVec.ofNat 32 n := by
    intro n
    induction n with
    | zero => intro _; split <;> rfl
    | succ n ih =>
      intro hn
      rw [List.range_succ, List.foldl_concat, ih (by omega), fillPattern_apply,
        if_pos (Nat.lt_of_succ_le hn)]
      by_cases heq : patternBase l c = patternBase l' c'
      · rw [if_pos heq, if_pos heq,
          if_neg (not_not.mpr ((patternByte_eq_iff l' c' l c n).mpr heq.symm))]
      · rw [if_neg heq, if_neg heq, if_pos (mt (patternByte_eq_iff l' c' l c n).mp (Ne.symm heq)),
          BitVec.ofNat_add]
        rfl
  rw [verifyPattern, hloop _ (le_refl _), BitVec.ofNat_toNat, BitVec.setWidth_eq]

theorem detects_iff_base (layers chunksPerLayer : Nat) :
    DetectsMisplaced layers chunksPerLayer ↔
      ∀ l c l' c', l < layers → c < chunksPerLayer → l' < layers → c' < chunksPerLayer →
        patternBase l c = patternBase l' c' → (l, c) = (l', c') := by
  constructor
  · intro h l c l' c' hl hc hl' hc' heq
    by_contra hne
    have herr := (h 1 (by decide) l c hl hc fun _ => 0).2 l' c' hl' hc' hne
    rw [verify_fill, if_pos heq] at herr
    exact herr rfl
  · intro h chunkSize hpos l c hl hc buf
    refine ⟨?_, fun l' c' hl' hc' hne => ?_⟩
    · rw [verify_fill, if_pos rfl]
    · rw [verify_fill, if_neg fun heq => hne (h l c l' c' hl hc hl' hc' heq)]
      rintro rfl
      exact absurd hpos (by decide)

/-! ## Grids -/

/-- The smallest differences of layer and chunk between chunks of one pattern. -/
def aliasSteps : List (Nat × Nat) :=
  [(256, 0), (75, 1), (31, 3), (13, 7), (5, 17), (3, 41), (2, 58), (1, 99), (0, 256)]

/-- Two chunks that far apart have one pattern, if the layers grow with the chunks or against them. -/
theorem aliasSteps_alias : ∀ s ∈ aliasSteps,
    patternBase 0 0 = patternBase s.1 s.2 ∨ patternBase s.1 0 = patternBase 0 s.2 := by
  decide

theorem aliasSteps_ne : ∀ s ∈ aliasSteps, s ≠ (0, 0) := by
  decide

/-- Among differences below 256 the steps are the smallest ones. -/
theorem step_of_residue : ∀ b < 256, 0 < b →
    (∃ s ∈ aliasSteps, s.1 ≤ 75 * b % 256 ∧ s.2 ≤ b) ∧
      ∃ s ∈ aliasSteps, s.1 ≤ 181 * b % 256 ∧ s.2 ≤ b := by
  decide +kernel

/-- The difference of two chunks with one pattern, whichever way the layer and the chunk go. -/
theorem residue_of_alias {l c l' c' : Nat} (hl : l < 256) (hl' : l' < 256) (hlt : c < c')
    (h : patternBase l c = patternBase l' c') :
    l ≤ l' ∧ l' - l = 181 * (c' - c) % 256 ∨ l' ≤ l ∧ l - l' = 75 * (c' - c) % 256 := by
  simp only [patternBase] at h
  rcases Nat.le_total l l' with hle | hle
  · obtain ⟨a, rfl⟩ := Nat.exists_eq_add_of_le hle
    obtain ⟨b, rfl⟩ := Nat.exists_eq_add_of_le (Nat.le_of_lt hlt)
    left
    omega
  · obtain ⟨a, rfl⟩ := Nat.exists_eq_add_of_le hle
    obtain ⟨b, rfl⟩ := Nat.exists_eq_add_of_le (Nat.le_of_lt hlt)
    right
    omega

/-- Two chunks of one pattern are a step of the table apart, or more. -/
theorem step_of_alias {l c l' c' : Nat} (hl : l < 256) (hl' : l' < 256) (hc : c' - c < 256)
    (hlt : c < c') (h : patternBase l c = patternBase l' c') :
    ∃ s ∈ aliasSteps, s.1 ≤ max l l' ∧ s.2 ≤ c' := by
  obtain ⟨⟨s, hs, hs1, hs2⟩, ⟨t, ht, ht1, ht2⟩⟩ := step_of_residue (c' - c) hc (by omega)
  rcases residue_of_alias hl hl' hlt h with ⟨_, hd⟩ | ⟨_, hd⟩
  · exact ⟨t, ht, by omega, by omega⟩
  · exact ⟨s, hs, by omega, by omega⟩

/-- All chunks of a grid are told apart exactly when every step leaves it. -/
theorem detects_iff_small (layers chunksPerLayer : Nat) :
    DetectsMisplaced layers chunksPerLayer ↔
      ∀ s ∈ aliasSteps, layers ≤ s.1 ∨ chunksPerLayer ≤ s.2 := by
  rw [detects_iff_base]
  constructor
  · intro h s hs
    by_contra hin
    rw [not_or, Nat.not_le, Nat.not_le] at hin
    obtain ⟨h1, h2⟩ := hin
    rcases aliasSteps_alias s hs with heq | heq
    · exact aliasSteps_ne s hs (h 0 0 s.1 s.2 (by omega) (by omega) h1 h2 heq).symm
    · have hpair := h s.1 0 0 s.2 h1 (by omega) (by omega) h2 heq
      exact aliasSteps_ne s hs (Prod.ext (Prod.mk.inj hpair).1 (Prod.mk.inj hpair).2.symm)
  · intro hsteps l c l' c' hl hc hl' hc' heq
    have hL := hsteps (256, 0) (by decide)
    have hC := hsteps (0, 256) (by decide)
    rcases Nat.lt_trichotomy c c' with hlt | rfl | hlt
    · obtain ⟨s, hs, hs1, hs2⟩ := step_of_alias (by omega) (by omega) (by omega) hlt heq
      have := hsteps s hs
      omega
    · simp only [patternBase] at heq
      rw [show l = l' by omega]
    · obtain ⟨s, hs, hs1, hs2⟩ := step_of_alias (by omega) (by omega) (by omega) hlt heq.symm
      have := hsteps s hs
      omega

/-- The default grid has chunks of one pattern: the first one, and chunk 3 of layer 31. -/
theorem default_grid_aliases :
    ¬ ∀ layers chunksPerLayer : Nat, DetectsMisplaced layers chunksPerLayer := by
  intro h
  have herr := (h 32 4 1 (by decide) 31 3 (by decide) (by decide) fun _ => 0).2 0 0 (by decide)
    (by decide) (by decide)
  rw [verify_fill] at herr
  exact herr rfl

end Dmaplane
