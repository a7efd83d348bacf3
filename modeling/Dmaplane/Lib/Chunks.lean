import Dmaplane.Lib.Paged

/-!
# Dmaplane.Lib.Chunks

The interval `[0, total)` cut into chunks of one size, the last one shortened, and a transfer that
writes the chunks of a source one at a time.

* `mem_chunk_iff` — each position lies in exactly one chunk.
* `writeChunks_getElem?` — what the target holds after any of the chunks have been written, in any
  order and any number of times.
-/

namespace Chunks

open Paged

universe u
variable {α : Type u}

def count (total size : Nat) : Nat := (total + size - 1) / size

/-- The length of chunk `i`. -/
def len (total size i : Nat) : Nat := min size (total - i * size)

theorem lt_count_iff {total size i : Nat} (hs : 0 < size) :
    i < count total size ↔ i * size < total := by
  rw [count, Nat.lt_div_iff_mul_lt hs]
  omega

theorem mem_chunk_iff {total size i b : Nat} (hs : 0 < size) :
    i < count total size ∧ i * size ≤ b ∧ b < i * size + len total size i ↔
      b < total ∧ i = b / size := by
  have hdiv : i = b / size ↔ i * size ≤ b ∧ b < i * size + size := by
    rw [eq_comm, Nat.div_eq_iff hs]
    omega
  rw [hdiv, lt_count_iff hs, len]
  omega

/-- Every position lies in exactly one chunk. -/
theorem exists_unique_chunk {total size b : Nat} (hs : 0 < size) (hb : b < total) :
    ∃! i, i < count total size ∧ i * size ≤ b ∧ b < i * size + len total size i := by
  refine ⟨b / size, (mem_chunk_iff hs).mpr ⟨hb, rfl⟩, ?_⟩
  intro i hi
  exact ((mem_chunk_iff hs).mp hi).2

theorem chunk_within {total size i : Nat} (hs : 0 < size) (hi : i < count total size) :
    0 < len total size i ∧ i * size + len total size i ≤ total := by
  have h := (lt_count_iff hs).mp hi
  rw [len]
  omega

/-- The chunks `order` of `src`, written from `off` on. -/
def writeChunks (size off : Nat) (src : List α) (order : List Nat) (l : List α) : List α :=
  order.foldl (fun l i => splice l (off + i * size) (slice src (i * size) (len src.length size i))) l

theorem writeChunks_getElem? {size off : Nat} {src : List α} (hs : 0 < size) (order : List Nat)
    (horder : ∀ i ∈ order, i < count src.length size) (l : List α)
    (hfit : off + src.length ≤ l.length) :
    (writeChunks size off src order l).length = l.length ∧
      ∀ p, (writeChunks size off src order l)[p]? =
        if off ≤ p ∧ p - off < src.length ∧ (p - off) / size ∈ order then src[p - off]?
        else l[p]? := by
  induction order generalizing l with
  | nil => simp [writeChunks]
  | cons i order ih =>
    have hi := horder i List.mem_cons_self
    obtain ⟨hpos, hin⟩ := chunk_within hs hi
    have hlen : (slice src (i * size) (len src.length size i)).length = len src.length size i :=
      slice_length hin
    have hfit1 : off + i * size + (slice src (i * size) (len src.length size i)).length ≤
        l.length := by omega
    have hl1 := splice_length hfit1
    obtain ⟨hl, hp⟩ := ih (fun j hj => horder j (List.mem_cons_of_mem _ hj))
      (splice l (off + i * size) (slice src (i * size) (len src.length size i))) (by omega)
    refine ⟨hl.trans hl1, fun p => ?_⟩
    have hunfold : writeChunks size off src (i :: order) l = writeChunks size off src order
        (splice l (off + i * size) (slice src (i * size) (len src.length size i))) := rfl
    rw [hunfold, hp p, splice_getElem? hfit1, hlen, slice_getElem?]
    by_cases hpast : off ≤ p ∧ p - off < src.length
    · have hmem : i < count src.length size ∧ i * size ≤ p - off ∧
          p - off < i * size + len src.length size i ↔
            p - off < src.length ∧ i = (p - off) / size := mem_chunk_iff hs
      have hchunk : (off + i * size ≤ p ∧ p < off + i * size + len src.length size i) ↔
          i = (p - off) / size := by
        constructor
        · intro h
          exact (hmem.mp ⟨hi, by omega⟩).2
        · intro h
          have := hmem.mpr ⟨hpast.2, h⟩
          omega
      by_cases hto : (p - off) / size ∈ order
      · rw [if_pos ⟨hpast.1, hpast.2, hto⟩,
          if_pos ⟨hpast.1, hpast.2, List.mem_cons_of_mem _ hto⟩]
      · rw [if_neg fun h => hto h.2.2]
        by_cases heq : i = (p - off) / size
        · have hc := hchunk.mpr heq
          rw [if_pos hc, if_pos (by omega),
            if_pos ⟨hpast.1, hpast.2, by rw [← heq]; exact List.mem_cons_self⟩]
          congr 1
          omega
        · rw [if_neg fun h => heq (hchunk.mp h), if_neg]
          rintro ⟨-, -, h⟩
          rcases List.mem_cons.mp h with h | h
          · exact heq h.symm
          · exact hto h
    · rw [if_neg fun h => hpast ⟨h.1, h.2.1⟩, if_neg (by omega),
        if_neg fun h => hpast ⟨h.1, h.2.1⟩]

/-- Once every chunk has been written the target holds the source. -/
theorem slice_writeChunks {size off : Nat} {src : List α} {l : List α} {order : List Nat}
    (hs : 0 < size) (horder : ∀ i, i ∈ order ↔ i < count src.length size)
    (hfit : off + src.length ≤ l.length) :
    slice (writeChunks size off src order l) off src.length = src := by
  obtain ⟨-, hp⟩ := writeChunks_getElem? hs order (fun i hi => (horder i).mp hi) l hfit
  apply List.ext_getElem?
  intro j
  rw [slice_getElem?]
  by_cases hj : j < src.length
  · have hmem : j / size ∈ order := by
      rw [horder, lt_count_iff hs]
      exact (Nat.div_mul_le_self j size).trans_lt hj
    rw [if_pos hj, hp, if_pos ⟨Nat.le_add_right _ _, by omega, by rwa [Nat.add_sub_cancel_left]⟩,
      Nat.add_sub_cancel_left]
  · rw [if_neg hj, List.getElem?_eq_none (by omega)]

/-! ## Consecutive intervals -/

/-- The intervals, each with its offset and length, follow one another from `a` to `b`. -/
def Consecutive : Nat → List (Nat × Nat) → Nat → Prop
  | a, [], b => a = b
  | a, (off, n) :: is, b => off = a ∧ Consecutive (a + n) is b

theorem Consecutive.le {a b : Nat} {is : List (Nat × Nat)} (h : Consecutive a is b) :
    ∀ x ∈ is, a ≤ x.1 := by
  induction is generalizing a with
  | nil => intro x hx; cases hx
  | cons i is ih =>
    obtain ⟨rfl, hrest⟩ := h
    intro x hx
    rcases List.mem_cons.mp hx with rfl | hx
    · exact le_rfl
    · exact (Nat.le_add_right _ _).trans (ih hrest x hx)

/-- They are disjoint, and as long as the whole. -/
theorem Consecutive.disjoint {a b : Nat} {is : List (Nat × Nat)} (h : Consecutive a is b) :
    is.Pairwise (fun x y => x.1 + x.2 ≤ y.1) ∧ a + (is.map Prod.snd).sum = b := by
  induction is generalizing a with
  | nil => exact ⟨List.Pairwise.nil, h⟩
  | cons i is ih =>
    obtain ⟨rfl, hrest⟩ := h
    obtain ⟨hpair, hsum⟩ := ih hrest
    refine ⟨List.pairwise_cons.mpr ⟨hrest.le, hpair⟩, ?_⟩
    rw [List.map_cons, List.sum_cons, ← Nat.add_assoc]
    exact hsum

end Chunks
