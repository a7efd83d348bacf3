import Mathlib.Data.List.Basic
import Mathlib.Tactic.Ring

/-!
# Dmaplane.Lib.Paged

Memory as a list of cells, and the same memory cut into pages of one length.

* `slice l off n`, `splice l off src` — reading and overwriting an interval, with the rules by
  which adjacent intervals join.
* `slice_flatten`, `splice_flatten` — an access inside one page is the access at
  `page * size + offset` of the whole memory.
-/

namespace Paged

universe u
variable {α : Type u}

def slice (l : List α) (off n : Nat) : List α := (l.drop off).take n

/-- `l` with its cells from `off` on overwritten by `src`. -/
def splice (l : List α) (off : Nat) (src : List α) : List α :=
  l.take off ++ src ++ l.drop (off + src.length)

theorem slice_length {l : List α} {off n : Nat} (h : off + n ≤ l.length) :
    (slice l off n).length = n := by
  simp only [slice, List.length_take, List.length_drop]
  omega

theorem splice_length {l : List α} {off : Nat} {src : List α} (h : off + src.length ≤ l.length) :
    (splice l off src).length = l.length := by
  simp only [splice, List.length_append, List.length_take, List.length_drop]
  omega

@[simp] theorem slice_zero (l : List α) (off : Nat) : slice l off 0 = [] := by simp [slice]

@[simp] theorem splice_nil (l : List α) (off : Nat) : splice l off [] = l := by simp [splice]

theorem slice_getElem? (l : List α) (off n i : Nat) :
    (slice l off n)[i]? = if i < n then l[off + i]? else none := by
  simp only [slice, List.getElem?_take, List.getElem?_drop]

/-- Cell by cell: inside the interval the source, outside what was there. -/
theorem splice_getElem? {l : List α} {off : Nat} {src : List α}
    (h : off + src.length ≤ l.length) (i : Nat) :
    (splice l off src)[i]? =
      if off ≤ i ∧ i < off + src.length then src[i - off]? else l[i]? := by
  have hto : (l.take off).length = off := by rw [List.length_take]; omega
  simp only [splice, List.append_assoc, List.getElem?_append, hto, List.getElem?_take,
    List.getElem?_drop]
  by_cases h1 : i < off
  · rw [if_pos h1, if_pos h1, if_neg (by omega)]
  · by_cases h2 : i - off < src.length
    · rw [if_neg h1, if_pos h2, if_pos (by omega)]
    · rw [if_neg h1, if_neg h2, if_neg (by omega)]
      congr 1; omega

theorem slice_slice (l : List α) {off n off' m : Nat} (h : off' + m ≤ n) :
    slice (slice l off n) off' m = slice l (off + off') m := by
  apply List.ext_getElem?
  intro i
  simp only [slice_getElem?]
  by_cases hi : i < m
  · rw [if_pos hi, if_pos hi, if_pos (by omega), Nat.add_assoc]
  · rw [if_neg hi, if_neg hi]

/-! ## Adjacent intervals -/

theorem slice_append (l : List α) (off m n : Nat) :
    slice l off m ++ slice l (off + m) n = slice l off (m + n) := by
  simp only [slice, ← List.drop_drop, List.take_add]

/-- An interval that holds `a` and then `b` is made of theirs. -/
theorem slice_eq_append {l a b : List α} {off m n : Nat} (ha : a.length = m)
    (hfit : off + m ≤ l.length) (h : slice l off (m + n) = a ++ b) :
    slice l off m = a ∧ slice l (off + m) n = b := by
  rw [← slice_append] at h
  exact List.append_inj h (by rw [slice_length hfit, ha])

theorem splice_append {l : List α} {off : Nat} {a b : List α}
    (h : off + a.length + b.length ≤ l.length) :
    splice (splice l off a) (off + a.length) b = splice l off (a ++ b) := by
  have ha : off + a.length ≤ l.length := by omega
  have hab : off + (a ++ b).length ≤ l.length := by rw [List.length_append]; omega
  apply List.ext_getElem?
  intro i
  rw [splice_getElem? (by rw [splice_length ha]; exact h), splice_getElem? ha, splice_getElem? hab]
  simp only [List.length_append, List.getElem?_append]
  by_cases h1 : off + a.length ≤ i ∧ i < off + a.length + b.length
  · rw [if_pos h1, if_pos (by omega), if_neg (by omega)]
    congr 1; omega
  · rw [if_neg h1]
    by_cases h2 : off ≤ i ∧ i < off + a.length
    · rw [if_pos h2, if_pos (by omega), if_pos (by omega)]
    · rw [if_neg h2, if_neg (by omega)]

theorem slice_splice (l : List α) (off : Nat) (src : List α)
    (h : off + src.length ≤ l.length) : slice (splice l off src) off src.length = src := by
  apply List.ext_getElem?
  intro i
  rw [slice_getElem?, splice_getElem? h]
  by_cases hi : i < src.length
  · rw [if_pos hi, if_pos (by omega), Nat.add_sub_cancel_left]
  · rw [if_neg hi, List.getElem?_eq_none (by omega)]

/-! ## Pages -/

section Pages

variable {size : Nat} {pages : List (List α)}

theorem length_flatten (h : ∀ p ∈ pages, p.length = size) :
    pages.flatten.length = pages.length * size := by
  induction pages with
  | nil => simp
  | cons p ps ih =>
    have hp : p.length = size := h p List.mem_cons_self
    rw [List.flatten_cons, List.length_append, ih (fun q hq => h q (List.mem_cons_of_mem _ hq)),
      hp, List.length_cons]
    ring

/-- The pages before page `i`, that page and the pages after it. -/
theorem flatten_split (h : ∀ p ∈ pages, p.length = size) {i : Nat} (hi : i < pages.length) :
    ∃ before after : List α, before.length = i * size ∧
      pages.flatten = before ++ pages[i] ++ after ∧
      ∀ page, (pages.set i page).flatten = before ++ page ++ after := by
  refine ⟨(pages.take i).flatten, (pages.drop (i + 1)).flatten, ?_, ?_, fun page => ?_⟩
  · rw [length_flatten (fun p hp => h p (List.mem_of_mem_take hp)), List.length_take,
      Nat.min_eq_left (Nat.le_of_lt hi)]
  · have hsplit : pages = pages.take i ++ pages[i] :: pages.drop (i + 1) := by
      rw [← List.drop_eq_getElem_cons hi, List.take_append_drop]
    conv_lhs => rw [hsplit]
    rw [List.flatten_append, List.flatten_cons, List.append_assoc]
  · rw [List.set_eq_take_append_cons_drop, if_pos hi, List.flatten_append, List.flatten_cons,
      List.append_assoc]

theorem slice_flatten (h : ∀ p ∈ pages, p.length = size) {i off n : Nat}
    (hi : i < pages.length) (hn : off + n ≤ size) :
    slice pages.flatten (i * size + off) n = slice pages[i] off n := by
  obtain ⟨before, after, hb, hflat, -⟩ := flatten_split h hi
  have hp : pages[i].length = size := h _ (List.getElem_mem hi)
  rw [hflat]
  apply List.ext_getElem?
  intro j
  rw [slice_getElem?, slice_getElem?]
  by_cases hj : j < n
  · rw [if_pos hj, if_pos hj, List.append_assoc, List.getElem?_append_right (by omega),
      List.getElem?_append_left (by omega)]
    congr 1; omega
  · rw [if_neg hj, if_neg hj]

theorem splice_flatten (h : ∀ p ∈ pages, p.length = size) {i off : Nat} {src : List α}
    (hi : i < pages.length) (hn : off + src.length ≤ size) :
    (pages.set i (splice pages[i] off src)).flatten =
      splice pages.flatten (i * size + off) src := by
  obtain ⟨before, after, hb, hflat, hset⟩ := flatten_split h hi
  have hp : pages[i].length = size := h _ (List.getElem_mem hi)
  rw [hset, hflat]
  simp only [splice, ← hb, List.append_assoc]
  rw [List.take_length_add_append, Nat.add_assoc, List.drop_length_add_append,
    List.take_append_of_le_length (by omega), List.drop_append_of_le_length (by omega)]
  simp only [List.append_assoc]

end Pages

end Paged
