import Dmaplane.Lib.Heap
import Mathlib.Data.List.Basic

/-!
# Dmaplane.Lib.Objects

A record of pointers to objects that are made with one another, as a driver's context is.

* `create`, `destroy`, `touch` — a field gets a new object, made with those of the fields `deps`
  names; it is released and the field cleared; it is used.
* `bad` counts the calls with a null or dangling pointer, and the releases of what another live
  object was made with.
* `Sound`       — the live objects are those the fields point to, one each, and nothing was bad.
* `Built o₀ o fs` — `o` is `o₀` with the fields `fs` filled: what an error path has to undo.
* `destroyAll`  — a teardown, of the fields that are not null, in the order given.
-/

structure Objects (F : Type) where
  heap : Heap
  ptr : F → Option Nat
  /-- What each object was made with. -/
  uses : Nat → List Nat
  /-- The objects released, oldest first. -/
  released : List Nat
  bad : Nat

namespace Objects

variable {F : Type} [DecidableEq F]

def empty : Objects F :=
  { heap := .empty, ptr := fun _ => none, uses := fun _ => [], released := [], bad := 0 }

def touch (o : Objects F) (f : F) : Objects F :=
  match o.ptr f with
  | some p => if p ∈ o.heap.live then o else { o with bad := o.bad + 1 }
  | none => { o with bad := o.bad + 1 }

def touchAll (o : Objects F) (fs : List F) : Objects F := fs.foldl touch o

def create (deps : F → List F) (o : Objects F) (f : F) : Objects F :=
  let o := o.touchAll (deps f)
  let (p, h) := o.heap.alloc
  { o with
    heap := h
    ptr := Function.update o.ptr f (some p)
    uses := Function.update o.uses p ((deps f).filterMap o.ptr) }

def destroy (o : Objects F) (f : F) : Objects F :=
  match o.ptr f with
  | some p =>
    { o with
      heap := o.heap.free p
      ptr := Function.update o.ptr f none
      released := o.released ++ [p]
      bad := if ∃ q ∈ o.heap.live, p ∈ o.uses q then o.bad + 1 else o.bad }
  | none => { o with bad := o.bad + 1 }

/-- A creation that may fail, which leaves the field null. -/
def tryCreate (deps : F → List F) (o : Objects F) (f : F) (ok : Bool) : Objects F :=
  if ok then o.create deps f
  else { o.touchAll (deps f) with ptr := Function.update (o.touchAll (deps f)).ptr f none }

/-- `if (f) { destroy(f); f = NULL; }`. -/
def destroyIf (o : Objects F) (f : F) : Objects F :=
  if o.ptr f = none then o else o.destroy f

def destroyAll (o : Objects F) (fs : List F) : Objects F := fs.foldl destroyIf o

structure Sound (deps : F → List F) (o : Objects F) : Prop where
  live : ∀ p, p ∈ o.heap.live ↔ ∃ f, o.ptr f = some p
  inj : ∀ f g p, o.ptr f = some p → o.ptr g = some p → f = g
  uses : ∀ f p, o.ptr f = some p → ∀ q ∈ o.uses p, ∃ g ∈ deps f, o.ptr g = some q
  faults : o.heap.faults = 0
  bad : o.bad = 0

variable {deps : F → List F} {o o₀ : Objects F} {f : F} {fs : List F}

omit [DecidableEq F] in
theorem sound_empty : Sound deps (empty : Objects F) := by
  refine ⟨fun p => ?_, fun f g p h => ?_, fun f p h => ?_, rfl, rfl⟩
  · constructor
    · intro h; cases h
    · rintro ⟨f, h⟩; cases h
  · cases h
  · cases h

omit [DecidableEq F] in
theorem Sound.live_empty (h : Sound deps o) (hnull : ∀ f, o.ptr f = none) : o.heap.live = ∅ := by
  refine Finset.eq_empty_of_forall_notMem fun p hp => ?_
  obtain ⟨f, hf⟩ := (h.live p).mp hp
  rw [hnull f] at hf; cases hf

omit [DecidableEq F] in
theorem Sound.touch (h : Sound deps o) (hf : o.ptr f ≠ none) : o.touch f = o := by
  obtain ⟨p, hp⟩ := Option.ne_none_iff_exists'.mp hf
  have hl : p ∈ o.heap.live := (h.live p).mpr ⟨f, hp⟩
  simp only [Objects.touch, hp, hl, if_true]

omit [DecidableEq F] in
theorem Sound.touchAll (h : Sound deps o) (hf : ∀ f ∈ fs, o.ptr f ≠ none) :
    o.touchAll fs = o := by
  induction fs with
  | nil => rfl
  | cons f fs ih =>
    rw [Objects.touchAll, List.foldl_cons, h.touch (hf f List.mem_cons_self)]
    exact ih fun g hg => hf g (List.mem_cons_of_mem _ hg)

theorem create_eq (h : Sound deps o) (hd : ∀ d ∈ deps f, o.ptr d ≠ none) :
    o.create deps f =
      { o with
        heap := o.heap.alloc.2
        ptr := Function.update o.ptr f (some o.heap.next)
        uses := Function.update o.uses o.heap.next ((deps f).filterMap o.ptr) } := by
  unfold create
  rw [h.touchAll hd]
  rfl

theorem Sound.create (h : Sound deps o) (hf : o.ptr f = none)
    (hd : ∀ d ∈ deps f, o.ptr d ≠ none) : Sound deps (o.create deps f) := by
  rw [create_eq h hd]
  have hnext : ∀ g, o.ptr g ≠ some o.heap.next := fun g hg =>
    absurd (o.heap.lt_next _ ((h.live _).mpr ⟨g, hg⟩)) (Nat.lt_irrefl _)
  have hold {g : F} {q : Nat} (hg : o.ptr g = some q) :
      Function.update o.ptr f (some o.heap.next) g = some q := by
    rw [Function.update_of_ne (by rintro rfl; rw [hf] at hg; cases hg)]
    exact hg
  refine ⟨fun p => ?_, fun g k p hg hk => ?_, fun g p hg q hq => ?_, h.faults, h.bad⟩
  · show p ∈ insert o.heap.next o.heap.live ↔ _
    rw [Finset.mem_insert, h.live]
    constructor
    · rintro (rfl | ⟨g, hg⟩)
      · exact ⟨f, Function.update_self ..⟩
      · exact ⟨g, hold hg⟩
    · rintro ⟨g, hg⟩
      simp only [] at hg
      by_cases hgf : g = f
      · subst hgf
        rw [Function.update_self] at hg
        exact .inl (Option.some.inj hg).symm
      · rw [Function.update_of_ne hgf] at hg
        exact .inr ⟨g, hg⟩
  · simp only [] at hg hk
    by_cases hgf : g = f <;> by_cases hkf : k = f
    · rw [hgf, hkf]
    · subst hgf
      rw [Function.update_self] at hg
      rw [Function.update_of_ne hkf] at hk
      exact absurd (hg ▸ hk) (hnext k)
    · subst hkf
      rw [Function.update_self] at hk
      rw [Function.update_of_ne hgf] at hg
      exact absurd (hk ▸ hg) (hnext g)
    · rw [Function.update_of_ne hgf] at hg
      rw [Function.update_of_ne hkf] at hk
      exact h.inj g k p hg hk
  · simp only [] at hg hq
    by_cases hgf : g = f
    · subst hgf
      rw [Function.update_self] at hg
      cases hg
      rw [Function.update_self] at hq
      obtain ⟨d, hd, hdq⟩ := List.mem_filterMap.mp hq
      exact ⟨d, hd, hold hdq⟩
    · rw [Function.update_of_ne hgf] at hg
      rw [Function.update_of_ne (by rintro rfl; exact hnext g hg)] at hq
      obtain ⟨d, hd, hdq⟩ := h.uses g p hg q hq
      exact ⟨d, hd, hold hdq⟩

/-- A release that nothing depends on. -/
theorem Sound.destroy (h : Sound deps o) (hf : o.ptr f ≠ none)
    (hd : ∀ g, f ∈ deps g → o.ptr g = none) : Sound deps (o.destroy f) := by
  obtain ⟨p, hp⟩ := Option.ne_none_iff_exists'.mp hf
  have hlive : p ∈ o.heap.live := (h.live p).mpr ⟨f, hp⟩
  have hfree : ¬ ∃ q ∈ o.heap.live, p ∈ o.uses q := by
    rintro ⟨q, hq, hpq⟩
    obtain ⟨g, hg⟩ := (h.live q).mp hq
    obtain ⟨d, hdg, hdp⟩ := h.uses g q hg p hpq
    obtain rfl := h.inj d f p hdp hp
    rw [hd g hdg] at hg; cases hg
  simp only [Objects.destroy, hp]
  have hkeep {g : F} {q : Nat} (hg : Function.update o.ptr f none g = some q) :
      g ≠ f ∧ o.ptr g = some q := by
    by_cases hgf : g = f
    · subst hgf; rw [Function.update_self] at hg; cases hg
    · rw [Function.update_of_ne hgf] at hg; exact ⟨hgf, hg⟩
  refine ⟨fun q => ?_, fun g k q hg hk => h.inj g k q (hkeep hg).2 (hkeep hk).2,
    fun g q hg r hr => ?_, by rw [Heap.faults_free hlive]; exact h.faults, ?_⟩
  · rw [Heap.mem_free, h.live]
    constructor
    · rintro ⟨hqp, g, hg⟩
      refine ⟨g, ?_⟩
      show Function.update o.ptr f none g = some q
      rw [Function.update_of_ne (by rintro rfl; rw [hp] at hg; cases hg; exact hqp rfl)]
      exact hg
    · rintro ⟨g, hg⟩
      obtain ⟨hgf, hgq⟩ := hkeep hg
      refine ⟨fun hqp => hgf (h.inj g f q hgq (hqp ▸ hp)), g, hgq⟩
  · obtain ⟨hgf, hgq⟩ := hkeep hg
    obtain ⟨d, hdg, hdr⟩ := h.uses g q hgq r hr
    refine ⟨d, hdg, ?_⟩
    show Function.update o.ptr f none d = some r
    rw [Function.update_of_ne (by rintro rfl; rw [hd g hdg] at hgq; cases hgq)]
    exact hdr
  · rw [if_neg hfree]; exact h.bad

theorem ptr_destroy (o : Objects F) (f g : F) (hg : g ≠ f) : (o.destroy f).ptr g = o.ptr g := by
  unfold destroy
  split
  · exact Function.update_of_ne hg ..
  · rfl

theorem ptr_destroy_self {p : Nat} (h : o.ptr f = some p) : (o.destroy f).ptr f = none := by
  simp only [destroy, h, Function.update_self]

/-! ## Error paths -/

structure Built (deps : F → List F) (o₀ o : Objects F) (fs : List F) : Prop where
  sound : Sound deps o
  old : ∀ g, g ∉ fs → o.ptr g = o₀.ptr g
  new : ∀ f ∈ fs, o₀.ptr f = none ∧ o.ptr f ≠ none

omit [DecidableEq F] in
theorem Built.refl (h : Sound deps o) : Built deps o o [] :=
  ⟨h, fun _ _ => rfl, fun f hf => by cases hf⟩

theorem Built.create (h : Built deps o₀ o fs) (hf : f ∉ fs) (h0 : o₀.ptr f = none)
    (hd : ∀ d ∈ deps f, o.ptr d ≠ none) : Built deps o₀ (o.create deps f) (f :: fs) := by
  have hnone : o.ptr f = none := by rw [h.old f hf]; exact h0
  refine ⟨h.sound.create hnone hd, fun g hg => ?_, fun g hg => ?_⟩
  · obtain ⟨hgf, hg⟩ := not_or.mp (List.mem_cons.not.mp hg)
    rw [create_eq h.sound hd, ← h.old g hg]
    exact Function.update_of_ne hgf ..
  · rw [create_eq h.sound hd]
    by_cases hgf : g = f
    · subst hgf
      exact ⟨h0, by simp only [Function.update_self]; intro h; cases h⟩
    · obtain ⟨h1, h2⟩ := h.new g ((List.mem_cons.mp hg).resolve_left hgf)
      exact ⟨h1, by simp only [Function.update_of_ne hgf]; exact h2⟩

theorem Built.tryCreate_fail (h : Built deps o₀ o fs) (hf : f ∉ fs) (h0 : o₀.ptr f = none)
    (hd : ∀ d ∈ deps f, o.ptr d ≠ none) : o.tryCreate deps f false = o := by
  have hnone : o.ptr f = none := by rw [h.old f hf]; exact h0
  simp only [tryCreate, h.sound.touchAll hd, Bool.false_eq_true, if_false]
  rw [← hnone, Function.update_eq_self]

/-- The last field filled is undone first. -/
theorem Built.destroy (h : Built deps o₀ o (f :: fs)) (hf : f ∉ fs)
    (hd : ∀ g, f ∈ deps g → o.ptr g = none) : Built deps o₀ (o.destroy f) fs := by
  obtain ⟨h0, hne⟩ := h.new f List.mem_cons_self
  obtain ⟨p, hp⟩ := Option.ne_none_iff_exists'.mp hne
  refine ⟨h.sound.destroy hne hd, fun g hg => ?_, fun g hg => ?_⟩
  · by_cases hgf : g = f
    · subst hgf
      rw [ptr_destroy_self hp, h0]
    · rw [ptr_destroy o f g hgf]
      exact h.old g fun hm => (List.mem_cons.mp hm).elim hgf hg
  · obtain ⟨h1, h2⟩ := h.new g (List.mem_cons_of_mem _ hg)
    exact ⟨h1, by rw [ptr_destroy o f g (by rintro rfl; exact hf hg)]; exact h2⟩

/-! From nothing, the fields `fs` are all there is. -/

section FromNothing

variable (h : Built deps o₀ o fs) (hnull : ∀ g, o₀.ptr g = none)
include h hnull

theorem Built.stage (hf : f ∉ fs) (hd : ∀ d ∈ deps f, d ∈ fs) :
    Built deps o₀ (o.tryCreate deps f true) (f :: fs) ∧ o.tryCreate deps f false = o := by
  have hne : ∀ d ∈ deps f, o.ptr d ≠ none := fun d hm => (h.new d (hd d hm)).2
  exact ⟨h.create hf (hnull f) hne, h.tryCreate_fail hf (hnull f) hne⟩

/-- Any of the fields that no other one was made with can be released. -/
theorem Built.release (hf : f ∈ fs) (hd : ∀ g ∈ fs, f ∉ deps g) :
    Built deps o₀ (o.destroy f) (fs.filter (· ≠ f)) := by
  obtain ⟨p, hp⟩ := Option.ne_none_iff_exists'.mp (h.new f hf).2
  refine ⟨h.sound.destroy (h.new f hf).2 fun g hg => ?_, fun g hg => ?_, fun g hg => ?_⟩
  · rw [h.old g fun hm => hd g hm hg]
    exact hnull g
  · by_cases hgf : g = f
    · rw [hgf, ptr_destroy_self hp, hnull]
    · rw [ptr_destroy o f g hgf]
      exact h.old g fun hm => hg (List.mem_filter.mpr ⟨hm, by simpa using hgf⟩)
  · obtain ⟨hm, hgf⟩ := List.mem_filter.mp hg
    rw [ptr_destroy o f g (by simpa using hgf)]
    exact h.new g hm

theorem Built.releaseIf (hd : ∀ g ∈ fs, f ∉ deps g) :
    Built deps o₀ (o.destroyIf f) (fs.filter (· ≠ f)) := by
  unfold destroyIf
  split
  · rename_i hnone
    have hf : f ∉ fs := fun hm => (h.new f hm).2 hnone
    rwa [List.filter_eq_self.mpr fun g hg => by simpa using ne_of_mem_of_not_mem hg hf]
  · rename_i hsome
    refine h.release hnull ?_ hd
    by_contra hf
    rw [h.old f hf, hnull] at hsome
    exact hsome rfl

end FromNothing

omit [DecidableEq F] in
theorem Built.ptr_eq (h : Built deps o₀ o []) : o.ptr = o₀.ptr :=
  funext fun g => h.old g List.not_mem_nil

omit [DecidableEq F] in
theorem Built.live_eq (h : Built deps o₀ o []) (h0 : Sound deps o₀) :
    o.heap.live = o₀.heap.live := by
  ext p
  rw [h.sound.live, h0.live, h.ptr_eq]

/-! ## Teardown -/

theorem Sound.destroyIf (h : Sound deps o) (hd : ∀ g, f ∈ deps g → o.ptr g = none) :
    Sound deps (o.destroyIf f) ∧ (∀ g, (o.destroyIf f).ptr g = if g = f then none else o.ptr g) ∧
      (o.destroyIf f).released = o.released ++ (o.ptr f).toList := by
  unfold Objects.destroyIf
  split
  · rename_i hf
    refine ⟨h, fun g => ?_, by simp [hf]⟩
    split
    · rename_i hg; rw [hg, hf]
    · rfl
  · rename_i hf
    obtain ⟨p, hp⟩ := Option.ne_none_iff_exists'.mp hf
    refine ⟨h.destroy hf hd, fun g => ?_, by simp [Objects.destroy, hp]⟩
    split
    · rename_i hg; rw [hg]; exact ptr_destroy_self hp
    · rename_i hg; exact ptr_destroy o f g hg

/-- A teardown that releases what depends on a field before the field. -/
theorem Sound.destroyAll (hirr : ∀ f, f ∉ deps f) (h : Sound deps o) (fs : List F) (hnd : fs.Nodup)
    (hord : fs.Pairwise fun f g => f ∉ deps g)
    (hout : ∀ f ∈ fs, ∀ g, f ∈ deps g → g ∈ fs ∨ o.ptr g = none) :
    Sound deps (o.destroyAll fs) ∧
      (∀ g, (o.destroyAll fs).ptr g = if g ∈ fs then none else o.ptr g) ∧
      (o.destroyAll fs).released = o.released ++ fs.filterMap o.ptr := by
  induction fs generalizing o with
  | nil => exact ⟨h, fun _ => rfl, by simp [Objects.destroyAll]⟩
  | cons f fs ih =>
    obtain ⟨hf, hnd⟩ := List.nodup_cons.mp hnd
    obtain ⟨hfst, hord⟩ := List.pairwise_cons.mp hord
    have hfree : ∀ g, f ∈ deps g → o.ptr g = none := fun g hg => by
      rcases hout f List.mem_cons_self g hg with hm | hn
      · rcases List.mem_cons.mp hm with rfl | hm
        · exact absurd hg (hirr g)
        · exact absurd hg (hfst g hm)
      · exact hn
    obtain ⟨h1, hptr, hrel⟩ := h.destroyIf hfree
    obtain ⟨h2, hptr2, hrel2⟩ := ih h1 hnd hord fun k hk g hg => by
      rw [hptr]
      rcases hout k (List.mem_cons_of_mem _ hk) g hg with hm | hn
      · rcases List.mem_cons.mp hm with rfl | hm
        · exact .inr (if_pos rfl)
        · exact .inl hm
      · exact .inr (by split <;> [rfl; exact hn])
    refine ⟨h2, fun g => ?_, ?_⟩
    · show ((o.destroyIf f).destroyAll fs).ptr g = _
      rw [hptr2, hptr]
      by_cases hgf : g = f <;> by_cases hgm : g ∈ fs <;> simp [hgf, hgm]
    · show ((o.destroyIf f).destroyAll fs).released = _
      have hsame : fs.filterMap (o.destroyIf f).ptr = fs.filterMap o.ptr :=
        List.filterMap_congr fun g hg => by
          rw [hptr, if_neg (by rintro rfl; exact hf hg)]
      rw [hrel2, hrel, hsame, List.append_assoc, List.filterMap_cons]
      cases o.ptr f <;> rfl

end Objects
