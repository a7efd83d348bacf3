import Dmaplane.HistCalls

/-!
# Dmaplane.HistClear

GET_HISTOGRAM with `reset` beside `dmaplane_histogram_record`. It reads nineteen atomics and clears
them afterwards, one by one: a sample that falls between the read and the clear of a field is lost,
and one whose increments fall on both sides of a snapshot is torn, for good.

* `epoch` is a record beside the state: of a sample, how many resets had read its bucket at its
  first increment; of a reset, how many had read the count before it.
* `Apart`: an increment of a field falls in no reset's window on it, and in the epoch of its sample;
  the windows of two resets on one field do not overlap; the snapshot can be copied out.
* `Ordered`: under this guard the resets pass every field in one order.
* `Counted`: a snapshot holds the samples of its own epoch, the field those of the last one.
-/

namespace Dmaplane

/-! ## Where the operations of a call stand -/

section Call

variable {req : HistReq} {c : HistCall} {f f' : HistField}

theorem hasRead_get {g : HistGet} : (HistCall.get g).hasRead f = true ↔ f.readAt < g.pc.rank := by
  simp [HistCall.hasRead]

theorem hasCleared_get {g : HistGet} :
    (HistCall.get g).hasCleared f = true ↔ f.clearAt < g.pc.rank := by
  simp [HistCall.hasCleared]

/-- The count is read first. -/
theorem count_readAt_le (f : HistField) : HistField.count.readAt ≤ f.readAt := by
  have := readAt_range f
  have h1 : HistField.count.readAt = 1 := rfl
  omega

theorem count_readAt_lt (hf : f ≠ .count) : HistField.count.readAt < f.readAt := by
  cases f with
  | bucket i => simp only [HistField.readAt]; omega
  | count => exact absurd rfl hf
  | sumNs => decide

theorem readAt_lt_clearAt (f f' : HistField) : f.readAt < f'.clearAt := by
  have := readAt_range f
  have := clearAt_range f'
  omega

theorem hasRead_count (h : c.hasRead f = true) : c.hasRead .count = true := by
  cases c with
  | record pc => cases h
  | get g => exact hasRead_get.mpr ((count_readAt_le f).trans_lt (hasRead_get.mp h))

theorem hasRead_of_hasCleared (h : c.hasCleared f = true) (f' : HistField) :
    c.hasRead f' = true := by
  cases c with
  | record pc => cases h
  | get g => exact hasRead_get.mpr ((readAt_lt_clearAt f' f).trans (hasCleared_get.mp h))

theorem op_read_rank (h : req.op c = .read f) :
    ∃ g, c = .get g ∧ g.pc.rank = f.readAt := by
  cases req with
  | record latencyNs => cases c with
    | record pc => cases pc <;> cases h
    | get g => cases h
  | getHistogram copyFrom copyTo => cases c with
    | record pc => cases h
    | get g => exact ⟨g, rfl, op_eq_read.mp h⟩

theorem op_clear_rank (h : req.op c = .clear f) :
    ∃ g, c = .get g ∧ g.pc.rank = f.clearAt := by
  cases req with
  | record latencyNs => cases c with
    | record pc => cases pc <;> cases h
    | get g => cases h
  | getHistogram copyFrom copyTo => cases c with
    | record pc => cases h
    | get g => exact ⟨g, rfl, op_eq_clear.mp h⟩

theorem not_hasRead_of_read (h : req.op c = .read f) : ¬ c.hasRead f = true := by
  obtain ⟨g, rfl, hr⟩ := op_read_rank h
  rw [hasRead_get, hr]
  exact lt_irrefl _

theorem not_hasCleared_of_read (h : req.op c = .read f) (f' : HistField) :
    ¬ c.hasCleared f' = true := by
  obtain ⟨g, rfl, hr⟩ := op_read_rank h
  rw [hasCleared_get, hr]
  exact (readAt_lt_clearAt f f').not_gt

theorem not_hasRead_of_read_count (h : req.op c = .read .count) (f : HistField) :
    ¬ c.hasRead f = true := by
  obtain ⟨g, rfl, hr⟩ := op_read_rank h
  rw [hasRead_get, hr]
  exact (count_readAt_le f).not_gt

theorem hasRead_count_of_read (h : req.op c = .read f) (hf : f ≠ .count) :
    c.hasRead .count = true := by
  obtain ⟨g, rfl, hr⟩ := op_read_rank h
  rw [hasRead_get, hr]
  exact count_readAt_lt hf

theorem hasRead_of_clear (h : req.op c = .clear f) : c.hasRead f = true := by
  obtain ⟨g, rfl, hr⟩ := op_clear_rank h
  rw [hasRead_get, hr]
  exact readAt_lt_clearAt f f

theorem not_hasCleared_of_clear (h : req.op c = .clear f) : ¬ c.hasCleared f = true := by
  obtain ⟨g, rfl, hr⟩ := op_clear_rank h
  rw [hasCleared_get, hr]
  exact lt_irrefl _

theorem record_of_add (h : req.op c = .add f) : req.resets = false := by
  cases req with
  | record latencyNs => rfl
  | getHistogram copyFrom copyTo => cases c with
    | record pc => cases h
    | get g => rcases g with ⟨pc, r, b⟩; cases pc <;> cases h

/-- The bucket is counted first. -/
theorem not_counted_of_add_bucket {b : Fin histBuckets} (h : req.op c = .add (.bucket b))
    (f : HistField) : req.counted c f = false := by
  cases req with
  | record latencyNs => cases c with
    | record pc => cases pc <;> cases h; cases f <;> simp [HistReq.counted]
    | get g => cases h
  | getHistogram copyFrom copyTo => cases c <;> rfl

theorem not_counted_of_read (h : req.op c = .read f) (f' : HistField) :
    req.counted c f' = false := by
  obtain ⟨g, rfl, -⟩ := op_read_rank h
  cases req <;> rfl

end Call

/-! ## Windows and epochs -/

section Defs

variable {ι : Type} (req : ι → HistReq) (s : HistSt ι)

/-- A reset that has read the field. -/
def HistSt.HasRead (g : ι) (f : HistField) : Prop :=
  (req g).resets = true ∧ (s.calls g).hasRead f = true

instance (g : ι) (f : HistField) : Decidable (s.HasRead req g f) :=
  inferInstanceAs (Decidable (_ ∧ _))

/-- A reset that has read the field and has not cleared it yet. -/
def HistSt.InWindow (g : ι) (f : HistField) : Prop :=
  s.HasRead req g f ∧ ¬ (s.calls g).hasCleared f = true

instance (g : ι) (f : HistField) : Decidable (s.InWindow req g f) :=
  inferInstanceAs (Decidable (_ ∧ _))

/-- How many resets have read the field. -/
def HistSt.reads [Fintype ι] (f : HistField) : Nat :=
  ∑ g, if s.HasRead req g f then 1 else 0

variable [Fintype ι] [DecidableEq ι]

/-- A sample gets its epoch at its first increment, a reset at its first read. -/
def markEpoch (s : HistSt ι) (i : ι) (_ : HistSt ι) (epoch : ι → Nat) : ι → Nat :=
  match (req i).op (s.calls i) with
  | .add (.bucket b) => Function.update epoch i (s.reads req (.bucket b))
  | .read .count => Function.update epoch i (s.reads req .count)
  | _ => epoch

/-- The same runs, with the epochs beside them. -/
def histEpochSys : Transition.Sys (HistSt ι × (ι → Nat)) ι :=
  (histSys req).withHistory (fun _ => 0) (markEpoch req)

/-- The guard on the next operation of a call. -/
def OpApart (s : HistSt ι × (ι → Nat)) (i : ι) : HistOp → Prop
  | .add (.bucket b) => ∀ g, ¬ s.1.InWindow req g (.bucket b)
  | .add f => (∀ g, ¬ s.1.InWindow req g f) ∧ s.2 i = s.1.reads req f
  | .read f => (req i).resets = true → ∀ g, ¬ s.1.InWindow req g f
  | .copyTo copied => (req i).resets = true → copied = true
  | _ => True

instance (s : HistSt ι × (ι → Nat)) (i : ι) : ∀ op, Decidable (OpApart req s i op)
  | .add (.bucket b) => inferInstanceAs (Decidable (∀ g, ¬ s.1.InWindow req g (.bucket b)))
  | .add .count =>
    inferInstanceAs (Decidable ((∀ g, ¬ s.1.InWindow req g .count) ∧ s.2 i = s.1.reads req .count))
  | .add .sumNs =>
    inferInstanceAs (Decidable ((∀ g, ¬ s.1.InWindow req g .sumNs) ∧ s.2 i = s.1.reads req .sumNs))
  | .read f =>
    inferInstanceAs (Decidable ((req i).resets = true → ∀ g, ¬ s.1.InWindow req g f))
  | .copyTo copied => inferInstanceAs (Decidable ((req i).resets = true → copied = true))
  | .clear _ => inferInstanceAs (Decidable True)
  | .other => inferInstanceAs (Decidable True)

def Apart (s : HistSt ι × (ι → Nat)) (i : ι) : Prop := OpApart req s i ((req i).op (s.1.calls i))

instance (s : HistSt ι × (ι → Nat)) (i : ι) : Decidable (Apart req s i) :=
  inferInstanceAs (Decidable (OpApart req s i _))

end Defs

section Step

variable {ι : Type} [DecidableEq ι] {req : ι → HistReq} {s s' : HistSt ι} {i : ι}

theorem hasRead_step (hs : (histSys req).step s i = some s') (g : ι) (f : HistField) :
    s'.HasRead req g f ↔ s.HasRead req g f ∨
      g = i ∧ (req i).resets = true ∧ (req i).op (s.calls i) = .read f := by
  obtain ⟨he, hother⟩ := histSys_step hs
  by_cases hg : g = i
  · subst hg
    have := he.hasRead f
    simp only [HistSt.HasRead]
    tauto
  · simp [HistSt.HasRead, hother g hg, hg]

theorem inWindow_step (hs : (histSys req).step s i = some s') (g : ι) (f : HistField) :
    s'.InWindow req g f ↔
      s.InWindow req g f ∧ ¬ (g = i ∧ (req i).op (s.calls i) = .clear f) ∨
        g = i ∧ (req i).resets = true ∧ (req i).op (s.calls i) = .read f := by
  obtain ⟨he, hother⟩ := histSys_step hs
  by_cases hg : g = i
  · subst hg
    have hr := he.hasRead f
    have hc := fun h => he.hasCleared h f
    by_cases hop : (req g).op (s.calls g) = .read f
    · have h1 := not_hasCleared_of_read hop f
      have h2 : (req g).op (s.calls g) ≠ .clear f := by rw [hop]; simp
      simp only [HistSt.InWindow, HistSt.HasRead]
      tauto
    · simp only [HistSt.InWindow, HistSt.HasRead]
      tauto
  · simp [HistSt.InWindow, HistSt.HasRead, hother g hg, hg]

theorem reads_step [Fintype ι] (hs : (histSys req).step s i = some s') (f : HistField) :
    s'.reads req f = s.reads req f +
      if (req i).resets = true ∧ (req i).op (s.calls i) = .read f then 1 else 0 := by
  refine sum_eq_add_of_ne (i := i) ?_ ?_
  · have h := hasRead_step hs i f
    by_cases hop : (req i).resets = true ∧ (req i).op (s.calls i) = .read f
    · have hno : ¬ s.HasRead req i f := fun hr => not_hasRead_of_read hop.2 hr.2
      have hyes : s'.HasRead req i f := h.mpr (.inr ⟨rfl, hop⟩)
      simp [hno, hyes, hop]
    · have heq : s'.HasRead req i f ↔ s.HasRead req i f := by tauto
      simp [heq, hop]
  · intro j hj
    have heq : s'.HasRead req j f ↔ s.HasRead req j f := by
      have := hasRead_step hs j f
      tauto
    simp [heq]

end Step

section Epoch

variable {ι : Type} [Fintype ι] [DecidableEq ι] {req : ι → HistReq} {s s' : HistSt ι} {i j : ι}
  {e : ι → Nat}

theorem markEpoch_other (hj : j ≠ i) : markEpoch req s i s' e j = e j := by
  unfold markEpoch
  cases (req i).op (s.calls i) with
  | add f => cases f <;> simp [hj]
  | read f => cases f <;> simp [hj]
  | _ => rfl

theorem markEpoch_add_bucket {b : Fin histBuckets}
    (h : (req i).op (s.calls i) = .add (.bucket b)) :
    markEpoch req s i s' e i = s.reads req (.bucket b) := by
  simp [markEpoch, h]

theorem markEpoch_read_count (h : (req i).op (s.calls i) = .read .count) :
    markEpoch req s i s' e i = s.reads req .count := by
  simp [markEpoch, h]

theorem markEpoch_eq (hadd : ∀ b, (req i).op (s.calls i) ≠ .add (.bucket b))
    (hread : (req i).op (s.calls i) ≠ .read .count) : markEpoch req s i s' e = e := by
  unfold markEpoch
  split
  · rename_i b h; exact absurd h (hadd b)
  · rename_i h; exact absurd h hread
  · rfl

end Epoch

/-! ## The resets, in order -/

section Ordered

variable {ι : Type} [Fintype ι] [DecidableEq ι] {req : ι → HistReq} {s s' : HistSt ι} {i : ι}
  {e e' : ι → Nat} {f : HistField}

/-- The resets pass each field one after another, each in its epoch. -/
structure Ordered (req : ι → HistReq) (s : HistSt ι) (e : ι → Nat) : Prop where
  unique : ∀ f g g', s.InWindow req g f → s.InWindow req g' f → g = g'
  lt : ∀ g f, s.HasRead req g f → e g < s.reads req f
  pending : ∀ g f, s.HasRead req g .count → ¬ s.HasRead req g f → e g = s.reads req f
  inj : ∀ g g', s.HasRead req g .count → s.HasRead req g' .count → e g = e g' → g = g'

omit [Fintype ι] [DecidableEq ι] in
/-- A reset that has not read everything has its window on the count open. -/
theorem count_window {g : ι} (hc : s.HasRead req g .count) (hf : ¬ s.HasRead req g f) :
    s.InWindow req g .count :=
  ⟨hc, fun hcl => hf ⟨hc.1, hasRead_of_hasCleared hcl f⟩⟩

omit [DecidableEq ι] in
theorem Ordered.frame (h : Ordered req s e)
    (hread : ∀ g f, s'.HasRead req g f ↔ s.HasRead req g f)
    (hwin : ∀ g f, s'.InWindow req g f → s.InWindow req g f)
    (hreads : ∀ f, s'.reads req f = s.reads req f)
    (he : ∀ g f, s.HasRead req g f → e' g = e g) : Ordered req s' e' := by
  refine ⟨?_, ?_, ?_, ?_⟩
  · intro f g g' hg hg'
    exact h.unique f g g' (hwin g f hg) (hwin g' f hg')
  · intro g f hg
    rw [hread] at hg
    rw [hreads, he g f hg]
    exact h.lt g f hg
  · intro g f hc hf
    rw [hread] at hc hf
    rw [hreads, he g _ hc]
    exact h.pending g f hc hf
  · intro g g' hg hg' heq
    rw [hread] at hg hg'
    rw [he g _ hg, he g' _ hg'] at heq
    exact h.inj g g' hg hg' heq

omit [DecidableEq ι] in
/-- With no window open on the count, all fields have been read equally often. -/
theorem reads_eq_count (hwin : ∀ g, ¬ s.InWindow req g .count) (f : HistField) :
    s.reads req f = s.reads req .count := by
  refine Finset.sum_congr rfl fun g _ => ?_
  have hiff : s.HasRead req g f ↔ s.HasRead req g .count := by
    constructor
    · intro hr
      exact ⟨hr.1, hasRead_count hr.2⟩
    · intro hr
      by_contra hf
      exact hwin g (count_window hr hf)
  simp [hiff]

theorem Ordered.read_count (h : Ordered req s e) (hs : (histSys req).step s i = some s')
    (hres : (req i).resets = true) (hop : (req i).op (s.calls i) = .read .count)
    (hwin : ∀ g, ¬ s.InWindow req g .count) : Ordered req s' (markEpoch req s i s' e) := by
  have hread : ∀ g f, s'.HasRead req g f ↔ s.HasRead req g f ∨ g = i ∧ f = .count := by
    intro g f
    rw [hasRead_step hs, hop]
    simp [hres, eq_comm]
  have hnone : ∀ f, ¬ s.HasRead req i f := fun f hr => not_hasRead_of_read_count hop f hr.2
  have hei : markEpoch req s i s' e i = s.reads req .count := markEpoch_read_count hop
  have heo : ∀ g f, s.HasRead req g f → markEpoch req s i s' e g = e g := by
    intro g f hg
    exact markEpoch_other (by rintro rfl; exact hnone f hg)
  have hle : ∀ f, s.reads req f ≤ s'.reads req f := fun f => by rw [reads_step hs]; omega
  have hcount : s'.reads req .count = s.reads req .count + 1 := by
    rw [reads_step hs]; simp [hres, hop]
  refine ⟨?_, ?_, ?_, ?_⟩
  · have hw : ∀ g f, s'.InWindow req g f → s.InWindow req g f ∨ g = i ∧ f = .count := by
      intro g f hg
      rw [inWindow_step hs, hop] at hg
      rcases hg with hg | ⟨hg, -, hf⟩
      · exact .inl hg.1
      · exact .inr ⟨hg, by simpa [eq_comm] using hf⟩
    intro f g g' hg hg'
    rcases hw g f hg with hg | ⟨rfl, rfl⟩
    · rcases hw g' f hg' with hg' | ⟨rfl, rfl⟩
      · exact h.unique f g g' hg hg'
      · exact absurd hg (hwin g)
    · rcases hw g' _ hg' with hg' | ⟨rfl, -⟩
      · exact absurd hg' (hwin g')
      · rfl
  · intro g f hg
    rcases (hread g f).mp hg with hg | ⟨rfl, rfl⟩
    · rw [heo g f hg]
      exact (h.lt g f hg).trans_le (hle f)
    · rw [hei, hcount]
      exact Nat.lt_succ_self _
  · intro g f hc hf
    rw [hread] at hc hf
    push Not at hf
    rcases hc with hc | ⟨rfl, -⟩
    · exact absurd (count_window hc hf.1) (hwin g)
    · rw [hei, reads_step hs, hop, ← reads_eq_count hwin f]
      have : f ≠ .count := hf.2 rfl
      simp [this.symm]
  · intro g g' hg hg' heq
    rcases (hread g _).mp hg with hg | ⟨rfl, -⟩
    · rcases (hread g' _).mp hg' with hg' | ⟨rfl, -⟩
      · rw [heo g _ hg, heo g' _ hg'] at heq
        exact h.inj g g' hg hg' heq
      · rw [heo g _ hg, hei] at heq
        exact absurd heq (h.lt g _ hg).ne
    · rcases (hread g' _).mp hg' with hg' | ⟨rfl, -⟩
      · rw [heo g' _ hg', hei] at heq
        exact absurd heq.symm (h.lt g' _ hg').ne
      · rfl

theorem Ordered.read (h : Ordered req s e) (hs : (histSys req).step s i = some s')
    (hres : (req i).resets = true) (hop : (req i).op (s.calls i) = .read f) (hf : f ≠ .count)
    (hwin : ∀ g, ¬ s.InWindow req g f) : Ordered req s' e := by
  have hread : ∀ g f', s'.HasRead req g f' ↔ s.HasRead req g f' ∨ g = i ∧ f' = f := by
    intro g f'
    rw [hasRead_step hs, hop]
    simp [hres, eq_comm]
  have hcount : ∀ g, s'.HasRead req g .count ↔ s.HasRead req g .count := by
    intro g
    rw [hread]
    simp [hf.symm]
  have hi : s.HasRead req i .count := ⟨hres, hasRead_count_of_read hop hf⟩
  have hno : ¬ s.HasRead req i f := fun hr => not_hasRead_of_read hop hr.2
  have hreads : ∀ f', s'.reads req f' = s.reads req f' + if f' = f then 1 else 0 := by
    intro f'
    rw [reads_step hs, hop]
    simp [hres, eq_comm]
  refine ⟨?_, ?_, ?_, ?_⟩
  · have hw : ∀ g f', s'.InWindow req g f' → s.InWindow req g f' ∨ g = i ∧ f' = f := by
      intro g f' hg
      rw [inWindow_step hs, hop] at hg
      rcases hg with hg | ⟨hg, -, hf⟩
      · exact .inl hg.1
      · exact .inr ⟨hg, by simpa [eq_comm] using hf⟩
    intro f' g g' hg hg'
    rcases hw g f' hg with hg | ⟨rfl, rfl⟩
    · rcases hw g' f' hg' with hg' | ⟨rfl, rfl⟩
      · exact h.unique f' g g' hg hg'
      · exact absurd hg (hwin g)
    · rcases hw g' _ hg' with hg' | ⟨rfl, -⟩
      · exact absurd hg' (hwin g')
      · rfl
  · intro g f' hg
    rw [hreads]
    rcases (hread g f').mp hg with hg | ⟨rfl, rfl⟩
    · exact (h.lt g f' hg).trans_le (Nat.le_add_right _ _)
    · rw [h.pending g f' hi hno, if_pos rfl]
      exact Nat.lt_succ_self _
  · intro g f' hc hg
    rw [hcount] at hc
    rw [hread] at hg
    push Not at hg
    have hne : f' ≠ f := by
      rintro rfl
      -- the window on the count is open for both, so `g` is the reader
      exact hg.2 (h.unique .count g i (count_window hc hg.1) (count_window hi hno)) rfl
    rw [hreads, if_neg hne]
    exact h.pending g f' hc hg.1
  · intro g g' hg hg' heq
    rw [hcount] at hg hg'
    exact h.inj g g' hg hg' heq

end Ordered

/-! ## The samples of an epoch -/

section Counted

variable {ι : Type} [Fintype ι] [DecidableEq ι] {req : ι → HistReq} {s s' : HistSt ι} {i : ι}
  {e e' : ι → Nat} {f : HistField}

/-- The samples of epoch `n` that a field has been incremented for. -/
def HistSt.tallyAt (req : ι → HistReq) (s : HistSt ι) (e : ι → Nat) (n : Nat) (f : HistField) :
    BitVec 64 := s.tally req (fun i => e i = n) f

structure Counted (req : ι → HistReq) (s : HistSt ι) (e : ι → Nat) : Prop where
  /-- Outside a window the field holds the samples of the last epoch. -/
  held : ∀ f, (∀ g, ¬ s.InWindow req g f) → s.hist.get f = s.tallyAt req e (s.reads req f) f
  /-- A snapshot holds those of its own. -/
  seen : ∀ g f, s.HasRead req g f → (s.calls g).seen f = s.tallyAt req e (e g) f
  le : ∀ j f, (req j).counted (s.calls j) f = true → e j ≤ s.reads req f
  /-- In a window the last epoch is empty. -/
  lt : ∀ g j f, s.InWindow req g f → (req j).counted (s.calls j) f = true → e j < s.reads req f

omit [Fintype ι] in
theorem counted_step (hs : (histSys req).step s i = some s') (j : ι) (f : HistField) :
    (req j).counted (s'.calls j) f = true ↔ (req j).counted (s.calls j) f = true ∨
      j = i ∧ (req i).op (s.calls i) = .add f := by
  obtain ⟨he, hother⟩ := histSys_step hs
  by_cases hj : j = i
  · subst hj
    simpa using he.counted f
  · simp [hother j hj, hj]

/-- A sample keeps its epoch once it is counted anywhere. -/
theorem epoch_of_counted {j : ι} (h : (req j).counted (s.calls j) f = true) :
    markEpoch req s i s' e j = e j := by
  by_cases hj : j = i
  · subst hj
    rw [markEpoch_eq]
    · intro b hop
      rw [not_counted_of_add_bucket hop] at h
      cases h
    · intro hop
      rw [not_counted_of_read hop] at h
      cases h
  · exact markEpoch_other hj

/-- A reset keeps its epoch once it has read anything. -/
theorem epoch_of_hasRead {g : ι} (h : s.HasRead req g f) : markEpoch req s i s' e g = e g := by
  by_cases hg : g = i
  · subst hg
    rw [markEpoch_eq]
    · intro b hop
      rw [HistSt.HasRead, record_of_add hop] at h
      cases h.1
    · intro hop
      exact not_hasRead_of_read_count hop f h.2
  · exact markEpoch_other hg

theorem tallyAt_step (hs : (histSys req).step s i = some s') (n : Nat) :
    s'.tallyAt req (markEpoch req s i s' e) n f = s.tallyAt req e n f +
      if (req i).op (s.calls i) = .add f ∧ markEpoch req s i s' e i = n then (req i).contrib f
      else 0 :=
  histTally_step hs (fun j hj => by rw [markEpoch_other hj]) fun hc => by rw [epoch_of_counted hc]

theorem tallyAt_step_eq (hs : (histSys req).step s i = some s')
    (hadd : (req i).op (s.calls i) ≠ .add f) (n : Nat) :
    s'.tallyAt req (markEpoch req s i s' e) n f = s.tallyAt req e n f := by
  rw [tallyAt_step hs]
  simp [hadd]

omit [Fintype ι] in
theorem get_step_eq (hs : (histSys req).step s i = some s')
    (hadd : (req i).op (s.calls i) ≠ .add f) (hclear : (req i).op (s.calls i) ≠ .clear f) :
    s'.hist.get f = s.hist.get f := by
  rw [(histSys_step hs).1.get f]
  cases hop : (req i).op (s.calls i) with
  | add f' => rw [hop] at hadd; simp at hadd; simp [HistOp.apply, Ne.symm hadd]
  | clear f' => rw [hop] at hclear; simp at hclear; simp [HistOp.apply, Ne.symm hclear]
  | _ => rfl

omit [Fintype ι] in
theorem seen_step_eq (hs : (histSys req).step s i = some s') {g : ι}
    (hread : ¬ (g = i ∧ (req i).op (s.calls i) = .read f)) :
    (s'.calls g).seen f = (s.calls g).seen f := by
  obtain ⟨he, hother⟩ := histSys_step hs
  by_cases hg : g = i
  · subst hg
    rw [he.seen f, if_neg fun hop => hread ⟨rfl, hop⟩]
  · rw [hother g hg]

/-- A step that does not read for a reset, as far as the windows go. -/
theorem windows_of_not_read (hs : (histSys req).step s i = some s')
    (hread : ¬ ((req i).resets = true ∧ (req i).op (s.calls i) = .read f)) :
    (∀ g, s'.HasRead req g f ↔ s.HasRead req g f) ∧
      (∀ g, s'.InWindow req g f → s.InWindow req g f) ∧ s'.reads req f = s.reads req f := by
  refine ⟨?_, ?_, ?_⟩
  · intro g
    rw [hasRead_step hs]
    tauto
  · intro g
    rw [inWindow_step hs]
    tauto
  · rw [reads_step hs, if_neg hread]
    rfl

/-- A step that leaves the field alone, apart from a reset's reading it. -/
theorem Counted.frame_field (h : Counted req s e) (hs : (histSys req).step s i = some s')
    (hadd : (req i).op (s.calls i) ≠ .add f) (hclear : (req i).op (s.calls i) ≠ .clear f)
    (hread : ¬ ((req i).resets = true ∧ (req i).op (s.calls i) = .read f)) :
    ((∀ g, ¬ s'.InWindow req g f) →
        s'.hist.get f = s'.tallyAt req (markEpoch req s i s' e) (s'.reads req f) f) ∧
      ∀ g, s'.HasRead req g f → (s'.calls g).seen f =
        s'.tallyAt req (markEpoch req s i s' e) (markEpoch req s i s' e g) f := by
  obtain ⟨hr, hw, hn⟩ := windows_of_not_read hs hread
  constructor
  · intro hno
    have hno' : ∀ g, ¬ s.InWindow req g f := by
      intro g hg
      refine hno g ((inWindow_step hs g f).mpr (.inl ⟨hg, ?_⟩))
      rintro ⟨rfl, hop⟩
      exact hclear hop
    rw [get_step_eq hs hadd hclear, hn, tallyAt_step_eq hs hadd]
    exact h.held f hno'
  · intro g hg
    rw [hr] at hg
    have hne : ¬ (g = i ∧ (req i).op (s.calls i) = .read f) := by
      rintro ⟨rfl, hop⟩
      exact hread ⟨hg.1, hop⟩
    rw [seen_step_eq hs hne, tallyAt_step_eq hs hadd, epoch_of_hasRead hg]
    exact h.seen g f hg

/-- The epochs of the counted samples, over any step that keeps the guard. -/
theorem Counted.epochs (h : Counted req s e) (hs : (histSys req).step s i = some s')
    (hadd : ∀ f, (req i).op (s.calls i) = .add f →
      (∀ g, ¬ s.InWindow req g f) ∧ markEpoch req s i s' e i = s.reads req f)
    (hread : ∀ f, (req i).resets = true → (req i).op (s.calls i) = .read f →
      ∀ g, ¬ s.InWindow req g f) :
    (∀ j f, (req j).counted (s'.calls j) f = true →
        markEpoch req s i s' e j ≤ s'.reads req f) ∧
      ∀ g j f, s'.InWindow req g f → (req j).counted (s'.calls j) f = true →
        markEpoch req s i s' e j < s'.reads req f := by
  have hle : ∀ j f, (req j).counted (s'.calls j) f = true →
      markEpoch req s i s' e j ≤ s.reads req f := by
    intro j f hc
    rw [counted_step hs] at hc
    rcases hc with hc | ⟨rfl, hop⟩
    · rw [epoch_of_counted hc]
      exact h.le j f hc
    · exact (hadd f hop).2.le
  refine ⟨?_, ?_⟩
  · intro j f hc
    rw [reads_step hs]
    exact (hle j f hc).trans (Nat.le_add_right _ _)
  · intro g j f hg hc
    rw [inWindow_step hs] at hg
    rcases hg with ⟨hg, -⟩ | ⟨rfl, hres, hop⟩
    · rw [counted_step hs] at hc
      rcases hc with hc | ⟨rfl, hop⟩
      · rw [epoch_of_counted hc, reads_step hs]
        exact (h.lt g j f hg hc).trans_le (Nat.le_add_right _ _)
      · exact absurd hg ((hadd f hop).1 g)
    · rw [reads_step hs, if_pos ⟨hres, hop⟩]
      exact Nat.lt_succ_of_le (hle j f hc)

/-- A reset reads a field in the epoch that it closes. -/
theorem epoch_of_read (hord : Ordered req s e) (hres : (req i).resets = true)
    (hop : (req i).op (s.calls i) = .read f) : markEpoch req s i s' e i = s.reads req f := by
  by_cases hf : f = .count
  · subst hf
    exact markEpoch_read_count hop
  · have hi : s.HasRead req i .count := ⟨hres, hasRead_count_of_read hop hf⟩
    rw [epoch_of_hasRead hi]
    exact hord.pending i f hi fun hr => not_hasRead_of_read hop hr.2

theorem epoch_of_add (s' : HistSt ι) (hok : Apart req (s, e) i)
    (hop : (req i).op (s.calls i) = .add f) :
    (∀ g, ¬ s.InWindow req g f) ∧ markEpoch req s i s' e i = s.reads req f := by
  simp only [Apart, hop] at hok
  cases f with
  | bucket b => exact ⟨hok, markEpoch_add_bucket hop⟩
  | count | sumNs =>
    refine ⟨hok.1, ?_⟩
    rw [markEpoch_eq (by simp [hop]) (by simp [hop])]
    exact hok.2

omit [DecidableEq ι] in
theorem window_of_read (hok : Apart req (s, e) i) (hres : (req i).resets = true)
    (hop : (req i).op (s.calls i) = .read f) (g : ι) : ¬ s.InWindow req g f := by
  simp only [Apart, hop] at hok
  exact hok hres g

/-- An increment: the sample joins the last epoch, which no snapshot holds. -/
theorem Counted.add_field (h : Counted req s e) (hord : Ordered req s e)
    (hs : (histSys req).step s i = some s') (hok : Apart req (s, e) i)
    (hop : (req i).op (s.calls i) = .add f) :
    s'.hist.get f = s'.tallyAt req (markEpoch req s i s' e) (s'.reads req f) f ∧
      ∀ g, s'.HasRead req g f → (s'.calls g).seen f =
        s'.tallyAt req (markEpoch req s i s' e) (markEpoch req s i s' e g) f := by
  obtain ⟨hwin, hepoch⟩ := epoch_of_add s' hok hop
  obtain ⟨hr, -, hn⟩ := windows_of_not_read hs (f := f) (by simp [hop])
  constructor
  · rw [(histSys_step hs).1.get f, hop, hn, tallyAt_step hs, if_pos ⟨hop, hepoch⟩,
      ← h.held f hwin]
    simp [HistOp.apply]
  · intro g hg
    rw [hr] at hg
    have hne : s.reads req f ≠ e g := (hord.lt g f hg).ne'
    rw [seen_step_eq hs (by simp [hop]), epoch_of_hasRead hg, tallyAt_step hs, hepoch,
      if_neg fun hc => hne hc.2, h.seen g f hg]
    exact (BitVec.add_zero _).symm

/-- A reset's read: its snapshot takes the samples of the epoch that ends. -/
theorem Counted.read_field (h : Counted req s e) (hord : Ordered req s e)
    (hs : (histSys req).step s i = some s') (hok : Apart req (s, e) i)
    (hres : (req i).resets = true) (hop : (req i).op (s.calls i) = .read f) :
    s'.InWindow req i f ∧ ∀ g, s'.HasRead req g f → (s'.calls g).seen f =
      s'.tallyAt req (markEpoch req s i s' e) (markEpoch req s i s' e g) f := by
  refine ⟨(inWindow_step hs i f).mpr (.inr ⟨rfl, hres, hop⟩), ?_⟩
  intro g hg
  rw [tallyAt_step_eq hs (by simp [hop])]
  by_cases hgi : g = i
  · subst hgi
    rw [(histSys_step hs).1.seen f, if_pos hop, epoch_of_read hord hres hop]
    exact h.held f (window_of_read hok hres hop)
  · have hold : s.HasRead req g f := by
      rw [hasRead_step hs] at hg
      tauto
    rw [seen_step_eq hs fun hc => hgi hc.1, epoch_of_hasRead hold]
    exact h.seen g f hold

/-- A clear: the last epoch was empty. -/
theorem Counted.clear_field (h : Counted req s e) (hs : (histSys req).step s i = some s')
    (hres : (req i).resets = true) (hop : (req i).op (s.calls i) = .clear f) :
    s'.hist.get f = s'.tallyAt req (markEpoch req s i s' e) (s'.reads req f) f ∧
      ∀ g, s'.HasRead req g f → (s'.calls g).seen f =
        s'.tallyAt req (markEpoch req s i s' e) (markEpoch req s i s' e g) f := by
  obtain ⟨hr, -, hn⟩ := windows_of_not_read hs (f := f) (by simp [hop])
  constructor
  · have hwin : s.InWindow req i f :=
      ⟨⟨hres, hasRead_of_clear hop⟩, not_hasCleared_of_clear hop⟩
    have hempty : s.tallyAt req e (s.reads req f) f = 0 := by
      refine Finset.sum_eq_zero fun j _ => if_neg ?_
      rintro ⟨hc, he⟩
      exact (h.lt i j f hwin hc).ne he
    rw [(histSys_step hs).1.get f, hop, hn, tallyAt_step_eq hs (by simp [hop]), hempty]
    simp [HistOp.apply]
  · intro g hg
    rw [hr] at hg
    rw [seen_step_eq hs (by simp [hop]), tallyAt_step_eq hs (by simp [hop]),
      epoch_of_hasRead hg]
    exact h.seen g f hg

theorem Counted.step (h : Counted req s e) (hord : Ordered req s e)
    (hfits : (req i).Fits (s.calls i)) (hs : (histSys req).step s i = some s')
    (hok : Apart req (s, e) i) : Counted req s' (markEpoch req s i s' e) := by
  have hfield : ∀ f, ((∀ g, ¬ s'.InWindow req g f) →
        s'.hist.get f = s'.tallyAt req (markEpoch req s i s' e) (s'.reads req f) f) ∧
      ∀ g, s'.HasRead req g f → (s'.calls g).seen f =
        s'.tallyAt req (markEpoch req s i s' e) (markEpoch req s i s' e g) f := by
    intro f
    by_cases hadd : (req i).op (s.calls i) = .add f
    · have := h.add_field hord hs hok hadd
      exact ⟨fun _ => this.1, this.2⟩
    · by_cases hclear : (req i).op (s.calls i) = .clear f
      · have := h.clear_field hs (hfits.clears hclear) hclear
        exact ⟨fun _ => this.1, this.2⟩
      · by_cases hread : (req i).resets = true ∧ (req i).op (s.calls i) = .read f
        · have := h.read_field hord hs hok hread.1 hread.2
          exact ⟨fun hno => absurd this.1 (hno i), this.2⟩
        · exact h.frame_field hs hadd hclear hread
  obtain ⟨hle, hlt⟩ := h.epochs hs (fun f hop => epoch_of_add s' hok hop)
    fun f hres hop => window_of_read hok hres hop
  exact ⟨fun f => (hfield f).1, fun g f => (hfield f).2 g, hle, hlt⟩

theorem Ordered.step (h : Ordered req s e) (hs : (histSys req).step s i = some s')
    (hok : Apart req (s, e) i) : Ordered req s' (markEpoch req s i s' e) := by
  by_cases hread : ∃ f, (req i).resets = true ∧ (req i).op (s.calls i) = .read f
  · obtain ⟨f, hres, hop⟩ := hread
    have hwin := window_of_read hok hres hop
    by_cases hf : f = .count
    · subst hf
      exact h.read_count hs hres hop hwin
    · rw [markEpoch_eq (by simp [hop]) (by simp [hop, hf])]
      exact h.read hs hres hop hf hwin
  · push Not at hread
    have hw := fun f => windows_of_not_read (f := f) hs fun hc => hread f hc.1 hc.2
    exact h.frame (fun g f => (hw f).1 g) (fun g f => (hw f).2.1 g) (fun f => (hw f).2.2)
      fun g f hg => epoch_of_hasRead hg

end Counted

/-! ## Once all calls have finished -/

section Run

variable {ι : Type} [Fintype ι] [DecidableEq ι] {req : ι → HistReq} {s : HistSt ι × (ι → Nat)}

/-- Every sample has one owner, a reset that returned its snapshot or nobody; each snapshot holds
the samples of its owner, in every field, and the histogram the rest. -/
def HistSt.Accounted (req : ι → HistReq) (s : HistSt ι) : Prop :=
  ∃ owner : ι → Option ι,
    (∀ i g, owner i = some g →
      (req g).resets = true ∧ ((req g).returned (s.calls g)).isSome = true) ∧
    (∀ g, (req g).resets = true → ((req g).returned (s.calls g)).isSome = true →
      ∀ f, (s.calls g).seen f = ∑ i, if owner i = some g then (req i).contrib f else 0) ∧
    ∀ f, s.hist.get f = ∑ i, if owner i = none then (req i).contrib f else 0

/-- What user space gets of the fields that a call has seen. -/
theorem returned_seen {req : HistReq} {c : HistCall} {hp : HistParams}
    (h : req.returned c = some hp) :
    hp.summary.count = c.seen .count ∧ (∀ b, hp.buckets b = c.seen (.bucket b)) ∧
      hp.summary.avgNs =
        if c.seen .count > 0 then c.seen .sumNs / c.seen .count else 0 := by
  cases req with
  | record latencyNs => cases h
  | getHistogram copyFrom copyTo => cases c with
    | record pc => cases copyFrom <;> cases h
    | get g => cases copyFrom with
      | none => cases h
      | some hp0 =>
        simp only [HistReq.returned] at h
        split at h
        · cases h
          exact ⟨rfl, fun _ => rfl, rfl⟩
        · cases h

theorem fits_of_apart (h : (histEpochSys req).ReachableWith (Apart req) s) (i : ι) :
    (req i).Fits (s.1.calls i) :=
  fits_of_reachable (Transition.Sys.Reachable.of_withHistory h.reachable) i

omit [Fintype ι] in
theorem init_hasRead {g : ι} {f : HistField} : ¬ (histSys req).init.HasRead req g f := by
  rintro ⟨-, hr⟩
  simp only [histSys] at hr
  cases hg : req g with
  | record v => rw [hg] at hr; cases hr
  | getHistogram copyFrom copyTo =>
    rw [hg] at hr
    exact Nat.not_lt_zero _ (hasRead_get.mp hr)

theorem ordered_of_apart (h : (histEpochSys req).ReachableWith (Apart req) s) :
    Ordered req s.1 s.2 := by
  refine h.invariant (I := fun s => Ordered req s.1 s.2) ?_ ?_
  · exact ⟨fun f g g' hg => absurd hg.1 init_hasRead, fun g f hg => absurd hg init_hasRead,
      fun g f hg => absurd hg init_hasRead, fun g g' hg => absurd hg init_hasRead⟩
  · intro s i s' hI hok hs
    obtain ⟨hst, he⟩ := Transition.Sys.withHistory_step hs
    rw [he]
    exact hI.step hst hok

theorem counted_of_apart (h : (histEpochSys req).ReachableWith (Apart req) s) :
    Counted req s.1 s.2 := by
  refine h.invariant₂
    (I := fun s => (∀ i, (req i).Fits (s.1.calls i)) ∧ Ordered req s.1 s.2)
    (J := fun s => Counted req s.1 s.2)
    (fun s hr => ⟨fits_of_apart hr, ordered_of_apart hr⟩) ?_ ?_
  · have hnone : ∀ i f, (req i).counted (((histSys req).init).calls i) f = false := by
      intro i f
      simp only [histSys]
      cases req i <;> cases f <;> simp [HistReq.counted, HistReq.start]
    refine ⟨fun f _ => ?_, fun g f hg => absurd hg init_hasRead, fun j f hc => ?_,
      fun g j f hg => absurd hg.1 init_hasRead⟩
    · refine (get_histogramInit f).trans (Finset.sum_eq_zero fun i _ => if_neg ?_).symm
      intro hc
      exact absurd hc.1 (by simp [histEpochSys, Transition.Sys.withHistory, hnone])
    · exact absurd hc (by simp [histEpochSys, Transition.Sys.withHistory, hnone])
  · intro s i s' hI hJ hok hs
    obtain ⟨hst, he⟩ := Transition.Sys.withHistory_step hs
    rw [he]
    exact hJ.step hI.2 (hI.1 i) hst hok

theorem getStep_done {hist hist' : Histogram} {copyFrom : Option HistParams} {copyTo copied : Bool}
    {g g' : HistGet} (h : getStep hist copyFrom copyTo g = some (hist', g'))
    (hpc : g'.pc = .done copied) : g.pc = .copyTo ∧ copied = copyTo := by
  rcases g with ⟨pc, r, b⟩
  cases pc with
  | copyTo => cases h; simpa [eq_comm] using hpc
  | copyFrom => cases h; cases copyFrom <;> cases hpc
  | max => cases h; by_cases hc : r.count = 0#64 <;> simp [hc] at hpc
  | scan i | clearBucket i => cases h; cases hn : nextBucket i <;> simp [hn] at hpc
  | bucket i =>
    cases h
    cases hn : nextBucket i with
    | some j => simp [hn] at hpc
    | none => cases hr : (HistReq.getHistogram copyFrom copyTo).resets <;> simp [hn, hr] at hpc
  | rejected | done copied => cases h
  | _ => cases h; cases hpc

/-- Under the guard no reset faults once it has cleared. -/
theorem not_faulted_of_apart (h : (histEpochSys req).ReachableWith (Apart req) s) :
    ∀ g x, (req g).resets = true → s.1.calls g = .get x → x.pc ≠ .done false := by
  refine h.invariant
    (I := fun s => ∀ g x, (req g).resets = true → s.1.calls g = .get x → x.pc ≠ .done false) ?_ ?_
  · intro g x _ hx hpc
    have hstart : (req g).start = .get x := hx
    cases hg : req g with
    | record v => rw [hg] at hstart; cases hstart
    | getHistogram copyFrom copyTo => rw [hg] at hstart; cases hstart; cases hpc
  · intro s i s' hI hok hs g x hres hx hpc
    obtain ⟨hst, -⟩ := Transition.Sys.withHistory_step hs
    by_cases hg : g = i
    · subst hg
      have hcall := histSys_callStep hst
      have hcopied := hres
      rw [hx] at hcall
      simp only [Apart] at hok
      generalize s.1.calls g = c at hcall hok
      generalize req g = r at hcall hok hres
      cases r with
      | record v => cases hres
      | getHistogram copyFrom copyTo => cases c with
        | record pc => cases hcall
        | get y =>
          simp only [callStep, Option.map_eq_some_iff] at hcall
          obtain ⟨⟨hist', y'⟩, hget, he⟩ := hcall
          cases he
          obtain ⟨hy, hcopy⟩ := getStep_done hget hpc
          have hop : (HistReq.getHistogram copyFrom copyTo).op (.get y) = .copyTo copyTo := by
            simp [HistReq.op, hy]
          rw [hop] at hok
          rw [← hcopy] at hok
          cases hok hcopied
    · rw [(histSys_step hst).2 g hg] at hx
      exact hI g x hres hx hpc

theorem returned_of_apart (h : (histEpochSys req).ReachableWith (Apart req) s) {g : ι}
    (hres : (req g).resets = true) (hdone : (s.1.calls g).finished = true) :
    ((req g).returned (s.1.calls g)).isSome = true := by
  have hfits := fits_of_apart h g
  have hno := fun x => not_faulted_of_apart h g x hres
  generalize s.1.calls g = c at hfits hno hdone ⊢
  generalize req g = r at hfits hres ⊢
  cases r with
  | record v => cases hres
  | getHistogram copyFrom copyTo => cases c with
    | record pc => exact hfits.elim
    | get x =>
      have hrej := hfits.2 hres
      have hnf := hno x rfl
      cases copyFrom with
      | none => cases hres
      | some hp =>
        have hpc : x.pc = .done true := by
          simp only [HistCall.finished] at hdone
          split at hdone
          · rename_i hpc; exact absurd hpc hrej
          · rename_i copied hpc
            cases copied with
            | false => exact absurd hpc hnf
            | true => exact hpc
          · cases hdone
        simp [HistReq.returned, hpc]

omit [Fintype ι] [DecidableEq ι] in
/-- A finished reset has read and cleared every field. -/
theorem hasRead_of_finished {g : ι} {s : HistSt ι} (hfits : (req g).Fits (s.calls g))
    (hres : (req g).resets = true) (hdone : (s.calls g).finished = true) (f : HistField) :
    s.HasRead req g f ∧ ¬ s.InWindow req g f := by
  have hall : (s.calls g).hasRead f = true ∧ (s.calls g).hasCleared f = true := by
    generalize s.calls g = c at hfits hdone ⊢
    generalize req g = r at hfits hres
    cases r with
    | record v => cases hres
    | getHistogram copyFrom copyTo => cases c with
      | record pc => exact hfits.elim
      | get x =>
        have hrank : x.pc.rank = 58 := by
          simp only [HistCall.finished] at hdone
          split at hdone
          · rename_i hpc; exact absurd hpc (hfits.2 hres)
          · rename_i copied hpc; rw [hpc]; rfl
          · cases hdone
        have := readAt_lt_clearAt f f
        have := clearAt_range f
        rw [hasRead_get, hasCleared_get, hrank]
        omega
  exact ⟨⟨hres, hall.1⟩, fun hw => hw.2 hall.2⟩

omit [DecidableEq ι] in
/-- The epochs of the resets are all the numbers below how many they are. -/
theorem exists_epoch (hord : Ordered req s.1 s.2)
    (hread : ∀ g f, (req g).resets = true → s.1.HasRead req g f) {n : Nat} {f : HistField}
    (hn : n < s.1.reads req f) : ∃ g, (req g).resets = true ∧ s.2 g = n := by
  let resetters := Finset.univ.filter fun g => (req g).resets = true
  have hcard : s.1.reads req f = resetters.card := by
    rw [Finset.card_filter]
    refine Finset.sum_congr rfl fun g _ => ?_
    have hiff : s.1.HasRead req g f ↔ (req g).resets = true := ⟨fun h => h.1, hread g f⟩
    simp [hiff]
  have hmem : ∀ g, g ∈ resetters ↔ (req g).resets = true := fun g => by simp [resetters]
  have hmaps : Set.MapsTo s.2 resetters (Finset.range (s.1.reads req f)) := by
    intro g hg
    simpa using hord.lt g f (hread g f ((hmem g).mp hg))
  have hinj : Set.InjOn s.2 resetters := by
    intro g hg g' hg' heq
    exact hord.inj g g' (hread g _ ((hmem g).mp hg)) (hread g' _ ((hmem g').mp hg')) heq
  have hsurj := Finset.surjOn_of_injOn_of_card_le s.2 hmaps hinj (by simp [hcard])
  obtain ⟨g, hg, he⟩ := hsurj (Finset.mem_coe.mpr (Finset.mem_range.mpr hn))
  exact ⟨g, (hmem g).mp hg, he⟩

omit [DecidableEq ι] in
/-- The reset of an epoch, if it has one. -/
theorem exists_owner (hord : Ordered req s.1 s.2)
    (hread : ∀ g f, (req g).resets = true → s.1.HasRead req g f) :
    ∃ owner : ι → Option ι,
      ∀ i g, owner i = some g ↔ (req g).resets = true ∧ s.2 g = s.2 i := by
  have hone : ∀ i, ∃ o : Option ι, ∀ g, o = some g ↔ (req g).resets = true ∧ s.2 g = s.2 i := by
    intro i
    by_cases hi : ∃ g, (req g).resets = true ∧ s.2 g = s.2 i
    · obtain ⟨g₀, hres₀, he₀⟩ := hi
      refine ⟨some g₀, fun g => ?_⟩
      constructor
      · intro h; cases h; exact ⟨hres₀, he₀⟩
      · rintro ⟨hres, he⟩
        rw [hord.inj g₀ g (hread _ _ hres₀) (hread _ _ hres) (he₀.trans he.symm)]
    · refine ⟨none, fun g => ?_⟩
      constructor
      · intro h; cases h
      · intro h; exact absurd ⟨g, h⟩ hi
  exact Classical.skolem.mp hone

/-- **Read and clear.** In a run that keeps resets and records apart, once all calls have finished
each sample is counted once, in the snapshot of one reset or in the histogram, in the count, the
buckets and the sum; and the histogram's buckets add up to its count. -/
theorem read_and_clear_accounted (h : (histEpochSys req).ReachableWith (Apart req) s)
    (hdone : ∀ i, (s.1.calls i).finished = true) :
    s.1.Accounted req ∧ s.1.hist.Sampled := by
  have hfits := fits_of_apart h
  have hord := ordered_of_apart h
  have hcnt := counted_of_apart h
  have hread : ∀ g f, (req g).resets = true → s.1.HasRead req g f :=
    fun g f hres => (hasRead_of_finished (hfits g) hres (hdone g) f).1
  have hclosed : ∀ f g, ¬ s.1.InWindow req g f :=
    fun f g hw => (hasRead_of_finished (hfits g) hw.1.1 (hdone g) f).2 hw
  obtain ⟨owner, howner⟩ := exists_owner hord hread
  have hrest : ∀ f, s.1.hist.get f = ∑ i, if owner i = none then (req i).contrib f else 0 := by
    intro f
    rw [hcnt.held f (hclosed f), HistSt.tallyAt, histTally_finished hfits hdone]
    refine Finset.sum_congr rfl fun i _ => ?_
    rcases counted_of_finished (hfits i) (hdone i) f with hc | hz
    · have hiff : s.2 i = s.1.reads req f ↔ owner i = none := by
        rw [Option.eq_none_iff_forall_ne_some]
        constructor
        · intro he g hg
          obtain ⟨hres, heq⟩ := (howner i g).mp hg
          have := hord.lt g f (hread g f hres)
          omega
        · intro hno
          by_contra hne
          obtain ⟨g, hres, he⟩ := exists_epoch hord hread (lt_of_le_of_ne (hcnt.le i f hc) hne)
          exact hno g ((howner i g).mpr ⟨hres, he⟩)
      simp [hiff]
    · simp [hz]
  refine ⟨⟨owner, ?_, ?_, hrest⟩, ?_⟩
  · intro i g hg
    have hres := ((howner i g).mp hg).1
    exact ⟨hres, returned_of_apart h hres (hdone g)⟩
  · intro g hres _ f
    rw [hcnt.seen g f (hread g f hres), HistSt.tallyAt, histTally_finished hfits hdone]
    refine Finset.sum_congr rfl fun i _ => ?_
    have hiff : s.2 i = s.2 g ↔ owner i = some g := by
      rw [howner]
      exact ⟨fun he => ⟨hres, he.symm⟩, fun he => he.2.symm⟩
    simp [hiff]
  · have hsum := sum_bucket_eq_count req fun i => owner i = none
    have hb : ∀ b, s.1.hist.buckets b = _ := fun b => hrest (.bucket b)
    have hc : s.1.hist.count = _ := hrest .count
    simp only [Histogram.Sampled, hb, hc]
    exact hsum

end Run

/-- A record of 3 µs beside GET_HISTOGRAM with `reset = 1`. -/
def recordAndClear : Fin 2 → HistReq :=
  ![.record 3000, .getHistogram (some ⟨fun _ => 0, ⟨0, 0, 0, 0, 0, 0, 0⟩, 1, 0⟩) true]

/-- The three increments come before the reset reads anything, the two loops after. -/
theorem read_and_clear_accounted_between :
    ∃ s, (histEpochSys recordAndClear).ReachableWith (Apart recordAndClear) s ∧
      (s.1.calls 1).seen .count = 1 ∧ s.1.Accounted recordAndClear ∧ s.1.hist.Sampled := by
  obtain ⟨s, hr, hdone, hseen⟩ : ∃ s : HistSt (Fin 2) × (Fin 2 → Nat),
      (histEpochSys recordAndClear).ReachableWith (Apart recordAndClear) s ∧
      (∀ i, (s.1.calls i).finished = true) ∧ (s.1.calls 1).seen .count = 1 :=
    Transition.Sys.exists_of_execWith ([1, 0, 0, 0] ++ List.replicate 57 1 ++ [0, 0, 0, 0])
      (by decide +kernel)
  exact ⟨s, hr, hseen, read_and_clear_accounted hr hdone⟩

/-- A reset between the increments of the bucket and of the count tears the sample; one that reads
before the sample and clears after it loses it. -/
theorem read_and_clear_tears :
    (∃ s, (histSys recordAndClear).Reachable s ∧ (∀ i, (s.calls i).finished = true) ∧
      ¬ s.hist.Sampled) ∧
    ∃ s, (histSys recordAndClear).Reachable s ∧ (∀ i, (s.calls i).finished = true) ∧
      ¬ s.Accounted recordAndClear := by
  constructor
  · obtain ⟨s, hr, hdone, hcount, hbuckets⟩ : ∃ s : HistSt (Fin 2),
        (histSys recordAndClear).Reachable s ∧ (∀ i, (s.calls i).finished = true) ∧
        s.hist.count = 1 ∧ ∀ b, s.hist.buckets b = 0 :=
      Transition.Sys.exists_of_exec ([0] ++ List.replicate 42 1 ++ List.replicate 6 0)
        (by decide +kernel)
    exact ⟨s, hr, hdone, by simp [Histogram.Sampled, hcount, hbuckets]⟩
  · obtain ⟨s, hr, hdone, hseen, hcount⟩ : ∃ s : HistSt (Fin 2),
        (histSys recordAndClear).Reachable s ∧ (∀ i, (s.calls i).finished = true) ∧
        (s.calls 1).seen .count = 0 ∧ s.hist.get .count = 0 :=
      Transition.Sys.exists_of_exec
        (List.replicate 21 1 ++ List.replicate 7 0 ++ List.replicate 21 1) (by decide +kernel)
    refine ⟨s, hr, hdone, ?_⟩
    rintro ⟨owner, howner, hsnap, hrest⟩
    cases h0 : owner 0 with
    | none =>
      have := hrest .count
      rw [hcount, Fin.sum_univ_two] at this
      simp [h0, recordAndClear, HistReq.contrib, histContrib] at this
    | some g =>
      obtain ⟨hres, hret⟩ := howner 0 g h0
      have hreset : ∀ g, (recordAndClear g).resets = true → g = 1 := by decide
      have hg := hreset g hres
      subst hg
      have := hsnap 1 hres hret .count
      rw [hseen, Fin.sum_univ_two] at this
      simp [h0, recordAndClear, HistReq.contrib, histContrib] at this

end Dmaplane
