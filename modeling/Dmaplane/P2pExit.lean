import Dmaplane.P2pTables

/-!
# Dmaplane.P2pExit

The GPU part of `dmaplane_exit`: GPU_UNPIN for each slot in use, then `kfree(gpu_buffers)`. No
ioctl is in progress by then, but NVIDIA's driver may still call back, between any two steps, for
a page table that did not go back yet.

* `unpinNext_step` — a step of the unpin call for slot `i`: it is never blocked, it leaves the
  other slots alone, and it comes closer to its end.
* `ExitInv`        — the slots before the one at hand are free.
* `gpu_unload`     — the loop ends, and after it no page table is out, so that no callback can
  touch `gpu_buffers` any more.
-/

namespace Dmaplane

variable {Tid : Type} [DecidableEq Tid]

/-- Where the loop of `dmaplane_exit` is. -/
inductive ExitPc where
  | loop (i : Nat)
  /-- Inside of `dmaplane_gpu_unpin`. -/
  | unpin (i : Nat)
  deriving DecidableEq

structure P2pExitSt (Tid : Type) where
  st : P2pSt Tid
  pc : ExitPc

inductive P2pExitAct where
  | exit
  | callback (table : Nat)
  deriving DecidableEq

/-- The next step of `dmaplane_gpu_unpin` by `t`. -/
def P2pSt.unpinNext (s : P2pSt Tid) (t : Tid) : Option (P2pSt Tid) :=
  match s.pc t with
  | .unpinFind _ => p2pStep s (.unpinFind t)
  | .unpinCheck .. => p2pStep s (.unpinCheck t)
  | .unpinRelease .. => p2pStep s (.unpinRelease t)
  | .unpinCount _ => p2pStep s (.unpinCount t)
  | _ => none

/-- `t` runs `dmaplane_exit`. -/
def p2pExitStep (t : Tid) (x : P2pExitSt Tid) : P2pExitAct → Option (P2pExitSt Tid)
  | .callback table => (p2pStep x.st (.callback table)).map fun s => ⟨s, x.pc⟩
  | .exit =>
    match x.pc with
    | .loop i =>
      if h : i < maxGpuBuffers then
        if (x.st.slots ⟨i, h⟩).inUse then
          (p2pStep x.st (.unpin t (x.st.slots ⟨i, h⟩).id)).map fun s => ⟨s, .unpin i⟩
        else some ⟨x.st, .loop (i + 1)⟩
      else none
    | .unpin i =>
      if x.st.pc t = .idle then some ⟨x.st, .loop (i + 1)⟩
      else (x.st.unpinNext t).map fun s => ⟨s, .unpin i⟩

/-- The loop, from the state in which the module is unloaded. -/
def p2pExitSys (t : Tid) (s : P2pSt Tid) : Transition.Sys (P2pExitSt Tid) P2pExitAct where
  init := ⟨s, .loop 0⟩
  step := p2pExitStep t

/-! ## The unpin call of a slot -/

/-- The call that the loop makes for slot `i` is at `pc`. -/
def UnpinAt (s : P2pSt Tid) (i : Fin maxGpuBuffers) : P2pPc → Prop
  | .unpinFind handle => (s.slots i).inUse = true ∧ handle = (s.slots i).id
  | .unpinCheck slot _ | .unpinRelease slot _ _ => slot = i
  | .unpinCount _ | .idle => (s.slots i).inUse = false
  | _ => False

def P2pPc.unpinLeft : P2pPc → Nat
  | .unpinFind _ => 5
  | .unpinCheck .. => 4
  | .unpinRelease .. => 3
  | .unpinCount _ => 2
  | _ => 1

/-- The page tables whose callback may still come. -/
def P2pSt.callable (s : P2pSt Tid) : Finset Nat :=
  (Finset.range s.nextTable).filter fun p =>
    (s.tables p).releases = [] ∧ (s.tables p).fired = false

/-- What a step of the call leaves alone. -/
structure UnpinFrame (t : Tid) (i : Fin maxGpuBuffers) (s s' : P2pSt Tid) : Prop where
  others : ∀ u, u ≠ t → s'.pc u = s.pc u
  slots : ∀ j, j ≠ i → s'.slots j = s.slots j
  callable : s'.callable ⊆ s.callable

variable {s s' : P2pSt Tid} {t : Tid} {i : Fin maxGpuBuffers}

theorem goto_at (pc : P2pPc) : (s.goto t pc).pc t = pc := Function.update_self ..

theorem goto_others {u : Tid} (pc : P2pPc) (hu : u ≠ t) : (s.goto t pc).pc u = s.pc u :=
  Function.update_of_ne hu ..

omit [DecidableEq Tid] in
theorem setSlot_at (buf : P2pSlot) : (s.setSlot i buf).slots i = buf := Function.update_self ..

omit [DecidableEq Tid] in
theorem callable_eq (htab : s'.tables = s.tables) (hnext : s'.nextTable = s.nextTable) :
    s'.callable = s.callable := by
  rw [P2pSt.callable, P2pSt.callable, htab, hnext]

omit [DecidableEq Tid] in
/-- A page table that goes back calls nobody any more. -/
theorem callable_release (table : Nat) (call : NvRelease) :
    (s.release table call).callable ⊆ s.callable := by
  intro p hp
  simp only [P2pSt.callable, Finset.mem_filter] at hp ⊢
  obtain ⟨hlt, hrel, hfired⟩ := hp
  by_cases hpt : p = table
  · subst hpt; simp [P2pSt.release] at hrel
  · simp only [P2pSt.release, Function.update_of_ne hpt] at hrel hfired
    exact ⟨hlt, hrel, hfired⟩

omit [DecidableEq Tid] in
/-- No other slot can have the id first: those before `i` are free. -/
theorem findSlot_first (hin : (s.slots i).inUse = true)
    (hbelow : ∀ j, j < i → (s.slots j).inUse = false) : s.findSlot (s.slots i).id = some i := by
  rw [P2pSt.findSlot, List.find?_eq_some_iff_getElem]
  refine ⟨by simp [hin], i, by simp, by simp, ?_⟩
  intro j hj
  have hlt : (⟨j, by omega⟩ : Fin maxGpuBuffers) < i := hj
  simp [hbelow _ hlt]

theorem unpinNext_step (hi : PageInv s) (hothers : ∀ u, u ≠ t → s.pc u = .idle)
    (hbelow : ∀ j, j < i → (s.slots j).inUse = false) (hat : UnpinAt s i (s.pc t))
    (hne : s.pc t ≠ .idle) :
    ∃ s', s.unpinNext t = some s' ∧ UnpinFrame t i s s' ∧ UnpinAt s' i (s'.pc t) ∧
      (s'.pc t).unpinLeft < (s.pc t).unpinLeft := by
  unfold P2pSt.unpinNext
  cases hpc : s.pc t with
  | unpinFind handle =>
    rw [hpc] at hat
    obtain ⟨hin, rfl⟩ := hat
    have hlock : s.lock = none := by
      cases hl : s.lock with
      | none => rfl
      | some u =>
        have hu := (hi.lock u).mp hl
        by_cases hut : u = t
        · subst hut; rw [P2pSt.phases, hpc] at hu; cases hu
        · rw [P2pSt.phases, hothers u hut] at hu; cases hu
    have hfind := findSlot_first hin hbelow
    simp only [p2pStep, unpinStep, hpc, hlock, hfind, if_true]
    refine ⟨_, rfl, ⟨?_, ?_, ?_⟩, ?_, ?_⟩
    · intro u hu; exact goto_others _ hu
    · intro j hj; exact Function.update_of_ne hj ..
    · exact (callable_eq rfl rfl).subset
    · rw [goto_at]; rfl
    · rw [goto_at]; exact Nat.lt_succ_self _
  | unpinCheck slot wasRevoked =>
    rw [hpc] at hat
    obtain rfl : slot = i := hat
    simp only [p2pStep, unpinStep, hpc]
    refine ⟨_, rfl, ⟨?_, ?_, ?_⟩, ?_, ?_⟩
    · intro u hu; exact goto_others _ hu
    · intro j _; rfl
    · exact (callable_eq rfl rfl).subset
    · rw [goto_at]; rfl
    · rw [goto_at]; exact Nat.lt_succ_self _
  | unpinRelease slot call wasRevoked =>
    rw [hpc] at hat
    obtain rfl : slot = i := hat
    simp only [p2pStep, unpinStep, hpc]
    refine ⟨_, rfl, ⟨?_, ?_, ?_⟩, ?_, ?_⟩
    · intro u hu
      refine (goto_others _ hu).trans ?_
      cases (s.slots slot).pageTable <;> rfl
    · intro j hj
      refine (Function.update_of_ne hj ..).trans ?_
      cases (s.slots slot).pageTable <;> rfl
    · cases (s.slots slot).pageTable with
      | none => exact (callable_eq rfl rfl).subset
      | some table => exact (callable_eq rfl rfl).subset.trans (callable_release table call)
    · rw [goto_at]
      exact congrArg P2pSlot.inUse (setSlot_at _)
    · rw [goto_at]; exact Nat.lt_succ_self _
  | unpinCount wasRevoked =>
    rw [hpc] at hat
    simp only [p2pStep, unpinStep, hpc]
    refine ⟨_, rfl, ⟨?_, ?_, ?_⟩, ?_, ?_⟩
    · intro u hu; exact goto_others _ hu
    · intro j _; rfl
    · exact (callable_eq rfl rfl).subset
    · rw [goto_at]; exact hat
    · rw [goto_at]; exact Nat.lt_succ_self _
  | idle => exact absurd hpc hne
  | _ => rw [hpc] at hat; exact hat.elim

/-! ## The callback -/

omit [DecidableEq Tid] in
/-- A callback touches `gpu_revoked` only, and the page table calls no second time. -/
theorem callbackStep_frame {table : Nat} (h : callbackStep s table = some s') :
    s'.pc = s.pc ∧ (∀ j, (s'.slots j).inUse = (s.slots j).inUse ∧ (s'.slots j).id = (s.slots j).id) ∧
      s'.callable.card < s.callable.card := by
  simp only [callbackStep] at h
  split at h
  · rename_i hcall
    obtain ⟨hlt, hrel, hfired⟩ := hcall
    cases h
    refine ⟨rfl, ?_, ?_⟩
    · intro j
      by_cases hj : j = (s.tables table).data
      · subst hj; simp [P2pSt.setSlot]
      · simp [P2pSt.setSlot, hj]
    · have hmem : table ∈ s.callable := by simp [P2pSt.callable, hlt, hrel, hfired]
      refine Finset.card_lt_card ((Finset.ssubset_iff_of_subset ?_).mpr ⟨table, hmem, ?_⟩)
      · intro p hp
        by_cases hpt : p = table
        · subst hpt; exact hmem
        · simpa [P2pSt.callable, P2pSt.setSlot, hpt] using hp
      · simp [P2pSt.callable, P2pSt.setSlot]
  · cases h

omit [DecidableEq Tid] in
/-- With every page table back, NVIDIA's driver has nothing to call back for. -/
theorem callbackStep_none (h : ∀ p, p < s.nextTable → (s.tables p).releases.length = 1)
    (table : Nat) : callbackStep s table = none := by
  simp only [callbackStep]
  split
  · rename_i hcall
    have hlen := h table hcall.1
    rw [hcall.2.1] at hlen
    cases hlen
  · rfl

/-! ## The loop -/

/-- The slots before the one at hand are free, and nobody but `t` is in a call. -/
structure ExitInv (t : Tid) (x : P2pExitSt Tid) : Prop where
  reach : (p2pSys Tid).Reachable x.st
  others : ∀ u, u ≠ t → x.st.pc u = .idle
  passed : ∀ j : Fin maxGpuBuffers, (match x.pc with | .loop i | .unpin i => j < i) →
    (x.st.slots j).inUse = false
  here : match x.pc with
    | .loop i => i ≤ maxGpuBuffers ∧ x.st.pc t = .idle
    | .unpin i => ∃ h : i < maxGpuBuffers, UnpinAt x.st ⟨i, h⟩ (x.st.pc t)

/-- The steps that are left: six for a slot, and one for each callback. -/
def exitLeft (t : Tid) (x : P2pExitSt Tid) : Nat :=
  (match x.pc with
    | .loop i => 6 * (maxGpuBuffers - i)
    | .unpin i => 6 * (maxGpuBuffers - (i + 1)) + (x.st.pc t).unpinLeft) + x.st.callable.card

theorem p2pStep_reachable {a : P2pAct Tid} (hr : (p2pSys Tid).Reachable s)
    (h : p2pStep s a = some s') : (p2pSys Tid).Reachable s' := .tail (a := a) hr trivial h

theorem unpinNext_reachable (hr : (p2pSys Tid).Reachable s) (h : s.unpinNext t = some s') :
    (p2pSys Tid).Reachable s' := by
  unfold P2pSt.unpinNext at h
  split at h
  · exact p2pStep_reachable hr h
  · exact p2pStep_reachable hr h
  · exact p2pStep_reachable hr h
  · exact p2pStep_reachable hr h
  · cases h

/-- One step of the loop: there is one as long as it is not over, and whatever step is taken keeps
the invariant and leaves fewer. -/
theorem exit_step {x : P2pExitSt Tid} (hi : ExitInv t x) (hne : x.pc ≠ .loop maxGpuBuffers) :
    ∃ x', p2pExitStep t x .exit = some x' ∧ ExitInv t x' ∧ exitLeft t x' < exitLeft t x := by
  obtain ⟨hreach, hothers, hpassed, hhere⟩ := hi
  obtain ⟨s, pc⟩ := x
  cases pc with
  | loop i =>
    dsimp only at hreach hothers hpassed hhere
    obtain ⟨hle, hidle⟩ := hhere
    have hlt : i < maxGpuBuffers := by
      refine Nat.lt_of_le_of_ne hle ?_
      rintro rfl; exact hne rfl
    by_cases hin : (s.slots ⟨i, hlt⟩).inUse = true
    · have hstep : p2pStep s (.unpin t (s.slots ⟨i, hlt⟩).id)
          = some (s.goto t (.unpinFind (s.slots ⟨i, hlt⟩).id)) := by
        simp only [p2pStep, unpinStep, hidle, if_true]
      refine ⟨⟨s.goto t (.unpinFind (s.slots ⟨i, hlt⟩).id), .unpin i⟩, ?_, ⟨?_, ?_, ?_, ?_⟩, ?_⟩
      · simp only [p2pExitStep, hlt, dite_true, hin, if_true, hstep, Option.map_some]
      · exact p2pStep_reachable hreach hstep
      · intro u hu; exact (goto_others _ hu).trans (hothers u hu)
      · exact hpassed
      · refine ⟨hlt, ?_⟩
        show UnpinAt _ _ ((s.goto t _).pc t)
        rw [goto_at]; exact ⟨hin, rfl⟩
      · have hcall (pc : P2pPc) : (s.goto t pc).callable = s.callable := callable_eq rfl rfl
        simp only [exitLeft, goto_at, hcall, P2pPc.unpinLeft]
        omega
    · rw [Bool.not_eq_true] at hin
      refine ⟨⟨s, .loop (i + 1)⟩, ?_, ⟨hreach, hothers, ?_, hlt, hidle⟩, ?_⟩
      · simp only [p2pExitStep, hlt, dite_true, hin, Bool.false_eq_true, if_false]
      · intro j hj
        rcases Nat.lt_succ_iff_lt_or_eq.mp hj with hj | hj
        · exact hpassed j hj
        · rw [show j = ⟨i, hlt⟩ from Fin.ext hj]; exact hin
      · simp only [exitLeft]; omega
  | unpin i =>
    dsimp only at hreach hothers hpassed hhere
    obtain ⟨hlt, hat⟩ := hhere
    by_cases hidle : s.pc t = .idle
    · rw [hidle] at hat
      refine ⟨⟨s, .loop (i + 1)⟩, ?_, ⟨hreach, hothers, ?_, hlt, hidle⟩, ?_⟩
      · simp only [p2pExitStep, hidle, if_true]
      · intro j hj
        rcases Nat.lt_succ_iff_lt_or_eq.mp hj with hj | hj
        · exact hpassed j hj
        · rw [show j = ⟨i, hlt⟩ from Fin.ext hj]; exact hat
      · simp only [exitLeft, hidle, P2pPc.unpinLeft]; omega
    · obtain ⟨s', hnext, hframe, hat', hleft⟩ :=
        unpinNext_step (pageInv hreach) hothers (fun j hj => hpassed j hj) hat hidle
      refine ⟨⟨s', .unpin i⟩, ?_, ⟨unpinNext_reachable hreach hnext, ?_, ?_, hlt, hat'⟩, ?_⟩
      · simp only [p2pExitStep, hidle, if_false, hnext, Option.map_some]
      · intro u hu; exact (hframe.others u hu).trans (hothers u hu)
      · intro j hj
        have hji : j ≠ ⟨i, hlt⟩ := by rintro rfl; exact Nat.lt_irrefl _ hj
        rw [hframe.slots j hji]; exact hpassed j hj
      · have hcard := Finset.card_le_card hframe.callable
        simp only [exitLeft]; omega

omit [DecidableEq Tid] in
theorem UnpinAt.of_eq {pc : P2pPc} (h : UnpinAt s i pc)
    (hin : (s'.slots i).inUse = (s.slots i).inUse) (hid : (s'.slots i).id = (s.slots i).id) :
    UnpinAt s' i pc := by
  cases pc with
  | unpinFind handle => exact ⟨hin.trans h.1, h.2.trans hid.symm⟩
  | unpinCheck | unpinRelease => exact h
  | unpinCount | idle => exact hin.trans h
  | _ => exact h.elim

theorem exit_callback {x x' : P2pExitSt Tid} {table : Nat} (hi : ExitInv t x)
    (h : p2pExitStep t x (.callback table) = some x') :
    ExitInv t x' ∧ exitLeft t x' < exitLeft t x := by
  obtain ⟨s, pc⟩ := x
  obtain ⟨s', hs, rfl⟩ := Option.map_eq_some_iff.mp h
  dsimp only at hs
  obtain ⟨hpc, hslots, hcard⟩ := callbackStep_frame hs
  obtain ⟨hreach, hothers, hpassed, hhere⟩ := hi
  refine ⟨⟨p2pStep_reachable hreach hs, ?_, ?_, ?_⟩, ?_⟩
  · intro u hu
    show s'.pc u = .idle
    rw [hpc]; exact hothers u hu
  · intro j hj
    exact (hslots j).1.trans (hpassed j hj)
  · cases pc with
    | loop i => exact ⟨hhere.1, (congrFun hpc t).trans hhere.2⟩
    | unpin i =>
      obtain ⟨hlt, hat⟩ := hhere
      refine ⟨hlt, ?_⟩
      show UnpinAt s' _ (s'.pc t)
      rw [hpc]
      exact hat.of_eq (hslots _).1 (hslots _).2
  · cases pc with
    | loop i => simp only [exitLeft]; omega
    | unpin i => simp only [exitLeft, hpc]; omega

theorem exitInv {x : P2pExitSt Tid} (hr : (p2pSys Tid).Reachable s) (hq : s.Quiet)
    (h : (p2pExitSys t s).Reachable x) : ExitInv t x := by
  have h0 : ExitInv t (p2pExitSys t s).init :=
    ⟨hr, fun u _ => hq u, fun j hj => absurd hj (Nat.not_lt_zero j), Nat.zero_le _, hq t⟩
  refine h.invariant h0 ?_
  intro x a x' hi hs
  cases a with
  | callback table => exact (exit_callback hi hs).1
  | exit =>
    by_cases hend : x.pc = .loop maxGpuBuffers
    · have hnone : p2pExitStep t x .exit = none := by simp [p2pExitStep, hend]
      cases hnone.symm.trans hs
    · obtain ⟨x₁, hs₁, hi₁, -⟩ := exit_step hi hend
      cases hs₁.symm.trans hs
      exact hi₁

/-- From any point of the loop its own steps lead to its end. -/
theorem exit_finishes {x : P2pExitSt Tid} (hi : ExitInv t x) :
    ∃ x', (p2pExitSys t s).Steps (fun _ a => a = .exit) x x' ∧ x'.pc = .loop maxGpuBuffers := by
  induction hn : exitLeft t x using Nat.strong_induction_on generalizing x with
  | _ n ih =>
    by_cases hend : x.pc = .loop maxGpuBuffers
    · exact ⟨x, .refl, hend⟩
    · obtain ⟨x₁, hs₁, hi₁, hlt⟩ := exit_step hi hend
      have hone : (p2pExitSys t s).Steps (fun _ a => a = .exit) x x₁ := .tail .refl rfl hs₁
      obtain ⟨x', hsteps, hx'⟩ := ih _ (hn ▸ hlt) hi₁ rfl
      exact ⟨x', hone.trans hsteps, hx'⟩

/-- What holds when `gpu_buffers` is freed. -/
structure GpuUnloaded (s : P2pSt Tid) : Prop where
  free : ∀ i, (s.slots i).inUse = false
  back : ∀ p, p < s.nextTable → (s.tables p).releases.length = 1
  /-- Nothing can write to `gpu_buffers` any more. -/
  silent : ∀ table, callbackStep s table = none
  count : s.pinsTotal = s.unpinsTotal

theorem gpuUnloaded {x : P2pExitSt Tid} (hi : ExitInv t x) (hend : x.pc = .loop maxGpuBuffers) :
    GpuUnloaded x.st := by
  obtain ⟨s, pc⟩ := x
  obtain rfl : pc = .loop maxGpuBuffers := hend
  obtain ⟨hreach, hothers, hpassed, -, hidle⟩ := hi
  dsimp only at hreach hothers hpassed hidle
  have hq : s.Quiet := by
    intro u
    by_cases hu : u = t
    · rw [hu]; exact hidle
    · exact hothers u hu
  have hfree : ∀ i, (s.slots i).inUse = false := fun i => hpassed i i.isLt
  have hback : ∀ p, p < s.nextTable → (s.tables p).releases.length = 1 := by
    intro p hp
    rcases (pageInv hreach).back p hp with ⟨i, -, hin | ⟨u, hu⟩⟩ | hone
    · rw [hfree i] at hin; cases hin
    · rw [phases_quiet hq u] at hu; cases hu
    · exact hone
  refine ⟨hfree, hback, callbackStep_none hback, ?_⟩
  have hnone : s.pinned = ∅ := by
    ext i; simp [P2pSt.pinned, hfree i]
  have hcount := count_quiet hreach hq
  rw [hnone] at hcount
  exact sub_eq_zero.mp hcount

/-- A run of the GPU part of `dmaplane_exit`, up to here. -/
structure GpuExitOk (t : Tid) (x : P2pExitSt Tid) : Prop where
  /-- No callback keeps the loop from going on. -/
  goes : x.pc ≠ .loop maxGpuBuffers → ∃ x', p2pExitStep t x .exit = some x'
  shrinks : ∀ a x', p2pExitStep t x a = some x' → exitLeft t x' < exitLeft t x
  ends : ∃ x', (p2pExitSys t x.st).Steps (fun _ a => a = .exit) x x' ∧
    x'.pc = .loop maxGpuBuffers
  unloaded : x.pc = .loop maxGpuBuffers → GpuUnloaded x.st

end Dmaplane
