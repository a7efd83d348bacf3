import Dmaplane.ChannelSys

/-!
# Dmaplane.ChannelFifo

The channel is an exactly-once FIFO. The entries SUBMIT accepted are, in order, those COMPLETE
has taken, those in the completion ring, the one the worker holds and those in the submission
ring (`Segments`). The ring library's `contents` makes this independent of how often the 32-bit
counters have wrapped.
-/

namespace Dmaplane

open WrapRing

variable {Tid : Type} [DecidableEq Tid]

structure FifoInv (s : ChannelSt Tid) : Prop where
  sub_le : s.chan.subRing.contents.length ≤ ringSize
  comp_le : s.chan.compRing.contents.length ≤ ringSize
  order : s.stop = false →
    s.taken.map (·.2) ++ s.chan.compRing.contents ++ s.worker.inHand
      ++ s.chan.subRing.contents.map processEntry = s.accepted.map processEntry

theorem stop_mono {s s' : ChannelSt Tid} {a : ChannelAct Tid} (h : channelStep s a = some s')
    (hs : s'.stop = false) : s.stop = false := by
  cases a with
  | kthreadStop => cases h; cases hs
  | worker =>
    simp only [channelStep] at h
    split at h <;> cases h
    exact hs
  | completeLocked t =>
    simp only [channelStep] at h
    split at h
    · split at h <;> cases h <;> exact hs
    · cases h
  | submitLocked t =>
    simp only [channelStep] at h
    split at h
    · split at h <;> cases h <;> exact hs
    · cases h
  | submitCall | submitInFlight | submitTotal | completeCall | completeCopy =>
    simp only [channelStep] at h
    split at h <;> cases h
    exact hs

theorem fifoInv_init : FifoInv (channelSys Tid).init := by
  have hc : ringInit.contents = [] := contents_ringInit
  refine ⟨?_, ?_, fun _ => ?_⟩
  · show ringInit.contents.length ≤ ringSize
    rw [hc]; exact Nat.zero_le _
  · show ringInit.contents.length ≤ ringSize
    rw [hc]; exact Nat.zero_le _
  · show [] ++ ringInit.contents ++ [] ++ ringInit.contents.map processEntry = []
    rw [hc]; rfl

theorem fifoInv_step {s s' : ChannelSt Tid} {a : ChannelAct Tid} (hi : FifoInv s)
    (h : channelStep s a = some s') : FifoInv s' := by
  have hmono := stop_mono h
  obtain ⟨hsub, hcomp, hord⟩ := hi
  cases channelStep_flow h with
  | same h1 h2 h3 h4 h5 =>
    refine ⟨by rw [h1]; exact hsub, by rw [h2]; exact hcomp, fun hs => ?_⟩
    rcases h3 with h3 | ⟨_, hstop⟩
    · rw [h1, h2, h3, h4, h5]; exact hord (hmono hs)
    · rw [hmono hs] at hstop; cases hstop
  | submit entry hf h1 h2 h3 h4 h5 =>
    have hpush := contents_push hsub hf entry
    have hlt : s.chan.subRing.contents.length ≠ ringSize := fun he => hf (ringFull_iff.mpr he)
    refine ⟨?_, by rw [h2]; exact hcomp, fun hs => ?_⟩
    · rw [h1, hpush, List.length_append, List.length_singleton]; omega
    · rw [h1, h2, h3, h4, h5, hpush, List.map_append, List.map_append, ← List.append_assoc,
        hord (hmono hs)]
  | workerPop hw he h1 h2 h3 h4 h5 =>
    have hpop := contents_pop he
    refine ⟨?_, by rw [h2]; exact hcomp, fun hs => ?_⟩
    · rw [h1]; rw [hpop, List.length_cons] at hsub; omega
    · have ho := hord (hmono hs)
      rw [hpop, hw] at ho
      rw [h1, h2, h3, h4, h5, ← ho]
      simp [WorkerPc.inHand]
  | workerPush entry hw hf h1 h2 h3 h4 h5 =>
    have hpush := contents_push hcomp hf entry
    have hlt : s.chan.compRing.contents.length ≠ ringSize := fun he => hf (ringFull_iff.mpr he)
    refine ⟨by rw [h1]; exact hsub, ?_, fun hs => ?_⟩
    · rw [h2, hpush, List.length_append, List.length_singleton]; omega
    · have ho := hord (hmono hs)
      rw [hw] at ho
      rw [h1, h2, h3, h4, h5, hpush, ← ho]
      simp [WorkerPc.inHand]
  | complete t he h1 h2 h3 h4 h5 =>
    have hpop := contents_pop he
    refine ⟨by rw [h1]; exact hsub, ?_, fun hs => ?_⟩
    · rw [h2]; rw [hpop, List.length_cons] at hcomp; omega
    · have ho := hord (hmono hs)
      rw [hpop] at ho
      rw [h1, h2, h3, h4, h5, ← ho]
      simp

theorem fifoInv {s : ChannelSt Tid} (h : (channelSys Tid).Reachable s) : FifoInv s :=
  h.invariant fifoInv_init fun _ _ _ => fifoInv_step

/-! ## What each call returns -/

/-- Every COMPLETE call of a thread returns the entry it took itself. -/
def ReturnsOwn (s : ChannelSt Tid) : Prop :=
  ∀ t, s.takenBy t = s.returned t ++ (s.user t).inCopy

/-- A step of another kind than COMPLETE's leaves the takings of every thread alone. -/
theorem returnsOwn_goto {s s' : ChannelSt Tid} {t : Tid} {pc : UserPc} (hi : ReturnsOwn s)
    (hold : (s.user t).inCopy = []) (hnew : pc.inCopy = []) (ht : s'.taken = s.taken)
    (hr : s'.returned = s.returned) (hu : s'.user = Function.update s.user t pc) :
    ReturnsOwn s' := by
  intro u
  rw [ChannelSt.takenBy, ht, hr, hu]
  by_cases hut : u = t
  · subst hut
    rw [Function.update_self, hnew, ← hold]; exact hi u
  · rw [Function.update_of_ne hut]; exact hi u

theorem returnsOwn_step {s s' : ChannelSt Tid} {a : ChannelAct Tid} (hi : ReturnsOwn s)
    (hok : CopiesSucceed s a) (h : channelStep s a = some s') : ReturnsOwn s' := by
  cases a with
  | submitCall t entry =>
    simp only [channelStep] at h
    split at h <;> cases h
    rename_i hpc
    exact returnsOwn_goto hi (by rw [hpc]; rfl) rfl rfl rfl rfl
  | submitLocked t =>
    simp only [channelStep] at h
    split at h
    · rename_i hpc
      split at h <;> cases h <;> exact returnsOwn_goto hi (by rw [hpc]; rfl) rfl rfl rfl rfl
    · cases h
  | submitInFlight t =>
    simp only [channelStep] at h
    split at h <;> cases h
    rename_i hpc
    exact returnsOwn_goto hi (by rw [hpc]; rfl) rfl rfl rfl rfl
  | submitTotal t =>
    simp only [channelStep] at h
    split at h <;> cases h
    rename_i hpc
    exact returnsOwn_goto hi (by rw [hpc]; rfl) rfl rfl rfl rfl
  | completeCall t =>
    simp only [channelStep] at h
    split at h <;> cases h
    rename_i hpc
    exact returnsOwn_goto hi (by rw [hpc]; rfl) rfl rfl rfl rfl
  | completeLocked t =>
    simp only [channelStep] at h
    split at h
    · rename_i hpc
      split at h
      · rename_i entry chan _; cases h
        intro u
        have hu := hi u
        simp only [ChannelSt.takenBy, ChannelSt.goto, List.filter_append, List.map_append] at hu ⊢
        by_cases hut : u = t
        · subst hut
          rw [hu, hpc, Function.update_self]
          simp [UserPc.inCopy]
        · rw [Function.update_of_ne hut, ← hu]
          simp [Ne.symm hut]
      · cases h; exact returnsOwn_goto hi (by rw [hpc]; rfl) rfl rfl rfl rfl
    · cases h
  | completeCopy t copyOk =>
    cases copyOk with
    | false => exact absurd rfl (hok t)
    | true =>
      simp only [channelStep] at h
      split at h
      · rename_i entry hpc; cases h
        intro u
        have hu := hi u
        simp only [ChannelSt.takenBy, ChannelSt.goto, if_true] at hu ⊢
        by_cases hut : u = t
        · subst hut
          rw [hu, hpc, Function.update_self, Function.update_self]
          simp [UserPc.inCopy]
        · rw [Function.update_of_ne hut, Function.update_of_ne hut]; exact hu
      · cases h
  | worker =>
    simp only [channelStep] at h
    split at h <;> cases h
    exact hi
  | kthreadStop => cases h; exact hi

theorem returnsOwn {s : ChannelSt Tid} (h : (channelSys Tid).ReachableWith CopiesSucceed s) :
    ReturnsOwn s :=
  h.invariant (fun _ => rfl) fun _ _ _ => returnsOwn_step

/-! ## Exactly-once FIFO -/

/-- The accepted entries cut into the four consecutive segments they have moved to. -/
structure Segments (s : ChannelSt Tid) (done inComp inHand inSub : List RingEntry) : Prop where
  accepted : s.accepted = done ++ inComp ++ inHand ++ inSub
  taken : s.taken.map (·.2) = done.map processEntry
  comp : s.chan.compRing.contents = inComp.map processEntry
  hand : s.worker.inHand = inHand.map processEntry
  sub : s.chan.subRing.contents = inSub

/-- The payload is increased, the rest of the entry kept, so processing loses nothing. -/
theorem processEntry_injective : Function.Injective processEntry := by
  intro a b h
  cases a; cases b
  simp only [processEntry, RingEntry.mk.injEq] at h ⊢
  exact ⟨by simpa using h.1, h.2⟩

omit [DecidableEq Tid] in
theorem segments_of_order {s : ChannelSt Tid}
    (h : s.taken.map (·.2) ++ s.chan.compRing.contents ++ s.worker.inHand
      ++ s.chan.subRing.contents.map processEntry = s.accepted.map processEntry) :
    ∃ done inComp inHand inSub, Segments s done inComp inHand inSub := by
  obtain ⟨l, inSub', hacc, hl, hsub⟩ := List.map_eq_append_iff.mp h.symm
  obtain ⟨l', inHand, hl', hl2, hhand⟩ := List.map_eq_append_iff.mp hl
  obtain ⟨done, inComp, hd, hdone, hcomp⟩ := List.map_eq_append_iff.mp hl2
  refine ⟨done, inComp, inHand, inSub', ?_, hdone.symm, hcomp.symm, hhand.symm, ?_⟩
  · rw [hacc, hl', hd]
  · exact (List.map_injective_iff.mpr processEntry_injective hsub).symm

/-- **Exactly-once FIFO.** In every reachable state of a channel whose copies to user space
succeed and whose worker has not been told to stop, both rings hold at most `ringSize` entries,
the accepted entries are exactly those taken, in the completion ring, in the worker's hand and in
the submission ring, in that order, each processed once on the way; what COMPLETE has taken is a
prefix of what SUBMIT accepted, and every call returns the entry it took. -/
theorem channel_fifo {s : ChannelSt Tid} (h : (channelSys Tid).ReachableWith CopiesSucceed s)
    (hstop : s.stop = false) :
    (ringCount s.chan.subRing).toNat ≤ ringSize ∧ (ringCount s.chan.compRing).toNat ≤ ringSize ∧
    (∃ done inComp inHand inSub, Segments s done inComp inHand inSub) ∧
    s.taken.map (·.2) <+: s.accepted.map processEntry ∧
    ∀ t, s.takenBy t = s.returned t ++ (s.user t).inCopy := by
  have hi := fifoInv h.reachable
  refine ⟨?_, ?_, segments_of_order (hi.order hstop), ?_, returnsOwn h⟩
  · rw [ringCount_toNat]; exact hi.sub_le
  · rw [ringCount_toNat]; exact hi.comp_le
  · rw [← hi.order hstop, List.append_assoc, List.append_assoc]
    exact List.prefix_append _ _

/-- Two submissions, the first of them processed and returned. -/
def twoSubmissions : List (ChannelAct (Fin 2)) :=
  [.submitCall 0 ⟨7, 1, 0⟩, .submitLocked 0, .worker, .submitInFlight 0, .worker, .worker,
   .worker, .submitTotal 0, .submitCall 0 ⟨9, 2, 0⟩, .worker, .submitLocked 0, .worker, .worker,
   .completeCall 1, .completeLocked 1, .completeCopy 1 true]

theorem channel_fifo_two :
    ∃ s : ChannelSt (Fin 2), (channelSys (Fin 2)).ReachableWith CopiesSucceed s ∧
      s.accepted = [⟨7, 1, 0⟩, ⟨9, 2, 0⟩] ∧ s.returned 1 = [⟨8, 1, 0⟩] ∧
      s.taken.map (·.2) <+: s.accepted.map processEntry := by
  obtain ⟨s, hr, hstop, hacc, hret⟩ : ∃ s : ChannelSt (Fin 2),
      (channelSys (Fin 2)).ReachableWith CopiesSucceed s ∧ s.stop = false ∧
        s.accepted = [⟨7, 1, 0⟩, ⟨9, 2, 0⟩] ∧ s.returned 1 = [⟨8, 1, 0⟩] :=
    Transition.Sys.exists_of_execWith twoSubmissions (by decide)
  exact ⟨s, hr, hacc, hret, (channel_fifo hr hstop).2.2.2.1⟩

end Dmaplane
