import Dmaplane.ChannelTable
import Mathlib.Tactic.FinCases

/-!
# Dmaplane.ChannelOwner

Who owns the channels. As long as a file has no channel when its CREATE_CHANNEL claims one, the
active slots and the file contexts are in exclusive ownership and the counters count the active
slots (`channels_owned`). Nothing in the section under `dev_mutex` ensures that: two threads that
both pass the unlocked test leave a channel that no file owns (`channels_leaked`).
-/

namespace Dmaplane

open Ownership

variable {Tid Fd : Type} [DecidableEq Tid] [DecidableEq Fd]

def DmaplaneDev.activeSlots (dev : DmaplaneDev) : Finset (Fin maxChannels) :=
  Finset.univ.filter fun i => (dev.channels i).active = true

def TableSt.owner (s : TableSt Tid Fd) (fd : Fd) : Option (Fin maxChannels) := (s.files fd).chan

@[simp] theorem DmaplaneDev.mem_activeSlots {dev : DmaplaneDev} {i : Fin maxChannels} :
    i ∈ dev.activeSlots ↔ (dev.channels i).active = true := by
  simp [DmaplaneDev.activeSlots]

/-- The counters count the active slots, and an active channel has the worker's and the file's
reference. -/
structure DevInv (dev : DmaplaneDev) : Prop where
  refs : ∀ i ∈ dev.activeSlots, (dev.channels i).refcount = 2
  count : dev.activeChannels = BitVec.ofNat 32 dev.activeSlots.card
  total : dev.totalChannelsCreated - dev.totalChannelsDestroyed
    = BitVec.ofNat 64 dev.activeSlots.card

theorem activeSlots_setChannel {dev : DmaplaneDev} {i : Fin maxChannels} {chan : DmaplaneChannel} :
    (dev.setChannel i chan).activeSlots
      = if chan.active then insert i dev.activeSlots else dev.activeSlots.erase i := by
  ext j
  by_cases hj : j = i
  · subst hj
    split <;> simp_all [DmaplaneDev.setChannel]
  · split <;> simp [DmaplaneDev.setChannel, hj]

theorem freeChannel_inactive {dev : DmaplaneDev} {i : Fin maxChannels}
    (h : dev.freeChannel = some i) : i ∉ dev.activeSlots := by
  simp [DmaplaneDev.mem_activeSlots, active_freeChannel h]

/-! ## The sections under `dev_mutex` -/

def DmaplaneDev.claimed (dev : DmaplaneDev) (i : Fin maxChannels) (chan : DmaplaneChannel) :
    DmaplaneDev :=
  { dev.setChannel i chan with
    activeChannels := dev.activeChannels + 1
    totalChannelsCreated := dev.totalChannelsCreated + 1 }

def DmaplaneDev.released (dev : DmaplaneDev) (i : Fin maxChannels) (chan : DmaplaneChannel) :
    DmaplaneDev :=
  { dev.setChannel i chan with
    activeChannels := dev.activeChannels - 1
    totalChannelsDestroyed := dev.totalChannelsDestroyed + 1 }

theorem activeSlots_claimed (dev : DmaplaneDev) {i : Fin maxChannels} {chan : DmaplaneChannel}
    (hact : chan.active = true) : (dev.claimed i chan).activeSlots = insert i dev.activeSlots :=
  activeSlots_setChannel.trans (if_pos hact)

theorem activeSlots_released (dev : DmaplaneDev) {i : Fin maxChannels} {chan : DmaplaneChannel}
    (hact : chan.active = false) : (dev.released i chan).activeSlots = dev.activeSlots.erase i :=
  activeSlots_setChannel.trans (if_neg (by rw [hact]; exact Bool.false_ne_true))

theorem createChannelLocked_ok {dev dev' : DmaplaneDev} {kthread : Except Errno Unit}
    {i : Fin maxChannels} (h : createChannelLocked dev kthread = (.ok i, dev')) :
    i ∉ dev.activeSlots ∧
      ∃ chan, chan.active = true ∧ chan.refcount = 2 ∧ dev' = dev.claimed i chan := by
  simp only [createChannelLocked] at h
  split at h
  · cases h
  · rename_i j hj
    cases kthread with
    | error e => cases h
    | ok _ => cases h; exact ⟨freeChannel_inactive hj, _, rfl, rfl, rfl⟩

/-- A failed CREATE_CHANNEL may have reset an inactive slot. -/
theorem createChannelLocked_error {dev dev' : DmaplaneDev} {kthread : Except Errno Unit}
    {e : Errno} (h : createChannelLocked dev kthread = (.error e, dev')) :
    dev' = dev ∨ ∃ i chan, i ∉ dev.activeSlots ∧ chan.active = false ∧
      dev' = dev.setChannel i chan := by
  simp only [createChannelLocked] at h
  split at h
  · cases h; exact .inl rfl
  · rename_i j hj
    cases kthread with
    | error e => cases h; exact .inr ⟨j, _, freeChannel_inactive hj, rfl, rfl⟩
    | ok _ => cases h

/-- The second of the two `kref_put` calls is the one that releases the channel. -/
theorem channelDestroy_eq {dev : DmaplaneDev} {i : Fin maxChannels} (hi : i ∈ dev.activeSlots)
    (href : (dev.channels i).refcount = 2) :
    ∃ chan, chan.active = false ∧ channelDestroy dev i = dev.released i chan := by
  rw [DmaplaneDev.mem_activeSlots] at hi
  refine ⟨{ dev.channels i with
    shutdown := true, worker := false, refcount := 0, active := false }, rfl, ?_⟩
  simp [channelDestroy, krefPut, channelRelease, DmaplaneDev.setChannel, DmaplaneDev.released, hi,
    href]

theorem DevInv.claimed {dev : DmaplaneDev} {i : Fin maxChannels} {chan : DmaplaneChannel}
    (h : DevInv dev) (hi : i ∉ dev.activeSlots) (hact : chan.active = true)
    (href : chan.refcount = 2) : DevInv (dev.claimed i chan) := by
  have hset := activeSlots_claimed dev (i := i) hact
  refine ⟨?_, ?_, ?_⟩
  · intro j hj
    by_cases hji : j = i
    · subst hji
      simpa [DmaplaneDev.claimed, DmaplaneDev.setChannel] using href
    · rw [hset] at hj
      have := h.refs j (Finset.mem_of_mem_insert_of_ne hj hji)
      simpa [DmaplaneDev.claimed, DmaplaneDev.setChannel, hji] using this
  · rw [hset, Finset.card_insert_of_notMem hi, BitVec.ofNat_add, ← h.count]; rfl
  · rw [hset, Finset.card_insert_of_notMem hi, BitVec.ofNat_add, ← h.total]
    show dev.totalChannelsCreated + 1#64 - dev.totalChannelsDestroyed = _
    rw [BitVec.sub_eq_add_neg, BitVec.sub_eq_add_neg]; ac_rfl

theorem DevInv.released {dev : DmaplaneDev} {i : Fin maxChannels} {chan : DmaplaneChannel}
    (h : DevInv dev) (hi : i ∈ dev.activeSlots) (hact : chan.active = false) :
    DevInv (dev.released i chan) := by
  have hset := activeSlots_released dev (i := i) hact
  have hcard : dev.activeSlots.card = (dev.activeSlots.erase i).card + 1 :=
    (Finset.card_erase_add_one hi).symm
  refine ⟨?_, ?_, ?_⟩
  · intro j hj
    rw [hset] at hj
    obtain ⟨hji, hj⟩ := Finset.mem_erase.mp hj
    have := h.refs j hj
    simpa [DmaplaneDev.released, DmaplaneDev.setChannel, hji] using this
  · have hc := h.count
    rw [hcard, BitVec.ofNat_add] at hc
    rw [hset]
    show dev.activeChannels - 1 = _
    rw [hc]; exact BitVec.add_sub_cancel ..
  · have ht := h.total
    rw [hcard, BitVec.ofNat_add] at ht
    rw [hset]
    show dev.totalChannelsCreated - (dev.totalChannelsDestroyed + 1) = _
    rw [← BitVec.sub_sub, ht]; exact BitVec.add_sub_cancel ..

/-- Resetting an inactive slot changes nothing that `DevInv` speaks about. -/
theorem DevInv.reset {dev : DmaplaneDev} {i : Fin maxChannels} {chan : DmaplaneChannel}
    (h : DevInv dev) (hi : i ∉ dev.activeSlots) (hact : chan.active = false) :
    (dev.setChannel i chan).activeSlots = dev.activeSlots ∧ DevInv (dev.setChannel i chan) := by
  have hset : (dev.setChannel i chan).activeSlots = dev.activeSlots := by
    rw [activeSlots_setChannel, hact]
    exact Finset.erase_eq_of_notMem hi
  refine ⟨hset, ?_, by rw [hset]; exact h.count, by rw [hset]; exact h.total⟩
  intro j hj
  rw [hset] at hj
  have hji : j ≠ i := by rintro rfl; exact hi hj
  have := h.refs j hj
  simpa [DmaplaneDev.setChannel, hji] using this

/-! ## Ownership -/

structure TableInv (s : TableSt Tid Fd) : Prop where
  dev : DevInv s.dev
  owners : Exclusive s.dev.activeSlots s.owner

/-- The condition under which a claim overwrites no `ctx->chan`: when the section under
`dev_mutex` is about to claim a slot, the file still owns none. -/
def ClaimsUnowned (s : TableSt Tid Fd) : TableAct Tid Fd → Prop
  | .createLocked t (.ok ()) =>
    match s.user t with
    | .checked fd => s.dev.freeChannel = none ∨ (s.files fd).chan = none
    | _ => True
  | _ => True

instance (s : TableSt Tid Fd) (a : TableAct Tid Fd) : Decidable (ClaimsUnowned s a) :=
  match a with
  | .createLocked t (.ok ()) =>
    match h : s.user t with
    | .checked fd =>
      decidable_of_iff (s.dev.freeChannel = none ∨ (s.files fd).chan = none)
        (by simp [ClaimsUnowned, h])
    | .idle | .copyToUser _ => isTrue (by simp [ClaimsUnowned, h])
  | .openFile _ | .createCall _ _ | .createLocked _ (.error _) | .createCopy _ _ | .release _
  | .releaseLocked _ | .releaseFree _ => isTrue trivial

omit [DecidableEq Tid] in
theorem owner_setFile (s : TableSt Tid Fd) (fd : Fd) (f : FileSt Tid) :
    (s.setFile fd f).owner = Function.update s.owner fd f.chan := by
  funext fd'
  by_cases h : fd' = fd
  · subst h; simp [TableSt.owner, TableSt.setFile]
  · simp [TableSt.owner, TableSt.setFile, h]

omit [DecidableEq Tid] in
theorem owner_setFile_same {s : TableSt Tid Fd} {fd : Fd} {f f' : FileSt Tid}
    (hf : s.files fd = f) (h : f'.chan = f.chan) : (s.setFile fd f').owner = s.owner := by
  rw [owner_setFile, h, ← hf]
  exact Function.update_eq_self ..

/-- What a step may do to the device and to the owners. -/
inductive OwnerFlow (s s' : TableSt Tid Fd) : Prop where
  | same : DevInv s'.dev → s'.dev.activeSlots = s.dev.activeSlots → s'.owner = s.owner →
      OwnerFlow s s'
  | claim (fd : Fd) (i : Fin maxChannels) : DevInv s'.dev → i ∉ s.dev.activeSlots →
      s.owner fd = none → s'.dev.activeSlots = insert i s.dev.activeSlots →
      s'.owner = Function.update s.owner fd (some i) → OwnerFlow s s'
  | release (fd : Fd) (i : Fin maxChannels) : DevInv s'.dev → s.owner fd = some i →
      s'.dev.activeSlots = s.dev.activeSlots.erase i →
      s'.owner = Function.update s.owner fd none → OwnerFlow s s'

theorem tableStep_ownerFlow {s s' : TableSt Tid Fd} {a : TableAct Tid Fd} (hi : TableInv s)
    (hok : ClaimsUnowned s a) (h : tableStep s a = some s') : OwnerFlow s s' := by
  obtain ⟨hdev, hown⟩ := hi
  cases a with
  | openFile fd =>
    simp only [tableStep] at h
    split at h
    · rename_i hf; cases h
      exact .same ⟨hdev.refs, hdev.count, hdev.total⟩ rfl (owner_setFile_same hf rfl)
    · cases h
  | createCall t fd =>
    simp only [tableStep] at h
    split at h
    · rename_i ctx calls hpc hf
      split at h
      · cases h; exact .same hdev rfl rfl
      · cases h; exact .same hdev rfl (owner_setFile_same hf rfl)
    · cases h
  | createLocked t kthread =>
    simp only [tableStep] at h
    split at h
    · rename_i fd hpc
      split at h
      · rename_i ctx calls hf
        split at h
        · rename_i i dev hc; cases h
          obtain ⟨hfree, chan, hact, href, rfl⟩ := createChannelLocked_ok hc
          have hnone : s.owner fd = none := by
            cases kthread with
            | error e => simp [createChannelLocked] at hc; split at hc <;> simp at hc
            | ok u =>
              simp only [ClaimsUnowned, hpc] at hok
              rcases hok with hok | hok
              · simp [createChannelLocked, hok] at hc
              · exact hok
          exact .claim fd i (hdev.claimed hfree hact href) hfree hnone
            (activeSlots_claimed _ hact) (owner_setFile s fd _)
        · rename_i e dev hc; cases h
          rcases createChannelLocked_error hc with rfl | ⟨i, chan, hfree, hact, rfl⟩
          · exact .same hdev rfl (owner_setFile_same hf rfl)
          · obtain ⟨hset, hdev'⟩ := hdev.reset hfree hact
            exact .same hdev' hset (owner_setFile_same hf rfl)
      · cases h
    · cases h
  | createCopy t copyOk =>
    simp only [tableStep] at h
    split at h
    · split at h
      · rename_i hf; cases h; exact .same hdev rfl (owner_setFile_same hf rfl)
      · cases h
    · cases h
  | release fd =>
    simp only [tableStep] at h
    split at h
    · rename_i hf
      split at h <;> cases h
      exact .same hdev rfl (owner_setFile_same hf rfl)
    · cases h
  | releaseLocked fd =>
    simp only [tableStep] at h
    split at h
    · rename_i ctx hf
      split at h
      · rename_i i hc; cases h
        have hfd : s.owner fd = some i := by rw [TableSt.owner, hf]; exact hc
        have hmem := hown.used fd i hfd
        obtain ⟨chan, hact, hd⟩ := channelDestroy_eq hmem (hdev.refs i hmem)
        refine .release fd i ?_ hfd ?_ (owner_setFile s fd _)
        · show DevInv (channelDestroy s.dev i)
          rw [hd]; exact hdev.released hmem hact
        · show (channelDestroy s.dev i).activeSlots = _
          rw [hd]; exact activeSlots_released _ hact
      · rename_i hc; cases h
        exact .same hdev rfl (owner_setFile_same hf hc.symm)
    · cases h
  | releaseFree fd =>
    simp only [tableStep] at h
    split at h
    · rename_i hf; cases h
      exact .same ⟨hdev.refs, hdev.count, hdev.total⟩ rfl (owner_setFile_same hf rfl)
    · cases h

theorem tableInv_step {s s' : TableSt Tid Fd} {a : TableAct Tid Fd} (hi : TableInv s)
    (hok : ClaimsUnowned s a) (h : tableStep s a = some s') : TableInv s' := by
  cases tableStep_ownerFlow hi hok h with
  | same hdev hact hown => exact ⟨hdev, by rw [hact, hown]; exact hi.owners⟩
  | claim fd i hdev hfree hnone hact hown =>
    exact ⟨hdev, by rw [hact, hown]; exact hi.owners.claim hfree hnone⟩
  | release fd i hdev hfd hact hown =>
    exact ⟨hdev, by rw [hact, hown]; exact hi.owners.release hfd⟩

theorem tableInv {s : TableSt Tid Fd} (h : (tableSys Tid Fd).ReachableWith ClaimsUnowned s) :
    TableInv s := by
  have hempty : devInit.activeSlots = ∅ := by decide
  refine h.invariant ⟨⟨?_, ?_, ?_⟩, ?_⟩ fun _ _ _ => tableInv_step
  · intro i hi; cases hi
  · show devInit.activeChannels = BitVec.ofNat 32 devInit.activeSlots.card
    rw [hempty]; rfl
  · show devInit.totalChannelsCreated - devInit.totalChannelsDestroyed
      = BitVec.ofNat 64 devInit.activeSlots.card
    rw [hempty]; rfl
  · show Exclusive devInit.activeSlots _
    rw [hempty]; exact Exclusive.nobody

/-- No ioctl, open or release is in progress. -/
def TableSt.Quiescent (s : TableSt Tid Fd) : Prop :=
  (∀ t, s.user t = .idle) ∧
    ∀ fd, s.files fd = .closed ∨ ∃ ctx calls, s.files fd = .opened ctx calls

/-- Every active channel is the `ctx->chan` of exactly one open file, and the counters agree. -/
structure TableSt.ChannelsOwned (s : TableSt Tid Fd) : Prop where
  owned : ∀ i, (s.dev.channels i).active = true →
    ∃! fd, ∃ ctx calls, s.files fd = .opened ctx calls ∧ ctx.chan = some i
  active : ∀ fd ctx calls i, s.files fd = .opened ctx calls → ctx.chan = some i →
    (s.dev.channels i).active = true
  count : s.dev.activeChannels.toNat = s.dev.activeSlots.card
  total : (s.dev.totalChannelsCreated - s.dev.totalChannelsDestroyed).toNat
    = s.dev.activeSlots.card
  allClosed : (∀ fd, s.files fd = .closed) → ∀ i, (s.dev.channels i).active = false

omit [DecidableEq Tid] [DecidableEq Fd] in
theorem owner_quiescent {s : TableSt Tid Fd} (hq : s.Quiescent) {fd : Fd}
    {i : Fin maxChannels} :
    s.owner fd = some i ↔ ∃ ctx calls, s.files fd = .opened ctx calls ∧ ctx.chan = some i := by
  unfold TableSt.owner
  rcases hq.2 fd with hf | ⟨ctx, calls, hf⟩ <;> rw [hf]
  · simp [FileSt.chan]
  · simp [FileSt.chan]

theorem channels_owned {s : TableSt Tid Fd}
    (h : (tableSys Tid Fd).ReachableWith ClaimsUnowned s) (hq : s.Quiescent) :
    s.ChannelsOwned := by
  obtain ⟨⟨_, hcount, htotal⟩, hown⟩ := tableInv h
  have hle : s.dev.activeSlots.card ≤ 4 := Finset.card_le_univ s.dev.activeSlots
  refine ⟨?_, ?_, ?_, ?_, ?_⟩
  · intro i hi
    simpa only [owner_quiescent hq] using
      hown.existsUnique (DmaplaneDev.mem_activeSlots.mpr hi)
  · intro fd ctx calls i hf hc
    exact DmaplaneDev.mem_activeSlots.mp
      (hown.used fd i ((owner_quiescent hq).mpr ⟨ctx, calls, hf, hc⟩))
  · rw [hcount, BitVec.toNat_ofNat, Nat.mod_eq_of_lt (by omega)]
  · rw [htotal, BitVec.toNat_ofNat, Nat.mod_eq_of_lt (by omega)]
  · intro hclosed i
    have hempty := hown.eq_empty fun fd => by rw [TableSt.owner, hclosed fd]; rfl
    have hi : i ∉ s.dev.activeSlots := by rw [hempty]; exact Finset.notMem_empty i
    rw [DmaplaneDev.mem_activeSlots] at hi
    exact Bool.eq_false_iff.mpr hi

/-- A file is opened and a channel created on it. -/
def oneChannel : List (TableAct (Fin 2) (Fin 2)) :=
  [.openFile 0, .createCall 1 0, .createLocked 1 (.ok ()), .createCopy 1 false]

theorem channels_owned_one : ∃ s : TableSt (Fin 2) (Fin 2),
    (s.dev.channels 0).active = true ∧ s.ChannelsOwned := by
  obtain ⟨s, hr, hact, hidle, hf⟩ : ∃ s : TableSt (Fin 2) (Fin 2),
      (tableSys (Fin 2) (Fin 2)).ReachableWith ClaimsUnowned s ∧
        (s.dev.channels 0).active = true ∧ (∀ t, s.user t = .idle) ∧
        s.files 0 = .opened ⟨some 0⟩ ∅ ∧ s.files 1 = .closed :=
    Transition.Sys.exists_of_execWith oneChannel (by decide)
  have hq : s.Quiescent := by
    refine ⟨hidle, fun fd => ?_⟩
    fin_cases fd
    · exact .inr ⟨_, _, hf.1⟩
    · exact .inl hf.2
  exact ⟨s, hact, channels_owned hr hq⟩

/-- Two threads create a channel on one file; the file is then closed. -/
def twoCreates : List (TableAct (Fin 2) (Fin 1)) :=
  [.openFile 0, .createCall 0 0, .createCall 1 0, .createLocked 0 (.ok ()),
   .createLocked 1 (.ok ()), .createCopy 0 true, .createCopy 1 true, .release 0,
   .releaseLocked 0, .releaseFree 0]

/-- Every file is closed and channel 0 is still active. -/
theorem channels_leaked : ∃ s : TableSt (Fin 2) (Fin 1),
    (tableSys (Fin 2) (Fin 1)).Reachable s ∧ s.Quiescent ∧ ¬ s.ChannelsOwned := by
  obtain ⟨s, hr, hidle, hclosed, hact⟩ : ∃ s : TableSt (Fin 2) (Fin 1),
      (tableSys (Fin 2) (Fin 1)).Reachable s ∧ (∀ t, s.user t = .idle) ∧
        (∀ fd, s.files fd = .closed) ∧ (s.dev.channels 0).active = true :=
    Transition.Sys.exists_of_exec twoCreates (by decide)
  refine ⟨s, hr, ⟨hidle, fun fd => .inl (hclosed fd)⟩, fun h => ?_⟩
  rw [h.allClosed hclosed 0] at hact
  cases hact

end Dmaplane
