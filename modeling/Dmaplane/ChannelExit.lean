import Dmaplane.ChannelOwner

/-!
# Dmaplane.ChannelExit

The channel table over all runs, the race of `channels_leaked` included, up to `dmaplane_exit`.
A second CREATE_CHANNEL on one file makes it forget a channel, so ownership is only `Apart`: no
channel is in two files, and an active channel is touched by nothing but the release of its file
(`channels_apart`). What a file forgot is still in the table, and the loop of `dmaplane_exit`
over the slots stops and releases it (`channels_unload`).

* `createChannelLocked_runs`, `channelDestroy_runs` — a slot has a worker as long as it is active.
* `TableFlow` — what a step does to the table, the owners and the open count.
* `exitLoop` — the loop, by induction over the slots that are left.
-/

namespace Dmaplane

open Ownership

variable {Tid Fd : Type} [DecidableEq Tid] [DecidableEq Fd]

/-- The first loop of `dmaplane_exit`, under `dev_mutex`. -/
def DmaplaneDev.exitChannels (dev : DmaplaneDev) : DmaplaneDev :=
  (List.finRange maxChannels).foldl channelDestroy dev

/-! ## Workers -/

/-- A slot has a worker kthread exactly as long as it is active. -/
def DmaplaneDev.Runs (dev : DmaplaneDev) : Prop :=
  ∀ i, (dev.channels i).worker = (dev.channels i).active

theorem DmaplaneDev.Runs.setChannel {dev : DmaplaneDev} {i : Fin maxChannels}
    {chan : DmaplaneChannel} (h : dev.Runs) (hc : chan.worker = chan.active) :
    (dev.setChannel i chan).Runs := by
  intro j
  by_cases hj : j = i
  · subst hj; simpa [DmaplaneDev.setChannel] using hc
  · simpa [DmaplaneDev.setChannel, hj] using h j

theorem createChannelLocked_runs {dev : DmaplaneDev} (kthread : Except Errno Unit)
    (h : dev.Runs) : (createChannelLocked dev kthread).2.Runs := by
  simp only [createChannelLocked]
  split
  · exact h
  · cases kthread with
    | error e => exact h.setChannel rfl
    | ok _ => exact h.setChannel (i := _) rfl

theorem channelDestroy_inactive {dev : DmaplaneDev} {i : Fin maxChannels}
    (hi : i ∉ dev.activeSlots) : channelDestroy dev i = dev := by
  have hact : (dev.channels i).active = false := by simpa using hi
  simp [channelDestroy, hact]

theorem channelDestroy_runs {dev : DmaplaneDev} {i : Fin maxChannels} (h : dev.Runs)
    (href : i ∈ dev.activeSlots → (dev.channels i).refcount = 2) :
    (channelDestroy dev i).Runs := by
  by_cases hi : i ∈ dev.activeSlots
  · have hact : (dev.channels i).active = true := by simpa using hi
    intro j
    by_cases hj : j = i
    · subst hj
      simp [channelDestroy, krefPut, channelRelease, DmaplaneDev.setChannel, hact, href hi]
    · simpa [channelDestroy, krefPut, channelRelease, DmaplaneDev.setChannel, hact, href hi, hj]
        using h j
  · rw [channelDestroy_inactive hi]; exact h

/-! ## One step -/

/-- The slots that a section under `dev_mutex` leaves as they were. -/
theorem createChannelLocked_spares {dev : DmaplaneDev} (kthread : Except Errno Unit)
    {j : Fin maxChannels} (hj : j ∈ dev.activeSlots) :
    (createChannelLocked dev kthread).2.channels j = dev.channels j := by
  simp only [createChannelLocked]
  split
  · rfl
  · rename_i i hfree
    have hne : j ≠ i := by rintro rfl; exact freeChannel_inactive hfree hj
    cases kthread with
    | error e => simp [DmaplaneDev.setChannel, hne]
    | ok _ => simp [DmaplaneDev.setChannel, hne]

theorem krefPut_spares (dev : DmaplaneDev) {i j : Fin maxChannels} (hj : j ≠ i) :
    (krefPut dev i).channels j = dev.channels j := by
  simp only [krefPut]
  split <;> simp [channelRelease, DmaplaneDev.setChannel, hj]

theorem channelDestroy_spares (dev : DmaplaneDev) {i j : Fin maxChannels} (hj : j ≠ i) :
    (channelDestroy dev i).channels j = dev.channels j := by
  simp only [channelDestroy]
  split
  · rfl
  · rw [krefPut_spares _ hj, krefPut_spares _ hj]
    simp [DmaplaneDev.setChannel, hj]

/-- `dmaplane_open` and `dmaplane_release` are the only ones that count. -/
theorem createChannelLocked_opens (dev : DmaplaneDev) (kthread : Except Errno Unit) :
    (createChannelLocked dev kthread).2.totalOpens = dev.totalOpens ∧
      (createChannelLocked dev kthread).2.totalCloses = dev.totalCloses := by
  simp only [createChannelLocked]
  split
  · exact ⟨rfl, rfl⟩
  · cases kthread <;> exact ⟨rfl, rfl⟩

theorem krefPut_opens (dev : DmaplaneDev) (i : Fin maxChannels) :
    (krefPut dev i).totalOpens = dev.totalOpens ∧
      (krefPut dev i).totalCloses = dev.totalCloses := by
  simp only [krefPut]
  split <;> exact ⟨rfl, rfl⟩

theorem channelDestroy_opens (dev : DmaplaneDev) (i : Fin maxChannels) :
    (channelDestroy dev i).totalOpens = dev.totalOpens ∧
      (channelDestroy dev i).totalCloses = dev.totalCloses := by
  simp only [channelDestroy]
  split
  · exact ⟨rfl, rfl⟩
  · rw [(krefPut_opens _ i).1, (krefPut_opens _ i).2, (krefPut_opens _ i).1, (krefPut_opens _ i).2]
    exact ⟨rfl, rfl⟩

def TableSt.openFiles (s : TableSt Tid Fd) : Set Fd := {fd | s.files fd ≠ .closed}

omit [DecidableEq Tid] in
theorem openFiles_setFile_same {s : TableSt Tid Fd} {fd : Fd} {f : FileSt Tid}
    (hf : s.files fd ≠ .closed) (hf' : f ≠ .closed) :
    (s.setFile fd f).openFiles = s.openFiles := by
  ext fd'
  by_cases h : fd' = fd
  · subst h; simp [TableSt.openFiles, TableSt.setFile, hf, hf']
  · simp [TableSt.openFiles, TableSt.setFile, h]

/-- What a step does to the device, to the owners and to the set of open files. -/
inductive TableMove (s s' : TableSt Tid Fd) : TableAct Tid Fd → Prop where
  | quiet {a : TableAct Tid Fd} : s'.dev = s.dev → s'.owner = s.owner →
      s'.openFiles = s.openFiles → TableMove s s' a
  | opened (fd : Fd) : fd ∉ s.openFiles →
      s'.dev = { s.dev with totalOpens := s.dev.totalOpens + 1 } → s'.owner = s.owner →
      s'.openFiles = insert fd s.openFiles → TableMove s s' (.openFile fd)
  | failed (t : Tid) (kthread : Except Errno Unit) (e : Errno) :
      createChannelLocked s.dev kthread = (.error e, s'.dev) → s'.owner = s.owner →
      s'.openFiles = s.openFiles → TableMove s s' (.createLocked t kthread)
  | created (t : Tid) (kthread : Except Errno Unit) (fd : Fd) (i : Fin maxChannels) :
      createChannelLocked s.dev kthread = (.ok i, s'.dev) →
      s'.owner = Function.update s.owner fd (some i) →
      s'.openFiles = s.openFiles → TableMove s s' (.createLocked t kthread)
  | destroyed (fd : Fd) (i : Fin maxChannels) : s.owner fd = some i →
      s'.dev = channelDestroy s.dev i → s'.owner = Function.update s.owner fd none →
      s'.openFiles = s.openFiles → TableMove s s' (.releaseLocked fd)
  | closed (fd : Fd) : fd ∈ s.openFiles →
      s'.dev = { s.dev with totalCloses := s.dev.totalCloses + 1 } → s'.owner = s.owner →
      s'.openFiles = s.openFiles \ {fd} → TableMove s s' (.releaseFree fd)

theorem tableStep_move {s s' : TableSt Tid Fd} {a : TableAct Tid Fd}
    (h : tableStep s a = some s') : TableMove s s' a := by
  have hne : ∀ {fd f}, s.files fd = f → f ≠ .closed → s.files fd ≠ .closed :=
    fun hf hc => hf ▸ hc
  cases a with
  | openFile fd =>
    simp only [tableStep] at h
    split at h
    · rename_i hf; cases h
      refine .opened fd (fun ho => ho hf) rfl (owner_setFile_same hf rfl) ?_
      ext fd'
      by_cases hfd : fd' = fd
      · subst hfd; simp [TableSt.openFiles, TableSt.setFile]
      · simp [TableSt.openFiles, TableSt.setFile, hfd]
    · cases h
  | createCall t fd =>
    simp only [tableStep] at h
    split at h
    · rename_i ctx calls hpc hf
      split at h
      · cases h; exact .quiet rfl rfl rfl
      · cases h
        exact .quiet rfl (owner_setFile_same hf rfl)
          (openFiles_setFile_same (hne hf (by simp)) (by simp))
    · cases h
  | createLocked t kthread =>
    simp only [tableStep] at h
    split at h
    · rename_i fd hpc
      split at h
      · rename_i ctx calls hf
        split at h
        · rename_i i dev hc; cases h
          exact .created t kthread fd i hc (owner_setFile s fd _)
            (openFiles_setFile_same (hne hf (by simp)) (by simp))
        · rename_i e dev hc; cases h
          exact .failed t kthread e hc (owner_setFile_same hf rfl)
            (openFiles_setFile_same (hne hf (by simp)) (by simp))
      · cases h
    · cases h
  | createCopy t copyOk =>
    simp only [tableStep] at h
    split at h
    · split at h
      · rename_i hf; cases h
        exact .quiet rfl (owner_setFile_same hf rfl)
          (openFiles_setFile_same (hne hf (by simp)) (by simp))
      · cases h
    · cases h
  | release fd =>
    simp only [tableStep] at h
    split at h
    · rename_i hf
      split at h <;> cases h
      exact .quiet rfl (owner_setFile_same hf rfl)
        (openFiles_setFile_same (hne hf (by simp)) (by simp))
    · cases h
  | releaseLocked fd =>
    simp only [tableStep] at h
    split at h
    · rename_i ctx hf
      split at h
      · rename_i i hc; cases h
        have hfd : s.owner fd = some i := by rw [TableSt.owner, hf]; exact hc
        exact .destroyed fd i hfd rfl (owner_setFile s fd _)
          (openFiles_setFile_same (hne hf (by simp)) (by simp))
      · rename_i hc; cases h
        exact .quiet rfl (owner_setFile_same hf hc.symm)
          (openFiles_setFile_same (hne hf (by simp)) (by simp))
    · cases h
  | releaseFree fd =>
    simp only [tableStep] at h
    split at h
    · rename_i hf; cases h
      refine .closed fd (hne hf (by simp)) rfl (owner_setFile_same hf rfl) ?_
      ext fd'
      by_cases hfd : fd' = fd
      · subst hfd; simp [TableSt.openFiles, TableSt.setFile]
      · simp [TableSt.openFiles, TableSt.setFile, hfd]
    · cases h

/-! ## All runs -/

/-- As many files are open as the two lifetime counters say. -/
def TableSt.CountsFiles (s : TableSt Tid Fd) : Prop :=
  ∃ F : Finset Fd, (F : Set Fd) = s.openFiles ∧
    s.dev.totalOpens - s.dev.totalCloses = BitVec.ofNat 64 F.card

theorem countsFiles_step {s s' : TableSt Tid Fd} {a : TableAct Tid Fd} (hc : s.CountsFiles)
    (h : tableStep s a = some s') : s'.CountsFiles := by
  obtain ⟨F, hF, hcount⟩ := hc
  cases tableStep_move h with
  | quiet hdev _ hopen => exact ⟨F, hF.trans hopen.symm, by rw [hdev]; exact hcount⟩
  | opened fd hnew hdev _ hopen =>
    have hfd : fd ∉ F := by rw [← Finset.mem_coe, hF]; exact hnew
    refine ⟨insert fd F, by rw [Finset.coe_insert, hF, hopen], ?_⟩
    rw [Finset.card_insert_of_notMem hfd, BitVec.ofNat_add, ← hcount, hdev]
    show s.dev.totalOpens + 1#64 - s.dev.totalCloses = _
    rw [BitVec.sub_eq_add_neg, BitVec.sub_eq_add_neg]; ac_rfl
  | failed t kthread e hd _ hopen =>
    obtain ⟨ho, hcl⟩ := createChannelLocked_opens s.dev kthread
    rw [hd] at ho hcl
    exact ⟨F, hF.trans hopen.symm, by rw [ho, hcl]; exact hcount⟩
  | created t kthread fd i hd _ hopen =>
    obtain ⟨ho, hcl⟩ := createChannelLocked_opens s.dev kthread
    rw [hd] at ho hcl
    exact ⟨F, hF.trans hopen.symm, by rw [ho, hcl]; exact hcount⟩
  | destroyed fd i _ hdev _ hopen =>
    obtain ⟨ho, hcl⟩ := channelDestroy_opens s.dev i
    exact ⟨F, hF.trans hopen.symm, by rw [hdev, ho, hcl]; exact hcount⟩
  | closed fd hold hdev _ hopen =>
    have hfd : fd ∈ F := by rw [← Finset.mem_coe, hF]; exact hold
    refine ⟨F.erase fd, by rw [Finset.coe_erase, hF, hopen], ?_⟩
    rw [← Finset.card_erase_add_one hfd, BitVec.ofNat_add] at hcount
    rw [hdev]
    show s.dev.totalOpens - (s.dev.totalCloses + 1) = _
    rw [← BitVec.sub_sub, hcount]; exact BitVec.add_sub_cancel ..

structure RunInv (s : TableSt Tid Fd) : Prop where
  dev : DevInv s.dev
  apart : Apart s.dev.activeSlots s.owner
  runs : s.dev.Runs
  files : s.CountsFiles

theorem runInv_step {s s' : TableSt Tid Fd} {a : TableAct Tid Fd} (hi : RunInv s)
    (h : tableStep s a = some s') : RunInv s' := by
  have hfiles := countsFiles_step hi.files h
  obtain ⟨hdev, hapart, hruns, -⟩ := hi
  cases tableStep_move h with
  | quiet hd ho _ => exact ⟨hd ▸ hdev, by rw [hd, ho]; exact hapart, hd ▸ hruns, hfiles⟩
  | opened fd _ hd ho _ =>
    refine ⟨?_, ?_, ?_, hfiles⟩
    · rw [hd]; exact ⟨hdev.refs, hdev.count, hdev.total⟩
    · rw [hd, ho]; exact hapart
    · rw [hd]; exact hruns
  | failed t kthread e hd ho _ =>
    have hruns' := createChannelLocked_runs kthread hruns
    rw [hd] at hruns'
    rcases createChannelLocked_error hd with hd' | ⟨i, chan, hfree, hact, hd'⟩
    · exact ⟨hd' ▸ hdev, by rw [hd', ho]; exact hapart, hruns', hfiles⟩
    · obtain ⟨hset, hdev'⟩ := hdev.reset hfree hact
      exact ⟨hd' ▸ hdev', by rw [hd', hset, ho]; exact hapart, hruns', hfiles⟩
  | created t kthread fd i hd ho _ =>
    have hruns' := createChannelLocked_runs kthread hruns
    rw [hd] at hruns'
    obtain ⟨hfree, chan, hact, href, hd'⟩ := createChannelLocked_ok hd
    refine ⟨hd' ▸ hdev.claimed hfree hact href, ?_, hruns', hfiles⟩
    rw [hd', activeSlots_claimed _ hact, ho]
    exact hapart.claim hfree
  | destroyed fd i hfd hd ho _ =>
    have hmem := hapart.used fd i hfd
    have href := hdev.refs i hmem
    obtain ⟨chan, hact, hd'⟩ := channelDestroy_eq hmem href
    refine ⟨?_, ?_, ?_, hfiles⟩
    · rw [hd, hd']; exact hdev.released hmem hact
    · rw [hd, hd', activeSlots_released _ hact, ho]; exact hapart.release hfd
    · rw [hd]; exact channelDestroy_runs hruns fun _ => href
  | closed fd _ hd ho _ =>
    refine ⟨?_, ?_, ?_, hfiles⟩
    · rw [hd]; exact ⟨hdev.refs, hdev.count, hdev.total⟩
    · rw [hd, ho]; exact hapart
    · rw [hd]; exact hruns

theorem devInv_init : DevInv devInit := by
  have hempty : devInit.activeSlots = ∅ := by decide
  refine ⟨?_, ?_, ?_⟩ <;> rw [hempty]
  · intro i hi; cases hi
  · rfl
  · rfl

theorem runInv {s : TableSt Tid Fd} (h : (tableSys Tid Fd).Reachable s) : RunInv s := by
  refine h.invariant ⟨devInv_init, Apart.nobody, fun _ => rfl, ∅, ?_, ?_⟩
    fun _ _ _ => runInv_step
  · ext fd; simp [TableSt.openFiles, tableSys]
  · simp [tableSys, devInit]

/-- Files share no channel, and a channel is disturbed only by the release of the file that has
it. What no file has any more (`channels_leaked`) is never touched again. -/
structure TableSt.ChannelsApart (s : TableSt Tid Fd) : Prop where
  apart : ∀ fd fd' i, s.owner fd = some i → s.owner fd' = some i → fd = fd'
  running : ∀ fd i, s.owner fd = some i →
    (s.dev.channels i).active = true ∧ (s.dev.channels i).worker = true ∧
      (s.dev.channels i).refcount = 2
  spared : ∀ a s' i, tableStep s a = some s' → (s.dev.channels i).active = true →
    s'.dev.channels i = s.dev.channels i ∨
      ∃ fd, a = .releaseLocked fd ∧ s.owner fd = some i

theorem channels_apart {s : TableSt Tid Fd} (h : (tableSys Tid Fd).Reachable s) :
    s.ChannelsApart := by
  obtain ⟨hdev, hapart, hruns, -⟩ := runInv h
  refine ⟨hapart.unique, ?_, ?_⟩
  · intro fd i hfd
    have hmem := hapart.used fd i hfd
    have hact := DmaplaneDev.mem_activeSlots.mp hmem
    exact ⟨hact, (hruns i).trans hact, hdev.refs i hmem⟩
  · intro a s' i hs hact
    have hmem := DmaplaneDev.mem_activeSlots.mpr hact
    cases tableStep_move hs with
    | quiet hd _ _ => left; rw [hd]
    | opened fd _ hd _ _ => left; rw [hd]
    | failed t kthread e hd _ _ =>
      left; simpa [hd] using createChannelLocked_spares kthread hmem
    | created t kthread fd j hd _ _ =>
      left; simpa [hd] using createChannelLocked_spares kthread hmem
    | destroyed fd j hfd hd _ _ =>
      by_cases hij : i = j
      · subst hij; exact .inr ⟨fd, rfl, hfd⟩
      · left; rw [hd]; exact channelDestroy_spares s.dev hij
    | closed fd _ hd _ _ => left; rw [hd]

/-- Two threads create a channel on file 0, which now has forgotten channel 0. -/
def racedCreates : List (TableAct (Fin 2) (Fin 1)) :=
  [.openFile 0, .createCall 0 0, .createCall 1 0, .createLocked 0 (.ok ()),
   .createLocked 1 (.ok ())]

theorem channels_apart_raced : ∃ s : TableSt (Fin 2) (Fin 1),
    (s.owner 0 = some 1 ∧ (s.dev.channels 0).active = true) ∧ s.ChannelsApart := by
  obtain ⟨s, hr, hs⟩ : ∃ s : TableSt (Fin 2) (Fin 1), (tableSys (Fin 2) (Fin 1)).Reachable s ∧
      (s.owner 0 = some 1 ∧ (s.dev.channels 0).active = true) :=
    Transition.Sys.exists_of_exec racedCreates (by decide)
  exact ⟨s, hs, channels_apart hr⟩

/-! ## `dmaplane_exit` -/

theorem DevInv.destroy {dev : DmaplaneDev} (h : DevInv dev) (i : Fin maxChannels) :
    DevInv (channelDestroy dev i) ∧
      (channelDestroy dev i).activeSlots = dev.activeSlots.erase i := by
  by_cases hi : i ∈ dev.activeSlots
  · obtain ⟨chan, hact, hd⟩ := channelDestroy_eq hi (h.refs i hi)
    rw [hd]
    exact ⟨h.released hi hact, activeSlots_released _ hact⟩
  · rw [channelDestroy_inactive hi]
    exact ⟨h, (Finset.erase_eq_of_notMem hi).symm⟩

/-- The loop over the slots `is`: what was active there is stopped, the rest is as before. -/
theorem exitLoop (is : List (Fin maxChannels)) : ∀ {dev : DmaplaneDev}, DevInv dev → dev.Runs →
    let dev' := is.foldl channelDestroy dev
    DevInv dev' ∧ dev'.Runs ∧ dev'.activeSlots = dev.activeSlots \ is.toFinset ∧
      dev'.totalOpens = dev.totalOpens ∧ dev'.totalCloses = dev.totalCloses := by
  induction is with
  | nil => intro dev h hr; exact ⟨h, hr, by simp, rfl, rfl⟩
  | cons i is ih =>
    intro dev h hr
    obtain ⟨hdev, hset⟩ := h.destroy i
    obtain ⟨hdev', hruns', hset', ho', hc'⟩ := ih hdev (channelDestroy_runs hr (h.refs i))
    obtain ⟨ho, hc⟩ := channelDestroy_opens dev i
    refine ⟨hdev', hruns', hset'.trans ?_, ho'.trans ho, hc'.trans hc⟩
    rw [hset, List.toFinset_cons, Finset.erase_sdiff_comm, Finset.sdiff_insert]

/-- What the lifetime summary of `dmaplane_exit` reports, and the slots it leaves. -/
structure DmaplaneDev.ChannelsGone (dev : DmaplaneDev) : Prop where
  inactive : ∀ i, (dev.channels i).active = false
  stopped : ∀ i, (dev.channels i).worker = false
  count : dev.activeChannels = 0
  total : dev.totalChannelsCreated = dev.totalChannelsDestroyed
  files : dev.totalOpens = dev.totalCloses

/-- The module is unloaded when no file is open. -/
theorem channels_unload {s : TableSt Tid Fd} (h : (tableSys Tid Fd).Reachable s)
    (hclosed : ∀ fd, s.files fd = .closed) : s.dev.exitChannels.ChannelsGone := by
  obtain ⟨hdev, -, hruns, F, hF, hfiles⟩ := runInv h
  obtain ⟨hdev', hruns', hset, ho, hc⟩ := exitLoop (List.finRange maxChannels) hdev hruns
  have hall : (List.finRange maxChannels).toFinset = Finset.univ := by
    ext i; simp
  rw [hall, Finset.sdiff_eq_empty_iff_subset.mpr (Finset.subset_univ _)] at hset
  have hinactive : ∀ i, (s.dev.exitChannels.channels i).active = false := by
    intro i
    have hi : i ∉ s.dev.exitChannels.activeSlots := by
      rw [DmaplaneDev.exitChannels, hset]; exact Finset.notMem_empty i
    simpa using hi
  have hopen : F = ∅ := by
    rw [← Finset.coe_eq_empty, hF]
    ext fd; simp [TableSt.openFiles, hclosed fd]
  refine ⟨hinactive, fun i => (hruns' i).trans (hinactive i), ?_, ?_, ?_⟩
  · have hcount := hdev'.count
    rw [hset] at hcount
    exact hcount
  · have htotal := hdev'.total
    rw [hset] at htotal
    exact sub_eq_zero.mp htotal
  · rw [hopen] at hfiles
    have heq : s.dev.totalOpens = s.dev.totalCloses := sub_eq_zero.mp hfiles
    exact ho.trans (heq.trans hc.symm)

/-- The channel that `twoCreates` leaked was still there. -/
theorem channels_unload_leaked : ∃ s : TableSt (Fin 2) (Fin 1),
    (s.dev.channels 0).active = true ∧ s.dev.exitChannels.ChannelsGone := by
  obtain ⟨s, hr, hact, hclosed⟩ : ∃ s : TableSt (Fin 2) (Fin 1),
      (tableSys (Fin 2) (Fin 1)).Reachable s ∧ (s.dev.channels 0).active = true ∧
        ∀ fd, s.files fd = .closed :=
    Transition.Sys.exists_of_exec twoCreates (by decide)
  exact ⟨s, hact, channels_unload hr hclosed⟩

end Dmaplane
