import Dmaplane.ChannelTable
import Dmaplane.Histogram

/-!
# Dmaplane.IoctlAtomic

CREATE_CHANNEL, SUBMIT, COMPLETE and GET_HISTOGRAM from entry to return, with every exit, on one
open file: which failing calls leave the state as it was.

The sections under the locks are those of `Channel` and `ChannelTable`. A call takes from outside
what `copy_from_user` delivers (`none` when it faults), whether `copy_to_user` succeeds and what
`kthread_create` returns.
-/

namespace Dmaplane

/-- What the four handlers read and write: the device, `filp->private_data` and the histogram. -/
structure IoctlSt where
  dev : DmaplaneDev
  ctx : DmaplaneFileCtx
  hist : Histogram

def IoctlSt.setChannel (s : IoctlSt) (i : Fin maxChannels) (chan : DmaplaneChannel) : IoctlSt :=
  { s with dev := s.dev.setChannel i chan }

structure HistParams where
  buckets : Fin histBuckets → BitVec 64
  summary : HistSummary
  reset : BitVec 32
  pad : BitVec 32
  deriving DecidableEq

inductive IoctlCall where
  | createChannel (kthread : Except Errno Unit) (copyTo : Bool)
  | submit (copyFrom : Option RingEntry)
  | complete (copyTo : Bool)
  | getHistogram (copyFrom : Option HistParams) (copyTo : Bool)

/-- What a successful call writes to user space. -/
inductive IoctlOut where
  | channelId (id : BitVec 32)
  | none
  | entry (entry : RingEntry)
  | hist (hp : HistParams)
  deriving DecidableEq

/-- `dmaplane_ioctl_create_channel`. -/
def ioctlCreateChannel (s : IoctlSt) (kthread : Except Errno Unit) (copyTo : Bool) :
    Except Errno IoctlOut × IoctlSt :=
  if s.ctx.chan.isSome then (.error .EBUSY, s)
  else
    match createChannelLocked s.dev kthread with
    | (.error e, dev) => (.error e, { s with dev := dev })
    | (.ok i, dev) =>
      let s := { s with dev := dev, ctx := { s.ctx with chan := some i } }
      if copyTo then (.ok (.channelId (BitVec.ofNat 32 i)), s) else (.error .EFAULT, s)

/-- `dmaplane_ioctl_submit`. -/
def ioctlSubmit (s : IoctlSt) (copyFrom : Option RingEntry) : Except Errno IoctlOut × IoctlSt :=
  match s.ctx.chan with
  | none => (.error .ENODEV, s)
  | some i =>
    match copyFrom with
    | none => (.error .EFAULT, s)
    | some entry =>
      match ioctlSubmitLocked (s.dev.channels i) entry with
      | .error e => (.error e, s)
      | .ok chan => (.ok .none, s.setChannel i (submitTotal (submitInFlight chan)))

/-- `dmaplane_ioctl_complete`. -/
def ioctlComplete (s : IoctlSt) (copyTo : Bool) : Except Errno IoctlOut × IoctlSt :=
  match s.ctx.chan with
  | none => (.error .ENODEV, s)
  | some i =>
    match ioctlCompleteLocked (s.dev.channels i) with
    | .error e => (.error e, s)
    | .ok (entry, chan) =>
      let s := s.setChannel i chan
      if copyTo then (.ok (.entry entry), s) else (.error .EFAULT, s)

/-- `dmaplane_ioctl_get_histogram`. -/
def ioctlGetHistogram (s : IoctlSt) (copyFrom : Option HistParams) (copyTo : Bool) :
    Except Errno IoctlOut × IoctlSt :=
  match copyFrom with
  | none => (.error .EFAULT, s)
  | some hp =>
    let hp := { hp with summary := histogramSummarize s.hist, buckets := s.hist.buckets }
    let s := if hp.reset ≠ 0 then { s with hist := histogramReset s.hist } else s
    if copyTo then (.ok (.hist hp), s) else (.error .EFAULT, s)

/-- `dmaplane_ioctl` for the four commands. -/
def ioctlDispatch (s : IoctlSt) : IoctlCall → Except Errno IoctlOut × IoctlSt
  | .createChannel kthread copyTo => ioctlCreateChannel s kthread copyTo
  | .submit copyFrom => ioctlSubmit s copyFrom
  | .complete copyTo => ioctlComplete s copyTo
  | .getHistogram copyFrom copyTo => ioctlGetHistogram s copyFrom copyTo

/-! ## What can be observed -/

/-- A slot is in use if it is active or the file owns it; `dmaplane_channel_init` resets every
field of a slot before its next use, so the rest of its memory means nothing. -/
def IoctlSt.InUse (s : IoctlSt) (i : Fin maxChannels) : Prop :=
  (s.dev.channels i).active = true ∨ s.ctx.chan = some i

/-- Ownership, slot table with rings and statistics of each slot in use, device counters and
histogram are the same in both states. -/
structure IoctlSt.Same (s s' : IoctlSt) : Prop where
  ctx : s'.ctx = s.ctx
  inUse : ∀ i, s'.InUse i ↔ s.InUse i
  channels : ∀ i, s.InUse i → s'.dev.channels i = s.dev.channels i
  counters : s'.dev.activeChannels = s.dev.activeChannels ∧ s'.dev.totalOpens = s.dev.totalOpens ∧
    s'.dev.totalCloses = s.dev.totalCloses ∧
    s'.dev.totalChannelsCreated = s.dev.totalChannelsCreated ∧
    s'.dev.totalChannelsDestroyed = s.dev.totalChannelsDestroyed
  hist : s'.hist = s.hist

theorem IoctlSt.Same.refl (s : IoctlSt) : s.Same s :=
  ⟨rfl, fun _ => Iff.rfl, fun _ _ => rfl, ⟨rfl, rfl, rfl, rfl, rfl⟩, rfl⟩

/-- The call reaches its `copy_to_user` with the state already changed, and the copy faults. -/
def IoctlCall.FaultsLate (s : IoctlSt) : IoctlCall → Prop
  | .createChannel kthread copyTo =>
    copyTo = false ∧ s.ctx.chan = none ∧ s.dev.freeChannel ≠ none ∧ kthread.isOk = true
  | .submit _ => False
  | .complete copyTo =>
    copyTo = false ∧ ∃ i, s.ctx.chan = some i ∧ ringEmpty (s.dev.channels i).compRing = false
  | .getHistogram copyFrom copyTo =>
    copyTo = false ∧ (∃ hp ∈ copyFrom, hp.reset ≠ 0) ∧ s.hist ≠ histogramInit

/-- A failing `kthread_create` has reset a slot that nobody uses. -/
theorem same_of_kthread_error {s : IoctlSt} {i : Fin maxChannels} {chan : DmaplaneChannel}
    (hown : s.ctx.chan = none) (hfree : s.dev.freeChannel = some i) (ha : chan.active = false) :
    s.Same { s with dev := s.dev.setChannel i chan } := by
  have hi := active_freeChannel hfree
  refine ⟨rfl, fun j => ?_, fun j hj => ?_, ⟨rfl, rfl, rfl, rfl, rfl⟩, rfl⟩
  · by_cases hji : j = i
    · subst hji; simp [IoctlSt.InUse, DmaplaneDev.setChannel, hown, hi, ha]
    · simp [IoctlSt.InUse, DmaplaneDev.setChannel, hji]
  · have hji : j ≠ i := by
      rintro rfl
      simp [IoctlSt.InUse, hown, hi] at hj
    simp [DmaplaneDev.setChannel, hji]

theorem createChannel_atomic {s : IoctlSt} {kthread : Except Errno Unit} {copyTo : Bool}
    {e : Errno} (h : (ioctlCreateChannel s kthread copyTo).1 = .error e) :
    s.Same (ioctlCreateChannel s kthread copyTo).2 ↔
      ¬ (IoctlCall.createChannel kthread copyTo).FaultsLate s := by
  cases hown : s.ctx.chan with
  | some i => simp [ioctlCreateChannel, IoctlCall.FaultsLate, hown, IoctlSt.Same.refl]
  | none =>
    cases hfree : s.dev.freeChannel with
    | none =>
      simp [ioctlCreateChannel, createChannelLocked, IoctlCall.FaultsLate, hown, hfree,
        IoctlSt.Same.refl]
    | some i =>
      cases kthread with
      | error e' =>
        simp only [ioctlCreateChannel, createChannelLocked, IoctlCall.FaultsLate, hown, hfree]
        simpa [Except.isOk, Except.toBool] using same_of_kthread_error hown hfree rfl
      | ok u =>
        cases copyTo with
        | true => simp [ioctlCreateChannel, createChannelLocked, hown, hfree] at h
        | false =>
          have hne : ¬ s.Same (ioctlCreateChannel s (.ok u) false).2 := by
            intro hs
            have hctx := congrArg DmaplaneFileCtx.chan hs.ctx
            simp [ioctlCreateChannel, createChannelLocked, hown, hfree] at hctx
          simp [IoctlCall.FaultsLate, hown, hfree, hne, Except.isOk, Except.toBool]

theorem submit_atomic {s : IoctlSt} {copyFrom : Option RingEntry} {e : Errno}
    (h : (ioctlSubmit s copyFrom).1 = .error e) : (ioctlSubmit s copyFrom).2 = s := by
  unfold ioctlSubmit at h ⊢
  split at h
  · rfl
  · split at h
    · rfl
    · split at h
      · rfl
      · cases h

theorem complete_atomic {s : IoctlSt} {copyTo : Bool} {e : Errno}
    (h : (ioctlComplete s copyTo).1 = .error e) :
    s.Same (ioctlComplete s copyTo).2 ↔ ¬ (IoctlCall.complete copyTo).FaultsLate s := by
  cases hown : s.ctx.chan with
  | none => simp [ioctlComplete, IoctlCall.FaultsLate, hown, IoctlSt.Same.refl]
  | some i =>
    cases hempty : ringEmpty (s.dev.channels i).compRing with
    | true =>
      simp [ioctlComplete, ioctlCompleteLocked, IoctlCall.FaultsLate, hown, hempty,
        IoctlSt.Same.refl]
    | false =>
      cases copyTo with
      | true => simp [ioctlComplete, ioctlCompleteLocked, hown, hempty] at h
      | false =>
        have hne : ¬ s.Same (ioctlComplete s false).2 := by
          intro hs
          have htail := congrArg (fun chan => chan.compRing.tail) (hs.channels i (.inr hown))
          simp [ioctlComplete, ioctlCompleteLocked, hown, hempty, IoctlSt.setChannel,
            DmaplaneDev.setChannel, WrapRing.Ring.pop] at htail
        simp [IoctlCall.FaultsLate, hown, hempty, hne]

theorem getHistogram_atomic {s : IoctlSt} {copyFrom : Option HistParams} {copyTo : Bool}
    {e : Errno} (h : (ioctlGetHistogram s copyFrom copyTo).1 = .error e) :
    s.Same (ioctlGetHistogram s copyFrom copyTo).2 ↔
      ¬ (IoctlCall.getHistogram copyFrom copyTo).FaultsLate s := by
  cases copyFrom with
  | none => simp [ioctlGetHistogram, IoctlCall.FaultsLate, IoctlSt.Same.refl]
  | some hp =>
    cases copyTo with
    | true => simp [ioctlGetHistogram] at h
    | false =>
      by_cases hr : hp.reset = 0
      · simp [ioctlGetHistogram, IoctlCall.FaultsLate, hr, IoctlSt.Same.refl]
      · have hs : s.Same (ioctlGetHistogram s (some hp) false).2 ↔ s.hist = histogramInit := by
          simp only [ioctlGetHistogram, hr, ne_eq, not_false_eq_true, if_true]
          constructor
          · intro hs; exact hs.hist.symm
          · intro hi
            have : ({ s with hist := histogramReset s.hist } : IoctlSt) = s := by
              rw [show histogramReset s.hist = s.hist from hi.symm]
            simp [this, IoctlSt.Same.refl]
        have hr' : ¬ hp.reset = 0#32 := hr
        simp [IoctlCall.FaultsLate, hs, hr']

/-- **Failed calls.** A call that returns an error leaves ownership, the slot table, the rings,
the counters and the histogram as they were, except exactly when it fails at its `copy_to_user`
after the change. -/
theorem failed_ioctl_atomic {s : IoctlSt} {c : IoctlCall} {e : Errno}
    (h : (ioctlDispatch s c).1 = .error e) :
    s.Same (ioctlDispatch s c).2 ↔ ¬ c.FaultsLate s := by
  cases c with
  | createChannel kthread copyTo => exact createChannel_atomic h
  | submit copyFrom =>
    have hs : (ioctlDispatch s (.submit copyFrom)).2 = s := submit_atomic h
    simp [hs, IoctlSt.Same.refl, IoctlCall.FaultsLate]
  | complete copyTo => exact complete_atomic h
  | getHistogram copyFrom copyTo => exact getHistogram_atomic h

/-- A file just opened on an idle device. -/
def freshFile : IoctlSt :=
  { dev := { devInit with totalOpens := 1 }, ctx := ⟨none⟩, hist := histogramInit }

theorem failed_ioctl_atomic_again :
    (freshFile.Same (ioctlDispatch freshFile (.createChannel (.error .ENOMEM) true)).2) ∧
      (ioctlDispatch freshFile (.createChannel (.error .ENOMEM) true)).1 = .error .ENOMEM :=
  ⟨(failed_ioctl_atomic (s := freshFile) (c := .createChannel (.error .ENOMEM) true)
      (e := .ENOMEM) (by rfl)).mpr (by simp [IoctlCall.FaultsLate, Except.isOk, Except.toBool]),
    by rfl⟩

/-- CREATE_CHANNEL on a fresh file whose result cannot be copied: the channel stays. -/
theorem create_not_atomic :
    ¬ ∀ (c : IoctlCall) (e : Errno), (ioctlDispatch freshFile c).1 = .error e →
      freshFile.Same (ioctlDispatch freshFile c).2 := by
  intro h
  have hs := h (.createChannel (.ok ()) false) .EFAULT (by rfl)
  exact absurd hs.ctx (by decide)

end Dmaplane
