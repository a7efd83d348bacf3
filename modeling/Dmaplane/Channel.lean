import Dmaplane.Lib.Numerals
import Dmaplane.Lib.Ring

/-!
# Dmaplane.Channel

The channel of `driver/main.c`: two rings, the locked sections of SUBMIT and COMPLETE, and the
worker kthread as a program-counter machine.

A section under a ring spinlock is one step of its thread. What the source does outside the lock
is a step of its own: the worker's unlocked `dmaplane_ring_empty` test, its stop tests, and the
counter updates that follow a locked section.
-/

namespace Dmaplane

open WrapRing

inductive Errno where
  | EPERM | ENOENT | EIO | EAGAIN | ENOMEM | EFAULT | EBUSY | ENODEV | EINVAL | ENOSPC | ENOTTY
  | ENOTCONN | ETIMEDOUT
  deriving DecidableEq, Repr

/-- `DMAPLANE_RING_SIZE`. -/
abbrev ringSize : Nat := 1024

structure RingEntry where
  payload : BitVec 64
  flags : BitVec 32
  pad : BitVec 32
  deriving DecidableEq, Repr

abbrev DmaplaneRing := Ring ringSize 32 RingEntry

def ringInit : DmaplaneRing := { entries := fun _ => ⟨0, 0, 0⟩, head := 0, tail := 0 }

def ringFull (ring : DmaplaneRing) : Bool := ring.head - ring.tail == BitVec.ofNat 32 ringSize

def ringEmpty (ring : DmaplaneRing) : Bool := ring.head == ring.tail

def ringCount (ring : DmaplaneRing) : BitVec 32 := ring.head - ring.tail

structure ChannelStats where
  totalSubmissions : BitVec 64
  totalCompletions : BitVec 64
  ringHighWatermark : BitVec 32
  droppedCount : BitVec 32
  deriving DecidableEq, Repr

structure DmaplaneChannel where
  refcount : BitVec 32
  subRing : DmaplaneRing
  compRing : DmaplaneRing
  /-- `chan->worker != NULL`. -/
  worker : Bool
  id : BitVec 32
  inFlight : BitVec 32
  shutdown : Bool
  active : Bool
  stats : ChannelStats

/-- `dmaplane_channel_init`: every field is reset; the slot is not yet active. -/
def channelInit (id : BitVec 32) : DmaplaneChannel :=
  { refcount := 1, subRing := ringInit, compRing := ringInit, worker := false, id := id,
    inFlight := 0, shutdown := false, active := false,
    stats := { totalSubmissions := 0, totalCompletions := 0, ringHighWatermark := 0,
               droppedCount := 0 } }

/-! ## SUBMIT and COMPLETE -/

/-- `dmaplane_ioctl_submit` under `sub_ring.lock`: the push and the high watermark. -/
def ioctlSubmitLocked (chan : DmaplaneChannel) (entry : RingEntry) :
    Except Errno DmaplaneChannel :=
  if ringFull chan.subRing then .error .ENOSPC
  else
    let ring := chan.subRing.push entry
    let occupancy := ringCount ring
    let oldWm := chan.stats.ringHighWatermark
    .ok { chan with
      subRing := ring
      stats := { chan.stats with
        ringHighWatermark := if oldWm < occupancy then occupancy else oldWm } }

/-- `atomic_inc(&chan->in_flight)` after the lock is dropped. -/
def submitInFlight (chan : DmaplaneChannel) : DmaplaneChannel :=
  { chan with inFlight := chan.inFlight + 1 }

/-- `atomic64_inc(&chan->stats.total_submissions)`. -/
def submitTotal (chan : DmaplaneChannel) : DmaplaneChannel :=
  { chan with stats := { chan.stats with totalSubmissions := chan.stats.totalSubmissions + 1 } }

/-- `dmaplane_ioctl_complete` under `comp_ring.lock`: the oldest entry is read and the tail
advanced, or `EAGAIN`. -/
def ioctlCompleteLocked (chan : DmaplaneChannel) : Except Errno (RingEntry × DmaplaneChannel) :=
  if ringEmpty chan.compRing then .error .EAGAIN
  else .ok (chan.compRing.front, { chan with compRing := chan.compRing.pop })

/-! ## The worker -/

/-- Where `dmaplane_worker_fn` is. The argument is the local `entry`. -/
inductive WorkerPc where
  /-- `while (!kthread_should_stop())`. -/
  | outerCheck
  /-- In `wait_event_interruptible`. -/
  | waitEvent
  /-- `if (kthread_should_stop() && dmaplane_ring_empty(sub)) break`. -/
  | stopCheck
  /-- `while (!dmaplane_ring_empty(sub))`, without the lock. -/
  | drainCheck
  /-- The section under `sub_ring.lock`. -/
  | pop
  /-- `entry.payload += 1`. -/
  | process (entry : RingEntry)
  /-- The section under `comp_ring.lock`. -/
  | push (entry : RingEntry)
  /-- The completion ring was full: `if (kthread_should_stop()) goto done`. -/
  | retry (entry : RingEntry)
  | decInFlight
  | incCompletions
  | done
  deriving DecidableEq, Repr

/-- `entry.payload += 1`. -/
def processEntry (entry : RingEntry) : RingEntry := { entry with payload := entry.payload + 1 }

/-- One step of `dmaplane_worker_fn`; `stop` is what `kthread_should_stop()` reads. `none` when
the worker sleeps in `wait_event_interruptible` or has returned. The `cond_resched` calls and the
`batch` counter that paces them change no state. -/
def workerFn (stop : Bool) (chan : DmaplaneChannel) :
    WorkerPc → Option (WorkerPc × DmaplaneChannel)
  | .outerCheck => some (if stop then .done else .waitEvent, chan)
  | .waitEvent => if !ringEmpty chan.subRing || stop then some (.stopCheck, chan) else none
  | .stopCheck => some (if stop && ringEmpty chan.subRing then .done else .drainCheck, chan)
  | .drainCheck => some (if ringEmpty chan.subRing then .outerCheck else .pop, chan)
  | .pop =>
    -- the authoritative check: another reader of the ring may have emptied it meanwhile
    if ringEmpty chan.subRing then some (.outerCheck, chan)
    else some (.process chan.subRing.front, { chan with subRing := chan.subRing.pop })
  | .process entry => some (.push (processEntry entry), chan)
  | .push entry =>
    if ringFull chan.compRing then some (.retry entry, chan)
    else some (.decInFlight, { chan with compRing := chan.compRing.push entry })
  | .retry entry => some (if stop then .done else .push entry, chan)
  | .decInFlight => some (.incCompletions, { chan with inFlight := chan.inFlight - 1 })
  | .incCompletions =>
    some (.drainCheck,
      { chan with stats := { chan.stats with totalCompletions := chan.stats.totalCompletions + 1 } })
  | .done => none

/-! ## The rings as queues -/

theorem ringSize_dvd : ringSize ∣ 2 ^ 32 := ⟨2 ^ 22, by decide⟩

theorem ringFull_iff {ring : DmaplaneRing} :
    ringFull ring = true ↔ ring.contents.length = ringSize := by
  rw [ringFull, beq_iff_eq, Ring.length_contents]
  constructor
  · intro h; rw [Ring.count, h]; rfl
  · intro h; exact BitVec.eq_of_toNat_eq h

theorem ringCount_toNat (ring : DmaplaneRing) : (ringCount ring).toNat = ring.contents.length :=
  (Ring.length_contents ring).symm

theorem contents_ringInit : ringInit.contents = [] := by
  rw [Ring.contents_eq_nil]; rfl

theorem contents_push {ring : DmaplaneRing} (h : ring.contents.length ≤ ringSize)
    (hf : ¬ ringFull ring = true) (entry : RingEntry) :
    (ring.push entry).contents = ring.contents ++ [entry] := by
  rw [ringFull_iff] at hf
  have hlt : ring.count.toNat < ringSize := by rw [← Ring.length_contents]; omega
  exact Ring.contents_push ringSize_dvd (by decide) hlt entry

theorem contents_pop {ring : DmaplaneRing} (h : ¬ ringEmpty ring = true) :
    ring.contents = ring.front :: ring.pop.contents := by
  apply Ring.contents_pop
  intro he; exact h (by rw [ringEmpty, he]; exact beq_self_eq_true _)

end Dmaplane
