import Dmaplane.Lib.System
import Dmaplane.Lib.Owner
import Dmaplane.Channel
import Mathlib.Data.Fintype.Card

/-!
# Dmaplane.ChannelTable

The table of `DMAPLANE_MAX_CHANNELS` channels and the file contexts that own them: open,
CREATE_CHANNEL and release (`driver/main.c`), by any number of threads on any number of files.

CREATE_CHANNEL tests `ctx->chan` before it takes `dev_mutex`; the test, the section under the
mutex and the copy to user space are three steps. The kernel holds a reference on the file during
an ioctl (`calls`), so `dmaplane_release` runs only when no call on the file is in progress.
-/

namespace Dmaplane

/-- `DMAPLANE_MAX_CHANNELS`. -/
abbrev maxChannels : Nat := 4

structure DmaplaneFileCtx where
  chan : Option (Fin maxChannels)
  deriving DecidableEq

structure DmaplaneDev where
  channels : Fin maxChannels → DmaplaneChannel
  activeChannels : BitVec 32
  totalOpens : BitVec 64
  totalCloses : BitVec 64
  totalChannelsCreated : BitVec 64
  totalChannelsDestroyed : BitVec 64

def DmaplaneDev.setChannel (dev : DmaplaneDev) (i : Fin maxChannels) (chan : DmaplaneChannel) :
    DmaplaneDev :=
  { dev with channels := Function.update dev.channels i chan }

/-- The scan for the first slot with `!active`. -/
def DmaplaneDev.freeChannel (dev : DmaplaneDev) : Option (Fin maxChannels) :=
  (List.finRange maxChannels).find? fun i => !(dev.channels i).active

theorem active_freeChannel {dev : DmaplaneDev} {i : Fin maxChannels}
    (h : dev.freeChannel = some i) : (dev.channels i).active = false := by
  simpa [DmaplaneDev.freeChannel] using List.find?_some h

/-- `dmaplane_ioctl_create_channel` under `dev_mutex`; `kthread` is the result of
`kthread_create`. The result is the slot stored in `ctx->chan`. -/
def createChannelLocked (dev : DmaplaneDev) (kthread : Except Errno Unit) :
    Except Errno (Fin maxChannels) × DmaplaneDev :=
  match dev.freeChannel with
  | none => (.error .ENOSPC, dev)
  | some i =>
    let chan := { channelInit (BitVec.ofNat 32 i) with active := true }
    -- `kref_get`: the worker's reference
    let chan := { chan with refcount := chan.refcount + 1 }
    match kthread with
    | .error e => (.error e, dev.setChannel i { chan with active := false })
    | .ok () =>
      (.ok i,
        { dev.setChannel i { chan with worker := true } with
          activeChannels := dev.activeChannels + 1
          totalChannelsCreated := dev.totalChannelsCreated + 1 })

/-- `dmaplane_channel_release`, the kref callback. -/
def channelRelease (dev : DmaplaneDev) (i : Fin maxChannels) : DmaplaneDev :=
  { dev.setChannel i { dev.channels i with active := false } with
    activeChannels := dev.activeChannels - 1
    totalChannelsDestroyed := dev.totalChannelsDestroyed + 1 }

/-- `kref_put(&chan->refcount, dmaplane_channel_release)`. -/
def krefPut (dev : DmaplaneDev) (i : Fin maxChannels) : DmaplaneDev :=
  let chan := dev.channels i
  let dev := dev.setChannel i { chan with refcount := chan.refcount - 1 }
  if chan.refcount - 1 = 0 then channelRelease dev i else dev

/-- `dmaplane_channel_destroy`: stop the worker, then drop its reference and the file's. -/
def channelDestroy (dev : DmaplaneDev) (i : Fin maxChannels) : DmaplaneDev :=
  if !(dev.channels i).active then dev
  else
    let dev := dev.setChannel i { dev.channels i with shutdown := true, worker := false }
    krefPut (krefPut dev i) i

/-! ## Files and threads -/

/-- Where a thread is inside CREATE_CHANNEL. -/
inductive CreatePc (Fd : Type) where
  | idle
  /-- `ctx->chan` was NULL; `dev_mutex` not yet taken. -/
  | checked (fd : Fd)
  /-- The mutex is dropped; `copy_to_user` and the return are left. -/
  | copyToUser (fd : Fd)
  deriving DecidableEq

/-- An open file with the threads inside an ioctl on it, and the two halves of
`dmaplane_release`. -/
inductive FileSt (Tid : Type) where
  | closed
  | opened (ctx : DmaplaneFileCtx) (calls : Finset Tid)
  | releasing (ctx : DmaplaneFileCtx)
  | destroyed
  deriving DecidableEq

def FileSt.chan {Tid : Type} : FileSt Tid → Option (Fin maxChannels)
  | .opened ctx _ => ctx.chan
  | .releasing ctx => ctx.chan
  | .closed | .destroyed => none

structure TableSt (Tid Fd : Type) where
  dev : DmaplaneDev
  files : Fd → FileSt Tid
  user : Tid → CreatePc Fd

inductive TableAct (Tid Fd : Type) where
  | openFile (fd : Fd)
  | createCall (t : Tid) (fd : Fd)
  | createLocked (t : Tid) (kthread : Except Errno Unit)
  | createCopy (t : Tid) (copyOk : Bool)
  | release (fd : Fd)
  | releaseLocked (fd : Fd)
  | releaseFree (fd : Fd)

variable {Tid Fd : Type} [DecidableEq Tid] [DecidableEq Fd]

def TableSt.setFile (s : TableSt Tid Fd) (fd : Fd) (f : FileSt Tid) : TableSt Tid Fd :=
  { s with files := Function.update s.files fd f }

def TableSt.goto (s : TableSt Tid Fd) (t : Tid) (pc : CreatePc Fd) : TableSt Tid Fd :=
  { s with user := Function.update s.user t pc }

def tableStep (s : TableSt Tid Fd) : TableAct Tid Fd → Option (TableSt Tid Fd)
  | .openFile fd =>
    -- a failed open (no CAP_SYS_ADMIN, no memory) leaves no file behind
    match s.files fd with
    | .closed =>
      some { s.setFile fd (.opened ⟨none⟩ ∅) with
        dev := { s.dev with totalOpens := s.dev.totalOpens + 1 } }
    | _ => none
  | .createCall t fd =>
    match s.user t, s.files fd with
    | .idle, .opened ctx calls =>
      match ctx.chan with
      | some _ => some s   -- `EBUSY`
      | none => some ((s.setFile fd (.opened ctx (insert t calls))).goto t (.checked fd))
    | _, _ => none
  | .createLocked t kthread =>
    match s.user t with
    | .checked fd =>
      match s.files fd with
      | .opened ctx calls =>
        match createChannelLocked s.dev kthread with
        | (.ok i, dev) =>
          some { (s.setFile fd (.opened { ctx with chan := some i } calls)).goto t
            (.copyToUser fd) with dev := dev }
        | (.error _, dev) =>
          some { (s.setFile fd (.opened ctx (calls.erase t))).goto t .idle with dev := dev }
      | _ => none
    | _ => none
  | .createCopy t _ =>
    -- 0 or `EFAULT`: the channel stays with the file either way
    match s.user t with
    | .copyToUser fd =>
      match s.files fd with
      | .opened ctx calls => some ((s.setFile fd (.opened ctx (calls.erase t))).goto t .idle)
      | _ => none
    | _ => none
  | .release fd =>
    match s.files fd with
    | .opened ctx calls => if calls = ∅ then some (s.setFile fd (.releasing ctx)) else none
    | _ => none
  | .releaseLocked fd =>
    match s.files fd with
    | .releasing ctx =>
      match ctx.chan with
      | some i => some { s.setFile fd .destroyed with dev := channelDestroy s.dev i }
      | none => some (s.setFile fd .destroyed)
    | _ => none
  | .releaseFree fd =>
    match s.files fd with
    | .destroyed =>
      some { s.setFile fd .closed with
        dev := { s.dev with totalCloses := s.dev.totalCloses + 1 } }
    | _ => none

/-- The device as `kzalloc` leaves it. -/
def devInit : DmaplaneDev :=
  { channels := fun _ => { channelInit 0 with refcount := 0 }
    activeChannels := 0, totalOpens := 0, totalCloses := 0
    totalChannelsCreated := 0, totalChannelsDestroyed := 0 }

def tableSys (Tid Fd : Type) [DecidableEq Tid] [DecidableEq Fd] :
    Transition.Sys (TableSt Tid Fd) (TableAct Tid Fd) where
  init := { dev := devInit, files := fun _ => .closed, user := fun _ => .idle }
  step := tableStep

end Dmaplane
