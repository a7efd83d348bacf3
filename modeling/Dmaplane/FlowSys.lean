import Dmaplane.Lib.System
import Dmaplane.Flow
import Mathlib.Logic.Function.Basic
import Mathlib.Data.Fintype.Basic

/-!
# Dmaplane.FlowSys

Any number of threads in CONFIGURE_FLOW and SUSTAINED_STREAM at once: the former takes no lock,
the latter the read side of `rdma_sem`. They share the flow record, QP-A and CQ-A.

A step is one access to the shared state. The clock is the choice of the next label: a run goes on
until its `deadline`. What a call validates before it touches the flow and the errors of that part
are left out, as are the receives of QP-B.
-/

namespace Dmaplane

/-- Where a thread is. `q` is the queue depth of its run, `o` the local `outstanding`. -/
inductive FlowPc where
  | idle
  /-- Storing a configuration; then the run of depth `q` goes on, if there is one. -/
  | writing (ws : List FlowWrite) (k : Option Nat)
  /-- `if (!dev->flow.configured)`. -/
  | start (q : Nat)
  | alloc (q : Nat)
  /-- `atomic_set(&dev->flow.credits, dev->flow.max_credits)`: the read, then the store. -/
  | resetRead (q : Nat)
  | resetCredits (q m : Nat)
  | resetPaused (q : Nat)
  | flush (q : Nat)
  | prePost (q : Nat)
  /-- `while (!ktime_after(ktime_get(), deadline))`. -/
  | loop (q o : Nat)
  /-- In `can_send`, after its first reads. -/
  | decide (q o : Nat) (c : Option Int)
  | checked (q o : Nat) (b : Bool)
  | posted (q o : Nat)
  | poll (q o : Nat)
  | credit (q o : Nat)
  | replenish (q o : Nat)
  /-- The loop after `done:`. -/
  | drain (o : Nat)
  | drainCredit (o : Nat)
  | finalFlush
  deriving DecidableEq, Repr

/-- A completion on CQ-A; `stale` if it was there when the credits were last set. -/
structure SendCqe where
  ok : Bool
  stale : Bool
  deriving DecidableEq, Repr

structure FlowSt (Tid : Type) where
  flow : FlowCtl
  /-- Sends posted on QP-A and not completed. -/
  sq : Nat
  /-- CQ-A. -/
  cq : List SendCqe
  pc : Tid → FlowPc

inductive FlowAct (Tid : Type) where
  | configureCall (t : Tid) (p : FlowParams)
  | streamCall (t : Tid) (q : Nat)
  | step (t : Tid)
  | deadline (t : Tid)
  /-- `kvcalloc`, a post or a poll fails. -/
  | fail (t : Tid)
  /-- The oldest send of QP-A completes. -/
  | complete (ok : Bool)
  deriving DecidableEq, Repr

/-- `outstanding--` on an `unsigned int`. -/
def decU32 (o : Nat) : Nat := (o + (2 ^ 32 - 1)) % 2 ^ 32

variable {Tid : Type} [DecidableEq Tid]

def FlowSt.goto (s : FlowSt Tid) (t : Tid) (pc : FlowPc) : FlowSt Tid :=
  { s with pc := Function.update s.pc t pc }

/-- A store to the record. Setting the credits makes the completions on CQ-A stale. -/
def FlowSt.store (s : FlowSt Tid) (w : FlowWrite) : FlowSt Tid :=
  { s with
    flow := s.flow.write w
    cq := match w with
      | .credits _ => s.cq.map fun x => { x with stale := true }
      | _ => s.cq }

/-- The next step of thread `t` at `pc`. -/
def flowThread (s : FlowSt Tid) (t : Tid) : FlowPc → Option (FlowSt Tid)
  | .idle => none
  | .writing (w :: ws) k => some ((s.store w).goto t (.writing ws k))
  | .writing [] none => some (s.goto t .idle)
  | .writing [] (some q) => some (s.goto t (.alloc q))
  | .start q =>
    some (s.goto t
      (if s.flow.configured then .alloc q else .writing (autoConfigureWrites q) (some q)))
  | .alloc q => some (s.goto t (.resetRead q))
  | .resetRead q => some (s.goto t (.resetCredits q s.flow.maxCredits))
  | .resetCredits q m => some ((s.store (.credits m)).goto t (.resetPaused q))
  | .resetPaused q => some ((s.store (.paused false)).goto t (.flush q))
  | .flush q =>
    match s.cq with
    | [] => some (s.goto t (.prePost q))
    | _ :: rest => some { s with cq := rest }
  | .prePost q => some (s.goto t (.loop q 0))
  | .loop q o => some (s.goto t (.decide q o (flowRead s.flow)))
  | .decide q o c =>
    some { s.goto t (.checked q o (flowDecide s.flow c).1) with flow := (flowDecide s.flow c).2 }
  | .checked q o b =>
    if b ∧ o < q then some { s.goto t (.posted q o) with sq := s.sq + 1 }
    else some (s.goto t (.poll q o))
  | .posted q o => some { s.goto t (.poll q (o + 1)) with flow := flowOnSend s.flow }
  | .poll q o =>
    match s.cq with
    | [] => some (s.goto t (.loop q o))
    | x :: rest =>
      some { s.goto t (if x.ok then .credit q (decU32 o) else .drain o) with cq := rest }
  | .credit q o => some { s.goto t (.replenish q o) with flow := flowOnCompletion s.flow }
  | .replenish q o => some (s.goto t (.loop q o))
  | .drain o =>
    if o = 0 then some (s.goto t .finalFlush)
    else
      match s.cq with
      | [] => none
      | x :: rest =>
        some { s.goto t (if x.ok then .drainCredit (decU32 o) else .drain (decU32 o)) with
          cq := rest }
  | .drainCredit o => some { s.goto t (.drain o) with flow := flowOnCompletion s.flow }
  | .finalFlush =>
    match s.cq with
    | [] => some (s.goto t .idle)
    | _ :: rest => some { s with cq := rest }

def flowStep (s : FlowSt Tid) : FlowAct Tid → Option (FlowSt Tid)
  | .configureCall t p =>
    if s.pc t = .idle then
      match flowCheck p with
      | .ok () => some (s.goto t (.writing (configureWrites p) none))
      | .error _ => some s
    else none
  | .streamCall t q =>
    if s.pc t = .idle then
      if q = 0 ∨ q > 64 then some s else some (s.goto t (.start q))
    else none
  | .step t => flowThread s t (s.pc t)
  | .deadline t =>
    match s.pc t with
    | .loop _ o => some (s.goto t (.drain o))
    | .drain _ => some (s.goto t .finalFlush)
    | _ => none
  | .fail t =>
    match s.pc t with
    | .alloc _ | .prePost _ => some (s.goto t .idle)
    | .checked q o true => if o < q then some (s.goto t (.drain o)) else none
    | .poll _ o | .replenish _ o => some (s.goto t (.drain o))
    | _ => none
  | .complete ok =>
    if 0 < s.sq then some { s with sq := s.sq - 1, cq := s.cq ++ [⟨ok, false⟩] } else none

def flowSys (Tid : Type) [DecidableEq Tid] : Transition.Sys (FlowSt Tid) (FlowAct Tid) where
  init := { flow := flowInit, sq := 0, cq := [], pc := fun _ => .idle }
  step := flowStep

/-! ## The credit sections -/

/-- The completions on CQ-A whose credit is still out. -/
def freshCqes (cq : List SendCqe) : Nat := cq.countP fun x => !x.stale

/-- The stores of a configuration, the reset of the credits, the check of a credit up to its
deduction, and a polled completion up to the return of its credit. -/
def FlowPc.inSection : FlowPc → Bool
  | .writing _ _ | .resetCredits _ _ | .resetPaused _ | .decide _ _ _ | .checked _ _ true
  | .posted _ _ | .credit _ _ | .drainCredit _ => true
  | _ => false

/-- No other thread is inside a credit section. -/
def Alone (s : FlowSt Tid) (t : Tid) : Prop := ∀ u, u ≠ t → (s.pc u).inSection = false

/-- A configuration to window `m` may start: alone, no send uncompleted, and `m` is not below the
credits available and those of the completions to be polled. -/
def MayConfigure (s : FlowSt Tid) (t : Tid) (m : Nat) : Prop :=
  Alone s t ∧ s.sq = 0 ∧ s.flow.credits + freshCqes s.cq ≤ m

/-- A run may take the next completion: alone, and it is none from before the last reset. -/
def MayCredit (s : FlowSt Tid) (t : Tid) : Prop :=
  ∀ x ∈ s.cq.head?, x.ok = true → Alone s t ∧ x.stale = false

/-- Credit sections do not overlap, and configurations and resets find QP-A idle. -/
def SectionsApart (s : FlowSt Tid) : FlowAct Tid → Prop
  | .configureCall t p => flowCheck p = .ok () → MayConfigure s t p.maxCredits
  | .step t =>
    match s.pc t with
    | .start q => s.flow.configured = false → MayConfigure s t (autoMaxCredits q)
    | .resetRead _ => Alone s t ∧ s.sq = 0
    | .loop _ _ => Alone s t
    | .poll _ _ => MayCredit s t
    | .drain o => o ≠ 0 → MayCredit s t
    | _ => True
  | _ => True

end Dmaplane
