import Dmaplane.Channel
import Dmaplane.Lib.System
import Mathlib.Data.Fintype.Basic

/-!
# Dmaplane.Completions

The operations that post work requests and then wait for their completions by
`rdma_engine_poll_cq`: WRITE_IMM, REMOTE_SEND, REMOTE_RECV, LOOPBACK_TEST, PINGPONG, GPU_LOOPBACK
and REGISTER_MR with a fast-reg MR. They hold `rdma_sem` for reading, so any number of them run at
once, and the helper gives the caller whichever completion comes first.

* A work request has a number of its own. The verbs layer completes each once and each queue in
  order, at any time; POST_RECV, POLL_RECV and the benchmarks that flush a CQ come in between.
* A call begins after its checks on entry and its MR lookup. `taken` is a record: each completion a
  call took, with the work request it was waiting for.
* `Uncontended`: a call posts to a CQ only while nothing else completes on it.
-/

namespace Dmaplane

inductive Cq where
  | a
  | b
  | peer
  deriving DecidableEq, Repr

/-- The queues that are posted to. -/
inductive WorkQueue where
  | sendA
  | recvB
  | sendPeer
  | recvPeer
  deriving DecidableEq, Repr

instance : Fintype WorkQueue where
  elems := {.sendA, .recvB, .sendPeer, .recvPeer}
  complete := by intro q; cases q <;> simp

/-- The CQ that the queue completes on. -/
def WorkQueue.cq : WorkQueue → Cq
  | sendA => .a
  | recvB => .b
  | sendPeer | recvPeer => .peer

/-- `struct ib_wc`, and the work request that it completes: no caller looks at that. -/
structure Wc where
  wr : Nat
  status : BitVec 32
  byteLen : BitVec 32
  deriving DecidableEq, Repr

/-- `IB_WC_SUCCESS`. -/
def ibWcSuccess : BitVec 32 := 0

inductive CqOp where
  | writeImm (usePeerQp : Bool)
  | remoteSend
  | remoteRecv
  | loopbackTest
  | pingpong (iterations : BitVec 32)
  | gpuLoopback
  /-- `IB_WR_REG_MR`. -/
  | registerMr
  deriving DecidableEq, Repr

namespace CqOp

/-- What an iteration posts, in this order; it polls in the opposite order. -/
def posts : CqOp → List WorkQueue
  | writeImm usePeerQp => [if usePeerQp then .sendPeer else .sendA]
  | remoteSend => [.sendPeer]
  | remoteRecv => [.recvPeer]
  | loopbackTest | pingpong _ | gpuLoopback => [.recvB, .sendA]
  | registerMr => [.sendA]

def iterations : CqOp → Nat
  | pingpong iterations => iterations.toNat
  | _ => 1

/-- The error when a poll times out, or fails with `rc`. -/
def noCompletion (rc : Option Errno) : CqOp → Errno
  | loopbackTest => .ETIMEDOUT
  | pingpong _ => Errno.EIO
  | _ => rc.getD .ETIMEDOUT

/-- The byte count that is reported is the `byte_len` of the last completion. -/
def reportsByteLen : CqOp → Bool
  | remoteRecv | loopbackTest | gpuLoopback => true
  | _ => false

end CqOp

structure CqReport where
  op : CqOp
  ret : Except Errno Unit
  taken : List (Nat × Wc)
  deriving DecidableEq

/-- `params->recv_bytes`, or what `bytes_received` grows by. -/
def CqReport.recvBytes (r : CqReport) : Option (BitVec 32) :=
  if r.op.reportsByteLen then r.taken.getLast?.map (·.2.byteLen) else none

inductive CqPc where
  | idle
  /-- `left` iterations come after this one. -/
  | post (op : CqOp) (left : Nat) (todo : List WorkQueue) (waits : List (WorkQueue × Nat))
      (taken : List (Nat × Wc))
  | poll (op : CqOp) (left : Nat) (waits : List (WorkQueue × Nat)) (taken : List (Nat × Wc))
  | ret (report : CqReport)
  deriving DecidableEq

namespace CqPc

/-- The work requests whose completions the thread still polls for. -/
def waits : CqPc → List (WorkQueue × Nat)
  | post _ _ _ waits _ | poll _ _ waits _ => waits
  | _ => []

def taken : CqPc → List (Nat × Wc)
  | post _ _ _ _ taken | poll _ _ _ taken => taken
  | ret report => report.taken
  | idle => []

def awaits (c : Cq) (pc : CqPc) : Bool := pc.waits.any fun x => x.1.cq == c

/-- After a post. -/
def posted (op : CqOp) (left : Nat) (waits : List (WorkQueue × Nat)) (taken : List (Nat × Wc)) :
    List WorkQueue → CqPc
  | [] => poll op left waits taken
  | q :: todo => post op left (q :: todo) waits taken

/-- After a completion that succeeded. -/
def polled (op : CqOp) (left : Nat) (taken : List (Nat × Wc)) : List (WorkQueue × Nat) → CqPc
  | [] =>
    match left with
    | 0 => ret ⟨op, .ok (), taken⟩
    | left + 1 => post op left op.posts [] taken
  | x :: waits => poll op left (x :: waits) taken

end CqPc

inductive CqAct (Tid : Type) where
  | call (t : Tid) (op : CqOp)
  | post (t : Tid) (res : Except Errno Unit)
  /-- `ib_poll_cq` finds an entry. -/
  | poll (t : Tid)
  /-- The deadline passes, or `ib_poll_cq` fails. -/
  | giveUp (t : Tid) (rc : Option Errno)
  | finish (t : Tid)
  | complete (q : WorkQueue) (status byteLen : BitVec 32)
  | postRecv (usePeerQp : Bool)
  | pollRecv (usePeerQp : Bool)
  /-- `rdma_engine_flush_cq`. -/
  | flush (c : Cq)

structure CqSt (Tid : Type) where
  queues : WorkQueue → List Nat
  cqs : Cq → List Wc
  nextWr : Nat
  pc : Tid → CqPc

variable {Tid : Type}

/-- `ib_post_send`, `ib_post_recv`. -/
def CqSt.push (s : CqSt Tid) (q : WorkQueue) : CqSt Tid :=
  { s with queues := Function.update s.queues q (s.queues q ++ [s.nextWr]), nextWr := s.nextWr + 1 }

def CqSt.setCq (s : CqSt Tid) (c : Cq) (wcs : List Wc) : CqSt Tid :=
  { s with cqs := Function.update s.cqs c wcs }

variable [DecidableEq Tid]

def CqSt.goto (s : CqSt Tid) (t : Tid) (pc : CqPc) : CqSt Tid :=
  { s with pc := Function.update s.pc t pc }

def cqStep (s : CqSt Tid) : CqAct Tid → Option (CqSt Tid)
  | .call t op =>
    match s.pc t with
    | .idle =>
      match op.iterations with
      | 0 => some (s.goto t (.ret ⟨op, .error .EINVAL, []⟩))
      | left + 1 => some (s.goto t (.post op left op.posts [] []))
    | _ => none
  | .post t res =>
    match s.pc t with
    | .post op left (q :: todo) waits taken =>
      match res with
      | .error e => some (s.goto t (.ret ⟨op, .error e, taken⟩))
      | .ok () => some ((s.push q).goto t (.posted op left ((q, s.nextWr) :: waits) taken todo))
    | _ => none
  | .poll t =>
    match s.pc t with
    | .poll op left ((q, wr) :: waits) taken =>
      match s.cqs q.cq with
      | [] => none
      | wc :: wcs =>
        let taken := taken ++ [(wr, wc)]
        some ((s.setCq q.cq wcs).goto t
          (if wc.status = ibWcSuccess then .polled op left taken waits
          else .ret ⟨op, .error Errno.EIO, taken⟩))
    | _ => none
  | .giveUp t rc =>
    match s.pc t with
    | .poll op _ _ taken => some (s.goto t (.ret ⟨op, .error (op.noCompletion rc), taken⟩))
    | _ => none
  | .finish t =>
    match s.pc t with
    | .ret _ => some (s.goto t .idle)
    | _ => none
  | .complete q status byteLen =>
    match s.queues q with
    | [] => none
    | wr :: wrs =>
      some { s.setCq q.cq (s.cqs q.cq ++ [⟨wr, status, byteLen⟩]) with
        queues := Function.update s.queues q wrs }
  | .postRecv usePeerQp => some (s.push (if usePeerQp then .recvPeer else .recvB))
  | .pollRecv usePeerQp =>
    let c := if usePeerQp then Cq.peer else Cq.b
    some (s.setCq c (s.cqs c).tail)
  | .flush c => some (s.setCq c [])

def cqInit (Tid : Type) : CqSt Tid :=
  { queues := fun _ => [], cqs := fun _ => [], nextWr := 0, pc := fun _ => .idle }

def cqSys (Tid : Type) [DecidableEq Tid] : Transition.Sys (CqSt Tid) (CqAct Tid) where
  init := cqInit Tid
  step := cqStep

/-! ## Attribution -/

/-- Completions that succeeded. -/
def AllSucceeded (taken : List (Nat × Wc)) : Prop := ∀ x ∈ taken, x.2.status = ibWcSuccess

/-- The report rests on completions of the call's own work requests, and a successful one on one for
each that the call posted. -/
structure Attributed (r : CqReport) : Prop where
  own : ∀ x ∈ r.taken, x.2.wr = x.1
  bytes : ∀ n, r.recvBytes = some n → ∃ x ∈ r.taken, x.2.wr = x.1 ∧ x.2.byteLen = n
  success : r.ret = .ok () →
    AllSucceeded r.taken ∧ r.taken.length = r.op.posts.length * r.op.iterations

/-- Nothing completes on the CQ, now or later, and nobody waits for it. -/
def CqSt.Clear (s : CqSt Tid) (c : Cq) : Prop :=
  s.cqs c = [] ∧ (∀ q : WorkQueue, q.cq = c → s.queues q = []) ∧ ∀ t, (s.pc t).awaits c = false

/-- A call posts to a CQ that is clear, and POST_RECV to one that nobody waits for. -/
def Uncontended (s : CqSt Tid) : CqAct Tid → Prop
  | .post t _ =>
    match s.pc t with
    | .post _ _ (q :: _) _ _ => s.Clear q.cq
    | _ => True
  | .postRecv usePeerQp =>
    ∀ t, (s.pc t).awaits (WorkQueue.cq (if usePeerQp then .recvPeer else .recvB)) = false
  | _ => True

instance [Fintype Tid] (s : CqSt Tid) (a : CqAct Tid) : Decidable (Uncontended s a) := by
  unfold Uncontended CqSt.Clear
  split
  · split <;> infer_instance
  · infer_instance
  · infer_instance

/-- The call has taken one completion for each work request of the iterations that it finished, and
of this one but for those it waits for. -/
def CqPc.Counted : CqPc → Prop
  | post op left todo waits taken => AllSucceeded taken ∧
      todo.length + waits.length = op.posts.length ∧
      taken.length + op.posts.length * (left + 1) = op.posts.length * op.iterations
  | poll op left waits taken => AllSucceeded taken ∧
      taken.length + waits.length + op.posts.length * left = op.posts.length * op.iterations
  | ret r => r.ret = .ok () →
      AllSucceeded r.taken ∧ r.taken.length = r.op.posts.length * r.op.iterations
  | idle => True

structure CqPc.Recorded (pc : CqPc) : Prop where
  own : ∀ x ∈ pc.taken, x.2.wr = x.1
  counted : pc.Counted

/-- What is on the CQ of a call that waits is the call's own, and its record is right. -/
structure CqInv (s : CqSt Tid) : Prop where
  cqs : ∀ t q wr, (q, wr) ∈ (s.pc t).waits → ∀ wc ∈ s.cqs q.cq, wc.wr = wr
  queues : ∀ t q wr, (q, wr) ∈ (s.pc t).waits → ∀ q' : WorkQueue, q'.cq = q.cq →
    ∀ wr' ∈ s.queues q', wr' = wr
  record : ∀ t, (s.pc t).Recorded

section Inv

variable {s s' : CqSt Tid} {t : Tid} {pc : CqPc}

theorem goto_pc (t : Tid) (pc : CqPc) (u : Tid) :
    (s.goto t pc).pc u = if u = t then pc else s.pc u := Function.update_apply _ _ _ _

omit [DecidableEq Tid] in
/-- A thread that waits for a work request on the CQ awaits the CQ. -/
theorem awaits_of_mem {c : Cq} {q : WorkQueue} {wr : Nat} (h : (q, wr) ∈ pc.waits)
    (hq : q.cq = c) : pc.awaits c = true :=
  List.any_eq_true.mpr ⟨(q, wr), h, beq_iff_eq.mpr hq⟩

omit [DecidableEq Tid] in
/-- Fewer completions and fewer waits. -/
theorem CqInv.shrink (hi : CqInv s) (hcqs : ∀ c, ∀ wc ∈ s'.cqs c, wc ∈ s.cqs c)
    (hqueues : s'.queues = s.queues) (hwaits : ∀ t, ∀ x ∈ (s'.pc t).waits, x ∈ (s.pc t).waits)
    (hrecord : ∀ t, (s'.pc t).Recorded) : CqInv s' := by
  refine ⟨fun t q wr h wc hwc => ?_, fun t q wr h q' hq' wr' hwr' => ?_, hrecord⟩
  · exact hi.cqs t q wr (hwaits t _ h) wc (hcqs _ wc hwc)
  · rw [hqueues] at hwr'
    exact hi.queues t q wr (hwaits t _ h) q' hq' wr' hwr'

/-- A thread moves on, and waits for nothing new. -/
theorem CqInv.goto (hi : CqInv s) (hwaits : ∀ x ∈ pc.waits, x ∈ (s.pc t).waits)
    (hrecord : pc.Recorded) : CqInv (s.goto t pc) := by
  refine hi.shrink (fun _ _ h => h) rfl (fun u x h => ?_) fun u => ?_
  · rw [goto_pc] at h
    split at h
    · rename_i hu; rw [hu]; exact hwaits x h
    · exact h
  · rw [goto_pc]
    split
    · exact hrecord
    · exact hi.record u

omit [DecidableEq Tid] in
/-- The CQ loses completions. -/
theorem CqInv.setCq (hi : CqInv s) (c : Cq) (wcs : List Wc) (h : ∀ wc ∈ wcs, wc ∈ s.cqs c) :
    CqInv (s.setCq c wcs) := by
  refine hi.shrink (fun c' wc hwc => ?_) rfl (fun _ _ h => h) hi.record
  unfold CqSt.setCq at hwc
  by_cases hc : c' = c
  · subst hc
    simp only [Function.update_self] at hwc
    exact h wc hwc
  · simpa [hc] using hwc

omit [DecidableEq Tid] in
/-- The verbs layer completes the first work request of a queue. -/
theorem CqInv.complete (hi : CqInv s) {q : WorkQueue} {wr : Nat} {wrs : List Nat}
    (hq : s.queues q = wr :: wrs) (status byteLen : BitVec 32) :
    CqInv { s.setCq q.cq (s.cqs q.cq ++ [⟨wr, status, byteLen⟩]) with
      queues := Function.update s.queues q wrs } := by
  refine ⟨fun t q₀ wr₀ h wc hwc => ?_, fun t q₀ wr₀ h q' hq' wr' hwr' => ?_, hi.record⟩
  · have hown := hi.queues t q₀ wr₀ h q
    simp only [CqSt.setCq] at hwc
    by_cases hc : q₀.cq = q.cq
    · rw [hc, Function.update_self, List.mem_append, List.mem_singleton] at hwc
      rcases hwc with hwc | rfl
      · exact hi.cqs t q₀ wr₀ h wc (hc ▸ hwc)
      · exact hown hc.symm wr (by rw [hq]; exact List.mem_cons_self)
    · rw [Function.update_of_ne hc] at hwc
      exact hi.cqs t q₀ wr₀ h wc hwc
  · refine hi.queues t q₀ wr₀ h q' hq' wr' ?_
    by_cases hqq : q' = q
    · subst hqq
      simp only [Function.update_self] at hwr'
      rw [hq]; exact List.mem_cons_of_mem wr hwr'
    · simpa [hqq] using hwr'

omit [DecidableEq Tid] in
/-- A post to a CQ that nobody waits for. -/
theorem CqInv.push (hi : CqInv s) {q : WorkQueue} (h : ∀ t, (s.pc t).awaits q.cq = false) :
    CqInv (s.push q) := by
  refine ⟨hi.cqs, fun t q₀ wr₀ hmem q' hq' wr' hwr' => ?_, hi.record⟩
  refine hi.queues t q₀ wr₀ hmem q' hq' wr' ?_
  have hne : q' ≠ q := by
    rintro rfl
    exact ne_true_of_eq_false (h t) (awaits_of_mem hmem hq'.symm)
  simpa [CqSt.push, hne] using hwr'

/-- A thread posts to a CQ that is clear. -/
theorem CqInv.posted (hi : CqInv s) {q : WorkQueue} (hclear : s.Clear q.cq)
    (hwaits : ∀ x ∈ pc.waits, x = (q, s.nextWr) ∨ x ∈ (s.pc t).waits) (hrecord : pc.Recorded) :
    CqInv ((s.push q).goto t pc) := by
  obtain ⟨hcq, hempty, hnobody⟩ := hclear
  have hpush := hi.push hnobody
  have hnew (u : Tid) (x : WorkQueue × Nat) (h : x ∈ (((s.push q).goto t pc).pc u).waits) :
      x = (q, s.nextWr) ∨ x ∈ (s.pc u).waits := by
    rw [goto_pc] at h
    split at h
    · rename_i hu; rw [hu]; exact hwaits x h
    · exact .inr h
  refine ⟨fun u q₀ wr₀ h wc hwc => ?_, fun u q₀ wr₀ h q' hq' wr' hwr' => ?_, fun u => ?_⟩
  · rcases hnew u _ h with heq | hold
    · cases heq
      have hwc' : wc ∈ s.cqs q.cq := hwc
      rw [hcq] at hwc'; cases hwc'
    · exact hpush.cqs u q₀ wr₀ hold wc hwc
  · rcases hnew u _ h with heq | hold
    · cases heq
      -- only the new work request completes there
      have hmem : wr' ∈ Function.update s.queues q (s.queues q ++ [s.nextWr]) q' := hwr'
      by_cases hqq : q' = q
      · subst hqq
        rw [Function.update_self, hempty q' rfl, List.nil_append, List.mem_singleton] at hmem
        exact hmem
      · rw [Function.update_of_ne hqq, hempty q' hq'] at hmem
        cases hmem
    · exact hpush.queues u q₀ wr₀ hold q' hq' wr' hwr'
  · rw [goto_pc]
    split
    · exact hrecord
    · exact hi.record u

end Inv

/-! ## Steps -/

section Steps

variable {s s' : CqSt Tid}

-- Its equations are made here, once for the proofs below.
attribute [local simp] cqStep

@[simp] theorem waits_posted (op : CqOp) (left : Nat) (waits : List (WorkQueue × Nat))
    (taken : List (Nat × Wc)) (todo : List WorkQueue) :
    (CqPc.posted op left waits taken todo).waits = waits := by
  cases todo <;> rfl

@[simp] theorem taken_posted (op : CqOp) (left : Nat) (waits : List (WorkQueue × Nat))
    (taken : List (Nat × Wc)) (todo : List WorkQueue) :
    (CqPc.posted op left waits taken todo).taken = taken := by
  cases todo <;> rfl

theorem waits_polled {op : CqOp} {left : Nat} {taken : List (Nat × Wc)}
    {waits : List (WorkQueue × Nat)} {x : WorkQueue × Nat}
    (h : x ∈ (CqPc.polled op left taken waits).waits) : x ∈ waits := by
  cases waits with
  | nil => cases left <;> cases h
  | cons y waits => exact h

@[simp] theorem taken_polled (op : CqOp) (left : Nat) (taken : List (Nat × Wc))
    (waits : List (WorkQueue × Nat)) : (CqPc.polled op left taken waits).taken = taken := by
  cases waits with
  | nil => cases left <;> rfl
  | cons y waits => rfl

theorem AllSucceeded.append {taken : List (Nat × Wc)} (h : AllSucceeded taken) (wr : Nat) {wc : Wc}
    (hwc : wc.status = ibWcSuccess) : AllSucceeded (taken ++ [(wr, wc)]) := by
  intro x hx
  rcases List.mem_append.mp hx with hx | hx
  · exact h x hx
  · rw [List.mem_singleton.mp hx]; exact hwc

/-- The last post of an iteration leads to the first poll. -/
theorem counted_posted {op : CqOp} {left : Nat} {q : WorkQueue} {wr : Nat} {todo : List WorkQueue}
    {waits : List (WorkQueue × Nat)} {taken : List (Nat × Wc)}
    (h : (CqPc.post op left (q :: todo) waits taken).Counted) :
    (CqPc.posted op left ((q, wr) :: waits) taken todo).Counted := by
  obtain ⟨hsucc, hlen, hcount⟩ := h
  rw [List.length_cons] at hlen
  cases todo with
  | nil =>
    refine ⟨hsucc, ?_⟩
    simp only [List.length_nil, List.length_cons] at hlen ⊢
    rw [Nat.mul_succ] at hcount
    omega
  | cons q' todo =>
    refine ⟨hsucc, ?_, hcount⟩
    simp only [List.length_cons] at hlen ⊢
    omega

/-- The last completion of an iteration leads to the next one, or to the return. -/
theorem counted_polled {op : CqOp} {left : Nat} {x : WorkQueue × Nat} {wr : Nat} {wc : Wc}
    {waits : List (WorkQueue × Nat)} {taken : List (Nat × Wc)}
    (h : (CqPc.poll op left (x :: waits) taken).Counted) (hwc : wc.status = ibWcSuccess) :
    (CqPc.polled op left (taken ++ [(wr, wc)]) waits).Counted := by
  obtain ⟨hsucc, hcount⟩ := h
  have hsucc' := hsucc.append wr hwc
  have hlen : (taken ++ [(wr, wc)]).length = taken.length + 1 := by simp
  rw [List.length_cons] at hcount
  cases waits with
  | nil =>
    cases left with
    | zero =>
      refine fun _ => ⟨hsucc', ?_⟩
      show (taken ++ [(wr, wc)]).length = op.posts.length * op.iterations
      simp only [List.length_nil, Nat.mul_zero] at hcount
      omega
    | succ left =>
      refine ⟨hsucc', rfl, ?_⟩
      simp only [List.length_nil] at hcount
      omega
  | cons y waits =>
    refine ⟨hsucc', ?_⟩
    simp only [List.length_cons] at hcount ⊢
    omega

/-- A call that returns keeps its record; an error makes no promise. -/
theorem recorded_error {op : CqOp} {e : Errno} {taken : List (Nat × Wc)}
    (h : ∀ x ∈ taken, x.2.wr = x.1) : (CqPc.ret ⟨op, .error e, taken⟩).Recorded :=
  ⟨h, fun hret => by cases hret⟩

theorem cqInv_call {t : Tid} {op : CqOp} (hi : CqInv s) (h : cqStep s (.call t op) = some s') :
    CqInv s' := by
  simp only [cqStep] at h
  split at h
  · split at h
    · cases h
      exact hi.goto (by rintro x ⟨⟩) (recorded_error (by rintro x ⟨⟩))
    · rename_i left hleft; cases h
      refine hi.goto (by rintro x ⟨⟩) ⟨by rintro x ⟨⟩, by rintro x ⟨⟩, rfl, ?_⟩
      rw [hleft, List.length_nil, Nat.zero_add]
  · cases h

theorem cqInv_post {t : Tid} {res : Except Errno Unit} (hi : CqInv s)
    (hok : Uncontended s (.post t res)) (h : cqStep s (.post t res) = some s') : CqInv s' := by
  simp only [cqStep] at h
  split at h
  · rename_i op left q todo waits taken hpc
    have hrec := hi.record t
    rw [hpc] at hrec
    split at h
    · cases h
      exact hi.goto (by rintro x ⟨⟩) (recorded_error hrec.own)
    · cases h
      simp only [Uncontended, hpc] at hok
      refine hi.posted hok (fun x hx => ?_) ⟨?_, counted_posted hrec.counted⟩
      · rw [waits_posted] at hx
        rw [hpc]
        exact List.mem_cons.mp hx
      · rw [taken_posted]; exact hrec.own
  · cases h

theorem cqInv_poll {t : Tid} (hi : CqInv s) (h : cqStep s (.poll t) = some s') : CqInv s' := by
  simp only [cqStep] at h
  split at h
  · rename_i op left q wr waits taken hpc
    have hrec := hi.record t
    rw [hpc] at hrec
    split at h
    · cases h
    · rename_i wc wcs hcq; cases h
      have hmine : wc.wr = wr := by
        refine hi.cqs t q wr ?_ wc ?_
        · rw [hpc]; exact List.mem_cons_self
        · rw [hcq]; exact List.mem_cons_self
      have hown : ∀ x ∈ taken ++ [(wr, wc)], x.2.wr = x.1 := by
        intro x hx
        rcases List.mem_append.mp hx with hx | hx
        · exact hrec.own x hx
        · rw [List.mem_singleton.mp hx]; exact hmine
      have hrest : CqInv (s.setCq q.cq wcs) := hi.setCq q.cq wcs fun x hx => by
        rw [hcq]; exact List.mem_cons_of_mem wc hx
      split
      · rename_i hstatus
        refine hrest.goto (fun x hx => ?_) ⟨?_, counted_polled hrec.counted hstatus⟩
        · show x ∈ (s.pc t).waits
          rw [hpc]
          exact List.mem_cons_of_mem _ (waits_polled hx)
        · rw [taken_polled]; exact hown
      · exact hrest.goto (by rintro x ⟨⟩) (recorded_error hown)
  · cases h

theorem cqInv_step {a : CqAct Tid} (hi : CqInv s) (hok : Uncontended s a) (h : cqStep s a = some s') :
    CqInv s' := by
  cases a with
  | call t op => exact cqInv_call hi h
  | post t res => exact cqInv_post hi hok h
  | poll t => exact cqInv_poll hi h
  | giveUp t rc =>
    simp only [cqStep] at h
    split at h
    · rename_i op left waits taken hpc; cases h
      have hrec := hi.record t
      rw [hpc] at hrec
      exact hi.goto (by rintro x ⟨⟩) (recorded_error hrec.own)
    · cases h
  | finish t =>
    simp only [cqStep] at h
    split at h
    · cases h
      exact hi.goto (by rintro x ⟨⟩) ⟨by rintro x ⟨⟩, trivial⟩
    · cases h
  | complete q status byteLen =>
    simp only [cqStep] at h
    split at h
    · cases h
    · rename_i wr wrs hq; cases h
      exact hi.complete hq status byteLen
  | postRecv usePeerQp =>
    simp only [cqStep] at h
    cases h
    exact hi.push hok
  | pollRecv usePeerQp =>
    simp only [cqStep] at h
    cases h
    exact hi.setCq _ _ fun wc hwc => List.mem_of_mem_tail hwc
  | flush c =>
    simp only [cqStep] at h
    cases h
    exact hi.setCq c [] fun wc hwc => absurd hwc List.not_mem_nil

end Steps

/-! ## Runs -/

variable {s : CqSt Tid}

omit [DecidableEq Tid] in
theorem cqInv_init : CqInv (cqInit Tid) where
  cqs := by rintro t q wr ⟨⟩
  queues := by rintro t q wr ⟨⟩
  record := fun _ => ⟨by rintro x ⟨⟩, trivial⟩

theorem cqInv (h : (cqSys Tid).ReachableWith Uncontended s) : CqInv s :=
  h.invariant (I := fun s => CqInv s) cqInv_init fun _ _ _ hi hok hs => cqInv_step hi hok hs

/-- **Attribution of completions.** In every run in which a call posts to a CQ only while nothing
else completes on it, every report rests on completions of the call's own work requests. -/
theorem completions_own (h : (cqSys Tid).ReachableWith Uncontended s) {t : Tid} {report : CqReport}
    (hpc : s.pc t = .ret report) : Attributed report := by
  have hrec := (cqInv h).record t
  rw [hpc] at hrec
  refine ⟨hrec.own, fun n hn => ?_, hrec.counted⟩
  unfold CqReport.recvBytes at hn
  split at hn
  · obtain ⟨x, hx, rfl⟩ := Option.map_eq_some_iff.mp hn
    have hmem : x ∈ report.taken := List.mem_of_getLast? hx
    exact ⟨x, hmem, hrec.own x hmem, rfl⟩
  · cases hn

/-- A LOOPBACK_TEST whose completions come in time. -/
theorem completions_own_loopback : ∃ (s : CqSt (Fin 1)) (report : CqReport),
    s.pc 0 = .ret report ∧ report.ret = .ok () ∧ report.recvBytes = some 4096 ∧
      Attributed report := by
  obtain ⟨s, hr, hpc⟩ : ∃ s : CqSt (Fin 1), (cqSys (Fin 1)).ReachableWith Uncontended s ∧
      s.pc 0 = .ret ⟨.loopbackTest, .ok (), [(1, ⟨1, 0, 0⟩), (0, ⟨0, 0, 4096⟩)]⟩ :=
    Transition.Sys.exists_of_execWith
      [.call 0 .loopbackTest, .post 0 (.ok ()), .post 0 (.ok ()), .complete .recvB 0 4096,
        .complete .sendA 0 0, .poll 0, .poll 0] (by decide +kernel)
  exact ⟨s, _, hpc, rfl, rfl, completions_own hr hpc⟩

/-- WRITE_IMM times out, as no receive is posted on the other side, and completes later; the next
WRITE_IMM takes that completion for its own, which is still outstanding. Or two of them run at
once, and each takes the completion of the other. -/
theorem completion_of_another :
    (∃ s : CqSt (Fin 2), (cqSys (Fin 2)).Reachable s ∧ s.queues .sendA = [2] ∧
      s.pc 0 = .ret ⟨.writeImm false, .ok (), [(2, ⟨0, 0, 0⟩)]⟩) ∧
    (∃ s : CqSt (Fin 2), (cqSys (Fin 2)).Reachable s ∧
      s.pc 0 = .ret ⟨.writeImm false, .error Errno.EIO, [(0, ⟨1, 10, 0⟩)]⟩ ∧
      s.pc 1 = .ret ⟨.writeImm false, .ok (), [(1, ⟨0, 0, 0⟩)]⟩) ∧
    ¬ ∀ s : CqSt (Fin 2), (cqSys (Fin 2)).Reachable s →
      ∀ t report, s.pc t = .ret report → Attributed report := by
  have hlate : ∃ s : CqSt (Fin 2), (cqSys (Fin 2)).Reachable s ∧ s.queues .sendA = [2] ∧
      s.pc 0 = .ret ⟨.writeImm false, .ok (), [(2, ⟨0, 0, 0⟩)]⟩ :=
    Transition.Sys.exists_of_exec
      [.call 0 (.writeImm false), .post 0 (.ok ()), .giveUp 0 none, .finish 0, .postRecv false,
        .complete .recvB 0 0, .complete .sendA 0 0, .pollRecv false, .call 0 (.writeImm false),
        .post 0 (.ok ()), .poll 0] (by decide +kernel)
  have hcross : ∃ s : CqSt (Fin 2), (cqSys (Fin 2)).Reachable s ∧
      s.pc 0 = .ret ⟨.writeImm false, .error Errno.EIO, [(0, ⟨1, 10, 0⟩)]⟩ ∧
      s.pc 1 = .ret ⟨.writeImm false, .ok (), [(1, ⟨0, 0, 0⟩)]⟩ :=
    Transition.Sys.exists_of_exec
      [.call 0 (.writeImm false), .call 1 (.writeImm false), .post 0 (.ok ()), .post 1 (.ok ()),
        .complete .sendA 0 0, .complete .sendA 10 0, .poll 1, .poll 0] (by decide +kernel)
  refine ⟨hlate, hcross, fun hall => ?_⟩
  obtain ⟨s, hr, _, hpc⟩ := hlate
  have hown := (hall s hr 0 _ hpc).own _ (List.mem_singleton_self _)
  cases hown

end Dmaplane
