import Dmaplane.Lib.System
import Mathlib.Data.List.Basic

/-!
# Dmaplane.Lib.Pipe

A loop that sends a message and a loop that receives one of known length, over a reliable stream
that cuts it anywhere: each call of `send` and of `recv` moves as much as it likes, but something.

* `SendLoop`, `RecvLoop` — the variables of a loop, and how a call changes them. The laws say what
  the variables stand for.
* `conserved` — what is received and what is not yet received are the message and what follows it.
* `exact`     — the receiver ends with the message, and the rest of the stream is what follows.
* `progress`, `exec_bounded` — it gets there, after a bounded number of calls.
-/

namespace Pipe

structure SendLoop (α : Type) where
  State : Type
  start : List α → State
  /-- What is still to be sent. -/
  left : State → List α
  /-- `send` has taken the first `n` of it. -/
  sent : State → Nat → State
  left_start : ∀ xs, left (start xs) = xs
  left_sent : ∀ s n, n ≤ (left s).length → left (sent s n) = (left s).drop n

structure RecvLoop (α : Type) where
  State : Type
  start : Nat → State
  /-- How much the next call of `recv` asks for. -/
  want : State → Nat
  got : State → List α
  /-- `recv` has returned these. -/
  took : State → List α → State
  want_start : ∀ n, want (start n) = n
  got_start : ∀ n, got (start n) = []
  want_took : ∀ s xs, xs.length ≤ want s → want (took s xs) = want s - xs.length
  got_took : ∀ s xs, xs.length ≤ want s → got (took s xs) = got s ++ xs

variable {α : Type}

structure St (S : SendLoop α) (R : RecvLoop α) where
  sender : S.State
  /-- What is sent once the loop is done. -/
  after : List α
  inflight : List α
  receiver : R.State

inductive Act where
  | send (n : Nat)
  | sendAfter (n : Nat)
  | recv (n : Nat)
  deriving DecidableEq, Repr

variable (S : SendLoop α) (R : RecvLoop α)

def step (s : St S R) : Act → Option (St S R)
  | .send n =>
    if 0 < n ∧ n ≤ (S.left s.sender).length then
      some { s with
        sender := S.sent s.sender n, inflight := s.inflight ++ (S.left s.sender).take n }
    else none
  | .sendAfter n =>
    if S.left s.sender = [] ∧ 0 < n ∧ n ≤ s.after.length then
      some { s with after := s.after.drop n, inflight := s.inflight ++ s.after.take n }
    else none
  | .recv n =>
    if 0 < n ∧ n ≤ R.want s.receiver ∧ n ≤ s.inflight.length then
      some { s with
        inflight := s.inflight.drop n, receiver := R.took s.receiver (s.inflight.take n) }
    else none

/-- The message `xs`, followed by `ys`; the receiver waits for `n`. -/
def sys (xs ys : List α) (n : Nat) : Transition.Sys (St S R) Act where
  init := { sender := S.start xs, after := ys, inflight := [], receiver := R.start n }
  step := step S R

variable {S R} {s s' : St S R} {xs ys : List α} {n : Nat}

/-- The stream behind what the receiver has taken. -/
def St.unread (s : St S R) : List α := s.inflight ++ S.left s.sender ++ s.after

/-- What is received, and what is behind it. -/
structure Conserved (xs ys : List α) (n : Nat) (s : St S R) : Prop where
  stream : R.got s.receiver ++ s.unread = xs ++ ys
  length : (R.got s.receiver).length + R.want s.receiver = n
  after_le : s.after.length ≤ ys.length

theorem Conserved.step (h : Conserved xs ys n s) {a : Act} (hs : step S R s a = some s') :
    Conserved xs ys n s' := by
  obtain ⟨hstream, hlen, hafter⟩ := h
  cases a with
  | send k =>
    rw [Pipe.step] at hs
    split at hs <;> cases hs
    rename_i hk
    refine ⟨?_, hlen, hafter⟩
    rw [← hstream, St.unread, St.unread, S.left_sent _ _ hk.2, List.append_assoc s.inflight,
      List.take_append_drop]
  | sendAfter k =>
    rw [Pipe.step] at hs
    split at hs <;> cases hs
    rename_i hk
    refine ⟨?_, hlen, by rw [List.length_drop]; omega⟩
    rw [← hstream, St.unread, St.unread]
    simp only [hk.1, List.append_nil, List.append_assoc, List.take_append_drop]
  | recv k =>
    rw [Pipe.step] at hs
    split at hs <;> cases hs
    rename_i hk
    have htake : (s.inflight.take k).length = k := by
      rw [List.length_take]
      omega
    have hle : (s.inflight.take k).length ≤ R.want s.receiver := by omega
    refine ⟨?_, ?_, hafter⟩
    · rw [← hstream, R.got_took _ _ hle]
      simp only [St.unread, List.append_assoc]
      rw [← List.append_assoc (s.inflight.take k), List.take_append_drop]
    · rw [R.got_took _ _ hle, R.want_took _ _ hle, List.length_append]
      omega

theorem conserved (h : (sys S R xs ys n).Reachable s) : Conserved xs ys n s := by
  refine h.invariant (I := Conserved xs ys n) ⟨?_, ?_, Nat.le_refl _⟩ fun _ _ _ hi hs => hi.step hs
  · show R.got (R.start n) ++ ([] ++ S.left (S.start xs) ++ ys) = xs ++ ys
    rw [R.got_start, S.left_start]
    rfl
  · show (R.got (R.start n)).length + R.want (R.start n) = n
    rw [R.got_start, R.want_start, List.length_nil, Nat.zero_add]

/-- A receiver that has what it wants has the message, and nothing else is taken. -/
theorem exact (h : (sys S R xs ys xs.length).Reachable s) (hw : R.want s.receiver = 0) :
    R.got s.receiver = xs ∧ s.unread = ys := by
  obtain ⟨hstream, hlen, -⟩ := conserved h
  exact List.append_inj hstream (by omega)

/-- Until then the sender or the receiver can go on. -/
theorem progress (h : (sys S R xs ys xs.length).Reachable s) (hw : R.want s.receiver ≠ 0) :
    ∃ a s', step S R s a = some s' := by
  obtain ⟨hstream, hlen, hafter⟩ := conserved h
  by_cases hin : s.inflight = []
  · have hleft : S.left s.sender ≠ [] := by
      intro hnil
      have hl := congrArg List.length hstream
      simp only [St.unread, hin, hnil, List.nil_append, List.length_append] at hl
      omega
    exact ⟨.send 1, _, if_pos ⟨Nat.one_pos, List.length_pos_iff.mpr hleft⟩⟩
  · exact ⟨.recv 1, _, if_pos ⟨Nat.one_pos, by omega, List.length_pos_iff.mpr hin⟩⟩

/-- Every element has to be sent and to be received. -/
def St.weight (s : St S R) : Nat :=
  2 * ((S.left s.sender).length + s.after.length) + s.inflight.length

theorem weight_step {a : Act} (hs : step S R s a = some s') : s'.weight < s.weight := by
  cases a with
  | send k =>
    rw [step] at hs
    split at hs <;> cases hs
    rename_i hk
    simp only [St.weight, S.left_sent _ _ hk.2, List.length_append, List.length_take,
      List.length_drop]
    omega
  | sendAfter k =>
    rw [step] at hs
    split at hs <;> cases hs
    rename_i hk
    simp only [St.weight, List.length_append, List.length_take, List.length_drop]
    omega
  | recv k =>
    rw [step] at hs
    split at hs <;> cases hs
    rename_i hk
    simp only [St.weight, List.length_drop]
    omega

/-- No run has more calls than that. -/
theorem exec_bounded (as : List Act) : ∀ {s s' : St S R},
    (sys S R xs ys n).exec s as = some s' → as.length + s'.weight ≤ s.weight := by
  induction as with
  | nil => intro s s' h; cases h; exact Nat.le_of_eq (Nat.zero_add _)
  | cons a as ih =>
    intro s s' h
    simp only [Transition.Sys.exec] at h
    split at h
    · rename_i s₁ hs
      have h₁ := weight_step (s := s) (a := a) hs
      have h₂ := ih h
      rw [List.length_cons]
      omega
    · cases h

/-- The calls can always be completed. -/
theorem returns (h : (sys S R xs ys xs.length).Reachable s) :
    ∃ as s', (sys S R xs ys xs.length).exec s as = some s' ∧ R.want s'.receiver = 0 := by
  induction hm : s.weight using Nat.strongRecOn generalizing s with
  | ind m ih =>
    subst hm
    by_cases hw : R.want s.receiver = 0
    · exact ⟨[], s, rfl, hw⟩
    · obtain ⟨a, s₁, hs⟩ := progress h hw
      obtain ⟨as, s', hex, hw'⟩ := ih s₁.weight (weight_step hs)
        (Transition.Sys.Steps.tail (a := a) h trivial hs) rfl
      refine ⟨a :: as, s', ?_, hw'⟩
      rw [Transition.Sys.exec, show (sys S R xs ys xs.length).step s a = some s₁ from hs]
      exact hex

end Pipe
