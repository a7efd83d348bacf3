import Mathlib.Data.List.Basic

/-!
# Dmaplane.Lib.Stream

One direction of a reliable byte stream, and how a single reader takes from it.

What is sent goes to the end of `wire`; it is delivered to `sock` element by element, which covers
every fragmentation; the reader moves what it finds in `sock` to `got`, in as many passes as it
needs, and takes `got` when it is full. `unread` is everything sent and not yet taken: only a send
and a take change it.

Where the elements are numbered in the order of the sends, `numbered_cons` is the take.
-/

namespace Transition

structure Stream (α : Type) where
  /-- Sent and not yet delivered, delivered and not yet read, read by the call that is running. -/
  wire : List α
  sock : List α
  got : List α
  deriving DecidableEq, Repr

namespace Stream

variable {α : Type} {t t' : Stream α} {n : Nat}

def empty : Stream α := ⟨[], [], []⟩

def unread (t : Stream α) : List α := t.got ++ t.sock ++ t.wire

def send (t : Stream α) (xs : List α) : Stream α := { t with wire := t.wire ++ xs }

/-- The next element arrives. -/
def deliver (t : Stream α) : Option (Stream α) :=
  match t.wire with
  | [] => none
  | x :: rest => some { t with wire := rest, sock := t.sock ++ [x] }

/-- One read of at most `n`. -/
def recv (t : Stream α) (n : Nat) : Stream α :=
  { t with got := t.got ++ t.sock.take n, sock := t.sock.drop n }

/-- The reader takes what it has read. -/
def clear (t : Stream α) : Stream α := { t with got := [] }

/-- One pass of the loop that reads exactly `n`: `none` while it blocks, otherwise what it has read
once that is enough, and `none` for another pass. -/
def recvAll (t : Stream α) (n : Nat) : Option (Option (List α) × Stream α) :=
  if t.got.length < n then
    if t.sock = [] then none else some (none, t.recv (n - t.got.length))
  else some (some t.got, t.clear)

@[simp] theorem unread_empty : (empty : Stream α).unread = [] := rfl

@[simp] theorem unread_send (t : Stream α) (xs : List α) :
    (t.send xs).unread = t.unread ++ xs := by
  simp [unread, send]

@[simp] theorem got_send (t : Stream α) (xs : List α) : (t.send xs).got = t.got := rfl

@[simp] theorem got_clear (t : Stream α) : t.clear.got = [] := rfl

@[simp] theorem unread_recv (t : Stream α) (n : Nat) : (t.recv n).unread = t.unread := by
  simp only [unread, recv, List.append_assoc]
  rw [← List.append_assoc (t.sock.take n), List.take_append_drop]

theorem unread_deliver (h : t.deliver = some t') : t'.unread = t.unread ∧ t'.got = t.got := by
  unfold deliver at h
  split at h
  · cases h
  · rename_i x rest hw
    cases h
    simp [unread, hw]

/-- What is taken comes off the front. -/
theorem got_append_clear (t : Stream α) : t.got ++ t.clear.unread = t.unread := by
  simp [unread, clear]

/-- A pass that reads a part leaves everything unread. -/
theorem recvAll_part (h : t.recvAll n = some (none, t')) :
    t'.unread = t.unread ∧ t'.got.length ≤ n := by
  unfold recvAll at h
  split at h
  · rename_i hlt
    split at h
    · cases h
    · cases h
      refine ⟨unread_recv t _, ?_⟩
      simp only [recv, List.length_append, List.length_take]
      omega
  · cases h

/-- The pass that ends the loop takes exactly `n`. -/
theorem recvAll_done {xs : List α} (hg : t.got.length ≤ n)
    (h : t.recvAll n = some (some xs, t')) :
    xs.length = n ∧ t.unread = xs ++ t'.unread ∧ t'.got = [] := by
  unfold recvAll at h
  split at h
  · split at h <;> cases h
  · cases h
    exact ⟨by omega, (got_append_clear t).symm, rfl⟩

theorem recvAll_got {xs : List α} (h : t.recvAll n = some (some xs, t')) : t.got = xs := by
  unfold recvAll at h
  split at h
  · split at h <;> cases h
  · cases h
    rfl

/-- There is nothing to read. -/
theorem recvAll_none (h : t.unread = []) (hn : 0 < n) : t.recvAll n = none := by
  simp only [unread, List.append_eq_nil_iff] at h
  obtain ⟨⟨hgot, hsock⟩, -⟩ := h
  simp [recvAll, hgot, hsock, hn]

/-- There is enough to read, or something still to be delivered. -/
theorem ready_of_le (h : n ≤ t.unread.length) :
    (∃ r, t.recvAll n = some r) ∨ ∃ t', t.deliver = some t' := by
  cases hw : t.wire with
  | cons x rest =>
    right
    exact ⟨_, by rw [deliver, hw]⟩
  | nil =>
    left
    simp only [unread, hw, List.append_nil, List.length_append] at h
    unfold recvAll
    split
    · rename_i hlt
      have hsock : t.sock ≠ [] := by
        intro hnil
        rw [hnil, List.length_nil] at h
        omega
      exact ⟨_, by rw [if_neg hsock]⟩
    · exact ⟨_, rfl⟩

/-! ## How far the elements have come -/

/-- Each element is sent, delivered, read and taken. -/
def load (t : Stream α) : Nat := 3 * t.wire.length + 2 * t.sock.length + t.got.length

theorem load_send (t : Stream α) (xs : List α) : (t.send xs).load = t.load + 3 * xs.length := by
  simp only [load, send, List.length_append]
  omega

theorem load_deliver (h : t.deliver = some t') : t'.load < t.load := by
  unfold deliver at h
  split at h
  · cases h
  · rename_i x rest hw
    cases h
    simp only [load, hw, List.length_cons, List.length_append, List.length_nil]
    omega

theorem load_recv_clear (t : Stream α) (n : Nat) : (t.recv n).clear.load ≤ t.load := by
  simp only [load, recv, clear, List.length_drop, List.length_nil]
  omega

/-- Each pass of the reader counts. -/
theorem load_part (h : t.recvAll n = some (none, t')) : t'.load < t.load := by
  unfold recvAll at h
  split at h
  · rename_i hlt
    split at h
    · cases h
    · rename_i hsock
      cases h
      have hpos := List.length_pos_iff.mpr hsock
      simp only [load, recv, List.length_append, List.length_take, List.length_drop]
      omega
  · cases h

theorem load_done {xs : List α} (h : t.recvAll n = some (some xs, t')) : t'.load + n ≤ t.load := by
  unfold recvAll at h
  split at h
  · split at h <;> cases h
  · cases h
    simp only [load, clear, List.length_nil]
    omega

/-! ## Numbered messages -/

/-- Of the messages `r` to `p - 1` the `r`-th is the next. -/
theorem numbered_cons {f : Nat → α} {r p : Nat} {x : α} {xs ys : List α}
    (h : x :: xs ++ ys = (List.range' r (p - r)).map f) :
    r + 1 ≤ p ∧ x = f r ∧ xs ++ ys = (List.range' (r + 1) (p - (r + 1))).map f := by
  have hlt : r + 1 ≤ p := by
    by_contra hlt
    rw [show p - r = 0 by omega] at h
    cases h
  rw [show p - r = (p - (r + 1)) + 1 by omega, List.range'_succ, List.map_cons, List.cons_append,
    List.cons.injEq] at h
  exact ⟨hlt, h.1, h.2⟩

end Stream
end Transition
