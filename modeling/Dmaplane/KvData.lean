import Dmaplane.KvCredits
import Dmaplane.KvIterations
import Dmaplane.KvPattern

/-!
# Dmaplane.KvData

The bytes of a KVCache transfer: the sender fills its buffer chunk by chunk, the writes carry the
slots to the same offsets of the receiver's buffer, and the receiver verifies them
(`run_loopback` and `run_peer` of `examples/kvcache/kvcache_sender.c`, `run_peer` of
`kvcache_receiver.c`).

A write puts its bytes in place before its completion can be polled. The sentinel carries 4 bytes
from offset 0, and so does no harm.

* `peer_verifies`     — on two machines: once the receiver leaves its loop, and when the sender goes
  on, every byte is in place and verification finds no error, although the sender may have read a
  credit as the done byte.
* `loopback_verifies` — on one machine, after each of the iterations.
-/

namespace Dmaplane

abbrev Memory := Nat → BitVec 8

/-- The bytes from `off` to `off + len` are those of `src`, the others stay. -/
def copyRange (src dst : Memory) (off len : Nat) : Memory :=
  fun x => if off ≤ x ∧ x < off + len then src x else dst x

/-- A function of the memory from `off` on, applied to a pointer into the buffer. -/
def atOffset (f : Memory → Memory) (off : Nat) (mem : Memory) : Memory :=
  fun x => if x < off then mem x else f (fun i => mem (off + i)) (x - off)

theorem copyRange_of_eq {src dst : Memory} {x : Nat} (h : dst x = src x) (off len : Nat) :
    copyRange src dst off len x = src x := by
  rw [copyRange]
  split
  · rfl
  · exact h

theorem copyRange_inside (src dst : Memory) {off len x : Nat} (h : off ≤ x ∧ x < off + len) :
    copyRange src dst off len x = src x := if_pos h

/-! ## Filling and verifying a buffer -/

namespace KvGrid

variable (g : KvGrid) (chunkSize : BitVec 32)

/-- `idx` of the two loops over the chunks. -/
def index (l c : Nat) : Nat := l * g.chunksPerLayer + c

/-- The source buffer under `cfg->verify`. -/
def fillAll (mem : Memory) : Memory :=
  (List.range g.layers).foldl (fun mem l =>
    (List.range g.chunksPerLayer).foldl (fun mem c =>
      atOffset (fillPattern · l c chunkSize) (g.index l c * chunkSize.toNat) mem) mem) mem

/-- `total_errs`, an int, taken to wrap. -/
def verifyAll (mem : Memory) : BitVec 32 :=
  (List.range g.layers).foldl (fun errs l =>
    (List.range g.chunksPerLayer).foldl (fun errs c =>
      errs + verifyPattern (fun i => mem (g.index l c * chunkSize.toNat + i)) l c chunkSize) errs) 0

/-- The first `n` slots hold their patterns. -/
def FilledTo (n : Nat) (mem : Memory) : Prop :=
  ∀ l c i, c < g.chunksPerLayer → g.index l c < n → i < chunkSize.toNat →
    mem (g.index l c * chunkSize.toNat + i) = patternByte l c i

variable {g chunkSize} {mem : Memory} {n l c : Nat}

theorem index_inj {l' c' : Nat} (hc : c < g.chunksPerLayer) (hc' : c' < g.chunksPerLayer)
    (h : g.index l c = g.index l' c') : l = l' ∧ c = c' := by
  simp only [index] at h
  have hl : l = l' := by
    have h1 : (l * g.chunksPerLayer + c) / g.chunksPerLayer = l := by
      rw [Nat.add_comm, Nat.add_mul_div_right _ _ (by omega), Nat.div_eq_of_lt hc, Nat.zero_add]
    have h2 : (l' * g.chunksPerLayer + c') / g.chunksPerLayer = l' := by
      rw [Nat.add_comm, Nat.add_mul_div_right _ _ (by omega), Nat.div_eq_of_lt hc', Nat.zero_add]
    rw [← h1, h, h2]
  subst hl
  exact ⟨rfl, by omega⟩

/-- One slot more. -/
theorem FilledTo.fill (h : g.FilledTo chunkSize (g.index l c) mem) (hc : c < g.chunksPerLayer) :
    g.FilledTo chunkSize (g.index l c + 1)
      (atOffset (fillPattern · l c chunkSize) (g.index l c * chunkSize.toNat) mem) := by
  intro l' c' i hc' hlt hi
  rw [atOffset]
  rcases Nat.lt_or_ge (g.index l' c') (g.index l c) with hbefore | hge
  · -- The slots before it end where it begins.
    have hend : (g.index l' c' + 1) * chunkSize.toNat ≤ g.index l c * chunkSize.toNat :=
      Nat.mul_le_mul_right _ hbefore
    rw [Nat.add_mul, Nat.one_mul] at hend
    rw [if_pos (by omega)]
    exact h l' c' i hc' hbefore hi
  · obtain ⟨rfl, rfl⟩ := index_inj hc hc' (show g.index l c = g.index l' c' by omega)
    rw [if_neg (by omega), Nat.add_sub_cancel_left, fillPattern_apply, if_pos hi]

theorem FilledTo.fillLayer (h : g.FilledTo chunkSize (g.index l 0) mem) :
    ∀ k ≤ g.chunksPerLayer, g.FilledTo chunkSize (g.index l k)
      ((List.range k).foldl (fun mem c =>
        atOffset (fillPattern · l c chunkSize) (g.index l c * chunkSize.toNat) mem) mem) := by
  intro k
  induction k with
  | zero => intro _; exact h
  | succ k ih =>
    intro hk
    rw [List.range_succ, List.foldl_concat]
    exact (ih (by omega)).fill (by omega)

theorem filledTo_fillAll (g : KvGrid) (chunkSize : BitVec 32) (mem : Memory) :
    g.FilledTo chunkSize g.total (g.fillAll chunkSize mem) := by
  rw [fillAll, total]
  induction g.layers with
  | zero =>
    rw [Nat.zero_mul]
    intro l c i _ hlt _
    cases hlt
  | succ k ih =>
    rw [List.range_succ, List.foldl_concat, Nat.succ_mul]
    exact FilledTo.fillLayer (l := k) ih g.chunksPerLayer (le_refl _)

theorem verifyPattern_eq_zero {buf : Memory}
    (h : ∀ i < chunkSize.toNat, buf i = patternByte l c i) : verifyPattern buf l c chunkSize = 0 := by
  have hloop : ∀ n ≤ chunkSize.toNat, (List.range n).foldl
      (fun errs i => if buf i ≠ patternByte l c i then errs + 1 else errs) (0 : BitVec 32) = 0 := by
    intro n
    induction n with
    | zero => intro _; rfl
    | succ n ih =>
      intro hn
      rw [List.range_succ, List.foldl_concat, ih (by omega), if_neg (not_not.mpr (h n (by omega)))]
  exact hloop _ (le_refl _)

/-- A buffer that holds all patterns verifies. -/
theorem FilledTo.verifies (h : g.FilledTo chunkSize g.total mem) :
    g.verifyAll chunkSize mem = 0 := by
  have hslot : ∀ l < g.layers, ∀ c < g.chunksPerLayer,
      verifyPattern (fun i => mem (g.index l c * chunkSize.toNat + i)) l c chunkSize = 0 := by
    intro l hl c hc
    refine verifyPattern_eq_zero fun i hi => h l c i hc ?_ hi
    calc g.index l c < (l + 1) * g.chunksPerLayer := by rw [index, Nat.add_mul]; omega
      _ ≤ g.total := Nat.mul_le_mul_right _ hl
  have hzero {ls : List Nat} {f : BitVec 32 → Nat → BitVec 32} (hf : ∀ l ∈ ls, f 0 l = 0) :
      ls.foldl f 0 = 0 := by
    induction ls with
    | nil => rfl
    | cons l ls ih =>
      rw [List.foldl_cons, hf l List.mem_cons_self]
      exact ih fun l hl => hf l (List.mem_cons_of_mem _ hl)
  refine hzero fun l hl => hzero fun c hc => ?_
  rw [hslot l (List.mem_range.mp hl) c (List.mem_range.mp hc)]
  rfl

/-- What agrees with a filled buffer verifies. -/
theorem verifies_of_eq {dst : Memory}
    (h : ∀ x < g.total * chunkSize.toNat, dst x = g.fillAll chunkSize mem x) :
    g.verifyAll chunkSize dst = 0 := by
  refine FilledTo.verifies fun l c i hc hlt hi => ?_
  have hend : (g.index l c + 1) * chunkSize.toNat ≤ g.total * chunkSize.toNat :=
    Nat.mul_le_mul_right _ hlt
  rw [Nat.add_mul, Nat.one_mul] at hend
  rw [h _ (by omega)]
  exact filledTo_fillAll g chunkSize mem l c i hc hlt hi

end KvGrid

/-! ## Writes -/

/-- The writes that are posted and not yet delivered, oldest first, as offset and length; and the
receiver's buffer. -/
structure DataLog where
  writes : List (Nat × Nat)
  dst : Memory

namespace DataLog

def post (r : DataLog) (w : Option (Nat × Nat)) : DataLog := { r with writes := r.writes ++ w.toList }

/-- The bytes of the oldest write arrive. -/
def deliver (src : Memory) (r : DataLog) : DataLog :=
  match r.writes with
  | [] => r
  | (off, len) :: rest => ⟨rest, copyRange src r.dst off len⟩

theorem writes_deliver (src : Memory) (r : DataLog) : (r.deliver src).writes = r.writes.tail := by
  rw [deliver]
  split <;> rename_i hw <;> rw [hw] <;> rfl

end DataLog

namespace KvConfig

variable (cfg : KvConfig) (chunkSize : BitVec 32)

/-- The `j`-th write of an iteration. -/
def dataWrite (j : Nat) : Nat × Nat :=
  if j < cfg.total then (j * chunkSize.toNat, chunkSize.toNat) else (0, 4)

/-! ## Two machines -/

/-- The write that the sender posts in its next step. -/
def peerPosts : SenderPc → Option (Nat × Nat)
  | .write i => some (i * chunkSize.toNat, chunkSize.toNat)
  | .sentinel => some (0, 4)
  | _ => none

def logPeer (src : Memory) (s : KvSt) (a : KvAct) (_ : KvSt) (r : DataLog) : DataLog :=
  match a with
  | .sender => r.post (peerPosts chunkSize s.sender)
  | .deliverWrite => r.deliver src
  | _ => r

/-- The transfer with the receiver's buffer, which holds `dst` at first. -/
def peerDataSys (src dst : Memory) : Transition.Sys (KvSt × DataLog) KvAct :=
  cfg.kvSys.withHistory ⟨[], dst⟩ (logPeer chunkSize src)

/-- The `p`-th write of the run, over all iterations. -/
def runMsg (p : Nat) : BitVec 32 := cfg.msg (p % (cfg.total + 1))

def runWrite (p : Nat) : Nat × Nat := cfg.dataWrite chunkSize (p % (cfg.total + 1))

/-- The sender has posted `p` writes. -/
def PostedAt (iter p : Nat) : SenderPc → Prop
  | .waitReady => iter = 0 ∧ p = 0
  | .checkCredits i | .stall i | .stallDrain i | .drain i | .write i =>
    i < cfg.total ∧ p = iter * (cfg.total + 1) + i
  | .writeWait i => i < cfg.total ∧ p = iter * (cfg.total + 1) + i + 1
  | .sentinel => p = iter * (cfg.total + 1) + cfg.total
  | .sentinelWait | .waitDone => p = (iter + 1) * (cfg.total + 1)
  | .finished | .failed => True

/-- The receiver has polled `n` writes: in its loop those of the first chunks, after it at least
these. -/
def PolledAt (bm : LayerBitmap) (n : Nat) : ReceiverPc → Prop
  | .prePost _ | .sendReady | .loopCheck | .replenish | .sendCredit =>
    n ≤ cfg.total ∧ cfg.Tracks bm n
  | .poll => n ≤ cfg.total ∧ cfg.Tracks bm n
  | .drain | .sendDone | .closed => cfg.total ≤ n
  | .failed => True

/-- Of the writes of a run `p` are posted, `d` delivered and `n` polled. -/
structure DataInv (src : Memory) (s : KvSt) (r : DataLog) (p d n : Nat) : Prop where
  sender : cfg.PostedAt s.iter p s.sender
  receiver : cfg.PolledAt s.bm n s.receiver
  queue : s.cq ++ s.inflight = (List.range' n (p - n)).map cfg.runMsg
  flight : s.inflight.length = p - d
  writes : r.writes = (List.range' d (p - d)).map (cfg.runWrite chunkSize)
  polled_le : n ≤ d
  delivered_le : d ≤ p
  idle : s.sender = .waitDone → s.inflight = []
  passed : 0 < s.iter → cfg.total ≤ d
  placed : ∀ j < d, ∀ x, (cfg.runWrite chunkSize j).1 ≤ x →
    x < (cfg.runWrite chunkSize j).1 + (cfg.runWrite chunkSize j).2 → r.dst x = src x

end KvConfig

variable {cfg : KvConfig} {chunkSize : BitVec 32} {src dst : Memory} {s s' : KvSt} {r : DataLog}
  {p d n : Nat}

namespace KvConfig

theorem iter_mod (iter : Nat) {i : Nat} (hi : i ≤ cfg.total) :
    (iter * (cfg.total + 1) + i) % (cfg.total + 1) = i := by
  rw [Nat.add_comm, Nat.add_mul_mod_self_right, Nat.mod_eq_of_lt (by omega)]

theorem postedAt_nextChunk {iter i : Nat} (hi : i ≤ cfg.total)
    (hp : p = iter * (cfg.total + 1) + i) : cfg.PostedAt iter p (cfg.nextChunk i) := by
  unfold nextChunk
  split
  · exact ⟨by assumption, hp⟩
  · obtain rfl : i = cfg.total := by omega
    exact hp

theorem postedAt_startIter {t : KvSt} (hp : p = t.iter * (cfg.total + 1)) :
    cfg.PostedAt (cfg.startIter t).iter p (cfg.startIter t).sender := by
  unfold startIter
  split
  · exact postedAt_nextChunk (Nat.zero_le _) (by simpa using hp)
  · trivial

/-- What a step of the sender posts. -/
def Posts (chunkSize : BitVec 32) (s s' : KvSt) (p : Nat) : Prop :=
  peerPosts chunkSize s.sender = none ∧ s'.inflight = s.inflight ∧
      cfg.PostedAt s'.iter p s'.sender ∨
    peerPosts chunkSize s.sender = some (cfg.runWrite chunkSize p) ∧
      s'.inflight = s.inflight ++ [cfg.runMsg p] ∧ cfg.PostedAt s'.iter (p + 1) s'.sender

theorem senderStep_posts (h : cfg.PostedAt s.iter p s.sender) (hs : cfg.senderStep s = some s') :
    s'.bm = s.bm ∧ cfg.Posts chunkSize s s' p := by
  have hframe (t : KvSt) : (cfg.startIter t).bm = t.bm ∧ (cfg.startIter t).inflight = t.inflight := by
    unfold startIter
    split <;> exact ⟨rfl, rfl⟩
  cases hpc : s.sender with
  | waitReady =>
    rw [hpc] at h
    obtain ⟨hit, hp⟩ := h
    simp only [senderStep, hpc] at hs
    split at hs <;> cases hs
    have hf := hframe (s.readBytes .ready 1)
    exact ⟨hf.1, .inl ⟨by rw [hpc]; rfl, hf.2,
      postedAt_startIter (by rw [KvSt.readBytes, hit, hp, Nat.zero_mul])⟩⟩
  | waitDone =>
    rw [hpc] at h
    simp only [senderStep, hpc] at hs
    split at hs <;> cases hs
    have hf := hframe { s.readBytes .done 1 with iter := s.iter + 1 }
    exact ⟨hf.1, .inl ⟨by rw [hpc]; rfl, hf.2, postedAt_startIter h⟩⟩
  | checkCredits i =>
    rw [hpc] at h
    simp only [senderStep, hpc] at hs; cases hs
    refine ⟨rfl, .inl ⟨by rw [hpc]; rfl, rfl, ?_⟩⟩
    show cfg.PostedAt s.iter p (if s.credits ≤ 0 then SenderPc.stall i else .drain i)
    split <;> exact h
  | stall i =>
    rw [hpc] at h
    simp only [senderStep, hpc] at hs
    split at hs <;> cases hs
    exact ⟨rfl, .inl ⟨by rw [hpc]; rfl, rfl, h⟩⟩
  | stallDrain i | drain i =>
    rw [hpc] at h
    simp only [senderStep, hpc] at hs; cases hs
    exact ⟨rfl, .inl ⟨by rw [hpc]; rfl, rfl, h⟩⟩
  | write i =>
    rw [hpc] at h
    obtain ⟨hi, hp⟩ := h
    simp only [senderStep, hpc] at hs; cases hs
    have hmod : p % (cfg.total + 1) = i := by rw [hp]; exact iter_mod s.iter (Nat.le_of_lt hi)
    refine ⟨rfl, .inr ⟨?_, ?_, hi, by rw [hp]⟩⟩
    · rw [hpc, runWrite, hmod, dataWrite, if_pos hi]
      rfl
    · rw [runMsg, hmod, msg, if_pos hi]
  | writeWait i =>
    rw [hpc] at h
    obtain ⟨hi, hp⟩ := h
    simp only [senderStep, hpc] at hs
    split at hs <;> cases hs
    exact ⟨rfl, .inl ⟨by rw [hpc]; rfl, rfl, postedAt_nextChunk hi (by omega)⟩⟩
  | sentinel =>
    rw [hpc] at h
    simp only [senderStep, hpc] at hs; cases hs
    have hmod : p % (cfg.total + 1) = cfg.total := by
      rw [show p = _ from h]; exact iter_mod s.iter (le_refl _)
    refine ⟨rfl, .inr ⟨?_, ?_, ?_⟩⟩
    · rw [hpc, runWrite, hmod, dataWrite, if_neg (Nat.lt_irrefl _)]
      rfl
    · rw [runMsg, hmod, msg, if_neg (Nat.lt_irrefl _)]
    · show p + 1 = (s.iter + 1) * (cfg.total + 1)
      rw [show p = _ from h, Nat.add_mul, Nat.one_mul, Nat.add_assoc]
  | sentinelWait =>
    rw [hpc] at h
    simp only [senderStep, hpc] at hs
    split at hs <;> cases hs
    exact ⟨rfl, .inl ⟨by rw [hpc]; rfl, rfl, h⟩⟩
  | finished | failed => simp [senderStep, hpc] at hs

/-- The sender waits for the done byte once its writes are complete, and only then goes on. -/
theorem senderStep_waits (hs : cfg.senderStep s = some s') :
    (s'.sender = .waitDone → s'.inflight = []) ∧ (s.sender = .waitDone ∨ s'.iter = s.iter) := by
  have hnext (i : Nat) : cfg.nextChunk i ≠ .waitDone := by
    unfold nextChunk
    split <;> simp
  have hstart (t : KvSt) : (cfg.startIter t).sender ≠ .waitDone ∧ (cfg.startIter t).iter = t.iter := by
    unfold startIter
    split
    · exact ⟨hnext 0, rfl⟩
    · exact ⟨by simp, rfl⟩
  cases hpc : s.sender with
  | waitReady =>
    simp only [senderStep, hpc] at hs
    split at hs <;> cases hs
    obtain ⟨h1, h2⟩ := hstart (s.readBytes .ready 1)
    exact ⟨fun h => absurd h h1, .inr h2⟩
  | waitDone =>
    simp only [senderStep, hpc] at hs
    split at hs <;> cases hs
    exact ⟨fun h => absurd h (hstart _).1, .inl rfl⟩
  | stall i =>
    simp only [senderStep, hpc] at hs
    split at hs <;> cases hs
    exact ⟨by simp, .inr rfl⟩
  | checkCredits i =>
    simp only [senderStep, hpc] at hs; cases hs
    refine ⟨fun h => ?_, .inr rfl⟩
    dsimp only at h
    split at h <;> cases h
  | stallDrain i | drain i | write i | sentinel =>
    simp only [senderStep, hpc] at hs; cases hs
    exact ⟨by simp, .inr rfl⟩
  | writeWait i =>
    simp only [senderStep, hpc] at hs
    split at hs <;> cases hs
    exact ⟨fun h => absurd h (hnext _), .inr rfl⟩
  | sentinelWait =>
    simp only [senderStep, hpc] at hs
    split at hs <;> cases hs
    exact ⟨fun _ => by assumption, .inr rfl⟩
  | finished | failed => simp [senderStep, hpc] at hs

namespace DataInv

theorem ready (h : cfg.DataInv chunkSize src s r p d n) : s.cq.length = d - n := by
  have hlen := congrArg List.length h.queue
  have hfl := h.flight
  have h1 := h.polled_le
  have h2 := h.delivered_le
  rw [List.length_append, List.length_map, List.length_range'] at hlen
  omega

/-- All writes of the iteration are delivered before the wait for the done byte. -/
theorem waiting (h : cfg.DataInv chunkSize src s r p d n) (hpc : s.sender = .waitDone) :
    cfg.total ≤ d := by
  have hlen := h.flight
  have hle := h.delivered_le
  have hp := h.sender
  rw [h.idle hpc, List.length_nil] at hlen
  rw [hpc] at hp
  calc cfg.total ≤ cfg.total + 1 := Nat.le_succ _
    _ ≤ (s.iter + 1) * (cfg.total + 1) := Nat.le_mul_of_pos_left _ (Nat.succ_pos _)
    _ = p := hp.symm
    _ ≤ d := by omega

/-- A step that leaves the writes alone. -/
theorem goto (h : cfg.DataInv chunkSize src s r p d n)
    (hsend : cfg.PostedAt s'.iter p s'.sender) (hrec : cfg.PolledAt s'.bm n s'.receiver)
    (hcq : s'.cq = s.cq) (hfl : s'.inflight = s.inflight)
    (hidle : s'.sender = .waitDone → s'.inflight = []) (hpass : 0 < s'.iter → cfg.total ≤ d) :
    cfg.DataInv chunkSize src s' r p d n :=
  ⟨hsend, hrec, by rw [hcq, hfl]; exact h.queue, by rw [hfl]; exact h.flight, h.writes,
    h.polled_le, h.delivered_le, hidle, hpass, h.placed⟩

/-- The receiver polls the oldest completion. -/
theorem poll (h : cfg.DataInv chunkSize src s r p d n) {imm : BitVec 32} {rest : List (BitVec 32)}
    (hcq : s.cq = imm :: rest) (hs : s'.sender = s.sender ∧ s'.iter = s.iter)
    (hcq' : s'.cq = rest) (hfl : s'.inflight = s.inflight)
    (hrec : imm = cfg.runMsg n → cfg.PolledAt s'.bm (n + 1) s'.receiver) :
    cfg.DataInv chunkSize src s' r p d (n + 1) := by
  have hready := h.ready
  have hq := h.queue
  rw [hcq, List.length_cons] at hready
  rw [hcq] at hq
  obtain ⟨-, himm, hrest⟩ := Transition.Stream.numbered_cons hq
  exact ⟨by rw [hs.1, hs.2]; exact h.sender, hrec himm, by rw [hcq', hfl]; exact hrest,
    by rw [hfl]; exact h.flight, h.writes, by omega, h.delivered_le,
    by rw [hs.1, hfl]; exact h.idle, by rw [hs.2]; exact h.passed, h.placed⟩

theorem senderStep (h : cfg.DataInv chunkSize src s r p d n) (hs : cfg.senderStep s = some s') :
    ∃ p, cfg.DataInv chunkSize src s' (r.post (peerPosts chunkSize s.sender)) p d n := by
  obtain ⟨hrecv, -, hcq, -⟩ := senderStep_frame hs
  obtain ⟨hidle, hiter⟩ := senderStep_waits hs
  have hpass : 0 < s'.iter → cfg.total ≤ d := by
    intro hpos
    rcases hiter with hpc | hiter
    · exact h.waiting hpc
    · exact h.passed (hiter ▸ hpos)
  have hposts : s'.bm = s.bm ∧ cfg.Posts chunkSize s s' p := senderStep_posts h.sender hs
  obtain ⟨hbm, ⟨hpost, hfl, hat⟩ | ⟨hpost, hfl, hat⟩⟩ := hposts
  · refine ⟨p, ?_⟩
    rw [hpost, DataLog.post, Option.toList_none, List.append_nil]
    exact h.goto hat (by rw [hbm, hrecv]; exact h.receiver) hcq hfl hidle hpass
  · have h1 := h.polled_le
    have h2 := h.delivered_le
    refine ⟨p + 1, hat, by rw [hbm, hrecv]; exact h.receiver, ?_, ?_, ?_, h1, by omega, hidle,
      hpass, h.placed⟩
    · rw [hcq, hfl, ← List.append_assoc, h.queue, show p + 1 - n = p - n + 1 by omega,
        List.range'_1_concat, show n + (p - n) = p by omega, List.map_append, List.map_singleton]
    · rw [hfl, List.length_append, h.flight, List.length_singleton]
      omega
    · rw [hpost, DataLog.post, h.writes, show p + 1 - d = p - d + 1 by omega, List.range'_1_concat,
        show d + (p - d) = p by omega, List.map_append, List.map_singleton]
      rfl

theorem receiverStep (h : cfg.DataInv chunkSize src s r p d n)
    (hs : cfg.receiverStep s = some s') : ∃ n, cfg.DataInv chunkSize src s' r p d n := by
  have hrec := h.receiver
  cases hpc : s.receiver with
  | prePost k =>
    rw [hpc] at hrec
    simp only [KvConfig.receiverStep, hpc] at hs
    split at hs <;> cases hs
    · exact ⟨n, h.goto h.sender hrec rfl rfl h.idle h.passed⟩
    · exact ⟨n, h.goto h.sender hrec rfl rfl h.idle h.passed⟩
  | sendReady | replenish | sendCredit | sendDone =>
    rw [hpc] at hrec
    simp only [KvConfig.receiverStep, hpc] at hs; cases hs
    exact ⟨n, h.goto h.sender hrec rfl rfl h.idle h.passed⟩
  | loopCheck =>
    rw [hpc] at hrec
    obtain ⟨hn, ht⟩ := hrec
    simp only [KvConfig.receiverStep, hpc] at hs; cases hs
    refine ⟨n, h.goto h.sender ?_ rfl rfl h.idle h.passed⟩
    cases hc : bitmapAllComplete s.bm with
    | true => exact ((KvGrid.allComplete_iff ht hn).mp hc).ge
    | false => exact ⟨hn, ht⟩
  | poll =>
    rw [hpc] at hrec
    obtain ⟨hn, ht⟩ := hrec
    simp only [KvConfig.receiverStep, hpc] at hs
    split at hs
    · cases hs
    · rename_i imm rest hcq
      have hmsg : cfg.runMsg n = cfg.msg n := by rw [runMsg, Nat.mod_eq_of_lt (by omega)]
      split at hs <;> cases hs
      · -- The sentinel comes after all chunks.
        rename_i hsent
        refine ⟨n + 1, h.poll hcq ⟨rfl, rfl⟩ rfl rfl fun himm => ?_⟩
        by_contra hlt
        rw [hmsg, msg, if_pos (by simp only [PolledAt] at hlt; omega)] at himm
        exact cfg.imm_ne_sentinel (by simp only [PolledAt] at hlt; omega) (himm ▸ hsent)
      · rename_i hne
        refine ⟨n + 1, h.poll hcq ⟨rfl, rfl⟩ rfl rfl fun himm => ?_⟩
        rw [hmsg, msg] at himm
        split at himm
        · rename_i hlt
          simp only [himm]
          exact ⟨hlt, ht.set hlt⟩
        · exact absurd himm hne
  | drain =>
    rw [hpc] at hrec
    simp only [KvConfig.receiverStep, hpc] at hs
    split at hs
    · cases hs
    · rename_i imm rest hcq
      cases hs
      exact ⟨n + 1, h.poll hcq ⟨rfl, rfl⟩ rfl rfl fun _ => Nat.le_succ_of_le hrec⟩
  | closed | failed => simp [KvConfig.receiverStep, hpc] at hs

/-- The bytes of the oldest write arrive with its completion. -/
theorem deliver (h : cfg.DataInv chunkSize src s r p d n) {imm : BitVec 32}
    {rest : List (BitVec 32)} (hfl : s.inflight = imm :: rest) (recvPosted : Nat) :
    cfg.DataInv chunkSize src
      { s with recvPosted := recvPosted, inflight := rest, cq := s.cq ++ [imm] }
      (r.deliver src) p (d + 1) n := by
  have hlen := h.flight
  have hw := h.writes
  have h1 := h.polled_le
  rw [hfl, List.length_cons] at hlen
  rw [show p - d = p - (d + 1) + 1 by omega, List.range'_succ, List.map_cons] at hw
  have hr : r.deliver src = ⟨(List.range' (d + 1) (p - (d + 1))).map (cfg.runWrite chunkSize),
      copyRange src r.dst (cfg.runWrite chunkSize d).1 (cfg.runWrite chunkSize d).2⟩ := by
    rw [DataLog.deliver, hw]
  rw [hr]
  refine ⟨h.sender, h.receiver, ?_, ?_, rfl, by omega, by omega, fun hpc => ?_,
    fun hpos => Nat.le_succ_of_le (h.passed hpos), fun j hj x hlo hhi => ?_⟩
  · rw [List.append_assoc, List.singleton_append, ← hfl]
    exact h.queue
  · show rest.length = p - (d + 1)
    omega
  · rw [h.idle hpc] at hfl
    cases hfl
  · rcases Nat.lt_succ_iff_lt_or_eq.mp hj with hj | rfl
    · exact copyRange_of_eq (h.placed j hj x hlo hhi) _ _
    · exact copyRange_inside _ _ ⟨hlo, hhi⟩

/-- Where chunk by chunk is in place, so is the buffer. -/
theorem all_placed (h : cfg.DataInv chunkSize src s r p d n) (hd : cfg.total ≤ d) {x : Nat}
    (hx : x < cfg.total * chunkSize.toNat) : r.dst x = src x := by
  have hpos : 0 < chunkSize.toNat := Nat.pos_of_ne_zero fun h0 => by rw [h0] at hx; omega
  have hj : x / chunkSize.toNat < cfg.total := (Nat.div_lt_iff_lt_mul hpos).mpr hx
  have hwrite : cfg.runWrite chunkSize (x / chunkSize.toNat) =
      (x / chunkSize.toNat * chunkSize.toNat, chunkSize.toNat) := by
    rw [runWrite, dataWrite, Nat.mod_eq_of_lt (by omega), if_pos hj]
  refine h.placed (x / chunkSize.toNat) (by omega) x ?_ ?_ <;> rw [hwrite]
  · exact Nat.div_mul_le_self x _
  · have := Nat.div_add_mod' x chunkSize.toNat
    have := Nat.mod_lt x hpos
    dsimp only
    omega

end DataInv

theorem dataInv (h : (cfg.peerDataSys chunkSize src dst).Reachable (s, r)) :
    ∃ p d n, cfg.DataInv chunkSize src s r p d n := by
  refine h.invariant (I := fun x => ∃ p d n, cfg.DataInv chunkSize src x.1 x.2 p d n) ?_ ?_
  · exact ⟨0, 0, 0, ⟨rfl, rfl⟩, ⟨Nat.zero_le _, cfg.tracks_init⟩, rfl, rfl, rfl, le_refl _,
      le_refl _, fun h0 => (by cases h0), fun h0 => absurd h0 (Nat.lt_irrefl _),
      fun j hj => absurd hj (Nat.not_lt_zero _)⟩
  · rintro ⟨s, r⟩ a ⟨s', r'⟩ ⟨p, d, n, hi⟩ hs
    obtain ⟨hst, hr⟩ := Transition.Sys.withHistory_step hs
    change cfg.kvStep s a = some s' at hst
    dsimp only [logPeer] at hi hr ⊢
    subst hr
    cases a with
    | sender =>
      obtain ⟨p', hi'⟩ := hi.senderStep hst
      exact ⟨p', d, n, hi'⟩
    | receiver =>
      obtain ⟨n', hi'⟩ := hi.receiverStep hst
      exact ⟨p, d, n', hi'⟩
    | senderFail =>
      simp only [kvStep] at hst
      split at hst <;> cases hst
      exact ⟨p, d, n, hi.goto trivial hi.receiver rfl rfl (fun h => by cases h) hi.passed⟩
    | drainTimeout =>
      simp only [kvStep] at hst
      split at hst <;> cases hst
      rename_i hpc
      have hrec := hi.receiver
      rw [hpc] at hrec
      exact ⟨p, d, n, hi.goto hi.sender hrec rfl rfl hi.idle hi.passed⟩
    | receiverFail =>
      simp only [kvStep] at hst
      split at hst <;> cases hst
      exact ⟨p, d, n, hi.goto hi.sender trivial rfl rfl hi.idle hi.passed⟩
    | deliverWrite =>
      simp only [kvStep] at hst
      split at hst
      · cases hst
      · rename_i imm rest hfl
        split at hst <;> cases hst
        exact ⟨p, d + 1, n, hi.deliver hfl _⟩
    | deliverByte =>
      simp only [kvStep] at hst
      split at hst <;> cases hst
      exact ⟨p, d, n, hi.goto hi.sender hi.receiver rfl rfl hi.idle hi.passed⟩

/-- The receiver has left its loop; or the sender waits for the done byte, or has read a byte as
that. -/
def Transferred (s : KvSt) : Prop :=
  (s.receiver = .drain ∨ s.receiver = .sendDone ∨ s.receiver = .closed) ∨
    s.sender = .waitDone ∨ 0 < s.iter

end KvConfig

/-- The done byte may be a credit, but the transfer is complete all the same: when the receiver has
left its loop, and when the sender waits for the byte or has read one, the whole buffer is in place,
and verification finds no error. -/
theorem peer_verifies (cfg : KvConfig) (chunkSize : BitVec 32) (mem dst : Memory)
    (s : KvSt) (r : DataLog)
    (h : (cfg.peerDataSys chunkSize (cfg.fillAll chunkSize mem) dst).Reachable (s, r))
    (hdone : KvConfig.Transferred s) :
    (∀ x < cfg.total * chunkSize.toNat, r.dst x = cfg.fillAll chunkSize mem x) ∧
      cfg.verifyAll chunkSize r.dst = 0 := by
  obtain ⟨p, d, n, hi⟩ := KvConfig.dataInv h
  have hd : cfg.total ≤ d := by
    rcases hdone with hleft | hpc | hpos
    · have hrec := hi.receiver
      have hle := hi.polled_le
      rcases hleft with hpc | hpc | hpc <;> rw [hpc] at hrec <;> exact Nat.le_trans hrec hle
    · exact hi.waiting hpc
    · exact hi.passed hpos
  have hall : ∀ x < cfg.total * chunkSize.toNat, r.dst x = cfg.fillAll chunkSize mem x :=
    fun x hx => hi.all_placed hd hx
  exact ⟨hall, KvGrid.verifies_of_eq hall⟩

/-- One byte, and the sender past its wait before the done byte is sent. -/
theorem peer_verifies_byte : ∃ s r,
    (oneChunk.peerDataSys 1 (oneChunk.fillAll 1 fun _ => 9) fun _ => 9).Reachable (s, r) ∧
      0 < s.iter ∧ oneChunk.verifyAll 1 r.dst = 0 := by
  obtain ⟨⟨s, r⟩, hr, hpos⟩ : ∃ x : KvSt × DataLog,
      (oneChunk.peerDataSys 1 (oneChunk.fillAll 1 fun _ => 9) fun _ => 9).Reachable x ∧
        0 < x.1.iter :=
    Transition.Sys.exists_of_exec (oneChunkRun ++ [.sender]) (by decide +kernel)
  exact ⟨s, r, hr, hpos, (peer_verifies oneChunk 1 _ _ s r hr (.inr (.inr hpos))).2⟩

/-! ## One machine -/

namespace KvConfig

variable (cfg chunkSize)

/-- The write that `run_loopback` posts in its next step. -/
def loopPosts : LoopPc → Option (Nat × Nat)
  | .write i => some (i * chunkSize.toNat, chunkSize.toNat)
  | .sentinel => some (0, 4)
  | _ => none

def logLoop (src : Memory) (s : LoopSt) (a : LoopAct) (_ : LoopSt) (r : DataLog) : DataLog :=
  match a with
  | .sender => r.post (loopPosts chunkSize s.pc)
  | .deliverWrite => r.deliver src
  | .senderFail | .drainTimeout => r

/-- The transfer with the destination buffer. -/
def loopDataSys (src dst : Memory) : Transition.Sys (LoopSt × DataLog) LoopAct :=
  cfg.loopSys.withHistory ⟨[], dst⟩ (logLoop chunkSize src)

/-- No write is on its way here. -/
def Idle : LoopPc → Prop
  | .writeWait _ | .sentinelWait | .failed => False
  | _ => True

/-- The byte is in place, or on its way. -/
def Covered (src : Memory) (r : DataLog) (x : Nat) : Prop :=
  r.dst x = src x ∨ ∃ w ∈ r.writes, w.1 ≤ x ∧ x < w.1 + w.2

/-- The chunks that this iteration has written are covered, and all of them after the first. -/
structure LoopData (src : Memory) (s : LoopSt) (r : DataLog) : Prop where
  writes : r.writes.length = s.inflight.length
  idle : Idle s.pc → s.inflight = []
  current : ∀ x < min (cfg.written s.pc) cfg.total * chunkSize.toNat, Covered src r x
  earlier : 0 < s.iter → ∀ x < cfg.total * chunkSize.toNat, Covered src r x

end KvConfig

section Loopback

variable {s s' : LoopSt}

namespace KvConfig

theorem Covered.post {x : Nat} (h : Covered src r x) (w : Option (Nat × Nat)) :
    Covered src (r.post w) x :=
  h.imp_right fun ⟨v, hv, hx⟩ => ⟨v, List.mem_append_left _ hv, hx⟩

theorem Covered.deliver {x : Nat} (h : Covered src r x) : Covered src (r.deliver src) x := by
  rw [DataLog.deliver]
  split
  · exact h
  · rename_i off len rest hw
    rcases h with hx | ⟨v, hv, hx⟩
    · exact .inl (copyRange_of_eq hx off len)
    · rw [hw, List.mem_cons] at hv
      rcases hv with rfl | hv
      · exact .inl (copyRange_inside src r.dst hx)
      · exact .inr ⟨v, hv, hx⟩

namespace LoopData

/-- A step that posts nothing, within an iteration. -/
theorem goto (h : cfg.LoopData chunkSize src s r) (hfl : s'.inflight = s.inflight)
    (hidle : Idle s'.pc → s'.inflight = [])
    (hw : min (cfg.written s'.pc) cfg.total ≤ min (cfg.written s.pc) cfg.total)
    (hit : s'.iter = s.iter) : cfg.LoopData chunkSize src s' r :=
  ⟨by rw [hfl]; exact h.writes, hidle,
    fun x hx => h.current x (Nat.lt_of_lt_of_le hx (Nat.mul_le_mul_right _ hw)),
    fun hpos => h.earlier (hit ▸ hpos)⟩

/-- The end of an iteration. -/
theorem finish (h : cfg.LoopData chunkSize src s r) (hpc : s.pc = .drainSentinel)
    (cq : List (BitVec 32)) :
    cfg.LoopData chunkSize src { s with pc := .iterHead, iter := s.iter + 1, cq := cq } r := by
  refine ⟨h.writes, fun _ => h.idle (by rw [hpc]; trivial), fun x hx => ?_, fun _ x hx => ?_⟩
  · simp only [written, Nat.zero_min, Nat.zero_mul] at hx
    omega
  · refine h.current x ?_
    rw [hpc, written, Nat.min_eq_right (Nat.le_succ _)]
    exact hx

/-- A write is posted that covers what its place says. -/
theorem post (h : cfg.LoopData chunkSize src s r) {off len : Nat} {imm : BitVec 32} {pc : LoopPc}
    (hidle : ¬ Idle pc)
    (hw : ∀ x < min (cfg.written pc) cfg.total * chunkSize.toNat,
      x < min (cfg.written s.pc) cfg.total * chunkSize.toNat ∨ off ≤ x ∧ x < off + len) :
    cfg.LoopData chunkSize src { s with pc := pc, inflight := s.inflight ++ [imm] }
      (r.post (some (off, len))) := by
  refine ⟨?_, fun hi => absurd hi hidle, fun x hx => ?_, fun hpos x hx => (h.earlier hpos x hx).post _⟩
  · simp [DataLog.post, h.writes]
  · rcases hw x hx with hx | hx
    · exact (h.current x hx).post _
    · exact .inr ⟨(off, len), List.mem_append_right _ (List.mem_singleton_self _), hx⟩

theorem sender (h : cfg.LoopData chunkSize src s r) (hs : cfg.loopSender s = some s') :
    cfg.LoopData chunkSize src s' (r.post (loopPosts chunkSize s.pc)) := by
  have hnone (hp : loopPosts chunkSize s.pc = none) :
      r.post (loopPosts chunkSize s.pc) = r := by
    rw [hp, DataLog.post, Option.toList_none, List.append_nil]
  cases hpc : s.pc with
  | iterHead =>
    have hempty := h.idle (by rw [hpc]; trivial)
    rw [← hpc, hnone (by rw [hpc]; rfl)]
    simp only [loopSender, hpc] at hs; cases hs
    refine h.goto rfl (fun _ => hempty) ?_ rfl
    simp only [hpc]
    split <;> exact le_refl _
  | prePost n =>
    have hempty := h.idle (by rw [hpc]; trivial)
    rw [← hpc, hnone (by rw [hpc]; rfl)]
    simp only [loopSender, hpc] at hs
    split at hs <;> cases hs
    · exact h.goto rfl (fun _ => hempty) (by rw [hpc]; exact le_refl _) rfl
    · exact h.goto rfl (fun _ => hempty) (by simp only [written_loopNext (Nat.zero_le _)]; omega) rfl
  | checkCredits i =>
    have hempty := h.idle (by rw [hpc]; trivial)
    rw [← hpc, hnone (by rw [hpc]; rfl)]
    simp only [loopSender, hpc] at hs; cases hs
    refine h.goto rfl (fun _ => hempty) ?_ rfl
    simp only [hpc]
    split <;> exact le_refl _
  | stallPoll i =>
    have hempty := h.idle (by rw [hpc]; trivial)
    rw [← hpc, hnone (by rw [hpc]; rfl)]
    simp only [loopSender, hpc] at hs
    split at hs <;> cases hs
    exact h.goto rfl (fun _ => hempty) (by rw [hpc]; exact le_refl _) rfl
  | stallReplenish i | sentinelRecv =>
    have hempty := h.idle (by rw [hpc]; trivial)
    rw [← hpc, hnone (by rw [hpc]; rfl)]
    simp only [loopSender, hpc] at hs; cases hs
    exact h.goto rfl (fun _ => hempty) (by rw [hpc]; exact le_refl _) rfl
  | write i =>
    simp only [loopSender, hpc] at hs; cases hs
    refine h.post id fun x hx => ?_
    rw [hpc]
    simp only [written] at hx ⊢
    rcases Nat.lt_or_ge i cfg.total with hi | hi
    · rw [Nat.min_eq_left hi, Nat.succ_mul] at hx
      rw [Nat.min_eq_left (Nat.le_of_lt hi)]
      omega
    · rw [Nat.min_eq_right (by omega)] at hx
      rw [Nat.min_eq_right hi]
      exact .inl hx
  | writeWait i =>
    rw [← hpc, hnone (by rw [hpc]; rfl)]
    simp only [loopSender, hpc] at hs
    split at hs <;> cases hs
    rename_i hempty
    refine h.goto rfl (fun _ => hempty) ?_ rfl
    simp only [hpc, loopNext]
    split
    · exact le_refl _
    · simp only [written]
      omega
  | sentinel =>
    simp only [loopSender, hpc] at hs; cases hs
    refine h.post id fun x hx => .inl ?_
    rw [hpc]
    simpa only [written, Nat.min_eq_right (Nat.le_succ _), Nat.min_self] using hx
  | sentinelWait =>
    rw [← hpc, hnone (by rw [hpc]; rfl)]
    simp only [loopSender, hpc] at hs
    split at hs <;> cases hs
    rename_i hempty
    exact h.goto rfl (fun _ => hempty) (by rw [hpc]; exact le_refl _) rfl
  | drainCheck =>
    have hempty := h.idle (by rw [hpc]; trivial)
    rw [← hpc, hnone (by rw [hpc]; rfl)]
    simp only [loopSender, hpc] at hs; cases hs
    refine h.goto rfl (fun _ => hempty) ?_ rfl
    simp only [hpc]
    split <;> exact le_refl _
  | drainPoll =>
    have hempty := h.idle (by rw [hpc]; trivial)
    rw [← hpc, hnone (by rw [hpc]; rfl)]
    simp only [loopSender, hpc] at hs
    split at hs <;> cases hs
    refine h.goto rfl (fun _ => hempty) ?_ rfl
    simp only [hpc]
    split <;> exact le_refl _
  | drainSentinel =>
    rw [← hpc, hnone (by rw [hpc]; rfl)]
    simp only [loopSender, hpc] at hs
    split at hs <;> cases hs
    exact h.finish hpc _
  | finished | failed => simp [loopSender, hpc] at hs

theorem deliver (h : cfg.LoopData chunkSize src s r) {imm : BitVec 32} {rest : List (BitVec 32)}
    (hfl : s.inflight = imm :: rest) (recvPosted : Nat) :
    cfg.LoopData chunkSize src
      { s with recvPosted := recvPosted, inflight := rest, cq := s.cq ++ [imm] }
      (r.deliver src) := by
  have hlen := h.writes
  rw [hfl, List.length_cons] at hlen
  refine ⟨?_, fun hidle => ?_, fun x hx => (h.current x hx).deliver,
    fun hpos x hx => (h.earlier hpos x hx).deliver⟩
  · rw [DataLog.writes_deliver, List.length_tail, hlen, Nat.add_sub_cancel]
  · rw [h.idle hidle] at hfl
    cases hfl

end LoopData

theorem loopData (h : (cfg.loopDataSys chunkSize src dst).Reachable (s, r)) :
    cfg.LoopData chunkSize src s r := by
  refine h.invariant (I := fun x => cfg.LoopData chunkSize src x.1 x.2) ?_ ?_
  · refine ⟨rfl, fun _ => rfl, fun x hx => ?_, fun hpos => absurd hpos (Nat.lt_irrefl _)⟩
    simp only [loopDataSys, Transition.Sys.withHistory, loopSys, written, Nat.zero_min,
      Nat.zero_mul] at hx
    omega
  · rintro ⟨s, r⟩ a ⟨s', r'⟩ hi hs
    obtain ⟨hst, hr⟩ := Transition.Sys.withHistory_step hs
    change cfg.loopStep s a = some s' at hst
    dsimp only [logLoop] at hi hr ⊢
    subst hr
    cases a with
    | sender => exact hi.sender hst
    | senderFail =>
      simp only [loopStep] at hst
      split at hst <;> cases hst
      refine hi.goto rfl False.elim ?_ rfl
      simp only [written]
      omega
    | drainTimeout =>
      simp only [loopStep] at hst
      split at hst <;> cases hst
      rename_i hpc
      exact hi.finish hpc s.cq
    | deliverWrite =>
      simp only [loopStep] at hst
      split at hst
      · cases hst
      · rename_i imm rest hfl
        split at hst <;> cases hst
        exact hi.deliver hfl _

end KvConfig

/-- Each iteration of `run_loopback` ends with the source in the destination buffer, and its
verification finds no error. -/
theorem loopback_verifies (cfg : KvConfig) (chunkSize : BitVec 32) (mem dst : Memory)
    (s : LoopSt) (r : DataLog)
    (h : (cfg.loopDataSys chunkSize (cfg.fillAll chunkSize mem) dst).Reachable (s, r))
    (hpc : s.pc = .iterHead) (hiter : 0 < s.iter) :
    (∀ x < cfg.total * chunkSize.toNat, r.dst x = cfg.fillAll chunkSize mem x) ∧
      cfg.verifyAll chunkSize r.dst = 0 := by
  have hi := KvConfig.loopData h
  have hempty : r.writes = [] := by
    have hfl := hi.idle (by rw [hpc]; trivial)
    have hlen := hi.writes
    rw [hfl] at hlen
    exact List.eq_nil_of_length_eq_zero hlen
  have hall : ∀ x < cfg.total * chunkSize.toNat, r.dst x = cfg.fillAll chunkSize mem x := by
    intro x hx
    rcases hi.earlier hiter x hx with hx | ⟨w, hw, -⟩
    · exact hx
    · rw [hempty] at hw
      cases hw
  exact ⟨hall, KvGrid.verifies_of_eq hall⟩

theorem loopback_verifies_byte : ∃ s r,
    (twoIterations.loopDataSys 1 (twoIterations.fillAll 1 fun _ => 9) fun _ => 9).Reachable (s, r) ∧
      s.iter = 2 ∧ twoIterations.verifyAll 1 r.dst = 0 := by
  obtain ⟨⟨s, r⟩, hr, hpc, hiter⟩ : ∃ x : LoopSt × DataLog,
      (twoIterations.loopDataSys 1 (twoIterations.fillAll 1 fun _ => 9) fun _ => 9).Reachable x ∧
        x.1.pc = .iterHead ∧ x.1.iter = 2 :=
    Transition.Sys.exists_of_exec (iterationRun 1 ++ iterationRun 0) (by decide +kernel)
  exact ⟨s, r, hr, hiter,
    (loopback_verifies twoIterations 1 _ _ s r hr hpc (hiter ▸ Nat.succ_pos 1)).2⟩

end Loopback

end Dmaplane
