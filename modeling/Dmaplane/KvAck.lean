import Dmaplane.KvPeer
import Dmaplane.Lib.Stream

/-!
# Dmaplane.KvAck

The done byte of the KVCache transfer does not acknowledge it.

The sender reads credits only before it posts a chunk, and the receiver sends the credit of the
last chunk after it has seen that chunk. So when the sender waits for the done byte, the credit of
the last chunk is still to be read, and the wait takes it (`first_wait`). Up to that point every
byte is read as what it was sent as (`First`).
-/

namespace Dmaplane

open KvGrid

namespace KvConfig

variable (cfg : KvConfig)

/-- The `j`-th write of an iteration. -/
def msg (j : Nat) : BitVec 32 := if j < cfg.total then cfg.imm j else kvSentinel

/-- What the sender's place says in its first iteration: `p` writes are posted and `k` credits
read. -/
def SenderOk (p k : Nat) : SenderPc → Prop
  | .waitReady => p = 0
  | .checkCredits i | .stall i | .stallDrain i | .drain i | .write i =>
    p = i ∧ i < cfg.total ∧ k ≤ i
  | .writeWait i => p = i + 1 ∧ i < cfg.total ∧ k ≤ i
  | .sentinel => p = cfg.total ∧ (k < cfg.total ∨ cfg.total = 0 ∧ k = 0)
  | .sentinelWait | .waitDone => p = cfg.total + 1 ∧ (k < cfg.total ∨ cfg.total = 0 ∧ k = 0)
  | .finished | .failed => p ≤ cfg.total + 1

/-- What the receiver's place says: `r` writes are polled and `c` credits sent. -/
def ReceiverOk (bm : LayerBitmap) (r c : Nat) : ReceiverPc → Prop
  | .prePost _ | .sendReady => r = 0 ∧ c = 0 ∧ cfg.Tracks bm 0
  | .loopCheck => c = r ∧ r ≤ cfg.total ∧ cfg.Tracks bm r
  | .poll => c = r ∧ r < cfg.total ∧ cfg.Tracks bm r
  | .replenish | .sendCredit => c + 1 = r ∧ r ≤ cfg.total ∧ cfg.Tracks bm r
  | .drain | .sendDone | .closed => c = cfg.total ∧ cfg.total ≤ r ∧ cfg.Tracks bm cfg.total
  | .failed => c ≤ r ∧ c ≤ cfg.total

/-- The bytes the receiver has sent by then. -/
def SentOk (c : Nat) (l : List TcpByte) : ReceiverPc → Prop
  | .prePost _ | .sendReady => l = []
  | .closed => l = .ready :: (List.replicate c .credit ++ [.done])
  | .failed => l = [] ∨ l = .ready :: List.replicate c .credit
  | _ => l = .ready :: List.replicate c .credit

/-- The first iteration, until the sender passes its wait. -/
structure First (s : KvSt) (p r k c : Nat) : Prop where
  sender : cfg.SenderOk p k s.sender
  receiver : cfg.ReceiverOk s.bm r c s.receiver
  sent : SentOk c s.bytesSent s.receiver
  reads : s.reads = [] ∧ k = 0 ∧ (s.sender = .waitReady ∨ s.sender = .failed) ∨
    s.reads = (.ready, .ready) :: List.replicate k (.credit, .credit) ∧ s.sender ≠ .waitReady
  queue : s.cq ++ s.inflight = (List.range' r (p - r)).map cfg.msg
  polled_le : r ≤ p

end KvConfig

variable {cfg : KvConfig} {s s' : KvSt} {p r k c : Nat}

theorem bytesSent_readBytes (s : KvSt) (x : TcpByte) (n : Nat) :
    (s.readBytes x n).bytesSent = s.bytesSent := by
  simp [KvSt.bytesSent, KvSt.readBytes, Function.comp_def]

theorem KvConfig.ReceiverOk.credits_le {bm : LayerBitmap} {pc : ReceiverPc}
    (h : cfg.ReceiverOk bm r c pc) : c ≤ r ∧ c ≤ cfg.total := by
  cases pc <;> simp only [KvConfig.ReceiverOk] at h <;> omega

/-- Credits come off the front of credits, up to the byte that ends them. -/
theorem credits_split (tail : List TcpByte) (ht : tail.head? ≠ some .credit) :
    ∀ {k c : Nat} {rest : List TcpByte},
      List.replicate k .credit ++ rest = List.replicate c .credit ++ tail →
        k ≤ c ∧ rest = List.replicate (c - k) .credit ++ tail := by
  intro k
  induction k with
  | zero => intro c rest h; exact ⟨Nat.zero_le _, by simpa using h⟩
  | succ k ih =>
    intro c rest h
    cases c with
    | zero =>
      rw [List.replicate_succ, List.cons_append, List.replicate_zero, List.nil_append] at h
      rw [← h] at ht
      exact absurd rfl ht
    | succ c =>
      simp only [List.replicate_succ, List.cons_append, List.cons.injEq, true_and] at h
      obtain ⟨hle, hr⟩ := ih h
      exact ⟨by omega, by rw [hr, Nat.add_sub_add_right]⟩

/-- What is still to be read, once the ready byte has been. -/
theorem unread_of_sent {pc : ReceiverPc} {l rest : List TcpByte}
    (h : KvConfig.SentOk c l pc) (hl : l = .ready :: (List.replicate k .credit ++ rest)) :
    k ≤ c ∧ (rest = List.replicate (c - k) .credit ∨
      pc = .closed ∧ rest = List.replicate (c - k) .credit ++ [.done]) := by
  have hplain (h : l = .ready :: List.replicate c .credit) :
      k ≤ c ∧ rest = List.replicate (c - k) .credit := by
    rw [hl, List.cons.injEq] at h
    simpa using credits_split [] (by simp) (h.2.trans (List.append_nil _).symm)
  cases pc with
  | prePost | sendReady => simp only [KvConfig.SentOk] at h; rw [h] at hl; cases hl
  | closed =>
    simp only [KvConfig.SentOk] at h
    rw [hl, List.cons.injEq] at h
    obtain ⟨hle, hr⟩ := credits_split [.done] (by simp) h.2
    exact ⟨hle, .inr ⟨rfl, hr⟩⟩
  | failed =>
    rcases h with h | h
    · rw [h] at hl; cases hl
    · exact (hplain h).imp_right .inl
  | loopCheck | poll | replenish | sendCredit | drain | sendDone =>
    exact (hplain h).imp_right .inl

namespace KvConfig.First

theorem passes_eq_zero (h : cfg.First s p r k c) : s.passes = 0 := by
  rcases h.reads with ⟨hr, _⟩ | ⟨hr, _⟩ <;> simp [KvSt.passes, hr]

theorem bytesSent_eq (h : cfg.First s p r k c) (hs : s.sender ≠ .waitReady)
    (hf : s.sender ≠ .failed) :
    s.bytesSent = .ready :: (List.replicate k .credit ++ (s.sock ++ s.wire)) := by
  rcases h.reads with ⟨_, _, h1 | h1⟩ | ⟨hr, _⟩
  · exact absurd h1 hs
  · exact absurd h1 hf
  · simp [KvSt.bytesSent, hr]

/-- While a chunk is still to be posted, everything there is to read is a credit. -/
theorem read_credits (h : cfg.First s p r k c) (hs : s.sender ≠ .waitReady)
    (hf : s.sender ≠ .failed) (hp : p < cfg.total) {n : Nat} (hn : n ≤ s.sock.length) :
    s.sock.take n = List.replicate n .credit ∧ k + n ≤ p := by
  obtain ⟨hle, hrest | ⟨hc, _⟩⟩ := unread_of_sent h.sent (h.bytesSent_eq hs hf)
  · have hcr := (ReceiverOk.credits_le h.receiver).1
    have hpol := h.polled_le
    have hlen := congrArg List.length hrest
    have htake := congrArg (List.take n) hrest
    simp only [List.length_append, List.length_replicate] at hlen
    rw [List.take_append_of_le_length hn, List.take_replicate, Nat.min_eq_left (by omega)] at htake
    exact ⟨htake, by omega⟩
  · have hr := h.receiver
    have hpol := h.polled_le
    simp only [hc, KvConfig.ReceiverOk] at hr
    omega

/-- Reading `n` credits. -/
theorem readCredits (h : cfg.First s p r k c) (hs : s.sender ≠ .waitReady)
    (hf : s.sender ≠ .failed) (hp : p < cfg.total) {n : Nat} (hn : n ≤ s.sock.length)
    {pc : SenderPc} {credits : Int} (hpc : cfg.SenderOk p (k + n) pc) (hne : pc ≠ .waitReady) :
    cfg.First { s.readBytes .credit n with sender := pc, credits := credits } p r (k + n) c := by
  obtain ⟨htake, _⟩ := h.read_credits hs hf hp hn
  refine ⟨hpc, h.receiver, ?_, .inr ⟨?_, hne⟩, h.queue, h.polled_le⟩
  · have := bytesSent_readBytes s .credit n
    exact this ▸ h.sent
  · rcases h.reads with ⟨_, _, h1 | h1⟩ | ⟨hr, _⟩
    · exact absurd h1 hs
    · exact absurd h1 hf
    · simp [KvSt.readBytes, htake, hr]

/-- The sender moves without reading or posting. -/
theorem senderGoto (h : cfg.First s p r k c) (hs : s.sender ≠ .waitReady) (hf : s.sender ≠ .failed)
    {pc : SenderPc} (hpc : cfg.SenderOk p k pc) (hne : pc ≠ .waitReady) (credits : Int) :
    cfg.First { s with sender := pc, credits := credits } p r k c := by
  refine ⟨hpc, h.receiver, h.sent, .inr ⟨?_, hne⟩, h.queue, h.polled_le⟩
  rcases h.reads with ⟨_, _, h1 | h1⟩ | ⟨hr, _⟩
  · exact absurd h1 hs
  · exact absurd h1 hf
  · exact hr

/-- The sender posts its `p`-th write. -/
theorem post (h : cfg.First s p r k c) (hs : s.sender ≠ .waitReady) (hf : s.sender ≠ .failed)
    {pc : SenderPc} (hpc : cfg.SenderOk (p + 1) k pc) (hne : pc ≠ .waitReady) :
    cfg.First { s with sender := pc, inflight := s.inflight ++ [cfg.msg p] } (p + 1) r k c := by
  have hg := h.polled_le
  refine ⟨hpc, h.receiver, h.sent, .inr ⟨?_, hne⟩, ?_, by omega⟩
  · rcases h.reads with ⟨_, _, h1 | h1⟩ | ⟨hr, _⟩
    · exact absurd h1 hs
    · exact absurd h1 hf
    · exact hr
  · simp only [← List.append_assoc, h.queue]
    rw [show p + 1 - r = (p - r) + 1 by omega, List.range'_concat, List.map_append]
    simp [show r + (p - r) = p by omega]

theorem senderOk_nextChunk {i : Nat} (hi : i ≤ cfg.total)
    (hk : k < cfg.total ∨ cfg.total = 0 ∧ k = 0) (hle : k ≤ i) :
    cfg.SenderOk i k (cfg.nextChunk i) := by
  unfold nextChunk
  split
  · exact ⟨rfl, by assumption, hle⟩
  · exact ⟨by omega, hk⟩

theorem nextChunk_ne (i : Nat) : cfg.nextChunk i ≠ .waitReady := by
  unfold nextChunk; split <;> simp

theorem readReady (h : cfg.First s p r k c) (hs : s.sender = .waitReady) (hsock : s.sock ≠ []) :
    cfg.First (cfg.startIter (s.readBytes .ready 1)) p r k c := by
  obtain ⟨hr, rfl, _⟩ | ⟨_, hne⟩ := h.reads
  swap
  · exact absurd hs hne
  have hp : p = 0 := by have := h.sender; rwa [hs] at this
  have hsent := h.sent
  obtain ⟨b, rest, hb⟩ := List.exists_cons_of_ne_nil hsock
  have hbytes : s.bytesSent = b :: (rest ++ s.wire) := by simp [KvSt.bytesSent, hr, hb]
  have hready : b = .ready := by
    rw [hbytes] at hsent
    cases hrec : s.receiver <;> simp only [hrec, KvConfig.SentOk, List.cons.injEq, reduceCtorEq,
      false_or] at hsent <;> exact hsent.1
  have hreads : (s.readBytes .ready 1).reads = [(.ready, .ready)] := by
    simp [KvSt.readBytes, hr, hb, hready]
  have hsent' : SentOk c (s.readBytes .ready 1).bytesSent s.receiver := by
    rw [bytesSent_readBytes]; exact hsent
  unfold startIter
  split
  · refine ⟨?_, h.receiver, hsent', .inr ⟨by simp [hreads], nextChunk_ne _⟩, h.queue, h.polled_le⟩
    rw [hp]
    exact senderOk_nextChunk (Nat.zero_le _) (by omega) (le_refl _)
  · exact ⟨by rw [hp]; exact Nat.zero_le _, h.receiver, hsent', .inr ⟨by simp [hreads], by simp⟩,
      h.queue, h.polled_le⟩

/-- What the sender's step does, up to its wait. -/
theorem senderStep (h : cfg.First s p r k c) (hs : s.sender ≠ .waitDone)
    (hstep : cfg.senderStep s = some s') : ∃ p k, cfg.First s' p r k c := by
  have hsend := h.sender
  cases hpc : s.sender with
  | waitReady =>
    simp only [KvConfig.senderStep, hpc] at hstep
    split at hstep <;> cases hstep
    rename_i hsock
    exact ⟨p, k, h.readReady hpc hsock⟩
  | checkCredits i =>
    simp only [KvConfig.senderStep, hpc] at hstep; cases hstep
    rw [hpc] at hsend
    refine ⟨p, k, h.senderGoto (by simp [hpc]) (by simp [hpc]) ?_ ?_ _⟩
    · split <;> exact hsend
    · split <;> simp
  | stall i =>
    simp only [KvConfig.senderStep, hpc] at hstep
    split at hstep <;> cases hstep
    rename_i hsock
    rw [hpc] at hsend
    obtain ⟨rfl, hi, _⟩ := hsend
    have hn : 1 ≤ s.sock.length := List.length_pos_iff.mpr hsock
    have hk := (h.read_credits (by simp [hpc]) (by simp [hpc]) hi hn).2
    exact ⟨p, _, h.readCredits (by simp [hpc]) (by simp [hpc]) hi hn ⟨rfl, hi, hk⟩ (by simp)⟩
  | stallDrain i =>
    simp only [KvConfig.senderStep, hpc] at hstep; cases hstep
    rw [hpc] at hsend
    obtain ⟨rfl, hi, _⟩ := hsend
    have hn : s.available ≤ s.sock.length := Nat.min_le_right _ _
    have hk := (h.read_credits (by simp [hpc]) (by simp [hpc]) hi hn).2
    exact ⟨p, _, h.readCredits (by simp [hpc]) (by simp [hpc]) hi hn ⟨rfl, hi, hk⟩ (by simp)⟩
  | drain i =>
    simp only [KvConfig.senderStep, hpc] at hstep; cases hstep
    rw [hpc] at hsend
    obtain ⟨rfl, hi, _⟩ := hsend
    have hn : s.available ≤ s.sock.length := Nat.min_le_right _ _
    have hk := (h.read_credits (by simp [hpc]) (by simp [hpc]) hi hn).2
    exact ⟨p, _, h.readCredits (by simp [hpc]) (by simp [hpc]) hi hn ⟨rfl, hi, hk⟩ (by simp)⟩
  | write i =>
    simp only [KvConfig.senderStep, hpc] at hstep; cases hstep
    rw [hpc] at hsend
    obtain ⟨rfl, hi, hk⟩ := hsend
    have hm : cfg.imm p = cfg.msg p := by simp [msg, hi]
    rw [hm]
    exact ⟨p + 1, k, h.post (by simp [hpc]) (by simp [hpc]) ⟨rfl, hi, hk⟩ (by simp)⟩
  | writeWait i =>
    simp only [KvConfig.senderStep, hpc] at hstep
    split at hstep <;> cases hstep
    rw [hpc] at hsend
    obtain ⟨rfl, hi, hk⟩ := hsend
    exact ⟨i + 1, k, h.senderGoto (by simp [hpc]) (by simp [hpc])
      (senderOk_nextChunk hi (.inl (by omega)) (by omega)) (nextChunk_ne _) _⟩
  | sentinel =>
    simp only [KvConfig.senderStep, hpc] at hstep; cases hstep
    rw [hpc] at hsend
    obtain ⟨rfl, hk⟩ := hsend
    have hm : kvSentinel = cfg.msg cfg.total := by simp [msg]
    rw [hm]
    exact ⟨_, k, h.post (by simp [hpc]) (by simp [hpc]) ⟨rfl, hk⟩ (by simp)⟩
  | sentinelWait =>
    simp only [KvConfig.senderStep, hpc] at hstep
    split at hstep <;> cases hstep
    rw [hpc] at hsend
    have hwait : cfg.SenderOk p k .waitDone := hsend
    exact ⟨p, k, h.senderGoto (by simp [hpc]) (by simp [hpc]) hwait (by simp) _⟩
  | waitDone => exact absurd hpc hs
  | finished | failed => simp [KvConfig.senderStep, hpc] at hstep

/-- A step of the receiver or of a channel. -/
theorem other (h : cfg.First s p r k c) {r' c' : Nat} (hs : s'.sender = s.sender)
    (hreads : s'.reads = s.reads) (hrec : cfg.ReceiverOk s'.bm r' c' s'.receiver)
    (hsent : SentOk c' s'.bytesSent s'.receiver)
    (hq : s'.cq ++ s'.inflight = (List.range' r' (p - r')).map cfg.msg) (hle : r' ≤ p) :
    cfg.First s' p r' k c' :=
  ⟨hs ▸ h.sender, hrec, hsent, by rw [hs, hreads]; exact h.reads, hq, hle⟩

/-- The receiver takes the oldest completion. -/
theorem queue_cons (h : cfg.First s p r k c) {imm : BitVec 32} {rest : List (BitVec 32)}
    (hcq : s.cq = imm :: rest) :
    r + 1 ≤ p ∧ imm = cfg.msg r ∧
      rest ++ s.inflight = (List.range' (r + 1) (p - (r + 1))).map cfg.msg := by
  have hq := h.queue
  rw [hcq] at hq
  exact Transition.Stream.numbered_cons hq

theorem receiverStep (h : cfg.First s p r k c) (hstep : cfg.receiverStep s = some s') :
    ∃ r c, cfg.First s' p r k c := by
  have hrec := h.receiver
  have hsent := h.sent
  cases hpc : s.receiver with
  | prePost n =>
    simp only [KvConfig.receiverStep, hpc] at hstep
    rw [hpc] at hrec hsent
    split at hstep <;> cases hstep
    · exact ⟨r, c, h.other rfl rfl hrec hsent h.queue h.polled_le⟩
    · exact ⟨r, c, h.other rfl rfl hrec hsent h.queue h.polled_le⟩
  | sendReady =>
    simp only [KvConfig.receiverStep, hpc] at hstep; cases hstep
    rw [hpc] at hrec hsent
    obtain ⟨rfl, rfl, ht⟩ := hrec
    refine ⟨0, 0, h.other rfl rfl ⟨rfl, Nat.zero_le _, ht⟩ ?_ h.queue h.polled_le⟩
    have hnil : s.bytesSent = [] := hsent
    simp only [KvSt.bytesSent] at hnil
    simp [SentOk, KvSt.bytesSent, ← List.append_assoc, hnil]
  | loopCheck =>
    simp only [KvConfig.receiverStep, hpc] at hstep; cases hstep
    rw [hpc] at hrec hsent
    obtain ⟨rfl, hr, ht⟩ := hrec
    refine ⟨c, c, h.other rfl rfl ?_ ?_ h.queue h.polled_le⟩
    · cases hc : bitmapAllComplete s.bm with
      | true =>
        obtain rfl := (allComplete_iff ht hr).mp hc
        exact ⟨rfl, le_refl _, ht⟩
      | false =>
        have hne : c ≠ cfg.total := by
          rintro rfl
          rw [(allComplete_iff ht hr).mpr rfl] at hc
          cases hc
        exact ⟨rfl, by omega, ht⟩
    · cases bitmapAllComplete s.bm <;> exact hsent
  | poll =>
    simp only [KvConfig.receiverStep, hpc] at hstep
    rw [hpc] at hrec hsent
    obtain ⟨rfl, hr, ht⟩ := hrec
    cases hcq : s.cq with
    | nil => simp [hcq] at hstep
    | cons imm rest =>
      obtain ⟨hle, himm, hq⟩ := h.queue_cons hcq
      have hmsg : imm = cfg.imm c := by simpa [msg, hr] using himm
      have hne := cfg.imm_ne_sentinel hr
      rw [← hmsg] at hne
      simp only [hcq, hne, if_false] at hstep; cases hstep
      refine ⟨c + 1, c, h.other rfl rfl ⟨rfl, hr, ?_⟩ hsent hq hle⟩
      simp only [hmsg]
      exact ht.set hr
  | replenish =>
    simp only [KvConfig.receiverStep, hpc] at hstep; cases hstep
    rw [hpc] at hrec hsent
    exact ⟨r, c, h.other rfl rfl hrec hsent h.queue h.polled_le⟩
  | sendCredit =>
    simp only [KvConfig.receiverStep, hpc] at hstep; cases hstep
    rw [hpc] at hrec hsent
    obtain ⟨rfl, hr, ht⟩ := hrec
    refine ⟨c + 1, c + 1, h.other rfl rfl ⟨rfl, hr, ht⟩ ?_ h.queue h.polled_le⟩
    have hbytes : s.bytesSent = .ready :: List.replicate c .credit := hsent
    simp only [KvSt.bytesSent] at hbytes
    simp [SentOk, KvSt.bytesSent, ← List.append_assoc, hbytes, List.replicate_succ']
  | drain =>
    simp only [KvConfig.receiverStep, hpc] at hstep
    rw [hpc] at hrec hsent
    obtain ⟨hc, hr, ht⟩ := hrec
    cases hcq : s.cq with
    | nil => simp [hcq] at hstep
    | cons imm rest =>
      obtain ⟨hle, -, hq⟩ := h.queue_cons hcq
      simp only [hcq] at hstep; cases hstep
      exact ⟨r + 1, c, h.other rfl rfl ⟨hc, by omega, ht⟩ hsent hq hle⟩
  | sendDone =>
    simp only [KvConfig.receiverStep, hpc] at hstep; cases hstep
    rw [hpc] at hrec hsent
    refine ⟨r, c, h.other rfl rfl hrec ?_ h.queue h.polled_le⟩
    have hbytes : s.bytesSent = .ready :: List.replicate c .credit := hsent
    simp only [KvSt.bytesSent] at hbytes
    simp [SentOk, KvSt.bytesSent, ← List.append_assoc, hbytes]
  | closed | failed => simp [KvConfig.receiverStep, hpc] at hstep

theorem posted_le (h : cfg.First s p r k c) : p ≤ cfg.total + 1 := by
  have hsend := h.sender
  cases hpc : s.sender <;> simp only [hpc, KvConfig.SenderOk] at hsend <;> omega

theorem sentOk_failed {pc : ReceiverPc} {l : List TcpByte} (h : SentOk c l pc)
    (hpc : pc ≠ .closed) : SentOk c l .failed := by
  cases pc <;> simp_all [SentOk]

/-- Every step but the sender's out of its wait. -/
theorem step (h : cfg.First s p r k c) {a : KvAct} (hs : s.sender = .waitDone → a ≠ .sender)
    (hstep : cfg.kvStep s a = some s') : ∃ p r k c, cfg.First s' p r k c := by
  cases a with
  | sender =>
    obtain ⟨p', k', h'⟩ := h.senderStep (fun hw => hs hw rfl) hstep
    exact ⟨p', r, k', c, h'⟩
  | receiver =>
    obtain ⟨r', c', h'⟩ := h.receiverStep hstep
    exact ⟨p, r', k, c', h'⟩
  | senderFail =>
    simp only [kvStep] at hstep
    split at hstep <;> cases hstep
    refine ⟨p, r, k, c, h.posted_le, h.receiver, h.sent, ?_, h.queue, h.polled_le⟩
    rcases h.reads with ⟨h1, h2, _⟩ | ⟨h1, _⟩
    · exact .inl ⟨h1, h2, .inr rfl⟩
    · exact .inr ⟨h1, by simp⟩
  | drainTimeout =>
    simp only [kvStep] at hstep
    split at hstep <;> cases hstep
    rename_i hpc
    have hrec := h.receiver
    have hsent := h.sent
    rw [hpc] at hrec hsent
    exact ⟨p, r, k, c, h.other rfl rfl hrec hsent h.queue h.polled_le⟩
  | receiverFail =>
    simp only [kvStep] at hstep
    split at hstep <;> cases hstep
    rename_i hpc
    exact ⟨p, r, k, c, h.other rfl rfl (ReceiverOk.credits_le h.receiver)
      (sentOk_failed h.sent hpc) h.queue h.polled_le⟩
  | deliverWrite =>
    simp only [kvStep] at hstep
    split at hstep
    · cases hstep
    · rename_i imm rest hinf
      split at hstep <;> cases hstep
      refine ⟨p, r, k, c, h.other rfl rfl h.receiver h.sent ?_ h.polled_le⟩
      simpa [hinf] using h.queue
  | deliverByte =>
    simp only [kvStep] at hstep
    split at hstep <;> cases hstep
    rename_i b rest hw
    refine ⟨p, r, k, c, h.other rfl rfl h.receiver ?_ h.queue h.polled_le⟩
    have hbytes : s.bytesSent = s.reads.map (·.2) ++ (s.sock ++ [b]) ++ rest := by
      simp [KvSt.bytesSent, hw]
    have hsent := h.sent
    rw [hbytes] at hsent
    exact hsent

end KvConfig.First
/-! ## The wait -/

/-- Another byte was read as the done byte. -/
def KvSt.Misread (s : KvSt) : Prop := ∃ b, (.done, b) ∈ s.reads ∧ b ≠ .done

/-- A transfer of no chunks whose one acknowledgement was read. -/
structure AllRead (s : KvSt) : Prop where
  closed : s.receiver = .closed
  wire : s.wire = []
  sock : s.sock = []
  complete : bitmapAllComplete s.bm = true
  reads : s.reads = [(.ready, .ready), (.done, .done)]

theorem KvConfig.startIter_frame (s : KvSt) :
    (cfg.startIter s).reads = s.reads ∧ (cfg.startIter s).receiver = s.receiver ∧
      (cfg.startIter s).wire = s.wire ∧ (cfg.startIter s).sock = s.sock ∧
      (cfg.startIter s).bm = s.bm := by
  unfold startIter
  split <;> exact ⟨rfl, rfl, rfl, rfl, rfl⟩

/-- The wait for the done byte takes the credit of the last chunk, if there is a chunk. -/
theorem first_wait (h : cfg.First s p r k c) (hs : s.sender = .waitDone)
    (hstep : cfg.senderStep s = some s') :
    0 < cfg.total ∧ s'.Misread ∨ cfg.total = 0 ∧ AllRead s' := by
  have hsend := h.sender
  rw [hs] at hsend
  obtain ⟨_, hk⟩ := hsend
  simp only [KvConfig.senderStep, hs] at hstep
  split at hstep <;> cases hstep
  rename_i hsock
  obtain ⟨b, rest, hb⟩ := List.exists_cons_of_ne_nil hsock
  have hbytes := h.bytesSent_eq (by simp [hs]) (by simp [hs])
  rw [hb] at hbytes
  have hcr := (KvConfig.ReceiverOk.credits_le h.receiver).2
  obtain ⟨hframe, hrecv, hwire, hsk, hbm⟩ :=
    cfg.startIter_frame { s.readBytes .done 1 with iter := s.iter + 1 }
  have hreads : (cfg.startIter { s.readBytes .done 1 with iter := s.iter + 1 }).reads =
      s.reads ++ [(.done, b)] := by
    rw [hframe]; simp [KvSt.readBytes, hb]
  have hmis (hc : b = .credit) :
      (cfg.startIter { s.readBytes .done 1 with iter := s.iter + 1 }).Misread :=
    ⟨b, by simp [hreads], by simp [hc]⟩
  obtain ⟨hle, hrest | ⟨hclosed, hrest⟩⟩ := unread_of_sent h.sent hbytes
  · obtain ⟨n, hn⟩ : ∃ n, c - k = n + 1 := by
      cases hck : c - k with
      | zero => rw [hck] at hrest; cases hrest
      | succ n => exact ⟨n, rfl⟩
    rw [hn, List.replicate_succ, List.cons_append, List.cons.injEq] at hrest
    exact .inl ⟨by omega, hmis hrest.1⟩
  · have hrec := h.receiver
    rw [hclosed] at hrec
    obtain ⟨hc, _, ht⟩ := hrec
    by_cases h0 : cfg.total = 0
    · right
      rw [show c - k = 0 by omega] at hrest
      simp only [List.replicate_zero, List.cons_append, List.nil_append, List.cons.injEq,
        List.append_eq_nil_iff] at hrest
      obtain ⟨rfl, rfl, hw⟩ := hrest
      have hk : k = 0 := by omega
      refine ⟨h0, hrecv.trans hclosed, hwire.trans hw, hsk.trans ?_, ?_, ?_⟩
      · simp [KvSt.readBytes, hb]
      · rw [hbm]; exact (allComplete_iff ht (le_refl _)).mpr rfl
      · rw [hreads]
        rcases h.reads with ⟨_, _, h1 | h1⟩ | ⟨hr, _⟩
        · rw [hs] at h1; cases h1
        · rw [hs] at h1; cases h1
        · rw [hr, hk]; rfl
    · obtain ⟨n, hn⟩ : ∃ n, c - k = n + 1 := ⟨c - k - 1, by omega⟩
      rw [hn, List.replicate_succ, List.cons_append, List.cons_append, List.cons.injEq] at hrest
      exact .inl ⟨by omega, hmis hrest.1⟩

theorem readBytes_nil (h : s.sock = []) (x : TcpByte) (n : Nat) :
    (s.readBytes x n).sock = [] ∧ (s.readBytes x n).reads = s.reads := by
  simp [KvSt.readBytes, h]

/-- Nothing is left to read, so nothing is read. -/
theorem AllRead.step (h : AllRead s) {a : KvAct} (hstep : cfg.kvStep s a = some s') :
    AllRead s' := by
  obtain ⟨hclosed, hwire, hsock, hcomp, hreads⟩ := h
  have hread (x : TcpByte) (n : Nat) := readBytes_nil hsock x n
  cases a with
  | sender =>
    simp only [KvConfig.kvStep] at hstep
    cases hpc : s.sender with
    | waitReady | stall | waitDone => simp [KvConfig.senderStep, hpc, hsock] at hstep
    | stallDrain i | drain i =>
      simp only [KvConfig.senderStep, hpc] at hstep; cases hstep
      exact ⟨hclosed, hwire, (hread .credit _).1, hcomp, (hread .credit _).2.trans hreads⟩
    | checkCredits i | write i | sentinel =>
      simp only [KvConfig.senderStep, hpc] at hstep; cases hstep
      exact ⟨hclosed, hwire, hsock, hcomp, hreads⟩
    | writeWait i | sentinelWait =>
      simp only [KvConfig.senderStep, hpc] at hstep
      split at hstep <;> cases hstep
      exact ⟨hclosed, hwire, hsock, hcomp, hreads⟩
    | finished | failed => simp [KvConfig.senderStep, hpc] at hstep
  | receiver => simp [KvConfig.kvStep, KvConfig.receiverStep, hclosed] at hstep
  | senderFail =>
    simp only [KvConfig.kvStep] at hstep
    split at hstep <;> cases hstep
    exact ⟨hclosed, hwire, hsock, hcomp, hreads⟩
  | drainTimeout => simp [KvConfig.kvStep, hclosed] at hstep
  | receiverFail => simp [KvConfig.kvStep, hclosed] at hstep
  | deliverWrite =>
    simp only [KvConfig.kvStep] at hstep
    split at hstep
    · cases hstep
    · split at hstep <;> cases hstep
      exact ⟨hclosed, hwire, hsock, hcomp, hreads⟩
  | deliverByte => simp [KvConfig.kvStep, hwire] at hstep

/-- No step takes back what was read. -/
theorem reads_mono {a : KvAct} (hstep : cfg.kvStep s a = some s') : s.reads <+: s'.reads := by
  have hread (x : TcpByte) (n : Nat) : s.reads <+: (s.readBytes x n).reads :=
    List.prefix_append _ _
  cases a with
  | sender =>
    simp only [KvConfig.kvStep] at hstep
    cases hpc : s.sender with
    | waitReady =>
      simp only [KvConfig.senderStep, hpc] at hstep
      split at hstep <;> cases hstep
      rw [(cfg.startIter_frame _).1]; exact hread _ _
    | waitDone =>
      simp only [KvConfig.senderStep, hpc] at hstep
      split at hstep <;> cases hstep
      rw [(cfg.startIter_frame _).1]; exact hread _ _
    | stall i =>
      simp only [KvConfig.senderStep, hpc] at hstep
      split at hstep <;> cases hstep
      exact hread _ _
    | stallDrain i | drain i =>
      simp only [KvConfig.senderStep, hpc] at hstep; cases hstep; exact hread _ _
    | checkCredits i | write i | sentinel =>
      simp only [KvConfig.senderStep, hpc] at hstep; cases hstep; exact List.prefix_refl _
    | writeWait i | sentinelWait =>
      simp only [KvConfig.senderStep, hpc] at hstep
      split at hstep <;> cases hstep
      exact List.prefix_refl _
    | finished | failed => simp [KvConfig.senderStep, hpc] at hstep
  | receiver =>
    simp only [KvConfig.kvStep] at hstep
    cases hpc : s.receiver with
    | sendReady | loopCheck | replenish | sendCredit | sendDone =>
      simp only [KvConfig.receiverStep, hpc] at hstep; cases hstep; exact List.prefix_refl _
    | prePost n | drain =>
      simp only [KvConfig.receiverStep, hpc] at hstep
      split at hstep <;> cases hstep <;> exact List.prefix_refl _
    | poll =>
      simp only [KvConfig.receiverStep, hpc] at hstep
      split at hstep
      · cases hstep
      · split at hstep <;> cases hstep <;> exact List.prefix_refl _
    | closed | failed => simp [KvConfig.receiverStep, hpc] at hstep
  | senderFail | drainTimeout | receiverFail | deliverByte =>
    simp only [KvConfig.kvStep] at hstep
    split at hstep <;> cases hstep
    exact List.prefix_refl _
  | deliverWrite =>
    simp only [KvConfig.kvStep] at hstep
    split at hstep
    · cases hstep
    · split at hstep <;> cases hstep
      exact List.prefix_refl _

theorem misread_step (h : s.Misread) {a : KvAct} (hstep : cfg.kvStep s a = some s') :
    s'.Misread := by
  obtain ⟨b, hb, hne⟩ := h
  exact ⟨b, (reads_mono hstep).subset hb, hne⟩

/-- Before the sender passes its wait, after it, and for a transfer without chunks. -/
def KvConfig.KvInv (cfg : KvConfig) (s : KvSt) : Prop :=
  (∃ p r k c, cfg.First s p r k c) ∨ 0 < cfg.total ∧ s.Misread ∨ cfg.total = 0 ∧ AllRead s

theorem kvInv {s : KvSt} (h : cfg.kvSys.Reachable s) : cfg.KvInv s := by
  refine h.invariant ?_ ?_
  · refine .inl ⟨0, 0, 0, 0, rfl, ⟨rfl, rfl, cfg.tracks_init⟩, rfl, .inl ⟨rfl, rfl, .inl rfl⟩, rfl,
      le_refl _⟩
  · rintro s a s' (⟨p, r, k, c, hf⟩ | ⟨h0, hm⟩ | ⟨h0, ha⟩) hs
    · by_cases hw : s.sender = .waitDone ∧ a = .sender
      · obtain ⟨hw, rfl⟩ := hw
        exact .inr (first_wait hf hw hs)
      · exact .inl (hf.step (fun h1 h2 => hw ⟨h1, h2⟩) hs)
    · exact .inr (.inl ⟨h0, misread_step hm hs⟩)
    · exact .inr (.inr ⟨h0, ha.step hs⟩)

/-- **The done byte.** For every configuration and in every reachable state, the acknowledgement
keeps its promise exactly if the sender has not passed its wait, or there is no chunk at all. -/
theorem kv_acknowledged {s : KvSt} (h : cfg.kvSys.Reachable s) :
    Acknowledged s ↔ s.passes = 0 ∨ cfg.total = 0 := by
  rcases kvInv h with ⟨p, r, k, c, hf⟩ | ⟨h0, b, hb, hne⟩ | ⟨h0, ha⟩
  · have hp := hf.passes_eq_zero
    refine iff_of_true ⟨by omega, by omega, ?_, by omega⟩ (.inl hp)
    rcases hf.reads with ⟨hr, _⟩ | ⟨hr, _⟩
    · simp [hr]
    · intro x hx
      rw [hr] at hx
      rcases List.mem_cons.mp hx with rfl | hx
      · rfl
      · rw [List.eq_of_mem_replicate hx]
  · refine iff_of_false (fun hack => hne (hack.matched _ hb).symm) ?_
    have hpos : 0 < s.passes := List.countP_pos_iff.mpr ⟨_, hb, by simp⟩
    omega
  · refine iff_of_true ⟨?_, fun _ => ha.complete, ?_, fun _ => ⟨ha.closed, ha.wire, ha.sock⟩⟩
      (.inr h0)
    · simp [KvSt.passes, KvSt.bytesSent, ha.reads, ha.wire, ha.sock]
    · simp [ha.reads]

/-- One chunk, one credit. -/
def oneChunk : KvConfig :=
  { layers := 1, chunksPerLayer := 1, layers_le := by decide, chunks_lt := by decide
    creditWindow := 1, iterations := 1 }

/-- The transfer up to the sender's wait; the receiver is in its poll for the sentinel. -/
def oneChunkRun : List KvAct :=
  [.receiver, .receiver, .receiver, .deliverByte, .sender, .sender, .sender, .sender, .deliverWrite,
   .sender, .receiver, .receiver, .receiver, .receiver, .deliverByte, .sender, .deliverWrite,
   .sender]

theorem kv_acknowledged_waiting :
    ∃ s, oneChunk.kvSys.Reachable s ∧ s.sender = .waitDone ∧ Acknowledged s := by
  obtain ⟨s, hr, hw, hp⟩ : ∃ s, oneChunk.kvSys.Reachable s ∧ s.sender = .waitDone ∧ s.passes = 0 :=
    Transition.Sys.exists_of_exec oneChunkRun (by decide +kernel)
  exact ⟨s, hr, hw, (kv_acknowledged hr).mpr (.inl hp)⟩

/-- The sender takes the credit of the chunk for the done byte, which is not sent yet. -/
theorem credit_read_as_done :
    ¬ ∀ s, oneChunk.kvSys.Reachable s → Acknowledged s := by
  intro h
  obtain ⟨s, hr, hp, hd⟩ : ∃ s, oneChunk.kvSys.Reachable s ∧ s.passes = 1 ∧
      s.bytesSent.count .done = 0 :=
    Transition.Sys.exists_of_exec (oneChunkRun ++ [.sender]) (by decide +kernel)
  have := (h s hr).sent
  omega

end Dmaplane
