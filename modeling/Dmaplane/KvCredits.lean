import Dmaplane.KvAck
import Dmaplane.KvLoopback

/-!
# Dmaplane.KvCredits

Credits of the KVCache transfer between two machines.

The sender starts every iteration with `credit_window` credits, whatever the receiver has posted;
the receiver posts `initialRecvs` receives once, and one more for each chunk it has seen. `RoomOk`
bounds the posted receives by what was pre-posted. In a single iteration whose window is exactly
the transfer and its sentinel, a credit read is a receive posted (`Balance`). Every other window
and every second iteration goes wrong: `overdrawn`, `sentinel_starved`.
-/

namespace Dmaplane

open KvGrid

/-- A write is posted in the sender's next step. -/
def KvSt.Posting (s : KvSt) : Prop := (∃ i, s.sender = .write i) ∨ s.sender = .sentinel

/-- The receives that `dmaplane_init_peer` asks the peer queue pair to hold. -/
def peerCapacity : Nat := 64

namespace KvConfig

variable (cfg : KvConfig)

/-- The pre-posted receives are what the queue pair ever holds: each further one replaces a
receive whose completion was polled. `held` are the posted and the completed receives. -/
def RoomOk (held : Nat) : ReceiverPc → Prop
  | .prePost n => held ≤ n ∧ n ≤ cfg.initialRecvs
  | .replenish => held + 1 ≤ cfg.initialRecvs
  | _ => held ≤ cfg.initialRecvs

/-- The writes posted in an iteration. -/
def writesPosted : SenderPc → Nat
  | .waitReady => 0
  | .checkCredits i | .stall i | .stallDrain i | .drain i | .write i => i
  | .writeWait i => i + 1
  | .sentinel => cfg.total
  | .sentinelWait | .waitDone | .finished | .failed => cfg.total + 1

/-- The sender's credits: the window, and every byte read after the first, less the chunks
completed. -/
def SpentOk (credits : Int) (reads : Nat) : SenderPc → Prop
  | .waitReady => reads = 0
  | .checkCredits i | .stall i | .stallDrain i | .drain i | .write i | .writeWait i =>
    i < cfg.total ∧ 1 ≤ reads ∧ credits + i + 1 = cfg.creditWindow + reads
  | .sentinel => 1 ≤ reads ∧ credits + cfg.total + 1 = cfg.creditWindow + reads
  | .sentinelWait | .waitDone | .finished | .failed => 1 ≤ reads

/-- The receives posted, beside the `p` writes posted and the bytes sent. -/
def SuppliedOk (p : Nat) (bytes : List TcpByte) (flight posted : Nat) : ReceiverPc → Prop
  | .prePost n => bytes = [] ∧ p = 0 ∧ flight = 0 ∧ n ≤ posted
  | .sendReady => bytes = [] ∧ p = 0 ∧ flight = 0 ∧ cfg.initialRecvs ≤ posted
  | .sendCredit => cfg.initialRecvs + bytes.count .credit + flight + 1 ≤ posted + p
  | .failed =>
    bytes = [] ∧ p = 0 ∧ flight = 0 ∨
      cfg.initialRecvs + bytes.count .credit + flight ≤ posted + p
  | _ => cfg.initialRecvs + bytes.count .credit + flight ≤ posted + p

/-- The one iteration of a transfer, until the sender is past it. -/
structure Balance (s : KvSt) : Prop where
  passes : s.passes = 0
  spent : cfg.SpentOk s.credits s.reads.length s.sender
  supplied : cfg.SuppliedOk (cfg.writesPosted s.sender) s.bytesSent s.inflight.length s.recvPosted
    s.receiver

end KvConfig

variable {cfg : KvConfig} {s s' : KvSt}

/-- The sender takes bytes off the socket and puts writes in flight; it touches nothing else of
the receiver's. -/
theorem senderStep_frame (hs : cfg.senderStep s = some s') :
    s'.receiver = s.receiver ∧ s'.recvPosted = s.recvPosted ∧ s'.cq = s.cq ∧
      s'.bytesSent = s.bytesSent := by
  have hstart (t : KvSt) : (cfg.startIter t).receiver = t.receiver ∧
      (cfg.startIter t).recvPosted = t.recvPosted ∧ (cfg.startIter t).cq = t.cq ∧
      (cfg.startIter t).bytesSent = t.bytesSent := by
    unfold KvConfig.startIter
    split <;> exact ⟨rfl, rfl, rfl, rfl⟩
  have hread (x : TcpByte) (n : Nat) := bytesSent_readBytes s x n
  cases hpc : s.sender with
  | waitReady | waitDone =>
    simp only [KvConfig.senderStep, hpc] at hs
    split at hs <;> cases hs
    obtain ⟨h1, h2, h3, h4⟩ := hstart _
    exact ⟨h1, h2, h3, h4.trans (hread _ _)⟩
  | stall i =>
    simp only [KvConfig.senderStep, hpc] at hs
    split at hs <;> cases hs
    exact ⟨rfl, rfl, rfl, hread _ _⟩
  | stallDrain i | drain i =>
    simp only [KvConfig.senderStep, hpc] at hs; cases hs
    exact ⟨rfl, rfl, rfl, hread _ _⟩
  | checkCredits i | write i | sentinel =>
    simp only [KvConfig.senderStep, hpc] at hs; cases hs
    exact ⟨rfl, rfl, rfl, rfl⟩
  | writeWait i | sentinelWait =>
    simp only [KvConfig.senderStep, hpc] at hs
    split at hs <;> cases hs
    exact ⟨rfl, rfl, rfl, rfl⟩
  | finished | failed => simp [KvConfig.senderStep, hpc] at hs

/-! ## No receive beyond the pre-posted ones -/

theorem KvConfig.RoomOk.receiver (h : cfg.RoomOk (s.recvPosted + s.cq.length) s.receiver)
    (hs : cfg.receiverStep s = some s') :
    cfg.RoomOk (s'.recvPosted + s'.cq.length) s'.receiver := by
  cases hpc : s.receiver with
  | prePost n =>
    rw [hpc] at h
    obtain ⟨hn, hle⟩ := h
    simp only [receiverStep, hpc] at hs
    split at hs <;> cases hs
    · exact ⟨by simp only; omega, by omega⟩
    · exact le_trans hn hle
  | sendReady | sendCredit | sendDone =>
    rw [hpc] at h
    simp only [receiverStep, hpc] at hs; cases hs
    exact h
  | loopCheck =>
    rw [hpc] at h
    simp only [receiverStep, hpc] at hs; cases hs
    cases bitmapAllComplete s.bm <;> exact h
  | poll =>
    rw [hpc] at h
    simp only [receiverStep, hpc] at hs
    split at hs
    · cases hs
    · rename_i imm rest hcq
      rw [hcq, List.length_cons, ← Nat.add_assoc] at h
      split at hs <;> cases hs
      · exact le_trans (Nat.le_succ _) h
      · exact h
  | replenish =>
    rw [hpc] at h
    simp only [receiverStep, hpc] at hs; cases hs
    simp only [RoomOk] at h ⊢
    omega
  | drain =>
    rw [hpc] at h
    simp only [receiverStep, hpc] at hs
    split at hs
    · cases hs
    · rename_i x rest hcq
      rw [hcq, List.length_cons, ← Nat.add_assoc] at h
      cases hs
      exact le_trans (Nat.le_succ _) h
  | closed | failed => simp [receiverStep, hpc] at hs

theorem KvConfig.RoomOk.le {held : Nat} {pc : ReceiverPc} (h : cfg.RoomOk held pc) :
    held ≤ cfg.initialRecvs := by
  cases pc <;> simp only [RoomOk] at h <;> omega

theorem kv_room {s : KvSt} (h : cfg.kvSys.Reachable s) :
    cfg.RoomOk (s.recvPosted + s.cq.length) s.receiver := by
  refine Transition.Sys.Reachable.invariant (S := cfg.kvSys)
    (I := fun s => cfg.RoomOk (s.recvPosted + s.cq.length) s.receiver) ⟨le_refl _, Nat.zero_le _⟩
    (fun s a s' hi hs => ?_) h
  change cfg.kvStep s a = some s' at hs
  cases a with
  | sender =>
    obtain ⟨h1, h2, h3, -⟩ := senderStep_frame hs
    rw [h1, h2, h3]; exact hi
  | receiver => exact hi.receiver hs
  | senderFail | deliverByte =>
    simp only [KvConfig.kvStep] at hs
    split at hs <;> cases hs
    exact hi
  | drainTimeout =>
    simp only [KvConfig.kvStep] at hs
    split at hs <;> cases hs
    exact hi.le
  | receiverFail =>
    simp only [KvConfig.kvStep] at hs
    split at hs <;> cases hs
    exact hi.le
  | deliverWrite =>
    simp only [KvConfig.kvStep] at hs
    split at hs
    · cases hs
    · split at hs <;> cases hs
      rename_i hpos
      have hheld : s.recvPosted - 1 + (s.cq.length + 1) = s.recvPosted + s.cq.length := by omega
      simp only [List.length_append, List.length_singleton, hheld]
      exact hi

/-! ## A credit read is a receive posted -/

theorem length_readBytes (s : KvSt) (x : TcpByte) {n : Nat} (h : n ≤ s.sock.length) :
    (s.readBytes x n).reads.length = s.reads.length + n := by
  simp [KvSt.readBytes, h]

theorem passes_readBytes (s : KvSt) {x : TcpByte} (hx : x ≠ .done) (n : Nat) :
    (s.readBytes x n).passes = s.passes := by
  simp only [KvSt.passes, KvSt.readBytes, List.countP_append, Nat.add_eq_left]
  refine List.countP_eq_zero.mpr fun y hy => ?_
  obtain ⟨b, -, rfl⟩ := List.mem_map.mp hy
  simp [hx]

theorem available_le (s : KvSt) : s.available ≤ s.sock.length := Nat.min_le_right _ _

theorem one_le_sock (h : s.sock ≠ []) : 1 ≤ s.sock.length := List.length_pos_iff.mpr h

theorem bytesSent_ne_nil (h : 1 ≤ s.reads.length) : s.bytesSent ≠ [] := by
  intro hnil
  have := congrArg List.length hnil
  simp only [KvSt.bytesSent, List.length_append, List.length_map, List.length_nil] at this
  omega

namespace KvConfig

theorem writesPosted_nextChunk {i : Nat} (hi : i ≤ cfg.total) :
    cfg.writesPosted (cfg.nextChunk i) = i := by
  unfold nextChunk
  split
  · rfl
  · show cfg.total = i
    omega

theorem spentOk_nextChunk {i reads : Nat} {credits : Int} (hi : i ≤ cfg.total) (hr : 1 ≤ reads)
    (h : credits + i + 1 = cfg.creditWindow + reads) :
    cfg.SpentOk credits reads (cfg.nextChunk i) := by
  unfold nextChunk
  split
  · exact ⟨by assumption, hr, h⟩
  · obtain rfl : i = cfg.total := by omega
    exact ⟨hr, h⟩

theorem SuppliedOk.post {p flight posted : Nat} {bytes : List TcpByte} {pc : ReceiverPc}
    (h : cfg.SuppliedOk p bytes flight posted pc) (hb : bytes ≠ []) :
    cfg.SuppliedOk (p + 1) bytes (flight + 1) posted pc := by
  cases pc with
  | prePost n | sendReady => exact absurd h.1 hb
  | failed => exact .inr (by have := h.resolve_left (fun h' => hb h'.1); omega)
  | loopCheck | poll | replenish | sendCredit | drain | sendDone | closed =>
    simp only [SuppliedOk] at h ⊢
    omega

theorem SuppliedOk.deliver {p flight posted : Nat} {bytes : List TcpByte} {pc : ReceiverPc}
    (h : cfg.SuppliedOk p bytes (flight + 1) posted pc) (hp : 0 < posted) :
    cfg.SuppliedOk p bytes flight (posted - 1) pc := by
  cases pc with
  | prePost n | sendReady => exact absurd h.2.2.1 (Nat.succ_ne_zero _)
  | failed =>
    exact .inr (by have := h.resolve_left (fun h' => Nat.succ_ne_zero _ h'.2.2); omega)
  | loopCheck | poll | replenish | sendCredit | drain | sendDone | closed =>
    simp only [SuppliedOk] at h ⊢
    omega

theorem SuppliedOk.fail {p flight posted : Nat} {bytes : List TcpByte} {pc : ReceiverPc}
    (h : cfg.SuppliedOk p bytes flight posted pc) :
    cfg.SuppliedOk p bytes flight posted .failed := by
  cases pc with
  | prePost n | sendReady => exact .inl ⟨h.1, h.2.1, h.2.2.1⟩
  | failed => exact h
  | loopCheck | poll | replenish | sendCredit | drain | sendDone | closed =>
    simp only [SuppliedOk] at h ⊢
    omega

namespace Balance

/-- The sender moves on without posting. -/
theorem goto (h : cfg.Balance s) {t : KvSt} (hp : t.passes = 0)
    (hspent : cfg.SpentOk t.credits t.reads.length t.sender)
    (hw : cfg.writesPosted t.sender = cfg.writesPosted s.sender) (hb : t.bytesSent = s.bytesSent)
    (hfl : t.inflight = s.inflight) (hrp : t.recvPosted = s.recvPosted)
    (hrc : t.receiver = s.receiver) : cfg.Balance t := by
  refine ⟨hp, hspent, ?_⟩
  rw [hw, hb, hfl, hrp, hrc]
  exact h.supplied

/-- The sender reads `n` credits. -/
theorem readCredits (h : cfg.Balance s) {n : Nat} (hn : n ≤ s.sock.length) {pc : SenderPc}
    (hspent : cfg.SpentOk (s.credits + n) (s.reads.length + n) pc)
    (hw : cfg.writesPosted pc = cfg.writesPosted s.sender) :
    cfg.Balance { s.readBytes .credit n with sender := pc, credits := s.credits + n } := by
  refine h.goto ((passes_readBytes s (by decide) n).trans h.passes) ?_ hw
    (bytesSent_readBytes s .credit n) rfl rfl rfl
  have hlen := length_readBytes s .credit hn
  simp only [hlen]
  exact hspent

/-- The sender posts a write. -/
theorem post (h : cfg.Balance s) {pc : SenderPc} (imm : BitVec 32) (hr : 1 ≤ s.reads.length)
    (hspent : cfg.SpentOk s.credits s.reads.length pc)
    (hw : cfg.writesPosted pc = cfg.writesPosted s.sender + 1) :
    cfg.Balance { s with sender := pc, inflight := s.inflight ++ [imm] } := by
  refine ⟨h.passes, hspent, ?_⟩
  have hsup := h.supplied.post (bytesSent_ne_nil hr)
  rw [← hw] at hsup
  simp only [List.length_append, List.length_singleton]
  exact hsup

theorem senderStep (h1 : cfg.iterations = 1) (h : cfg.Balance s)
    (hs : cfg.senderStep s = some s') : s'.sender = .finished ∨ cfg.Balance s' := by
  have hspent := h.spent
  have hpass := h.passes
  cases hpc : s.sender with
  | waitReady =>
    rw [hpc] at hspent
    have hr0 : s.reads.length = 0 := hspent
    simp only [KvConfig.senderStep, hpc] at hs
    split at hs <;> cases hs
    rename_i hsock
    have hlen := length_readBytes s .ready (one_le_sock hsock)
    have hp := (passes_readBytes s (by decide : TcpByte.ready ≠ .done) 1).trans hpass
    unfold startIter
    split
    · refine .inr (h.goto hp ?_ ?_ (bytesSent_readBytes s .ready 1) rfl rfl rfl)
      · simp only [hlen, hr0]
        exact spentOk_nextChunk (Nat.zero_le _) (le_refl _) (by omega)
      · exact (writesPosted_nextChunk (Nat.zero_le _)).trans (by rw [hpc]; rfl)
    · exact .inl rfl
  | checkCredits i =>
    rw [hpc] at hspent
    simp only [KvConfig.senderStep, hpc] at hs; cases hs
    refine .inr (h.goto hpass ?_ ?_ rfl rfl rfl rfl)
    · simp only
      split <;> exact hspent
    · simp only [hpc]
      split <;> rfl
  | stall i =>
    rw [hpc] at hspent
    obtain ⟨hi, hr, hc⟩ := hspent
    simp only [KvConfig.senderStep, hpc] at hs
    split at hs <;> cases hs
    rename_i hsock
    refine .inr (h.readCredits (one_le_sock hsock) ⟨hi, by omega, by omega⟩ ?_)
    rw [hpc]; rfl
  | stallDrain i | drain i =>
    rw [hpc] at hspent
    obtain ⟨hi, hr, hc⟩ := hspent
    simp only [KvConfig.senderStep, hpc] at hs; cases hs
    refine .inr (h.readCredits (available_le s) ⟨hi, by omega, by omega⟩ ?_)
    rw [hpc]; rfl
  | write i =>
    rw [hpc] at hspent
    simp only [KvConfig.senderStep, hpc] at hs; cases hs
    exact .inr (h.post _ hspent.2.1 hspent (by rw [hpc]; rfl))
  | writeWait i =>
    rw [hpc] at hspent
    obtain ⟨hi, hr, hc⟩ := hspent
    simp only [KvConfig.senderStep, hpc] at hs
    split at hs <;> cases hs
    refine .inr (h.goto hpass (spentOk_nextChunk hi hr (by simp only; omega)) ?_ rfl rfl rfl rfl)
    exact (writesPosted_nextChunk hi).trans (by rw [hpc]; rfl)
  | sentinel =>
    rw [hpc] at hspent
    simp only [KvConfig.senderStep, hpc] at hs; cases hs
    exact .inr (h.post _ hspent.1 hspent.1 (by rw [hpc]; rfl))
  | sentinelWait =>
    rw [hpc] at hspent
    simp only [KvConfig.senderStep, hpc] at hs
    split at hs <;> cases hs
    exact .inr (h.goto hpass hspent (by rw [hpc]; rfl) rfl rfl rfl rfl)
  | waitDone =>
    simp only [KvConfig.senderStep, hpc] at hs
    split at hs <;> cases hs
    -- There is no second iteration.
    exact .inl (by simp [startIter, h1])
  | finished | failed => simp [KvConfig.senderStep, hpc] at hs

theorem receiverStep (h : cfg.Balance s) (hs : cfg.receiverStep s = some s') :
    cfg.Balance s' := by
  have hsup := h.supplied
  cases hpc : s.receiver with
  | prePost n =>
    rw [hpc] at hsup
    obtain ⟨hb, hp, hfl, hn⟩ := hsup
    simp only [KvConfig.receiverStep, hpc] at hs
    split at hs <;> cases hs
    · exact ⟨h.passes, h.spent, hb, hp, hfl, Nat.succ_le_succ hn⟩
    · exact ⟨h.passes, h.spent, hb, hp, hfl, by simp only; omega⟩
  | sendReady =>
    rw [hpc] at hsup
    obtain ⟨hb, hp, hfl, hn⟩ := hsup
    simp only [KvConfig.receiverStep, hpc] at hs; cases hs
    refine ⟨h.passes, h.spent, ?_⟩
    have hbytes : KvSt.bytesSent { s with receiver := .loopCheck, wire := s.wire ++ [.ready] } =
        s.bytesSent ++ [.ready] := by simp [KvSt.bytesSent]
    rw [hbytes, hb]
    simpa [SuppliedOk, hp, hfl] using hn
  | loopCheck =>
    rw [hpc] at hsup
    simp only [KvConfig.receiverStep, hpc] at hs; cases hs
    refine ⟨h.passes, h.spent, ?_⟩
    cases bitmapAllComplete s.bm <;> exact hsup
  | poll =>
    rw [hpc] at hsup
    simp only [KvConfig.receiverStep, hpc] at hs
    split at hs
    · cases hs
    · split at hs <;> cases hs <;> exact ⟨h.passes, h.spent, hsup⟩
  | replenish =>
    rw [hpc] at hsup
    simp only [KvConfig.receiverStep, hpc] at hs; cases hs
    refine ⟨h.passes, h.spent, ?_⟩
    have hle : cfg.initialRecvs + s.bytesSent.count .credit + s.inflight.length ≤
        s.recvPosted + cfg.writesPosted s.sender := hsup
    show cfg.initialRecvs + s.bytesSent.count .credit + s.inflight.length + 1 ≤
      s.recvPosted + 1 + cfg.writesPosted s.sender
    omega
  | sendCredit =>
    rw [hpc] at hsup
    simp only [KvConfig.receiverStep, hpc] at hs; cases hs
    refine ⟨h.passes, h.spent, ?_⟩
    have hbytes : KvSt.bytesSent { s with receiver := .loopCheck, wire := s.wire ++ [.credit] } =
        s.bytesSent ++ [.credit] := by simp [KvSt.bytesSent]
    rw [hbytes]
    simp only [SuppliedOk, List.count_append, List.count_singleton_self] at hsup ⊢
    omega
  | drain =>
    rw [hpc] at hsup
    simp only [KvConfig.receiverStep, hpc] at hs
    split at hs <;> cases hs
    exact ⟨h.passes, h.spent, hsup⟩
  | sendDone =>
    rw [hpc] at hsup
    simp only [KvConfig.receiverStep, hpc] at hs; cases hs
    refine ⟨h.passes, h.spent, ?_⟩
    have hbytes : KvSt.bytesSent { s with receiver := .closed, wire := s.wire ++ [.done] } =
        s.bytesSent ++ [.done] := by simp [KvSt.bytesSent]
    rw [hbytes]
    simpa [SuppliedOk, List.count_append] using hsup
  | closed | failed => simp [KvConfig.receiverStep, hpc] at hs

/-- Every step that is not the sender's. -/
theorem other (h : cfg.Balance s) {a : KvAct} (ha : a ≠ .sender) (hf : a ≠ .senderFail)
    (hs : cfg.kvStep s a = some s') : cfg.Balance s' := by
  have hsup := h.supplied
  cases a with
  | sender => exact absurd rfl ha
  | senderFail => exact absurd rfl hf
  | receiver => exact h.receiverStep hs
  | drainTimeout =>
    simp only [kvStep] at hs
    split at hs <;> cases hs
    rename_i hpc
    rw [hpc] at hsup
    exact ⟨h.passes, h.spent, hsup⟩
  | receiverFail =>
    simp only [kvStep] at hs
    split at hs <;> cases hs
    exact ⟨h.passes, h.spent, hsup.fail⟩
  | deliverWrite =>
    simp only [kvStep] at hs
    split at hs
    · cases hs
    · rename_i imm rest hfl
      split at hs <;> cases hs
      rename_i hpos
      rw [hfl] at hsup
      exact ⟨h.passes, h.spent, hsup.deliver hpos⟩
  | deliverByte =>
    simp only [kvStep] at hs
    split at hs <;> cases hs
    rename_i b rest hw
    have hbytes : KvSt.bytesSent { s with wire := rest, sock := s.sock ++ [b] } = s.bytesSent := by
      simp [KvSt.bytesSent, hw]
    exact ⟨h.passes, h.spent, by rw [hbytes]; exact hsup⟩

end Balance
end KvConfig

/-- Only the sender moves the sender. -/
theorem kvStep_sender {a : KvAct} (ha : a ≠ .sender) (hf : a ≠ .senderFail)
    (hs : cfg.kvStep s a = some s') : s'.sender = s.sender := by
  cases a with
  | sender => exact absurd rfl ha
  | senderFail => exact absurd rfl hf
  | receiver =>
    simp only [KvConfig.kvStep] at hs
    cases hpc : s.receiver with
    | sendReady | loopCheck | replenish | sendCredit | sendDone =>
      simp only [KvConfig.receiverStep, hpc] at hs; cases hs; rfl
    | prePost n | drain =>
      simp only [KvConfig.receiverStep, hpc] at hs
      split at hs <;> cases hs <;> rfl
    | poll =>
      simp only [KvConfig.receiverStep, hpc] at hs
      split at hs
      · cases hs
      · split at hs <;> cases hs <;> rfl
    | closed | failed => simp [KvConfig.receiverStep, hpc] at hs
  | drainTimeout | receiverFail | deliverByte =>
    simp only [KvConfig.kvStep] at hs
    split at hs <;> cases hs; rfl
  | deliverWrite =>
    simp only [KvConfig.kvStep] at hs
    split at hs
    · cases hs
    · split at hs <;> cases hs; rfl

/-- The sender has ended, or its one iteration is in balance. -/
theorem kv_balance (h1 : cfg.iterations = 1) {s : KvSt} (h : cfg.kvSys.Reachable s) :
    (s.sender = .finished ∨ s.sender = .failed) ∨ cfg.Balance s := by
  refine Transition.Sys.Reachable.invariant (S := cfg.kvSys)
    (I := fun s => (s.sender = .finished ∨ s.sender = .failed) ∨ cfg.Balance s)
    (.inr ⟨rfl, rfl, rfl, rfl, rfl, le_refl _⟩) (fun s a s' hi hs => ?_) h
  change cfg.kvStep s a = some s' at hs
  by_cases ha : a = .sender
  · subst ha
    rcases hi with (hf | hf) | hb
    · simp [KvConfig.kvStep, KvConfig.senderStep, hf] at hs
    · simp [KvConfig.kvStep, KvConfig.senderStep, hf] at hs
    · exact (hb.senderStep h1 hs).imp_left .inl
  · by_cases hf : a = .senderFail
    · subst hf
      simp only [KvConfig.kvStep] at hs
      split at hs <;> cases hs
      exact .inl (.inr rfl)
    · rw [kvStep_sender ha hf hs]
      exact hi.imp_right fun hb => hb.other ha hf hs

/-- No iteration, no post. -/
theorem kv_idle (h0 : cfg.iterations = 0) {s : KvSt} (h : cfg.kvSys.Reachable s) :
    s.sender = .waitReady ∨ s.sender = .finished ∨ s.sender = .failed := by
  refine Transition.Sys.Reachable.invariant (S := cfg.kvSys)
    (I := fun s => s.sender = .waitReady ∨ s.sender = .finished ∨ s.sender = .failed)
    (.inl rfl) (fun s a s' hi hs => ?_) h
  change cfg.kvStep s a = some s' at hs
  by_cases ha : a = .sender
  · subst ha
    rcases hi with hw | hf | hf
    · simp only [KvConfig.kvStep, KvConfig.senderStep, hw] at hs
      split at hs <;> cases hs
      exact .inr (.inl (by simp [KvConfig.startIter, h0]))
    · simp [KvConfig.kvStep, KvConfig.senderStep, hf] at hs
    · simp [KvConfig.kvStep, KvConfig.senderStep, hf] at hs
  · by_cases hf : a = .senderFail
    · subst hf
      simp only [KvConfig.kvStep] at hs
      split at hs <;> cases hs
      exact .inr (.inr rfl)
    · rw [kvStep_sender ha hf hs]; exact hi

theorem KvConfig.SuppliedOk.le {p flight posted : Nat} {bytes : List TcpByte} {pc : ReceiverPc}
    (h : cfg.SuppliedOk p bytes flight posted pc) (hb : bytes ≠ []) :
    cfg.initialRecvs + bytes.count .credit ≤ posted + p := by
  cases pc with
  | prePost n | sendReady => exact absurd h.1 hb
  | failed => have := h.resolve_left (fun h' => hb h'.1); omega
  | loopCheck | poll | replenish | sendCredit | drain | sendDone | closed =>
    simp only [SuppliedOk] at h
    omega

/-- Before the sender is past its wait, the run is in its first iteration. -/
theorem first_of_passes {s : KvSt} (h : cfg.kvSys.Reachable s) (hp : s.passes = 0) :
    ∃ p r k c, cfg.First s p r k c := by
  rcases kvInv h with hf | ⟨-, b, hb, -⟩ | ⟨-, ha⟩
  · exact hf
  · have hpos : 0 < s.passes := List.countP_pos_iff.mpr ⟨_, hb, by simp⟩
    omega
  · simp [KvSt.passes, ha.reads] at hp

/-- Every byte read after the first was sent as a credit. -/
theorem reads_le_credits {s : KvSt} (h : cfg.kvSys.Reachable s) (hb : cfg.Balance s)
    (hw : s.sender ≠ .waitReady) (hf : s.sender ≠ .failed) :
    s.reads.length ≤ s.bytesSent.count .credit + 1 := by
  obtain ⟨p, r, k, c, hfirst⟩ := first_of_passes h hb.passes
  rw [hfirst.bytesSent_eq hw hf]
  rcases hfirst.reads with ⟨_, _, h1 | h1⟩ | ⟨hr, _⟩
  · exact absurd h1 hw
  · exact absurd h1 hf
  · simp [hr, List.count_append]

/-- A window of exactly the transfer and its sentinel, used once. -/
theorem kv_posting (h1 : cfg.iterations = 1) (hW : cfg.creditWindow = cfg.total + 1) {s : KvSt}
    (h : cfg.kvSys.Reachable s) (hp : s.Posting) :
    1 ≤ s.recvPosted ∧ s.credits ≤ s.recvPosted := by
  have hI : cfg.initialRecvs = cfg.total + 1 := by unfold KvConfig.initialRecvs; omega
  have hb : cfg.Balance s := by
    refine (kv_balance h1 h).resolve_left ?_
    rcases hp with ⟨i, hi⟩ | hi <;> simp [hi]
  have hspent := hb.spent
  have hsup := hb.supplied
  rcases hp with ⟨i, hi⟩ | hi
  · have hle := reads_le_credits h hb (by simp [hi]) (by simp [hi])
    rw [hi] at hspent hsup
    obtain ⟨hlt, hr, hc⟩ := hspent
    have hposted : cfg.initialRecvs + s.bytesSent.count .credit ≤ s.recvPosted + i :=
      hsup.le (bytesSent_ne_nil hr)
    exact ⟨by omega, by omega⟩
  · have hle := reads_le_credits h hb (by simp [hi]) (by simp [hi])
    rw [hi] at hspent hsup
    obtain ⟨hr, hc⟩ := hspent
    have hposted : cfg.initialRecvs + s.bytesSent.count .credit ≤ s.recvPosted + cfg.total :=
      hsup.le (bytesSent_ne_nil hr)
    exact ⟨by omega, by omega⟩

/-! ## Where it goes wrong -/

namespace KvConfig

theorem kv_next {s s' : KvSt} (hr : cfg.kvSys.Reachable s) {a : KvAct}
    (hs : cfg.kvStep s a = some s') : cfg.kvSys.Reachable s' := .tail hr trivial hs

/-- The receiver has pre-posted `n` receives. -/
theorem reach_prePost (cfg : KvConfig) {n : Nat} (hn : n ≤ cfg.initialRecvs) :
    cfg.kvSys.Reachable { cfg.kvSys.init with receiver := .prePost n, recvPosted := n } := by
  induction n with
  | zero => exact .refl
  | succ n ih =>
    have hlt : n < cfg.initialRecvs := hn
    exact kv_next (a := .receiver) (ih (by omega))
      (by simp only [kvStep, receiverStep, hlt, if_true])

/-- The head of the first iteration, with nothing else on its way. -/
def started (cfg : KvConfig) : KvSt :=
  { sender := cfg.nextChunk 0, credits := cfg.creditWindow, iter := 0, receiver := .loopCheck
    bm := bitmapInit cfg.layers cfg.chunksPerLayer, recvPosted := cfg.initialRecvs
    inflight := [], cq := [], wire := [], sock := [], reads := [(.ready, .ready)] }

theorem reach_started (cfg : KvConfig) (hN : 0 < cfg.iterations) :
    cfg.kvSys.Reachable cfg.started := by
  have r0 := cfg.reach_prePost (le_refl _)
  have r1 : cfg.kvSys.Reachable
      { cfg.kvSys.init with receiver := .sendReady, recvPosted := cfg.initialRecvs } :=
    kv_next (a := .receiver) r0 (by simp only [kvStep, receiverStep, Nat.lt_irrefl, if_false])
  have r2 : cfg.kvSys.Reachable
      { cfg.kvSys.init with
        receiver := .loopCheck, recvPosted := cfg.initialRecvs, wire := [.ready] } :=
    kv_next (a := .receiver) r1 rfl
  have r3 : cfg.kvSys.Reachable
      { cfg.kvSys.init with
        receiver := .loopCheck, recvPosted := cfg.initialRecvs, sock := [.ready] } :=
    kv_next (a := .deliverByte) r2 rfl
  refine kv_next (a := .sender) r3 ?_
  simp [kvStep, senderStep, kvSys, startIter, KvSt.readBytes, hN, started]

theorem readBytes_zero (s : KvSt) (x : TcpByte) : s.readBytes x 0 = s := by
  simp [KvSt.readBytes]

theorem reach_write {s : KvSt} (hr : cfg.kvSys.Reachable s) {i : Nat} (hpc : s.sender = .drain i)
    (hsock : s.sock = []) : cfg.kvSys.Reachable { s with sender := .write i } := by
  have hn : s.available = 0 := by simp [KvSt.available, hsock]
  refine kv_next (a := .sender) hr ?_
  simp only [kvStep, senderStep, hpc, hn, readBytes_zero, Nat.cast_zero, Int.add_zero]

/-- A chunk goes out when nothing else is on its way. -/
theorem reach_send {s : KvSt} (hr : cfg.kvSys.Reachable s) {i : Nat} (hpc : s.sender = .drain i)
    (hsock : s.sock = []) (hfl : s.inflight = []) (hpos : 0 < s.recvPosted) :
    cfg.kvSys.Reachable { s with
      sender := cfg.nextChunk (i + 1), credits := s.credits - 1, inflight := []
      recvPosted := s.recvPosted - 1, cq := s.cq ++ [cfg.imm i] } := by
  have r1 := reach_write hr hpc hsock
  have r2 : cfg.kvSys.Reachable
      { s with sender := .writeWait i, inflight := [cfg.imm i] } :=
    kv_next (a := .sender) r1 (by simp only [kvStep, senderStep, hfl, List.nil_append])
  have r3 : cfg.kvSys.Reachable
      { s with
        sender := .writeWait i, inflight := []
        recvPosted := s.recvPosted - 1, cq := s.cq ++ [cfg.imm i] } :=
    kv_next (a := .deliverWrite) r2 (by simp only [kvStep, hpos, if_true])
  exact kv_next (a := .sender) r3 (by simp only [kvStep, senderStep, if_true])

/-- The receiver sees a chunk, and its credit arrives. -/
theorem reach_replenish {s : KvSt} (hr : cfg.kvSys.Reachable s) (hpc : s.receiver = .loopCheck)
    (hwire : s.wire = []) (hsock : s.sock = []) {imm : BitVec 32} {rest : List (BitVec 32)}
    (hcq : s.cq = imm :: rest) (himm : imm ≠ kvSentinel)
    (hbm : bitmapAllComplete s.bm = false) :
    cfg.kvSys.Reachable { s with
      receiver := .loopCheck, recvPosted := s.recvPosted + 1, cq := rest, wire := []
      sock := [.credit], bm := bitmapSet s.bm (immLayer imm).toNat (immChunk imm).toNat } := by
  have r1 : cfg.kvSys.Reachable { s with receiver := .poll } :=
    kv_next (a := .receiver) hr (by simp [kvStep, receiverStep, hpc, hbm])
  have r2 : cfg.kvSys.Reachable { s with
      receiver := .replenish, cq := rest
      bm := bitmapSet s.bm (immLayer imm).toNat (immChunk imm).toNat } :=
    kv_next (a := .receiver) r1 (by simp only [kvStep, receiverStep, hcq, himm, if_false])
  have r3 : cfg.kvSys.Reachable { s with
      receiver := .loopCheck, recvPosted := s.recvPosted + 1, cq := rest, wire := [.credit]
      bm := bitmapSet s.bm (immLayer imm).toNat (immChunk imm).toNat } :=
    kv_next (a := .receiver) (kv_next (a := .receiver) r2 rfl)
      (by simp only [kvStep, receiverStep, hwire, List.nil_append])
  exact kv_next (a := .deliverByte) r3 (by simp only [kvStep, hsock, List.nil_append])

/-- A sender without credits takes the one that has arrived. -/
theorem reach_stall {s : KvSt} (hr : cfg.kvSys.Reachable s) {i : Nat}
    (hpc : s.sender = .checkCredits i) (hc : s.credits ≤ 0) (hsock : s.sock = [.credit]) :
    cfg.kvSys.Reachable { s with
      sender := .drain i, credits := s.credits + 1, sock := []
      reads := s.reads ++ [(.credit, .credit)] } := by
  have r1 : cfg.kvSys.Reachable { s with sender := .stall i } :=
    kv_next (a := .sender) hr (by simp only [kvStep, senderStep, hpc, hc, if_true])
  have r2 : cfg.kvSys.Reachable { s with
      sender := .stallDrain i, credits := s.credits + 1, sock := []
      reads := s.reads ++ [(.credit, .credit)] } :=
    kv_next (a := .sender) r1 (by simp [kvStep, senderStep, KvSt.readBytes, hsock])
  exact kv_next (a := .sender) r2 (by simp [kvStep, senderStep, KvSt.readBytes, KvSt.available])

/-- A receiver that has seen every chunk gives up on the sentinel, and its done byte arrives. -/
theorem reach_done {s : KvSt} (hr : cfg.kvSys.Reachable s) (hpc : s.receiver = .loopCheck)
    (hwire : s.wire = []) (hsock : s.sock = []) (hbm : bitmapAllComplete s.bm = true) :
    cfg.kvSys.Reachable { s with receiver := .closed, wire := [], sock := [.done] } := by
  have r1 : cfg.kvSys.Reachable { s with receiver := .drain } :=
    kv_next (a := .receiver) hr (by simp [kvStep, receiverStep, hpc, hbm])
  have r2 : cfg.kvSys.Reachable { s with receiver := .sendDone } :=
    kv_next (a := .drainTimeout) r1 rfl
  have r3 : cfg.kvSys.Reachable { s with receiver := .closed, wire := [.done] } :=
    kv_next (a := .receiver) r2 (by simp [kvStep, receiverStep, hwire])
  exact kv_next (a := .deliverByte) r3 (by simp [kvStep, hsock])

/-- The next completion is a chunk's, while the receiver has not polled all of them. -/
theorem First.head {s : KvSt} {p r k c : Nat} (h : cfg.First s p r k c)
    (hpc : s.receiver = .loopCheck) (hr : r < cfg.total) {imm : BitVec 32}
    {rest : List (BitVec 32)} (hcq : s.cq = imm :: rest) :
    imm ≠ kvSentinel ∧ bitmapAllComplete s.bm = false := by
  have hrec := h.receiver
  rw [hpc] at hrec
  obtain ⟨-, -, ht⟩ := hrec
  obtain ⟨-, himm, -⟩ := h.queue_cons hcq
  refine ⟨?_, ?_⟩
  · rw [himm, msg, if_pos hr]
    exact cfg.imm_ne_sentinel hr
  · cases hc : bitmapAllComplete s.bm with
    | false => rfl
    | true =>
      have := (KvGrid.allComplete_iff ht (by omega)).mp hc
      omega

/-- The sender is before chunk `i`; the receiver has polled only what a stall needed. -/
structure AtChunk (cfg : KvConfig) (i : Nat) (s : KvSt) : Prop where
  reach : cfg.kvSys.Reachable s
  sender : s.sender = cfg.nextChunk i
  credits : s.credits = (cfg.creditWindow - i : Nat)
  receiver : s.receiver = .loopCheck
  recvPosted : s.recvPosted = cfg.creditWindow - i
  cq : s.cq.length = min i cfg.creditWindow
  inflight : s.inflight = []
  wire : s.wire = []
  sock : s.sock = []
  iter : s.iter = 0
  passes : s.passes = 0

theorem atChunk_started (hN : 0 < cfg.iterations) (hW : cfg.creditWindow ≤ cfg.total + 1) :
    cfg.AtChunk 0 cfg.started := by
  refine ⟨cfg.reach_started hN, rfl, rfl, rfl, ?_, ?_, rfl, rfl, rfl, rfl, rfl⟩
  · simp only [started, initialRecvs]; omega
  · simp [started]

/-- The `i`-th chunk is sent, after a credit for it if the window is used up. -/
theorem AtChunk.next (hw : 1 ≤ cfg.creditWindow) {i : Nat} (hi : i < cfg.total)
    (h : cfg.AtChunk i s) : ∃ s', cfg.AtChunk (i + 1) s' := by
  have hsender : s.sender = .checkCredits i := by rw [h.sender, nextChunk, if_pos hi]
  have hcr := h.credits
  have hrp := h.recvPosted
  have hcq := h.cq
  rcases Nat.lt_or_ge i cfg.creditWindow with hlt | hge
  · have r1 : cfg.kvSys.Reachable { s with sender := .drain i } :=
      kv_next (a := .sender) h.reach (by
        simp only [kvStep, senderStep, hsender, show ¬ s.credits ≤ 0 by omega, if_false])
    have r2 := reach_send r1 rfl h.sock h.inflight (by simp only; omega)
    refine ⟨_, r2, rfl, ?_, h.receiver, ?_, ?_, rfl, h.wire, h.sock, h.iter, h.passes⟩
    · simp only; omega
    · simp only; omega
    · simp only [List.length_append, List.length_singleton]; omega
  · obtain ⟨imm, rest, hcons⟩ : ∃ imm rest, s.cq = imm :: rest :=
      List.exists_cons_of_ne_nil (List.length_pos_iff.mp (by omega))
    obtain ⟨p, r, k, c, hf⟩ := first_of_passes h.reach h.passes
    have hp : p = i := by
      have hok := hf.sender
      rw [hsender] at hok
      exact hok.1
    have hlt := (hf.queue_cons hcons).1
    obtain ⟨himm, hbm⟩ := hf.head h.receiver (by omega) hcons
    have r1 := reach_replenish h.reach h.receiver h.wire h.sock hcons himm hbm
    have r2 := reach_stall r1 hsender (by simp only; omega) rfl
    have r3 := reach_send r2 rfl rfl h.inflight (Nat.succ_pos _)
    rw [hcons, List.length_cons] at hcq
    refine ⟨_, r3, rfl, ?_, rfl, ?_, ?_, rfl, rfl, rfl, h.iter, ?_⟩
    · simp only; omega
    · simp only; omega
    · simp only [List.length_append, List.length_singleton]; omega
    · have hpass := h.passes
      simp only [KvSt.passes, List.countP_append] at hpass ⊢
      simp [hpass]

/-- The sender is before its sentinel. -/
theorem atChunk_total (hw : 1 ≤ cfg.creditWindow) (hN : 0 < cfg.iterations)
    (hW : cfg.creditWindow ≤ cfg.total + 1) {i : Nat} (hi : i ≤ cfg.total) :
    ∃ s, cfg.AtChunk i s := by
  induction i with
  | zero => exact ⟨_, atChunk_started hN hW⟩
  | succ i ih =>
    obtain ⟨s, hs⟩ := ih (by omega)
    exact hs.next hw hi

/-- The window is at most the transfer: a slow receiver leaves none for the sentinel. -/
theorem sentinel_starved (hw : 1 ≤ cfg.creditWindow) (hN : 0 < cfg.iterations)
    (hW : cfg.creditWindow ≤ cfg.total) :
    ∃ s, cfg.kvSys.Reachable s ∧ s.Posting ∧ s.recvPosted = 0 := by
  obtain ⟨s, hs⟩ := atChunk_total hw hN (by omega) (le_refl cfg.total)
  refine ⟨s, hs.reach, .inr ?_, ?_⟩
  · rw [hs.sender, nextChunk, if_neg (Nat.lt_irrefl _)]
  · rw [hs.recvPosted]; omega

/-- An iteration that starts with fewer receives than the window posts beyond them. -/
theorem overdrawn {s : KvSt} (hr : cfg.kvSys.Reachable s) (hpc : s.sender = cfg.nextChunk 0)
    (hc : s.credits = cfg.creditWindow) (hsock : s.sock = [])
    (hlt : s.recvPosted < cfg.creditWindow) :
    ∃ s', cfg.kvSys.Reachable s' ∧ s'.Posting ∧ s'.recvPosted < s'.credits := by
  by_cases hT : 0 < cfg.total
  · rw [nextChunk, if_pos hT] at hpc
    have r1 : cfg.kvSys.Reachable { s with sender := .drain 0 } :=
      kv_next (a := .sender) hr (by
        simp only [kvStep, senderStep, hpc, show ¬ s.credits ≤ 0 by omega, if_false])
    exact ⟨_, reach_write r1 rfl hsock, .inl ⟨0, rfl⟩, by simp only; omega⟩
  · rw [nextChunk, if_neg hT] at hpc
    exact ⟨s, hr, .inr hpc, by omega⟩

/-- The second iteration starts with a full window again. -/
theorem second_overdrawn {s : KvSt} (hr : cfg.kvSys.Reachable s) (hpc : s.sender = .waitDone)
    {b : TcpByte} (hsock : s.sock = [b]) (hi : s.iter = 0) (hN : 1 < cfg.iterations)
    (hlt : s.recvPosted < cfg.creditWindow) :
    ∃ s', cfg.kvSys.Reachable s' ∧ s'.Posting ∧ s'.recvPosted < s'.credits := by
  have r1 : cfg.kvSys.Reachable { s.readBytes .done 1 with
      iter := s.iter + 1, sender := cfg.nextChunk 0, credits := cfg.creditWindow } :=
    kv_next (a := .sender) hr (by
      simp only [kvStep, senderStep, hpc, hsock, startIter, hi, Nat.zero_add, hN, if_true]
      rfl)
  exact overdrawn r1 rfl rfl (by simp [KvSt.readBytes, hsock]) hlt

/-- The sentinel is posted onto the last of `total + 1` receives. -/
theorem AtChunk.finish (hW : cfg.creditWindow = cfg.total + 1) (h : cfg.AtChunk cfg.total s) :
    cfg.kvSys.Reachable { s with
      sender := .waitDone, inflight := [], recvPosted := 0, cq := s.cq ++ [kvSentinel] } := by
  have hsender : s.sender = .sentinel := by rw [h.sender, nextChunk, if_neg (Nat.lt_irrefl _)]
  have hrp : s.recvPosted = 1 := by rw [h.recvPosted]; omega
  have r1 : cfg.kvSys.Reachable { s with sender := .sentinelWait, inflight := [kvSentinel] } :=
    kv_next (a := .sender) h.reach (by
      simp only [kvStep, senderStep, hsender, h.inflight, List.nil_append])
  have r2 : cfg.kvSys.Reachable { s with
      sender := .sentinelWait, inflight := [], recvPosted := 0, cq := s.cq ++ [kvSentinel] } :=
    kv_next (a := .deliverWrite) r1 (by simp [kvStep, hrp])
  exact kv_next (a := .sender) r2 (by simp only [kvStep, senderStep, if_true])

/-- A second iteration after one whose receives are used up. -/
theorem second_iteration (hN : 1 < cfg.iterations) (hW : cfg.creditWindow = cfg.total + 1) :
    ∃ s, cfg.kvSys.Reachable s ∧ s.Posting ∧ s.recvPosted < s.credits := by
  obtain ⟨s, hs⟩ := atChunk_total (by omega) (by omega) (le_of_eq hW) (le_refl cfg.total)
  have r1 := hs.finish hW
  obtain ⟨p, r, k, c, hf⟩ := first_of_passes r1 hs.passes
  by_cases hT : 0 < cfg.total
  · -- The credit of the first chunk is read as the done byte.
    obtain ⟨imm, rest, hcons⟩ : ∃ imm rest, s.cq ++ [kvSentinel] = imm :: rest :=
      List.exists_cons_of_ne_nil (by simp)
    have hr : r = 0 := by
      have hq := congrArg List.length hf.queue
      have hsend := hf.sender.1
      have hpol := hf.polled_le
      have hcq := hs.cq
      simp only [List.length_append, List.length_map, List.length_range', List.length_singleton,
        List.length_nil] at hq
      omega
    obtain ⟨himm, hbm⟩ := hf.head hs.receiver (by omega) hcons
    have r2 := reach_replenish r1 hs.receiver hs.wire hs.sock hcons himm hbm
    exact second_overdrawn r2 rfl rfl hs.iter hN (by simp only; omega)
  · -- There is nothing to see, so the receiver is done at once.
    have hbm : bitmapAllComplete s.bm = true := by
      have hrec := hf.receiver
      simp only [hs.receiver, ReceiverOk] at hrec
      exact (KvGrid.allComplete_iff hrec.2.2 (by omega)).mpr (by omega)
    have r2 := reach_done r1 hs.receiver hs.wire hs.sock hbm
    exact second_overdrawn r2 rfl rfl hs.iter hN (by simp only; omega)

/-- In peer mode the window is exactly the transfer and its sentinel, used for one iteration, and
fits the queue pair. -/
def PeerFits (cfg : KvConfig) : Prop :=
  cfg.initialRecvs ≤ peerCapacity ∧
    (cfg.iterations = 0 ∨ cfg.iterations = 1 ∧ cfg.creditWindow = cfg.total + 1)

end KvConfig

/-- Flow control in peer mode. -/
theorem peer_credit_safe (hw : 1 ≤ cfg.creditWindow) :
    (∀ s, cfg.kvSys.Reachable s → CreditSafe s.Posting s.credits s.recvPosted peerCapacity) ↔
      cfg.PeerFits := by
  constructor
  · intro h
    have hover : ¬ ∃ s, cfg.kvSys.Reachable s ∧ s.Posting ∧ s.recvPosted < s.credits := by
      rintro ⟨s, hr, hp, hlt⟩
      have := (h s hr).covered hp
      omega
    refine ⟨(h _ (cfg.reach_prePost (le_refl _))).fits, ?_⟩
    by_contra hne
    have hN : 0 < cfg.iterations := by omega
    rcases Nat.lt_trichotomy cfg.creditWindow (cfg.total + 1) with hW | hW | hW
    · obtain ⟨s, hr, hp, h0⟩ := KvConfig.sentinel_starved hw hN (by omega)
      have := (h s hr).available hp
      omega
    · exact hover (KvConfig.second_iteration (by omega) hW)
    · have hlt : cfg.started.recvPosted < cfg.creditWindow := by
        simp only [KvConfig.started, KvConfig.initialRecvs]; omega
      exact hover (KvConfig.overdrawn (cfg.reach_started hN) rfl rfl rfl hlt)
  · rintro ⟨hcap, hN⟩ s hr
    have hpost : s.Posting → 1 ≤ s.recvPosted ∧ s.credits ≤ s.recvPosted := by
      intro hp
      rcases hN with h0 | ⟨h1, hW⟩
      · rcases kv_idle h0 hr with h2 | h2 | h2 <;> rcases hp with ⟨i, hi⟩ | hi <;>
          rw [h2] at hi <;> cases hi
      · exact kv_posting h1 hW hr hp
    have hroom := (kv_room hr).le
    exact ⟨fun hp => (hpost hp).1, fun hp => (hpost hp).2, by omega⟩

/-- **Credits.** For every configuration and every run, flow control keeps its promise in loopback
mode exactly if the window is no larger than the transfer or the leftover receives fit, and in peer
mode exactly if the window is the transfer and its sentinel, in a single iteration. -/
theorem kv_credit_safe (hw : 1 ≤ cfg.creditWindow) :
    ((∀ s, cfg.loopSys.Reachable s →
        CreditSafe s.Posting s.credits s.recvPosted cfg.loopCapacity) ↔ cfg.LoopFits) ∧
      ((∀ s, cfg.kvSys.Reachable s →
        CreditSafe s.Posting s.credits s.recvPosted peerCapacity) ↔ cfg.PeerFits) :=
  ⟨loop_credit_safe hw, peer_credit_safe hw⟩

/-- A window of two for one chunk and its sentinel. -/
theorem kv_credit_safe_two :
    let cfg : KvConfig := { oneChunk with creditWindow := 2 }
    (∀ s, cfg.loopSys.Reachable s →
        CreditSafe s.Posting s.credits s.recvPosted cfg.loopCapacity) ∧
      ∀ s, cfg.kvSys.Reachable s → CreditSafe s.Posting s.credits s.recvPosted peerCapacity := by
  intro cfg
  obtain ⟨h1, h2⟩ := @kv_credit_safe cfg (by decide)
  exact ⟨h1.mpr fun _ _ => by decide, h2.mpr ⟨by decide, .inr ⟨rfl, rfl⟩⟩⟩

/-- The one chunk takes the only receive; the receiver has not polled it when the sentinel is
posted. -/
def starvedRun : List KvAct :=
  [.receiver, .receiver, .receiver, .deliverByte, .sender, .sender, .sender, .sender, .deliverWrite,
   .sender]

/-- Eighteen iterations leave seventeen receives behind before the last one. -/
def manyIterations : KvConfig := { oneChunk with creditWindow := 2, iterations := 18 }

/-- The sentinel of a transfer of one chunk has no receive; in loopback mode the nineteenth receive
goes onto a queue pair for eighteen. -/
theorem kv_credit_unsafe :
    (¬ ∀ s, oneChunk.kvSys.Reachable s →
        CreditSafe s.Posting s.credits s.recvPosted peerCapacity) ∧
      ¬ ∀ s, manyIterations.loopSys.Reachable s →
        CreditSafe s.Posting s.credits s.recvPosted manyIterations.loopCapacity := by
  constructor
  · intro h
    obtain ⟨s, hr, hpc, h0⟩ : ∃ s, oneChunk.kvSys.Reachable s ∧ s.sender = .sentinel ∧
        s.recvPosted = 0 := Transition.Sys.exists_of_exec starvedRun (by decide +kernel)
    have := (h s hr).available (.inr hpc)
    omega
  · intro h
    obtain ⟨s, hr, hs⟩ := @loop_peak_reached manyIterations (by decide) (by decide)
    have hfit := (h s hr).fits
    rw [hs] at hfit
    exact absurd hfit (by decide)

end Dmaplane
