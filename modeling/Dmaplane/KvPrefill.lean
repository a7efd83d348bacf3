import Dmaplane.KvServerInv

/-!
# Dmaplane.KvPrefill

The steps of prefill keep what holds between the servers: outside of a transfer it reads what decode
has sent for the next prompt (`Rest.prefill`), in a transfer it reads credits and posts writes
(`Transfer.prefillStep`).
-/

namespace Dmaplane

open Transition

namespace SrvSt

variable {cfg : ServerConfig} {s s' : SrvSt} {p r c : Nat}

-- Its equations are made here, once for the proofs below.
attribute [local simp] prefillStep

/-- Prefill reads, posts and counts; decode's variables and the receives are not its own. -/
theorem prefillStep_frame (h : s.prefillStep = some s') :
    s'.decode = s.decode ∧ s'.prompt = s.prompt ∧ s'.decodePrompt = s.decodePrompt ∧
      s'.recvPosted = s.recvPosted ∧ s'.cq = s.cq ∧ s'.down = s.down := by
  have hread {n : Nat} {k : List SrvByte → SrvSt → SrvSt} (hk : ∀ bytes t,
      (k bytes t).decode = t.decode ∧ (k bytes t).prompt = t.prompt ∧
        (k bytes t).decodePrompt = t.decodePrompt ∧ (k bytes t).recvPosted = t.recvPosted ∧
        (k bytes t).cq = t.cq ∧ (k bytes t).down = t.down) (hr : s.readUp n k = some s') :
      s'.decode = s.decode ∧ s'.prompt = s.prompt ∧ s'.decodePrompt = s.decodePrompt ∧
        s'.recvPosted = s.recvPosted ∧ s'.cq = s.cq ∧ s'.down = s.down := by
    unfold readUp at hr
    split at hr
    · cases hr
    · cases hr; exact ⟨rfl, rfl, rfl, rfl, rfl, rfl⟩
    · cases hr; exact hk _ _
  cases hpc : s.prefill with
  | waitReady | waitHeader | waitPrompt n | stall i | waitRemaining n =>
    simp only [prefillStep, hpc] at h
    refine hread ?_ h
    exact fun _ _ => ⟨rfl, rfl, rfl, rfl, rfl, rfl⟩
  | compute | finished => simp [prefillStep, hpc] at h
  | writeWait i | sentinelWait =>
    simp only [prefillStep, hpc] at h
    split at h <;> cases h
    exact ⟨rfl, rfl, rfl, rfl, rfl, rfl⟩
  | transfer | checkCredits i | drain i | write i | sentinel =>
    simp only [prefillStep, hpc] at h; cases h
    exact ⟨rfl, rfl, rfl, rfl, rfl, rfl⟩

theorem nextChunk_ne (i : Nat) : s.nextChunk i ≠ .compute := by
  unfold nextChunk
  split <;> simp

/-- Prefill turns to a prompt when it has read it. -/
theorem prefillStep_counts (hs : s.prefillStep = some s') :
    s.prefill ≠ .compute ∧ s'.numChunks = s.numChunks ∧
      s'.prefillPrompt = s.prefillPrompt + if s'.prefill = .compute then 1 else 0 := by
  have hread {n : Nat} {k : List SrvByte → SrvSt → SrvSt} (hpc : s.prefill ≠ .compute)
      (hk : ∀ bytes t, (k bytes t).numChunks = t.numChunks ∧ (k bytes t).prefillPrompt =
        t.prefillPrompt + if (k bytes t).prefill = .compute then 1 else 0)
      (hr : s.readUp n k = some s') : s'.numChunks = s.numChunks ∧
        s'.prefillPrompt = s.prefillPrompt + if s'.prefill = .compute then 1 else 0 := by
    unfold readUp at hr
    split at hr
    · cases hr
    · cases hr
      exact ⟨rfl, by rw [if_neg hpc]; rfl⟩
    · cases hr
      exact hk _ _
  have hne (h : s.prefill = .compute) : s.prefillStep = none := by simp only [prefillStep, h]
  have hpc : s.prefill ≠ .compute := fun h => by rw [hne h] at hs; cases hs
  refine ⟨hpc, ?_⟩
  cases hp : s.prefill with
  | waitReady | stall i | waitRemaining n | waitPrompt n =>
    simp only [prefillStep, hp] at hs
    refine hread hpc ?_ hs
    exact fun _ _ => ⟨rfl, rfl⟩
  | waitHeader =>
    simp only [prefillStep, hp] at hs
    refine hread hpc ?_ hs
    refine fun bytes t => ⟨rfl, ?_⟩
    dsimp only
    split <;> rfl
  | compute | finished => simp [prefillStep, hp] at hs
  | transfer =>
    simp only [prefillStep, hp] at hs; cases hs
    exact ⟨rfl, by rw [if_neg (nextChunk_ne 0)]; rfl⟩
  | checkCredits i =>
    simp only [prefillStep, hp] at hs; cases hs
    refine ⟨rfl, ?_⟩
    dsimp only
    split <;> rfl
  | writeWait i =>
    simp only [prefillStep, hp] at hs
    split at hs <;> cases hs
    exact ⟨rfl, by rw [if_neg (nextChunk_ne (i + 1))]; rfl⟩
  | sentinelWait =>
    simp only [prefillStep, hp] at hs
    split at hs <;> cases hs
    refine ⟨rfl, ?_⟩
    dsimp only
    split <;> rfl
  | drain i | write i | sentinel =>
    simp only [prefillStep, hp] at hs; cases hs
    exact ⟨rfl, rfl⟩

theorem ahead_cases {pc : DecodePc} (h : pc.Ahead) :
    pc.lead = 1 ∨ pc = .closed ∨ pc = .repost ∨ pc = .nextPrompt := by
  cases pc <;> simp_all [DecodePc.Ahead, DecodePc.lead]

/-- The bytes of a prompt begin with its length. -/
theorem nextBytes_of_lead {prompt : List (BitVec 8)} {pc : DecodePc} (h : pc.lead = 1) :
    ∃ tail, pc.nextBytes prompt = promptBytes (packLen prompt.length) ++ tail := by
  cases pc with
  | sendText => exact ⟨[], (List.append_nil _).symm⟩
  | waitJsonHeader => exact ⟨_, rfl⟩
  | prePost | sendReady | nextPrompt | waitJson | recvLoop | poll | replenish | sendCredit
  | sendDone | repost | closed => simp [DecodePc.lead] at h

/-- Prefill outside of a transfer. -/
theorem Rest.prefill (hb : s.Bounded) (h : s.Rest s.prefill) (hs : s.prefillStep = some s') :
    s'.Rest s'.prefill := by
  have hgot := hb.up
  cases hpc : s.prefill with
  | waitReady =>
    rw [hpc] at h hgot
    simp only [prefillStep, hpc] at hs
    rcases h with he | hi
    · rw [readUp_nil he.up (by decide)] at hs
      cases hs
    · rcases readUp_cases (n := 1) hgot hs with ⟨up, rfl, hu, -⟩ | ⟨bytes, up, rfl, hl, hu, -⟩
      · simp only [hpc]
        exact .inr (hi.congr ⟨rfl, rfl, rfl, rfl, rfl, rfl, rfl, rfl, rfl⟩ rfl rfl hu)
      · have hst := hi.stream
        rw [List.nil_append, hu] at hst
        obtain ⟨-, hrest⟩ := List.append_inj hst hl
        exact ⟨hi.turned.congr ⟨rfl, rfl, rfl, rfl, rfl, rfl, rfl, rfl, rfl⟩, hi.inflight, hi.cq,
          hrest⟩
  | waitHeader =>
    rw [hpc] at h hgot
    simp only [prefillStep, hpc] at hs
    rcases readUp_cases (n := 4) hgot hs with ⟨up, rfl, hu, -⟩ | ⟨bytes, up, rfl, hl, hu, -⟩
    · simp only [hpc]
      exact Idle.congr h ⟨rfl, rfl, rfl, rfl, rfl, rfl, rfl, rfl, rfl⟩ rfl rfl hu
    · have hst : bytes ++ up.unread = s.decode.nextBytes s.prompt := by
        rw [← hu]; exact h.stream
      have hturn : ∀ pc, { s with up := up, prefill := pc }.Turned :=
        fun _ => h.turned.congr ⟨rfl, rfl, rfl, rfl, rfl, rfl, rfl, rfl, rfl⟩
      rcases ahead_cases h.turned.ahead with hlead | hd | hd | hd
      · -- The length of the prompt.
        obtain ⟨tail, htail⟩ : ∃ tail, s.decode.nextBytes s.prompt =
            promptBytes (packLen s.prompt.length) ++ tail := nextBytes_of_lead hlead
        obtain ⟨hpos, hlt⟩ := h.turned.text hlead
        rw [htail] at hst
        obtain ⟨rfl, hrest⟩ := List.append_inj hst (by rw [hl]; rfl)
        have hlen : unpackLen ((promptBytes (packLen s.prompt.length)).map (·.value)) =
            s.prompt.length := by rw [promptBytes_value, unpackLen_packLen hlt]
        simp only [hlen, show s.prompt.length ≠ 0 by omega, if_false]
        exact ⟨⟨hturn _, h.inflight, h.cq, by rw [hrest, ← htail]; rfl⟩, hlead, rfl⟩
      · -- The shutdown signal.
        have hnext : s.decode.nextBytes s.prompt = promptBytes (packLen 0) ++ [] := by
          rw [hd]; exact (List.append_nil _).symm
        rw [hnext] at hst
        obtain ⟨rfl, -⟩ := List.append_inj hst (by rw [hl]; rfl)
        simp only [promptBytes_value, unpackLen_packLen (by decide : 0 < 2 ^ 32), if_true]
        exact hd
      · have := congrArg List.length hst
        simp only [hd, DecodePc.nextBytes, List.length_append, List.length_nil] at this
        omega
      · have := congrArg List.length hst
        simp only [hd, DecodePc.nextBytes, List.length_append, List.length_nil] at this
        omega
  | waitPrompt n =>
    rw [hpc] at h hgot
    simp only [prefillStep, hpc] at hs
    obtain ⟨hi, hlead, rfl⟩ := h
    rcases readUp_cases (n := s.prompt.length) hgot hs with
      ⟨up, rfl, hu, -⟩ | ⟨bytes, up, rfl, hl, hu, -⟩
    · simp only [hpc]
      exact ⟨hi.congr ⟨rfl, rfl, rfl, rfl, rfl, rfl, rfl, rfl, rfl⟩ rfl rfl hu, hlead, rfl⟩
    · have hst := hi.stream
      rw [List.nil_append, hu] at hst
      have hindex := hi.turned.index
      rw [hlead] at hindex
      have hpos := (hi.turned.text hlead).1
      -- The text is there, so it has been sent.
      cases hd : s.decode with
      | waitJsonHeader =>
        rw [hd] at hst
        have htext : bytes ++ up.unread = promptBytes s.prompt ++ [] := by
          rw [List.append_nil]; exact List.append_cancel_left hst
        obtain ⟨rfl, hrest⟩ := List.append_inj htext (by rw [promptBytes_length, hl])
        exact ⟨rfl, hindex, hi.inflight, hi.cq, hrest, hi.turned.json⟩
      | sendText =>
        have := congrArg List.length hst
        simp only [hd, DecodePc.nextBytes, List.length_append] at this
        omega
      | prePost | sendReady | nextPrompt | waitJson | recvLoop | poll | replenish | sendCredit
      | sendDone | repost | closed => simp [hd, DecodePc.lead] at hlead
  | compute | finished => simp [prefillStep, hpc] at hs
  | transfer | checkCredits i | stall i | drain i | write i | writeWait i | sentinel
  | sentinelWait | waitRemaining n =>
    rw [hpc] at h
    exact h.elim

namespace Transfer

/-- Prefill moves on without reading or posting. -/
theorem goto (h : Transfer cfg s p r c) {pc : PrefillPc} {credits : Int}
    (hok : PrefillOk cfg.creditWindow s.numChunks p s.creditsReceived credits
      s.inflight.length pc) :
    Transfer cfg { s with prefill := pc, credits := credits } p r c :=
  ⟨hok, h.queue, h.polled_le, h.read_le,
    h.decode_congr ⟨rfl, rfl, rfl, rfl, rfl, rfl, rfl, rfl, rfl⟩ rfl rfl⟩

/-- Prefill posts its `p`-th write. -/
theorem post (h : Transfer cfg s p r c) {pc : PrefillPc} {w : KvWrite} (hw : w = s.msg p)
    (hok : PrefillOk cfg.creditWindow s.numChunks (p + 1) s.creditsReceived s.credits
      (s.inflight.length + 1) pc) :
    Transfer cfg { s with prefill := pc, inflight := s.inflight ++ [w] } (p + 1) r c := by
  have hle := h.polled_le
  refine ⟨by simpa using hok, ?_, by omega, h.read_le,
    h.decode_congr ⟨rfl, rfl, rfl, rfl, rfl, rfl, rfl, rfl, rfl⟩ rfl rfl⟩
  show s.cq ++ (s.inflight ++ [w]) = _
  rw [← List.append_assoc, h.queue, show p + 1 - r = (p - r) + 1 by omega, List.range'_concat,
    List.map_append, hw]
  simp only [Nat.one_mul, List.map_cons, List.map_nil, show r + (p - r) = p by omega]
  rfl

/-- Prefill reads credits. -/
theorem read (h : Transfer cfg s p r c) (hp : p ≤ s.numChunks) {bytes : List SrvByte}
    {up : Stream SrvByte} (hu : s.up.unread = bytes ++ up.unread) {pc : PrefillPc} {credits : Int}
    (hok : PrefillOk cfg.creditWindow s.numChunks p (s.creditsReceived + bytes.length) credits
      s.inflight.length pc) :
    Transfer cfg { s with
      prefill := pc, up := up, credits := credits
      creditsReceived := s.creditsReceived + bytes.length } p r c := by
  obtain ⟨hbusy, hindex, hun⟩ := h.unread_credits hp
  have hle := h.read_le
  rw [hu] at hun
  have hlen := congrArg List.length hun
  have hdrop := congrArg (List.drop bytes.length) hun
  simp only [List.length_append, List.length_replicate] at hlen
  rw [List.drop_left, List.drop_replicate] at hdrop
  refine ⟨hok, h.queue, h.polled_le, by simp only; omega, .inl ⟨?_, hindex, ?_⟩⟩
  · exact hbusy.congr ⟨rfl, rfl, rfl, rfl, rfl, rfl, rfl, rfl, rfl⟩
  · rw [hdrop, Nat.sub_sub]

/-- The head of the send loop. -/
theorem prefillOk_nextChunk {w n k i : Nat} {credits : Int} (hi : i ≤ n)
    (hc : credits + i = w + k) (h0 : 0 ≤ credits) (hn : s.numChunks = n) :
    PrefillOk w n i k credits 0 (s.nextChunk i) := by
  unfold nextChunk
  split
  · exact ⟨rfl, by omega, hc, h0, rfl⟩
  · obtain rfl : i = n := by omega
    exact ⟨rfl, hc, h0, rfl⟩

theorem prefillStep (hb : s.Bounded) (h : Transfer cfg s p r c)
    (hs : s.prefillStep = some s') : s'.Rest s'.prefill ∨ ∃ p r c, Transfer cfg s' p r c := by
  have hok := h.prefill
  have hgot := hb.up
  cases hpc : s.prefill with
  | transfer =>
    rw [hpc] at hok
    obtain ⟨rfl, hk, hc, hfl⟩ := hok
    simp only [SrvSt.prefillStep, hpc] at hs; cases hs
    refine .inr ⟨0, r, c, h.goto ?_⟩
    rw [hfl, hk]
    exact prefillOk_nextChunk (Nat.zero_le _) (by omega) (by omega) rfl
  | checkCredits i =>
    rw [hpc] at hok
    obtain ⟨rfl, hi, hc, h0, hfl⟩ := hok
    simp only [SrvSt.prefillStep, hpc] at hs; cases hs
    refine .inr ⟨p, r, c, h.goto ?_⟩
    split
    · exact ⟨rfl, hi, hc, by omega, hfl⟩
    · exact ⟨rfl, hi, hc, by omega, hfl⟩
  | stall i =>
    rw [hpc] at hok hgot
    obtain ⟨rfl, hi, hc, h0, hfl⟩ := hok
    simp only [SrvSt.prefillStep, hpc] at hs
    rcases readUp_cases (n := 1) hgot hs with ⟨up, rfl, hu, -⟩ | ⟨bytes, up, rfl, hl, hu, -⟩
    · exact .inr ⟨p, r, c, h.setStreams hu rfl⟩
    · have hread : Transfer cfg { s with
          prefill := .drain p, up := up, credits := s.credits + 1
          creditsReceived := s.creditsReceived + bytes.length } p r c :=
        h.read (Nat.le_of_lt hi) hu (by rw [hl]; exact ⟨rfl, hi, by omega, by omega, hfl⟩)
      rw [hl] at hread
      exact .inr ⟨p, r, c, hread⟩
  | drain i =>
    rw [hpc] at hok hgot
    obtain ⟨rfl, hi, hc, h0, hfl⟩ := hok
    simp only [SrvSt.prefillStep, hpc] at hs; cases hs
    have hu : s.up.unread = (s.up.recv 64).got ++ (s.up.recv 64).clear.unread := by
      rw [Stream.got_append_clear, Stream.unread_recv]
    exact .inr ⟨p, r, c, h.read (Nat.le_of_lt hi) hu ⟨rfl, hi, by omega, by omega, hfl⟩⟩
  | write i =>
    rw [hpc] at hok
    obtain ⟨rfl, hi, hc, h0, hfl⟩ := hok
    simp only [SrvSt.prefillStep, hpc] at hs; cases hs
    exact .inr ⟨p + 1, r, c, h.post (by simp [msg, hi]) ⟨rfl, hi, hc, h0⟩⟩
  | writeWait i =>
    rw [hpc] at hok
    obtain ⟨rfl, hi, hc, h0⟩ := hok
    simp only [SrvSt.prefillStep, hpc] at hs
    split at hs <;> cases hs
    rename_i hnil
    refine .inr ⟨i + 1, r, c, h.goto ?_⟩
    rw [hnil]
    exact prefillOk_nextChunk hi (by push_cast; omega) (by omega) rfl
  | sentinel =>
    rw [hpc] at hok
    obtain ⟨rfl, -, -, -⟩ := hok
    simp only [SrvSt.prefillStep, hpc] at hs; cases hs
    exact .inr ⟨_, r, c, h.post (by simp [msg]) rfl⟩
  | sentinelWait =>
    rw [hpc] at hok
    obtain rfl : p = s.numChunks + 1 := hok
    simp only [SrvSt.prefillStep, hpc] at hs
    split at hs <;> cases hs
    rename_i hnil
    have hk : s.creditsReceived ≤ s.numChunks := h.read_le.trans h.credits_le
    have hrem : s.remaining = (s.numChunks + 1 - s.creditsReceived : Nat) := by
      unfold remaining; omega
    have hpos : 0 < s.remaining := by omega
    rw [if_pos hpos, hrem, Int.toNat_natCast]
    exact .inr ⟨_, r, c, h.goto ⟨rfl, by omega, by rw [hnil]; rfl⟩⟩
  | waitRemaining m =>
    rw [hpc] at hok hgot
    obtain ⟨rfl, hm, hfl⟩ := hok
    simp only [SrvSt.prefillStep, hpc] at hs
    rcases readUp_cases (n := m) hgot hs with ⟨up, rfl, hu, -⟩ | ⟨bytes, up, rfl, hl, hu, -⟩
    · exact .inr ⟨_, r, c, h.setStreams hu rfl⟩
    · have hcr := h.credits_le
      have hread := h.read_le
      rcases h.decode with ⟨-, -, hun⟩ | ⟨ht, rfl, rfl, hun⟩
      · -- Decode has not sent that many bytes yet.
        rw [hu] at hun
        have := congrArg List.length hun
        simp only [List.length_append, List.length_replicate] at this
        omega
      · refine .inl ⟨ht.congr ⟨rfl, rfl, rfl, rfl, rfl, rfl, rfl, rfl, rfl⟩,
          List.eq_nil_of_length_eq_zero hfl, ?_, ?_⟩
        · have hq := h.queue
          rw [Nat.sub_self] at hq
          exact (List.append_eq_nil_iff.mp hq).1
        · -- The rest of the credits and the done byte are read.
          have hun' : bytes ++ up.unread =
              (List.replicate (s.numChunks - s.creditsReceived) creditByte ++ [doneByte]) ++
                s.decode.nextBytes s.prompt := by
            rw [← hu, hun, List.append_assoc]; rfl
          exact (List.append_inj hun' (by simp; omega)).2
  | compute | finished => simp [SrvSt.prefillStep, hpc] at hs
  | waitReady | waitHeader | waitPrompt n =>
    rw [hpc] at hok
    exact hok.elim

end Transfer

/-- No read takes more than it asks for. -/
theorem Bounded.prefillStep (h : s.Bounded) (hs : s.prefillStep = some s') : s'.Bounded := by
  obtain ⟨hd, -, -, -, -, hdown⟩ := prefillStep_frame hs
  refine ⟨?_, by rw [hd, hdown]; exact h.down⟩
  have hgot := h.up
  have hread {n : Nat} {k : List SrvByte → SrvSt → SrvSt} (hn : s.prefill.need = n)
      (hk : ∀ bytes t, (k bytes t).up = t.up) (hr : s.readUp n k = some s') :
      s'.up.got.length ≤ s'.prefill.need := by
    rw [hn] at hgot
    rcases readUp_cases hgot hr with ⟨up, rfl, -, hl⟩ | ⟨bytes, up, rfl, -, -, hl⟩
    · rw [← hn] at hl; exact hl
    · rw [hk, hl]; exact Nat.zero_le _
  cases hpc : s.prefill with
  | waitReady | waitHeader | waitPrompt n | stall i | waitRemaining n =>
    simp only [SrvSt.prefillStep, hpc] at hs
    refine hread (by rw [hpc]; rfl) ?_ hs
    exact fun _ _ => rfl
  | compute | finished => simp [SrvSt.prefillStep, hpc] at hs
  | writeWait i | sentinelWait =>
    rw [hpc] at hgot
    simp only [SrvSt.prefillStep, hpc] at hs
    split at hs <;> cases hs
    exact hgot.trans (Nat.zero_le _)
  | drain i =>
    simp only [SrvSt.prefillStep, hpc] at hs; cases hs
    exact Nat.zero_le _
  | transfer | checkCredits i | write i | sentinel =>
    rw [hpc] at hgot
    simp only [SrvSt.prefillStep, hpc] at hs; cases hs
    exact hgot.trans (Nat.zero_le _)

end SrvSt

end Dmaplane
