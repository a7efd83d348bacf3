import Dmaplane.KvServerInv

/-!
# Dmaplane.KvDecode

The steps of decode keep what holds between the servers. While it goes on with its next prompt it
only sends (`Turned.decodeStep`); in a transfer it polls, posts and sends credits
(`Transfer.decodeStep`).
-/

namespace Dmaplane

open Transition

namespace SrvSt

variable {cfg : ServerConfig} {s s' : SrvSt} {p r c : Nat}

-- Its equations are made here, once for the proofs below.
attribute [local simp] decodeStep

/-- Decode reads, polls and sends; prefill's variables and the writes in flight are not its own. -/
theorem decodeStep_frame (h : s.decodeStep cfg = some s') :
    s'.prefill = s.prefill ∧ s'.credits = s.credits ∧ s'.creditsReceived = s.creditsReceived ∧
      s'.numChunks = s.numChunks ∧ s'.prefillPrompt = s.prefillPrompt ∧
      s'.inflight = s.inflight := by
  cases hpc : s.decode with
  | prePost n | nextPrompt =>
    simp only [decodeStep, hpc] at h
    split at h <;> cases h <;> exact ⟨rfl, rfl, rfl, rfl, rfl, rfl⟩
  | sendReady | sendText | recvLoop j | replenish j | sendCredit j | sendDone | repost =>
    simp only [decodeStep, hpc] at h; cases h
    exact ⟨rfl, rfl, rfl, rfl, rfl, rfl⟩
  | waitJsonHeader | waitJson n =>
    simp only [decodeStep, hpc, readDown] at h
    split at h <;> cases h <;> exact ⟨rfl, rfl, rfl, rfl, rfl, rfl⟩
  | poll j =>
    simp only [decodeStep, hpc] at h
    split at h
    · cases h
    · split at h <;> cases h <;> exact ⟨rfl, rfl, rfl, rfl, rfl, rfl⟩
  | closed => simp [decodeStep, hpc] at h

/-- Decode goes on with its next prompt. -/
theorem Turned.decodeStep (h : s.Turned) (hs : s.decodeStep cfg = some s') :
    s'.Turned ∧ s'.cq = s.cq ∧ ∃ sent, s'.up.unread = s.up.unread ++ sent ∧
      s'.decode.nextBytes s'.prompt = s.decode.nextBytes s.prompt ++ sent := by
  obtain ⟨hahead, hindex, htext, hjson⟩ := h
  cases hpc : s.decode with
  | repost =>
    rw [hpc] at hindex
    simp only [SrvSt.decodeStep, hpc] at hs; cases hs
    exact ⟨⟨trivial, hindex, by simp [DecodePc.lead], hjson⟩, rfl, [],
      (List.append_nil _).symm, rfl⟩
  | nextPrompt =>
    rw [hpc] at hindex
    simp only [SrvSt.decodeStep, hpc] at hs
    split at hs <;> cases hs
    · exact ⟨⟨trivial, hindex, by simp [DecodePc.lead], hjson⟩, rfl, _,
        Stream.unread_send _ _, rfl⟩
    · rename_i p rest hp
      exact ⟨⟨trivial, congrArg (· + 1) hindex, fun _ => ⟨p.text_pos, p.text_lt⟩, hjson⟩, rfl, _,
        Stream.unread_send _ _, rfl⟩
  | sendText =>
    rw [hpc] at hindex htext
    simp only [SrvSt.decodeStep, hpc] at hs; cases hs
    exact ⟨⟨trivial, hindex, htext, hjson⟩, rfl, _, Stream.unread_send _ _, rfl⟩
  | waitJsonHeader =>
    simp only [SrvSt.decodeStep, hpc, readDown_nil hjson (by decide : 0 < 4)] at hs
    cases hs
  | closed => simp [SrvSt.decodeStep, hpc] at hs
  | prePost | sendReady | waitJson | recvLoop | poll | replenish | sendCredit | sendDone =>
    rw [hpc] at hahead
    exact hahead.elim

/-- Where decode's step leaves the receives. -/
theorem Held.decodeStep (h : s.Held cfg) (hloop : ∀ j, s.decode = .recvLoop j → j < s.expected + 1)
    (hs : s.decodeStep cfg = some s') : s'.Held cfg := by
  obtain ⟨hheld, hpre⟩ := h
  cases hpc : s.decode with
  | prePost n =>
    have hn := hpre n hpc
    rw [hpc] at hheld
    simp only [SrvSt.decodeStep, hpc] at hs
    simp only [DecodePc.heldAt] at hheld
    split at hs <;> cases hs
    · refine ⟨by simp only [DecodePc.heldAt]; omega, fun m hm => ?_⟩
      cases hm
      omega
    · exact ⟨by simp only [DecodePc.heldAt]; omega, fun m hm => by cases hm⟩
  | nextPrompt =>
    rw [hpc] at hheld
    simp only [SrvSt.decodeStep, hpc] at hs
    split at hs <;> cases hs <;> exact ⟨hheld, fun m hm => by cases hm⟩
  | sendReady | sendText | sendCredit j | sendDone =>
    rw [hpc] at hheld
    simp only [SrvSt.decodeStep, hpc] at hs; cases hs
    exact ⟨hheld, fun m hm => by cases hm⟩
  | replenish j | repost =>
    rw [hpc] at hheld
    simp only [SrvSt.decodeStep, hpc] at hs; cases hs
    simp only [DecodePc.heldAt] at hheld
    exact ⟨by simp only [DecodePc.heldAt]; omega, fun m hm => by cases hm⟩
  | waitJsonHeader | waitJson n =>
    rw [hpc] at hheld
    simp only [SrvSt.decodeStep, hpc, readDown] at hs
    split at hs <;> cases hs <;> exact ⟨hheld, fun m hm => by cases hm⟩
  | recvLoop j =>
    rw [hpc] at hheld
    simp only [SrvSt.decodeStep, hpc, hloop j hpc, if_true] at hs; cases hs
    exact ⟨hheld, fun m hm => by cases hm⟩
  | poll j =>
    rw [hpc] at hheld
    simp only [SrvSt.decodeStep, hpc] at hs
    split at hs
    · cases hs
    · rename_i w rest hcq
      simp only [hcq, List.length_cons, DecodePc.heldAt] at hheld
      split at hs <;> cases hs
      · exact ⟨by simp only [DecodePc.heldAt]; omega, fun m hm => by cases hm⟩
      · exact ⟨by simp only [DecodePc.heldAt]; omega, fun m hm => by cases hm⟩
  | closed => simp [SrvSt.decodeStep, hpc] at hs

namespace Transfer

/-- What a step of decode leaves of a transfer: decode's own side is to be shown. -/
theorem ofDecode (h : Transfer cfg s p r c) (hs : s.decodeStep cfg = some s') {r' c' : Nat}
    (hq : s'.cq ++ s.inflight = (List.range' r' (p - r')).map s.msg) (hr : r' ≤ p) (hc : c ≤ c')
    (hd : (Busy cfg s' r' c' s'.decode ∧ s'.decodePrompt = s.prefillPrompt ∧
        s'.up.unread = List.replicate (c' - s.creditsReceived) creditByte) ∨
      (s'.Turned ∧ r' = s.numChunks + 1 ∧ c' = s.numChunks ∧
        s'.up.unread = List.replicate (c' - s.creditsReceived) creditByte ++
          doneByte :: s'.decode.nextBytes s'.prompt)) : Transfer cfg s' p r' c' := by
  obtain ⟨h1, h2, h3, h4, h5, h6⟩ := decodeStep_frame hs
  refine ⟨?_, ?_, hr, ?_, ?_⟩
  · rw [h1, h2, h3, h4, h6]; exact h.prefill
  · rw [h6, msg_congr h5 h4]; exact hq
  · rw [h3]; exact h.read_le.trans hc
  · rw [h3, h4, h5]; exact hd

/-- The next completion is that of the `r`-th write. -/
theorem queue_cons (h : Transfer cfg s p r c) {w : KvWrite} {rest : List KvWrite}
    (hcq : s.cq = w :: rest) : r + 1 ≤ p ∧ w = s.msg r ∧
      rest ++ s.inflight = (List.range' (r + 1) (p - (r + 1))).map s.msg := by
  have hq := h.queue
  rw [hcq] at hq
  exact Transition.Stream.numbered_cons hq

theorem decodeStep (hg : s.Bounded) (h : Transfer cfg s p r c)
    (hs : s.decodeStep cfg = some s') : ∃ r c, Transfer cfg s' p r c := by
  have hgot := hg.down
  rcases h.decode with ⟨hb, hindex, hun⟩ | ⟨ht, hr, hc, hun⟩
  · have hbusy := hb
    cases hpc : s.decode with
    | waitJsonHeader =>
      rw [hpc] at hbusy hgot
      obtain ⟨rfl, rfl, m, hm, hjson⟩ := hbusy
      have hs' := hs
      simp only [SrvSt.decodeStep, hpc] at hs'
      rcases readDown_cases (n := 4) hgot hs' with
        ⟨down, rfl, hd, -⟩ | ⟨hdr, down, rfl, hl, hd, -⟩
      · exact ⟨0, 0, h.ofDecode hs h.queue h.polled_le (le_refl _)
          (.inl ⟨hb.congr ⟨rfl, rfl, rfl, rfl, rfl, rfl, rfl, rfl, hd⟩, hindex, hun⟩)⟩
      · rw [hd] at hjson
        obtain ⟨rfl, hrest⟩ := List.append_inj hjson hl
        exact ⟨0, 0, h.ofDecode hs h.queue h.polled_le (le_refl _)
          (.inl ⟨⟨rfl, rfl, m, hm, unpackLen_packLen m.json_lt, hrest⟩, hindex, hun⟩)⟩
    | waitJson len =>
      rw [hpc] at hbusy hgot
      obtain ⟨rfl, rfl, m, hm, rfl, hjson⟩ := hbusy
      have hs' := hs
      simp only [SrvSt.decodeStep, hpc] at hs'
      rcases readDown_cases (n := m.json.length) hgot hs' with
        ⟨down, rfl, hd, -⟩ | ⟨json, down, rfl, hl, hd, -⟩
      · exact ⟨0, 0, h.ofDecode hs h.queue h.polled_le (le_refl _)
          (.inl ⟨hb.congr ⟨rfl, rfl, rfl, rfl, rfl, rfl, rfl, rfl, hd⟩, hindex, hun⟩)⟩
      · rw [hd] at hjson
        obtain ⟨rfl, hrest⟩ := List.append_inj (hjson.trans (List.append_nil _).symm) hl
        exact ⟨0, 0, h.ofDecode hs h.queue h.polled_le (le_refl _)
          (.inl ⟨⟨rfl, rfl, Nat.zero_le _, m.loads_json.trans hm, rfl, rfl, hrest⟩, hindex, hun⟩)⟩
    | recvLoop j =>
      rw [hpc] at hbusy
      obtain ⟨rfl, rfl, hj, hseen⟩ := hbusy
      have hlt : c < s.expected + 1 := by rw [hseen.expected]; omega
      have hs' := hs
      simp only [SrvSt.decodeStep, hpc, hlt, if_true] at hs'; cases hs'
      exact ⟨c, c, h.ofDecode hs h.queue h.polled_le (le_refl _)
        (.inl ⟨⟨rfl, rfl, hj, hseen.transport rfl rfl rfl rfl rfl rfl⟩, hindex, hun⟩)⟩
    | poll j =>
      rw [hpc] at hbusy
      obtain ⟨rfl, rfl, hj, hseen⟩ := hbusy
      have hs' := hs
      simp only [SrvSt.decodeStep, hpc] at hs'
      split at hs'
      · cases hs'
      · rename_i w rest hcq
        obtain ⟨hlt, rfl, hq⟩ := h.queue_cons hcq
        by_cases hr : c < s.numChunks
        · -- A chunk.
          have hne : (s.msg c).imm ≠ kvSentinel := by
            simp only [msg, hr, if_true]
            exact immEncode_zero_ne c
          simp only [hne, if_false] at hs'; cases hs'
          refine ⟨c + 1, c, h.ofDecode hs hq hlt (le_refl _)
            (.inl ⟨⟨rfl, rfl, hr, ?_⟩, hindex, hun⟩)⟩
          refine ⟨hseen.expected, congrArg (· + 1) hseen.received, ?_, hseen.json⟩
          show s.seen ++ [s.msg c] = (List.range (c + 1)).map s.msg
          rw [hseen.seen, List.range_succ, List.map_append, List.map_singleton]
        · -- The sentinel, after the last of them.
          obtain rfl : c = s.numChunks := by omega
          have heq : (s.msg s.numChunks).imm = kvSentinel := by simp [msg]
          simp only [heq, if_true] at hs'; cases hs'
          exact ⟨_, _, h.ofDecode hs hq hlt (le_refl _)
            (.inl ⟨⟨rfl, rfl, hseen.transport rfl rfl rfl rfl rfl rfl⟩, hindex, hun⟩)⟩
    | replenish j =>
      rw [hpc] at hbusy
      obtain ⟨rfl, rfl, hj, hseen⟩ := hbusy
      have hs' := hs
      simp only [SrvSt.decodeStep, hpc] at hs'; cases hs'
      exact ⟨_, _, h.ofDecode hs h.queue h.polled_le (le_refl _)
        (.inl ⟨⟨rfl, rfl, hj, hseen.transport rfl rfl rfl rfl rfl rfl⟩, hindex, hun⟩)⟩
    | sendCredit j =>
      rw [hpc] at hbusy
      obtain ⟨rfl, rfl, hj, hseen⟩ := hbusy
      have hread := h.read_le
      have hs' := hs
      simp only [SrvSt.decodeStep, hpc] at hs'; cases hs'
      have hone : c + 1 - s.creditsReceived = c - s.creditsReceived + 1 := by omega
      refine ⟨_, c + 1, h.ofDecode hs h.queue h.polled_le (Nat.le_succ _)
        (.inl ⟨⟨rfl, rfl, hj, hseen.transport rfl rfl rfl rfl rfl rfl⟩, hindex, ?_⟩)⟩
      rw [Stream.unread_send, hun, hone, List.replicate_succ']
    | sendDone =>
      rw [hpc] at hbusy
      obtain ⟨rfl, rfl, hseen⟩ := hbusy
      have hs' := hs
      simp only [SrvSt.decodeStep, hpc] at hs'; cases hs'
      refine ⟨_, _, h.ofDecode hs h.queue h.polled_le (le_refl _)
        (.inr ⟨⟨trivial, hindex, by simp [DecodePc.lead], hseen.json⟩, rfl, rfl, ?_⟩)⟩
      rw [Stream.unread_send, hun]
      rfl
    | prePost n | sendReady | nextPrompt | sendText | repost | closed =>
      rw [hpc] at hbusy
      exact hbusy.elim
  · obtain ⟨ht', hcq, sent, hu, hn⟩ := ht.decodeStep hs
    refine ⟨r, c, h.ofDecode hs (hcq ▸ h.queue) h.polled_le (le_refl _) (.inr ⟨ht', hr, hc, ?_⟩)⟩
    rw [hu, hun, hn, List.append_assoc, List.cons_append]

end Transfer

theorem Idle.decodeStep {front back : List SrvByte} (h : s.Idle front back)
    (hs : s.decodeStep cfg = some s') : s'.Idle front back := by
  obtain ⟨ht, hcq, sent, hu, hn⟩ := h.turned.decodeStep hs
  refine ⟨ht, (decodeStep_frame hs).2.2.2.2.2.trans h.inflight, hcq.trans h.cq, ?_⟩
  rw [hu, hn, ← List.append_assoc, h.stream, List.append_assoc]

/-- Decode outside of a transfer. -/
theorem Rest.decode (h : s.Rest s.prefill) (hs : s.decodeStep cfg = some s') :
    s'.Rest s'.prefill := by
  rw [(decodeStep_frame hs).1]
  cases hpc : s.prefill with
  | waitReady =>
    rw [hpc] at h
    rcases h with he | hi
    · obtain ⟨hplace, hindex, hin, hcq, hup, hjson⟩ := he
      rcases hplace with ⟨n, hd⟩ | hd
      · simp only [SrvSt.decodeStep, hd] at hs
        split at hs <;> cases hs
        · exact .inl ⟨.inl ⟨_, rfl⟩, hindex, hin, hcq, hup, hjson⟩
        · exact .inl ⟨.inr rfl, hindex, hin, hcq, hup, hjson⟩
      · simp only [SrvSt.decodeStep, hd] at hs; cases hs
        refine .inr ⟨⟨trivial, hindex, by simp [DecodePc.lead], hjson⟩, hin, hcq, ?_⟩
        rw [Stream.unread_send, hup]
        rfl
    · exact .inr (hi.decodeStep hs)
  | waitHeader =>
    rw [hpc] at h
    exact Idle.decodeStep h hs
  | waitPrompt n =>
    rw [hpc] at h
    obtain ⟨hi, hlead, hn⟩ := h
    have hi' := hi.decodeStep hs
    cases hd : s.decode with
    | sendText =>
      simp only [SrvSt.decodeStep, hd] at hs; cases hs
      exact ⟨hi', rfl, hn⟩
    | waitJsonHeader =>
      simp only [SrvSt.decodeStep, hd, readDown_nil hi.turned.json (by decide : 0 < 4)] at hs
      cases hs
    | prePost | sendReady | nextPrompt | waitJson | recvLoop | poll | replenish | sendCredit
    | sendDone | repost | closed => simp [hd, DecodePc.lead] at hlead
  | compute =>
    rw [hpc] at h
    simp only [SrvSt.decodeStep, h.place, readDown_nil h.json (by decide : 0 < 4)] at hs
    cases hs
  | finished =>
    rw [hpc] at h
    have hd : s.decode = .closed := h
    simp only [SrvSt.decodeStep, hd] at hs
    cases hs
  | transfer | checkCredits i | stall i | drain i | write i | writeWait i | sentinel
  | sentinelWait | waitRemaining n =>
    rw [hpc] at h
    exact h.elim

theorem Bounded.decodeStep (h : s.Bounded) (hs : s.decodeStep cfg = some s') : s'.Bounded := by
  obtain ⟨hp, -⟩ := decodeStep_frame hs
  have hup := h.up
  have hgot := h.down
  rw [← hp] at hup
  have hread {n : Nat} {k : List (BitVec 8) → SrvSt → SrvSt} (hn : s.decode.need = n)
      (hk : ∀ bytes t, (k bytes t).down = t.down ∧ (k bytes t).up = t.up)
      (hr : s.readDown n k = some s') : s'.Bounded := by
    rw [hn] at hgot
    rcases readDown_cases hgot hr with ⟨down, rfl, -, hl⟩ | ⟨bytes, down, rfl, -, -, hl⟩
    · rw [← hn] at hl; exact ⟨hup, hl⟩
    · exact ⟨by rw [(hk _ _).2]; exact hup, by rw [(hk _ _).1, hl]; exact Nat.zero_le _⟩
  cases hpc : s.decode with
  | waitJsonHeader | waitJson n =>
    simp only [SrvSt.decodeStep, hpc] at hs
    refine hread (by rw [hpc]; rfl) ?_ hs
    exact fun _ _ => ⟨rfl, rfl⟩
  | prePost n | nextPrompt =>
    rw [hpc] at hgot
    simp only [SrvSt.decodeStep, hpc] at hs
    split at hs <;> cases hs <;> exact ⟨hup, hgot.trans (Nat.zero_le _)⟩
  | poll j =>
    rw [hpc] at hgot
    simp only [SrvSt.decodeStep, hpc] at hs
    split at hs
    · cases hs
    · split at hs <;> cases hs <;> exact ⟨hup, hgot.trans (Nat.zero_le _)⟩
  | sendReady | sendText | recvLoop j | replenish j | sendCredit j | sendDone | repost =>
    rw [hpc] at hgot
    simp only [SrvSt.decodeStep, hpc] at hs; cases hs
    exact ⟨hup, hgot.trans (Nat.zero_le _)⟩
  | closed => simp [SrvSt.decodeStep, hpc] at hs

end SrvSt

end Dmaplane
