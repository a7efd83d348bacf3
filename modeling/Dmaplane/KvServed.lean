import Dmaplane.KvDecode
import Dmaplane.KvPrefill

/-!
# Dmaplane.KvServed

The two inference servers keep their promises in every run (`servers_served`). Decode has the window
and one more receive, and posts another for each credit it sends; prefill posts a chunk for a credit
and the sentinel onto the one that is left (`Transfer.receives`).
-/

namespace Dmaplane

open Transition

namespace SrvSt

variable {cfg : ServerConfig} {s s' : SrvSt} {p r c : Nat}

/-! ## The other steps -/

/-- The manifest is sent, and the credits of the prompt are set. -/
theorem Computing.transfer (h : s.Computing) (m : Manifest cfg.loads) :
    Transfer cfg { s with
      prefill := .transfer, numChunks := m.numChunks
      down := s.down.send (packLen m.json.length ++ m.json)
      credits := cfg.creditWindow, creditsReceived := 0 } 0 0 0 := by
  refine ⟨⟨rfl, rfl, rfl, by simp [h.inflight]⟩, by simp [h.inflight, h.cq], le_refl _,
    le_refl _, .inl ⟨?_, h.index, h.up⟩⟩
  simp only [h.place]
  exact ⟨rfl, rfl, m, rfl, by simp [h.json]⟩

/-- Nothing is delivered while prefill is not in a transfer, but at its end. -/
theorem Rest.deliver {pc : PrefillPc} (h : s.Rest pc) {w : KvWrite} {rest : List KvWrite}
    (hin : s.inflight = w :: rest) (n : Nat) :
    { s with recvPosted := n, inflight := rest, cq := s.cq ++ [w] }.Rest pc := by
  have hne : s.inflight ≠ [] := by rw [hin]; exact List.cons_ne_nil _ _
  cases pc with
  | waitReady => exact absurd (h.elim (fun he => he.inflight) fun hi => hi.inflight) hne
  | waitHeader => exact absurd (Idle.inflight h) hne
  | waitPrompt n => exact absurd h.1.inflight hne
  | compute => exact absurd (Computing.inflight h) hne
  | finished => exact h
  | transfer | checkCredits i | stall i | drain i | write i | writeWait i | sentinel
  | sentinelWait | waitRemaining n => exact h.elim

/-- A write is delivered. -/
theorem Transfer.deliver (h : Transfer cfg s p r c) {w : KvWrite} {rest : List KvWrite}
    (hin : s.inflight = w :: rest) (n : Nat) :
    Transfer cfg { s with recvPosted := n, inflight := rest, cq := s.cq ++ [w] } p r c := by
  refine ⟨?_, ?_, h.polled_le, h.read_le,
    h.decode_congr ⟨rfl, rfl, rfl, rfl, rfl, rfl, rfl, rfl, rfl⟩ rfl rfl⟩
  · have hok := h.prefill
    rw [hin, List.length_cons] at hok
    cases hpc : s.prefill <;> rw [hpc] at hok <;> simp_all [PrefillOk]
  · show s.cq ++ [w] ++ rest = (List.range' r (p - r)).map s.msg
    rw [← h.queue, hin, List.append_assoc, List.singleton_append]

/-! ## Every run -/

/-- Outside of a transfer decode has no manifest. -/
theorem Rest.place {pc : PrefillPc} (h : s.Rest pc) :
    ((∃ n, s.decode = .prePost n) ∨ s.decode = .sendReady) ∨ s.decode.Ahead := by
  cases pc with
  | waitReady => exact h.imp (fun he => he.place) fun hi => hi.turned.ahead
  | waitHeader => exact .inr (Idle.turned h).ahead
  | waitPrompt n => exact .inr h.1.turned.ahead
  | compute =>
    rw [Computing.place h]
    exact .inr trivial
  | finished =>
    rw [show s.decode = .closed from h]
    exact .inr trivial
  | transfer | checkCredits i | stall i | drain i | write i | writeWait i | sentinel
  | sentinelWait | waitRemaining n => exact h.elim

theorem Rest.cq_nil {pc : PrefillPc} (h : s.Rest pc) (hd : s.decode = .nextPrompt) :
    s.cq = [] := by
  cases pc with
  | waitReady => exact h.elim (fun he => he.cq) fun hi => hi.cq
  | waitHeader => exact Idle.cq h
  | waitPrompt n => exact h.1.cq
  | compute => exact Computing.cq h
  | finished =>
    rw [show s.decode = .closed from h] at hd
    cases hd
  | transfer | checkCredits i | stall i | drain i | write i | writeWait i | sentinel
  | sentinelWait | waitRemaining n => exact h.elim

/-- Decode's loop ends at the sentinel, never by its count. -/
theorem Inv.loop (h : s.Inv cfg) (j : Nat) (hd : s.decode = .recvLoop j) : j < s.expected + 1 := by
  rcases h.place with hr | ⟨p, r, c, ht⟩
  · have hplace := hr.place
    simp [hd, DecodePc.Ahead] at hplace
  · rcases ht.decode with ⟨hb, -⟩ | ⟨ht, -⟩
    · rw [hd] at hb
      obtain ⟨-, -, hj, hseen⟩ := hb
      rw [hseen.expected]
      omega
    · have hahead := ht.ahead
      rw [hd] at hahead
      exact hahead.elim

theorem Inv.step (h : s.Inv cfg) {a : SrvAct cfg.loads}
    (hs : cfg.srvStep s a = some s') : s'.Inv cfg := by
  obtain ⟨hb, hh, hplace⟩ := h
  cases a with
  | prefill =>
    obtain ⟨h1, -, -, h4, h5, -⟩ := prefillStep_frame hs
    refine ⟨hb.prefillStep hs, ⟨by rw [h1, h4, h5]; exact hh.held, by rw [h1]; exact hh.prePost⟩,
      ?_⟩
    rcases hplace with hr | ⟨p, r, c, ht⟩
    · exact .inl (hr.prefill hb hs)
    · exact ht.prefillStep hb hs
  | compute m =>
    simp only [ServerConfig.srvStep] at hs
    split at hs <;> cases hs
    rename_i hpc
    have hup := hb.up
    rw [hpc] at hup
    refine ⟨⟨hup, hb.down⟩, ⟨hh.held, hh.prePost⟩, ?_⟩
    rcases hplace with hr | ⟨p, r, c, ht⟩
    · rw [hpc] at hr
      exact .inr ⟨0, 0, 0, Computing.transfer hr m⟩
    · have hok := ht.prefill
      rw [hpc] at hok
      exact hok.elim
  | decode =>
    refine ⟨hb.decodeStep hs, hh.decodeStep (Inv.loop ⟨hb, hh, hplace⟩) hs, ?_⟩
    rcases hplace with hr | ⟨p, r, c, ht⟩
    · exact .inl (hr.decode hs)
    · obtain ⟨r', c', ht'⟩ := ht.decodeStep hb hs
      exact .inr ⟨p, r', c', ht'⟩
  | deliverWrite =>
    simp only [ServerConfig.srvStep] at hs
    split at hs
    · cases hs
    · rename_i w rest hin
      split at hs <;> cases hs
      rename_i hpos
      have hheld := hh.held
      refine ⟨⟨hb.up, hb.down⟩, ⟨?_, hh.prePost⟩, ?_⟩
      · simp only [List.length_append, List.length_singleton]
        omega
      · rcases hplace with hr | ⟨p, r, c, ht⟩
        · exact .inl (hr.deliver hin _)
        · exact .inr ⟨p, r, c, ht.deliver hin _⟩
  | deliverUp =>
    obtain ⟨up, hd, rfl⟩ := Option.map_eq_some_iff.mp hs
    obtain ⟨hu, hg⟩ := Stream.unread_deliver hd
    refine ⟨⟨by rw [hg]; exact hb.up, hb.down⟩, ⟨hh.held, hh.prePost⟩, ?_⟩
    rcases hplace with hr | ⟨p, r, c, ht⟩
    · exact .inl (hr.congr ⟨rfl, rfl, rfl, rfl, rfl, rfl, rfl, rfl, rfl⟩ rfl rfl hu)
    · exact .inr ⟨p, r, c, ht.setStreams hu rfl⟩
  | deliverDown =>
    obtain ⟨down, hd, rfl⟩ := Option.map_eq_some_iff.mp hs
    obtain ⟨hu, hg⟩ := Stream.unread_deliver hd
    refine ⟨⟨hb.up, by rw [hg]; exact hb.down⟩, ⟨hh.held, hh.prePost⟩, ?_⟩
    rcases hplace with hr | ⟨p, r, c, ht⟩
    · exact .inl (hr.congr ⟨rfl, rfl, rfl, rfl, rfl, rfl, rfl, rfl, hu⟩ rfl rfl rfl)
    · exact .inr ⟨p, r, c, ht.setStreams rfl hu⟩

end SrvSt

theorem srvInv {cfg : ServerConfig} {s : SrvSt}
    (h : cfg.srvSys.Reachable s) : s.Inv cfg := by
  refine Sys.Reachable.invariant (S := cfg.srvSys) (I := fun s => s.Inv cfg) ?_
    (fun s a s' hi hs => hi.step hs) h
  exact ⟨⟨Nat.zero_le _, Nat.zero_le _⟩, ⟨rfl, fun n hn => by cases hn; exact Nat.zero_le _⟩,
    .inl (.inl ⟨.inl ⟨0, rfl⟩, rfl, rfl, rfl, rfl, rfl⟩)⟩

/-! ## The promises -/

namespace SrvSt

variable {cfg : ServerConfig} {s : SrvSt} {p r c : Nat}

/-- The receives beyond the completions are the window, one more, and the credits sent. -/
theorem Busy.held {pc : DecodePc} (h : Busy cfg s r c pc) :
    cfg.creditWindow + 1 + c ≤ pc.heldAt cfg.creditWindow + r := by
  cases pc <;> simp only [Busy, DecodePc.heldAt] at h ⊢ <;> omega

/-- Nothing polled, nothing used. -/
theorem Busy.fresh {pc : DecodePc} (h : Busy cfg s 0 c pc) :
    c = 0 ∧ pc.heldAt cfg.creditWindow = cfg.creditWindow + 1 := by
  cases pc with
  | waitJsonHeader | waitJson => exact ⟨h.2.1, rfl⟩
  | recvLoop j | poll j => exact ⟨h.2.1.trans h.1.symm, rfl⟩
  | replenish j | sendCredit j | sendDone => exact absurd h.1.symm (Nat.succ_ne_zero _)
  | prePost | sendReady | nextPrompt | sendText | repost | closed => exact h.elim

theorem PrefillOk.posted_le {w n p k flight : Nat} {credits : Int} {pc : PrefillPc}
    (h : PrefillOk w n p k credits flight pc) : p ≤ n + 1 := by
  cases pc <;> simp only [PrefillOk] at h <;> omega

theorem heldAt_le (hh : s.Held cfg) : s.decode.heldAt cfg.creditWindow ≤ cfg.creditWindow + 1 := by
  cases hd : s.decode with
  | prePost n => exact hh.prePost n hd
  | sendReady | nextPrompt | sendText | waitJsonHeader | waitJson | recvLoop | poll | replenish
  | sendCredit | sendDone | repost | closed => simp only [DecodePc.heldAt]; omega

theorem nextBytes_kind {prompt : List (BitVec 8)} {pc : DecodePc} {b : SrvByte}
    (h : b ∈ pc.nextBytes prompt) : b.kind = .prompt := by
  cases pc with
  | sendText | closed => exact promptBytes_kind h
  | waitJsonHeader => exact (List.mem_append.mp h).elim promptBytes_kind promptBytes_kind
  | prePost | sendReady | nextPrompt | waitJson | recvLoop | poll | replenish | sendCredit
  | sendDone | repost => cases h

/-- A write that is due has its receive: `credits` of them, and the one for the sentinel. -/
theorem Transfer.receives (h : Transfer cfg s p r c) (hh : s.Held cfg) (hp : p ≤ s.numChunks)
    (hfl : s.inflight = []) : cfg.creditWindow + 1 + s.creditsReceived ≤ s.recvPosted + p := by
  have hbusy := (h.unread_credits hp).1.held
  have hheld := hh.held
  have hle := h.polled_le
  have hread := h.read_le
  have hq := congrArg List.length h.queue
  simp only [hfl, List.append_nil, List.length_map, List.length_range'] at hq
  omega

theorem Inv.available (h : s.Inv cfg) (hp : s.Posting) : 1 ≤ s.recvPosted := by
  rcases hp with ⟨i, hpc⟩ | hpc
  · rcases h.place with hr | ⟨p, r, c, ht⟩
    · rw [hpc] at hr
      exact hr.elim
    · have hok := ht.prefill
      rw [hpc] at hok
      obtain ⟨rfl, hi, hc, h0, hfl⟩ := hok
      have := ht.receives h.held (Nat.le_of_lt hi) (List.eq_nil_of_length_eq_zero hfl)
      omega
  · rcases h.place with hr | ⟨p, r, c, ht⟩
    · rw [hpc] at hr
      exact hr.elim
    · have hok := ht.prefill
      rw [hpc] at hok
      obtain ⟨rfl, hc, h0, hfl⟩ := hok
      have := ht.receives h.held (le_refl _) (List.eq_nil_of_length_eq_zero hfl)
      omega

theorem Inv.start (h : s.Inv cfg) (hpc : s.prefill = .transfer) :
    s.credits = cfg.creditWindow ∧ s.recvPosted = cfg.creditWindow + 1 ∧ s.inflight = [] ∧
      s.cq = [] ∧ s.up.unread = [] := by
  rcases h.place with hr | ⟨p, r, c, ht⟩
  · rw [hpc] at hr
    exact hr.elim
  · have hok := ht.prefill
    rw [hpc] at hok
    obtain ⟨rfl, hk, hc, hfl⟩ := hok
    obtain rfl : r = 0 := Nat.le_zero.mp ht.polled_le
    obtain ⟨hcq, hin⟩ := List.append_eq_nil_iff.mp ht.queue
    obtain ⟨hbusy, -, hun⟩ := ht.unread_credits (Nat.zero_le _)
    obtain ⟨rfl, hheld⟩ := hbusy.fresh
    have hposted := h.held.held
    rw [hcq, hheld] at hposted
    exact ⟨hc, hposted, hin, hcq, by simpa [hk] using hun⟩

theorem Inv.clean (h : s.Inv cfg) (hpc : s.prefill = .waitHeader) :
    ∀ b ∈ s.up.unread, b.kind = .prompt := by
  rcases h.place with hr | ⟨p, r, c, ht⟩
  · rw [hpc] at hr
    intro b hb
    rw [← List.nil_append s.up.unread, Idle.stream hr, List.nil_append] at hb
    exact nextBytes_kind hb
  · have hok := ht.prefill
    rw [hpc] at hok
    exact hok.elim

theorem Inv.posted (h : s.Inv cfg) (hpc : s.decode = .nextPrompt) :
    s.recvPosted = cfg.creditWindow + 1 := by
  have hheld := h.held.held
  have hcq : s.cq = [] := by
    rcases h.place with hr | ⟨p, r, c, ht⟩
    · exact hr.cq_nil hpc
    · rcases ht.decode with ⟨hb, -⟩ | ⟨-, hr, -⟩
      · rw [hpc] at hb
        exact hb.elim
      · have hq := ht.queue
        rw [show p - r = 0 by have := ht.prefill.posted_le; omega] at hq
        exact (List.append_eq_nil_iff.mp hq).1
  rw [hcq, hpc] at hheld
  exact hheld

/-- At the head of its prompt loop decode is not ahead of prefill. -/
theorem Inv.level (h : s.Inv cfg) (hd : s.decode = .nextPrompt) :
    s.decodePrompt = s.prefillPrompt ∧ s.prefill ≠ .compute := by
  have hturned (ht : s.Turned) : s.decodePrompt = s.prefillPrompt := by
    have hindex := ht.index
    rwa [hd] at hindex
  rcases h.place with hr | ⟨p, r, c, ht⟩
  · cases hpc : s.prefill <;> rw [hpc] at hr
    case waitReady =>
      rcases hr with he | hi
      · have hplace := he.place
        simp [hd] at hplace
      · exact ⟨hturned hi.turned, by simp⟩
    case waitHeader => exact ⟨hturned (show s.Idle [] [] from hr).turned, by simp⟩
    case waitPrompt n => exact ⟨hturned hr.1.turned, by simp⟩
    case compute =>
      have hplace := (show s.Computing from hr).place
      simp [hd] at hplace
    case finished => rw [show s.decode = .closed from hr] at hd; cases hd
    all_goals exact hr.elim
  · refine ⟨?_, fun hpc => ?_⟩
    · rcases ht.decode with ⟨-, hindex, -⟩ | ⟨ht, -⟩
      · exact hindex
      · exact hturned ht
    · have hok := ht.prefill
      rw [hpc] at hok
      exact hok.elim

theorem Inv.complete (h : s.Inv cfg) (hpc : s.decode = .sendDone) :
    s.expected = s.numChunks ∧ s.chunksReceived = s.numChunks ∧
      s.seen = (List.range s.numChunks).map fun i =>
        ⟨s.decodePrompt, immEncode 0 (.ofNat 32 i)⟩ := by
  rcases h.place with hr | ⟨p, r, c, ht⟩
  · have hplace := hr.place
    simp [hpc, DecodePc.Ahead] at hplace
  · rcases ht.decode with ⟨hb, hindex, -⟩ | ⟨ht, -⟩
    · rw [hpc] at hb
      obtain ⟨-, -, hseen⟩ := hb
      refine ⟨hseen.expected, hseen.received,
        hseen.seen.trans (List.map_congr_left fun i hi => ?_)⟩
      rw [msg, if_pos (List.mem_range.mp hi), hindex]
    · have hahead := ht.ahead
      rw [hpc] at hahead
      exact hahead.elim

end SrvSt

/-- **Prefill and decode.** For every window, every list of prompts with any chunk counts and every
order of steps and deliveries, the two servers keep their promises in every state they reach. -/
theorem servers_served {cfg : ServerConfig} {s : SrvSt}
    (h : cfg.srvSys.Reachable s) : Served cfg s := by
  have hi := srvInv h
  have hheld := hi.held.held
  have hle := SrvSt.heldAt_le hi.held
  exact ⟨hi.available, by omega, hi.start, hi.clean, hi.posted, hi.complete⟩

/-- The digits of a text: `num_chunks` of a manifest that has no other number. -/
def digitsOf (l : List (BitVec 8)) : Nat :=
  l.foldl (fun n b => if 48 ≤ b.toNat ∧ b.toNat ≤ 57 then n * 10 + (b.toNat - 48) else n) 0

/-- One prompt, "?", and a window of one. -/
def onePrompt : ServerConfig :=
  { creditWindow := 1, prompts := [⟨[63], by decide, by decide⟩], loads := digitsOf }

/-- The manifest `{"num_chunks":1}`. -/
def oneChunkManifest : Manifest digitsOf :=
  { json := [123, 34, 110, 117, 109, 95, 99, 104, 117, 110, 107, 115, 34, 58, 49, 125]
    numChunks := 1, json_lt := by decide, loads_json := by decide }

/-- Up to the first write: decode has sent its prompt, prefill its manifest. -/
def firstWriteRun : List (SrvAct digitsOf) :=
  List.replicate 6 SrvAct.decode ++ List.replicate 6 SrvAct.deliverUp ++
    List.replicate 6 SrvAct.prefill ++ [SrvAct.compute oneChunkManifest] ++
    List.replicate 3 SrvAct.prefill

theorem servers_served_write :
    ∃ s, onePrompt.srvSys.Reachable s ∧ s.prefill = .write 0 ∧ Served onePrompt s := by
  obtain ⟨s, hr, hpc⟩ : ∃ s, onePrompt.srvSys.Reachable s ∧ s.prefill = .write 0 :=
    Sys.exists_of_exec firstWriteRun (by decide +kernel)
  exact ⟨s, hr, hpc, servers_served hr⟩

end Dmaplane
