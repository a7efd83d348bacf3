import Dmaplane.KvServers

/-!
# Dmaplane.KvServerInv

What holds between the two inference servers.

Between two transfers nothing is on its way but the bytes of the next prompt (`Idle`). During a
transfer prefill has posted `p` writes and read some of the `c` credits decode has sent, and decode
has polled `r` completions (`Transfer`); it is in its receive loop (`Busy`), or has turned to its
next prompt while prefill still has to read what is left (`Turned`). How many receives are posted
depends on decode's place alone (`heldAt`).

Each part depends on a few variables only (`Agree`), so the steps that touch the others keep it.
-/

namespace Dmaplane

open Transition

/-! ## Lengths -/

theorem unpackLen_packLen {n : Nat} (h : n < 2 ^ 32) : unpackLen (packLen n) = n := by
  simp only [unpackLen, packLen, List.foldl_cons, List.foldl_nil, BitVec.toNat_ofNat]
  omega

theorem promptBytes_length (l : List (BitVec 8)) : (promptBytes l).length = l.length :=
  List.length_map _

theorem promptBytes_value (l : List (BitVec 8)) : (promptBytes l).map (·.value) = l := by
  simp [promptBytes, Function.comp_def]

theorem promptBytes_kind {l : List (BitVec 8)} {b : SrvByte} (h : b ∈ promptBytes l) :
    b.kind = .prompt := by
  obtain ⟨x, -, rfl⟩ := List.mem_map.mp h
  rfl

/-- A chunk's immediate has no layer, so it is not the sentinel. -/
theorem immEncode_zero_ne (i : Nat) : immEncode 0 (.ofNat 32 i) ≠ kvSentinel := by
  intro h
  have := congrArg BitVec.toNat h
  have hlow : (immEncode 0 (.ofNat 32 i)).toNat = (BitVec.ofNat 32 i &&& 0xFFFF).toNat := by
    simp [immEncode]
  rw [hlow, and_low16, show kvSentinel.toNat = 2 ^ 32 - 1 from rfl] at this
  omega

/-! ## The places of decode -/

namespace DecodePc

/-- The receives posted, and those completed and not polled. -/
def heldAt (window : Nat) : DecodePc → Nat
  | .prePost n => n
  | .replenish _ | .sendDone | .repost => window
  | _ => window + 1

/-- Decode has sent its done byte, or has not had a prompt yet. -/
def Ahead : DecodePc → Prop
  | .repost | .nextPrompt | .sendText | .waitJsonHeader | .closed => True
  | _ => False

/-- What decode has sent for the prompt it has turned to. -/
def nextBytes (prompt : List (BitVec 8)) : DecodePc → List SrvByte
  | .sendText => promptBytes (packLen prompt.length)
  | .waitJsonHeader => promptBytes (packLen prompt.length) ++ promptBytes prompt
  | .closed => promptBytes (packLen 0)
  | _ => []

/-- One, if that prompt is counted already. -/
def lead : DecodePc → Nat
  | .sendText | .waitJsonHeader => 1
  | _ => 0

/-- What the read that is running has to take. -/
def need : DecodePc → Nat
  | .waitJsonHeader => 4
  | .waitJson len => len
  | _ => 0

end DecodePc

def PrefillPc.need : PrefillPc → Nat
  | .waitReady | .stall _ => 1
  | .waitHeader => 4
  | .waitPrompt n | .waitRemaining n => n
  | _ => 0

/-! ## The invariant -/

namespace SrvSt

/-- The `j`-th write of a prompt. -/
def msg (s : SrvSt) (j : Nat) : KvWrite :=
  ⟨s.prefillPrompt, if j < s.numChunks then immEncode 0 (.ofNat 32 j) else kvSentinel⟩

/-- Decode has turned to its next prompt, and has no manifest for it. -/
structure Turned (s : SrvSt) : Prop where
  ahead : s.decode.Ahead
  index : s.decodePrompt = s.prefillPrompt + s.decode.lead
  text : s.decode.lead = 1 → 0 < s.prompt.length ∧ s.prompt.length < 2 ^ 32
  json : s.down.unread = []

/-- Nothing but the bytes of the next prompt is on its way: prefill has read `front` of them, and
has `back` to read before. -/
structure Idle (s : SrvSt) (front back : List SrvByte) : Prop where
  turned : s.Turned
  inflight : s.inflight = []
  cq : s.cq = []
  stream : front ++ s.up.unread = back ++ s.decode.nextBytes s.prompt

/-- Decode is still pre-posting. -/
structure Early (s : SrvSt) : Prop where
  place : (∃ n, s.decode = .prePost n) ∨ s.decode = .sendReady
  index : s.decodePrompt = s.prefillPrompt
  inflight : s.inflight = []
  cq : s.cq = []
  up : s.up.unread = []
  json : s.down.unread = []

/-- Prefill has read a prompt and decode waits for its manifest. -/
structure Computing (s : SrvSt) : Prop where
  place : s.decode = .waitJsonHeader
  index : s.decodePrompt = s.prefillPrompt
  inflight : s.inflight = []
  cq : s.cq = []
  up : s.up.unread = []
  json : s.down.unread = []

/-- Prefill is not in a transfer. -/
def Rest (s : SrvSt) : PrefillPc → Prop
  | .waitReady => s.Early ∨ s.Idle [] [readyByte]
  | .waitHeader => s.Idle [] []
  | .waitPrompt n =>
    s.Idle (promptBytes (packLen s.prompt.length)) [] ∧ s.decode.lead = 1 ∧ n = s.prompt.length
  | .compute => s.Computing
  | .finished => s.decode = .closed
  | _ => False

/-- Decode has seen the first `j` chunks of the transfer. -/
structure Seen (s : SrvSt) (j : Nat) : Prop where
  expected : s.expected = s.numChunks
  received : s.chunksReceived = j
  seen : s.seen = (List.range j).map s.msg
  json : s.down.unread = []

/-- Decode is on the prompt of the transfer: `r` completions are polled and `c` credits sent. -/
def Busy (cfg : ServerConfig) (s : SrvSt) (r c : Nat) : DecodePc → Prop
  | .waitJsonHeader =>
    r = 0 ∧ c = 0 ∧ ∃ m : Manifest cfg.loads,
      m.numChunks = s.numChunks ∧ s.down.unread = packLen m.json.length ++ m.json
  | .waitJson len =>
    r = 0 ∧ c = 0 ∧ ∃ m : Manifest cfg.loads,
      m.numChunks = s.numChunks ∧ len = m.json.length ∧ s.down.unread = m.json
  | .recvLoop j | .poll j => r = j ∧ c = j ∧ j ≤ s.numChunks ∧ s.Seen j
  | .replenish j | .sendCredit j => r = j + 1 ∧ c = j ∧ j < s.numChunks ∧ s.Seen (j + 1)
  | .sendDone => r = s.numChunks + 1 ∧ c = s.numChunks ∧ s.Seen s.numChunks
  | _ => False

/-- What prefill's place in a transfer of `n` chunks says: `p` writes are posted and `k` credits
read. -/
def PrefillOk (window n p k : Nat) (credits : Int) (flight : Nat) : PrefillPc → Prop
  | .transfer => p = 0 ∧ k = 0 ∧ credits = window ∧ flight = 0
  | .checkCredits i => p = i ∧ i < n ∧ credits + i = window + k ∧ 0 ≤ credits ∧ flight = 0
  | .stall i => p = i ∧ i < n ∧ credits + i = window + k ∧ credits = 0 ∧ flight = 0
  | .drain i | .write i => p = i ∧ i < n ∧ credits + i = window + k ∧ 1 ≤ credits ∧ flight = 0
  | .writeWait i => p = i + 1 ∧ i < n ∧ credits + i = window + k ∧ 1 ≤ credits
  | .sentinel => p = n ∧ credits + n = window + k ∧ 0 ≤ credits ∧ flight = 0
  | .sentinelWait => p = n + 1
  | .waitRemaining m => p = n + 1 ∧ m + k = n + 1 ∧ flight = 0
  | _ => False

/-- A transfer under way: `p` writes posted, `r` polled, `c` credits sent. -/
structure Transfer (cfg : ServerConfig) (s : SrvSt) (p r c : Nat) : Prop where
  prefill : PrefillOk cfg.creditWindow s.numChunks p s.creditsReceived s.credits s.inflight.length
    s.prefill
  queue : s.cq ++ s.inflight = (List.range' r (p - r)).map s.msg
  polled_le : r ≤ p
  read_le : s.creditsReceived ≤ c
  decode :
    (Busy cfg s r c s.decode ∧ s.decodePrompt = s.prefillPrompt ∧
      s.up.unread = List.replicate (c - s.creditsReceived) creditByte) ∨
    (s.Turned ∧ r = s.numChunks + 1 ∧ c = s.numChunks ∧
      s.up.unread = List.replicate (c - s.creditsReceived) creditByte ++
        doneByte :: s.decode.nextBytes s.prompt)

/-- The receives at decode's place. -/
structure Held (cfg : ServerConfig) (s : SrvSt) : Prop where
  held : s.recvPosted + s.cq.length = s.decode.heldAt cfg.creditWindow
  prePost : ∀ n, s.decode = .prePost n → n ≤ cfg.creditWindow + 1

/-- No read has taken more than it asks for. -/
structure Bounded (s : SrvSt) : Prop where
  up : s.up.got.length ≤ s.prefill.need
  down : s.down.got.length ≤ s.decode.need

structure Inv (cfg : ServerConfig) (s : SrvSt) : Prop where
  bounded : s.Bounded
  held : s.Held cfg
  place : s.Rest s.prefill ∨ ∃ p r c, Transfer cfg s p r c

end SrvSt

/-! ## Reading -/

namespace SrvSt

variable {cfg : ServerConfig} {s s' : SrvSt} {p r c : Nat}

/-- A pass of prefill's `tcp_recv_all` takes a part, or all it asks for. -/
theorem readUp_cases {n : Nat} {k : List SrvByte → SrvSt → SrvSt} (hb : s.up.got.length ≤ n)
    (h : s.readUp n k = some s') :
    (∃ up, s' = { s with up := up } ∧ up.unread = s.up.unread ∧ up.got.length ≤ n) ∨
      ∃ bytes up, s' = k bytes { s with up := up } ∧ bytes.length = n ∧
        s.up.unread = bytes ++ up.unread ∧ up.got = [] := by
  unfold readUp at h
  split at h
  · cases h
  · rename_i up hr
    cases h
    exact .inl ⟨up, rfl, Stream.recvAll_part hr⟩
  · rename_i bytes up hr
    cases h
    exact .inr ⟨bytes, up, rfl, Stream.recvAll_done hb hr⟩

theorem readDown_cases {n : Nat} {k : List (BitVec 8) → SrvSt → SrvSt}
    (hb : s.down.got.length ≤ n) (h : s.readDown n k = some s') :
    (∃ down, s' = { s with down := down } ∧ down.unread = s.down.unread ∧ down.got.length ≤ n) ∨
      ∃ bytes down, s' = k bytes { s with down := down } ∧ bytes.length = n ∧
        s.down.unread = bytes ++ down.unread ∧ down.got = [] := by
  unfold readDown at h
  split at h
  · cases h
  · rename_i down hr
    cases h
    exact .inl ⟨down, rfl, Stream.recvAll_part hr⟩
  · rename_i bytes down hr
    cases h
    exact .inr ⟨bytes, down, rfl, Stream.recvAll_done hb hr⟩

theorem readUp_nil {n : Nat} {k : List SrvByte → SrvSt → SrvSt} (h : s.up.unread = [])
    (hn : 0 < n) : s.readUp n k = none := by
  simp only [readUp, Stream.recvAll_none h hn]

theorem readDown_nil {n : Nat} {k : List (BitVec 8) → SrvSt → SrvSt} (h : s.down.unread = [])
    (hn : 0 < n) : s.readDown n k = none := by
  simp only [readDown, Stream.recvAll_none h hn]

/-! ## What the parts depend on -/

/-- What decode's side of a transfer depends on. -/
structure Agree (s t : SrvSt) : Prop where
  decode : t.decode = s.decode
  prompt : t.prompt = s.prompt
  decodePrompt : t.decodePrompt = s.decodePrompt
  prefillPrompt : t.prefillPrompt = s.prefillPrompt
  numChunks : t.numChunks = s.numChunks
  expected : t.expected = s.expected
  chunksReceived : t.chunksReceived = s.chunksReceived
  seen : t.seen = s.seen
  json : t.down.unread = s.down.unread

theorem Turned.congr {t : SrvSt} (h : s.Turned) (ha : s.Agree t) : t.Turned :=
  ⟨ha.decode ▸ h.ahead, by rw [ha.decode, ha.decodePrompt, ha.prefillPrompt]; exact h.index,
    by rw [ha.decode, ha.prompt]; exact h.text, ha.json.trans h.json⟩

theorem msg_congr {t : SrvSt} (hp : t.prefillPrompt = s.prefillPrompt)
    (hn : t.numChunks = s.numChunks) : t.msg = s.msg := by
  funext j
  simp only [msg, hp, hn]

theorem Seen.transport {t : SrvSt} {j : Nat} (h : s.Seen j) (he : t.expected = s.expected)
    (hn : t.numChunks = s.numChunks) (hr : t.chunksReceived = s.chunksReceived)
    (hs : t.seen = s.seen) (hp : t.prefillPrompt = s.prefillPrompt)
    (hj : t.down.unread = s.down.unread) : t.Seen j :=
  ⟨by rw [he, hn]; exact h.expected, hr.trans h.received,
    by rw [hs, msg_congr hp hn]; exact h.seen, hj.trans h.json⟩

theorem Seen.congr {t : SrvSt} {j : Nat} (h : s.Seen j) (ha : s.Agree t) : t.Seen j :=
  h.transport ha.expected ha.numChunks ha.chunksReceived ha.seen ha.prefillPrompt ha.json

theorem Busy.congr {t : SrvSt} {pc : DecodePc} (h : Busy cfg s r c pc) (ha : s.Agree t) :
    Busy cfg t r c pc := by
  cases pc with
  | waitJsonHeader | waitJson => simpa only [Busy, ha.numChunks, ha.json] using h
  | recvLoop | poll | replenish | sendCredit =>
    obtain ⟨hr, hc, hj, hseen⟩ := h
    exact ⟨hr, hc, ha.numChunks.symm ▸ hj, hseen.congr ha⟩
  | sendDone =>
    obtain ⟨hr, hc, hseen⟩ := h
    exact ⟨by rw [ha.numChunks]; exact hr, by rw [ha.numChunks]; exact hc,
      by rw [ha.numChunks]; exact hseen.congr ha⟩
  | prePost | sendReady | nextPrompt | sendText | repost | closed => exact h.elim

theorem Idle.congr {t : SrvSt} {front back : List SrvByte} (h : s.Idle front back)
    (ha : s.Agree t) (hin : t.inflight = s.inflight) (hcq : t.cq = s.cq)
    (hu : t.up.unread = s.up.unread) : t.Idle front back :=
  ⟨h.turned.congr ha, hin.trans h.inflight, hcq.trans h.cq,
    by rw [hu, ha.decode, ha.prompt]; exact h.stream⟩

/-- Outside of a transfer only what is unread counts, not how far it has come. -/
theorem Rest.congr {t : SrvSt} {pc : PrefillPc} (h : s.Rest pc) (ha : s.Agree t)
    (hin : t.inflight = s.inflight) (hcq : t.cq = s.cq) (hu : t.up.unread = s.up.unread) :
    t.Rest pc := by
  cases pc with
  | waitReady =>
    refine h.imp (fun he => ?_) fun hi => hi.congr ha hin hcq hu
    exact ⟨by rw [ha.decode]; exact he.place,
      by rw [ha.decodePrompt, ha.prefillPrompt]; exact he.index, hin.trans he.inflight,
      hcq.trans he.cq, hu.trans he.up, ha.json.trans he.json⟩
  | waitHeader => exact Idle.congr h ha hin hcq hu
  | waitPrompt n =>
    obtain ⟨hi, hlead, hn⟩ := h
    simp only [Rest, ha.decode, ha.prompt]
    exact ⟨hi.congr ha hin hcq hu, hlead, hn⟩
  | compute =>
    exact ⟨ha.decode.trans h.place, by rw [ha.decodePrompt, ha.prefillPrompt]; exact h.index,
      hin.trans h.inflight, hcq.trans h.cq, hu.trans h.up, ha.json.trans h.json⟩
  | finished => exact ha.decode.trans h
  | transfer | checkCredits i | stall i | drain i | write i | writeWait i | sentinel
  | sentinelWait | waitRemaining n => exact h.elim

namespace Transfer

/-- Decode's side is not touched by what prefill does with its own variables. -/
theorem decode_congr (h : Transfer cfg s p r c) {t : SrvSt} (ha : s.Agree t)
    (hu : t.up.unread = s.up.unread) (hk : t.creditsReceived = s.creditsReceived) :
    (Busy cfg t r c t.decode ∧ t.decodePrompt = t.prefillPrompt ∧
      t.up.unread = List.replicate (c - t.creditsReceived) creditByte) ∨
    (t.Turned ∧ r = t.numChunks + 1 ∧ c = t.numChunks ∧
      t.up.unread = List.replicate (c - t.creditsReceived) creditByte ++
        doneByte :: t.decode.nextBytes t.prompt) := by
  rw [hu, hk, ha.decode, ha.decodePrompt, ha.prefillPrompt, ha.numChunks, ha.prompt]
  exact h.decode.imp (And.imp_left fun hb => hb.congr ha) (And.imp_left fun ht => ht.congr ha)

/-- Bytes that arrive stay unread. -/
theorem setStreams (h : Transfer cfg s p r c) {up : Stream SrvByte}
    {down : Stream (BitVec 8)} (hu : up.unread = s.up.unread) (hd : down.unread = s.down.unread) :
    Transfer cfg { s with up := up, down := down } p r c :=
  ⟨h.prefill, h.queue, h.polled_le, h.read_le,
    h.decode_congr ⟨rfl, rfl, rfl, rfl, rfl, rfl, rfl, rfl, hd⟩ hu rfl⟩

/-- While a chunk is still to be completed, everything there is to read is a credit. -/
theorem unread_credits (h : Transfer cfg s p r c) (hp : p ≤ s.numChunks) :
    Busy cfg s r c s.decode ∧ s.decodePrompt = s.prefillPrompt ∧
      s.up.unread = List.replicate (c - s.creditsReceived) creditByte := by
  refine h.decode.resolve_right ?_
  rintro ⟨-, hr, -⟩
  have := h.polled_le
  omega

/-- Decode sends one credit a chunk. -/
theorem credits_le (h : Transfer cfg s p r c) : c ≤ s.numChunks := by
  rcases h.decode with ⟨hb, -⟩ | ⟨-, -, hc, -⟩
  · cases hd : s.decode <;> simp only [hd, Busy] at hb <;> omega
  · omega

end Transfer

end SrvSt

end Dmaplane
