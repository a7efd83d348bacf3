import Dmaplane.Lib.Stream
import Dmaplane.Lib.System
import Dmaplane.KvBitmap

/-!
# Dmaplane.KvServers

The disaggregated inference servers: the loops of `examples/kvcache/prefill_server.py` and
`examples/kvcache/decode_server.py`, from the receives that decode pre-posts on, as a transition
system.

Decode sends a prompt; prefill answers with a manifest and then with the chunks of the KV cache, one
RDMA write with immediate each, and a sentinel; decode sends a byte for each chunk it sees and one
at the end. The bytes of decode carry in the model what they were sent as; prefill acts on their
number and, for the prompt's length, on their value. A write carries the number of its prompt.

A server that raises closes the connection and takes no further step: what holds in every state of
this system holds up to there. Generating text has no part in the protocol.
-/

namespace Dmaplane

open Transition

inductive ByteKind where
  | ready | prompt | credit | done
  deriving DecidableEq, Repr

structure SrvByte where
  value : BitVec 8
  kind : ByteKind
  deriving DecidableEq, Repr

/-- `struct.pack('!I', n)`. -/
def packLen (n : Nat) : List (BitVec 8) :=
  [.ofNat 8 (n / 2 ^ 24), .ofNat 8 (n / 2 ^ 16), .ofNat 8 (n / 2 ^ 8), .ofNat 8 n]

/-- `struct.unpack('!I', hdr)[0]`. -/
def unpackLen (hdr : List (BitVec 8)) : Nat := hdr.foldl (fun n b => n * 2 ^ 8 + b.toNat) 0

/-- A prompt as its UTF-8 text; `load_prompts` drops empty lines. -/
structure Prompt where
  text : List (BitVec 8)
  text_pos : 0 < text.length
  text_lt : text.length < 2 ^ 32

/-- The answer to a prompt: the manifest as its JSON text, of which decode uses `num_chunks`.
`loads` is what `json.loads` makes of that entry. -/
structure Manifest (loads : List (BitVec 8) → Nat) where
  json : List (BitVec 8)
  numChunks : Nat
  json_lt : json.length < 2 ^ 32
  loads_json : loads json = numChunks

structure ServerConfig where
  creditWindow : Nat
  prompts : List Prompt
  loads : List (BitVec 8) → Nat

/-- A write with immediate, with the number of the prompt it is for. -/
structure KvWrite where
  prompt : Nat
  imm : BitVec 32
  deriving DecidableEq, Repr

/-- Where prefill is; `i` is the chunk of the send loop. -/
inductive PrefillPc where
  /-- `tcp_recv_all(conn, 1)`, then the head of the prompt loop. -/
  | waitReady
  | waitHeader
  /-- `tcp_recv_all(conn, prompt_len)`. -/
  | waitPrompt (len : Nat)
  /-- The forward pass, up to `tcp_send_json`. -/
  | compute
  /-- The credits of the prompt are set, its first chunk is next. -/
  | transfer
  /-- `if credits <= 0`. -/
  | checkCredits (i : Nat)
  /-- `tcp_recv_all(conn, 1)` for one credit. -/
  | stall (i : Nat)
  /-- The non-blocking `conn.recv(64)` of both branches. -/
  | drain (i : Nat)
  | write (i : Nat)
  /-- In `write_imm`: the write is posted, its completion not yet polled. -/
  | writeWait (i : Nat)
  | sentinel
  | sentinelWait
  /-- `tcp_recv_all(conn, remaining)`. -/
  | waitRemaining (n : Nat)
  | finished
  deriving DecidableEq, Repr

/-- Where decode is; `j` is the pass of its receive loop. -/
inductive DecodePc where
  /-- `n` receives are pre-posted. -/
  | prePost (n : Nat)
  | sendReady
  /-- The head of the prompt loop, and the shutdown signal after it. -/
  | nextPrompt
  /-- The length of the prompt is sent. -/
  | sendText
  /-- The two reads of `tcp_recv_json`. -/
  | waitJsonHeader
  | waitJson (len : Nat)
  /-- `for _ in range(num_chunks + 1)`. -/
  | recvLoop (j : Nat)
  | poll (j : Nat)
  | replenish (j : Nat)
  | sendCredit (j : Nat)
  | sendDone
  /-- The receive for the sentinel's. -/
  | repost
  | closed
  deriving DecidableEq, Repr

structure SrvSt where
  prefill : PrefillPc
  credits : Int
  creditsReceived : Nat
  numChunks : Nat
  /-- The prompts prefill has read. -/
  prefillPrompt : Nat
  decode : DecodePc
  /-- The prompts left to send, and the text of the current one. -/
  prompts : List Prompt
  prompt : List (BitVec 8)
  decodePrompt : Nat
  /-- `num_chunks` of the manifest, `chunks_received`, and the completions polled for the prompt. -/
  expected : Nat
  chunksReceived : Nat
  seen : List KvWrite
  recvPosted : Nat
  /-- Posted and not yet delivered, then delivered and not yet polled. -/
  inflight : List KvWrite
  cq : List KvWrite
  /-- From decode to prefill, and the manifests back. -/
  up : Stream SrvByte
  down : Stream (BitVec 8)

inductive SrvAct (loads : List (BitVec 8) → Nat) where
  | prefill
  /-- The forward pass comes to this manifest. -/
  | compute (m : Manifest loads)
  | decode
  | deliverWrite
  | deliverUp
  | deliverDown

/-- The bytes of the prompt loop. -/
def promptBytes (l : List (BitVec 8)) : List SrvByte := l.map fun b => ⟨b, .prompt⟩

def readyByte : SrvByte := ⟨1, .ready⟩
def creditByte : SrvByte := ⟨1, .credit⟩
def doneByte : SrvByte := ⟨1, .done⟩

namespace SrvSt

/-- A pass of `tcp_recv_all` of prefill; `k` goes on with what it has read. -/
def readUp (s : SrvSt) (n : Nat) (k : List SrvByte → SrvSt → SrvSt) : Option SrvSt :=
  match s.up.recvAll n with
  | none => none
  | some (none, up) => some { s with up := up }
  | some (some bytes, up) => some (k bytes { s with up := up })

/-- A pass of `tcp_recv_all` of decode. -/
def readDown (s : SrvSt) (n : Nat) (k : List (BitVec 8) → SrvSt → SrvSt) : Option SrvSt :=
  match s.down.recvAll n with
  | none => none
  | some (none, down) => some { s with down := down }
  | some (some bytes, down) => some (k bytes { s with down := down })

/-- The head of the send loop: the next chunk, or the sentinel after the last. -/
def nextChunk (s : SrvSt) (i : Nat) : PrefillPc :=
  if i < s.numChunks then .checkCredits i else .sentinel

/-- `(num_chunks - credits_received) + 1`. -/
def remaining (s : SrvSt) : Int := (s.numChunks - s.creditsReceived) + 1

/-- Prefill's next step; `none` while it blocks or computes. -/
def prefillStep (s : SrvSt) : Option SrvSt :=
  match s.prefill with
  | .waitReady => s.readUp 1 fun _ s => { s with prefill := .waitHeader }
  | .waitHeader =>
    s.readUp 4 fun hdr s =>
      let len := unpackLen (hdr.map (·.value))
      { s with prefill := if len = 0 then .finished else .waitPrompt len }
  | .waitPrompt len =>
    s.readUp len fun _ s => { s with prefill := .compute, prefillPrompt := s.prefillPrompt + 1 }
  | .compute => none
  | .transfer => some { s with prefill := s.nextChunk 0 }
  | .checkCredits i => some { s with prefill := if s.credits ≤ 0 then .stall i else .drain i }
  | .stall i =>
    s.readUp 1 fun _ s => { s with
      prefill := .drain i, credits := s.credits + 1, creditsReceived := s.creditsReceived + 1 }
  | .drain i =>
    let extra := (s.up.recv 64).got
    some { s with
      prefill := .write i, up := (s.up.recv 64).clear
      credits := s.credits + extra.length, creditsReceived := s.creditsReceived + extra.length }
  | .write i =>
    some { s with
      prefill := .writeWait i
      inflight := s.inflight ++ [⟨s.prefillPrompt, immEncode 0 (.ofNat 32 i)⟩] }
  | .writeWait i =>
    if s.inflight = [] then
      some { s with prefill := s.nextChunk (i + 1), credits := s.credits - 1 }
    else none
  | .sentinel =>
    some { s with
      prefill := .sentinelWait, inflight := s.inflight ++ [⟨s.prefillPrompt, kvSentinel⟩] }
  | .sentinelWait =>
    if s.inflight = [] then
      some { s with
        prefill := if 0 < s.remaining then .waitRemaining s.remaining.toNat else .waitHeader }
    else none
  | .waitRemaining n => s.readUp n fun _ s => { s with prefill := .waitHeader }
  | .finished => none

/-- Decode's next step. -/
def decodeStep (cfg : ServerConfig) (s : SrvSt) : Option SrvSt :=
  match s.decode with
  | .prePost n =>
    if n < cfg.creditWindow + 1 then
      some { s with decode := .prePost (n + 1), recvPosted := s.recvPosted + 1 }
    else some { s with decode := .sendReady }
  | .sendReady => some { s with decode := .nextPrompt, up := s.up.send [readyByte] }
  | .nextPrompt =>
    match s.prompts with
    | [] => some { s with decode := .closed, up := s.up.send (promptBytes (packLen 0)) }
    | p :: rest =>
      some { s with
        decode := .sendText, prompts := rest, prompt := p.text
        decodePrompt := s.decodePrompt + 1
        up := s.up.send (promptBytes (packLen p.text.length)) }
  | .sendText => some { s with decode := .waitJsonHeader, up := s.up.send (promptBytes s.prompt) }
  | .waitJsonHeader => s.readDown 4 fun hdr s => { s with decode := .waitJson (unpackLen hdr) }
  | .waitJson len =>
    s.readDown len fun json s => { s with
      decode := .recvLoop 0, expected := cfg.loads json, chunksReceived := 0, seen := [] }
  | .recvLoop j => some { s with decode := if j < s.expected + 1 then .poll j else .sendDone }
  | .poll j =>
    match s.cq with
    | [] => none
    | w :: rest =>
      if w.imm = kvSentinel then some { s with decode := .sendDone, cq := rest }
      else
        some { s with
          decode := .replenish j, cq := rest
          chunksReceived := s.chunksReceived + 1, seen := s.seen ++ [w] }
  | .replenish j => some { s with decode := .sendCredit j, recvPosted := s.recvPosted + 1 }
  | .sendCredit j => some { s with decode := .recvLoop (j + 1), up := s.up.send [creditByte] }
  | .sendDone => some { s with decode := .repost, up := s.up.send [doneByte] }
  | .repost => some { s with decode := .nextPrompt, recvPosted := s.recvPosted + 1 }
  | .closed => none

end SrvSt

namespace ServerConfig

variable (cfg : ServerConfig)

def srvStep (s : SrvSt) : SrvAct cfg.loads → Option SrvSt
  | .prefill => s.prefillStep
  | .compute m =>
    if s.prefill = .compute then
      some { s with
        prefill := .transfer, numChunks := m.numChunks
        down := s.down.send (packLen m.json.length ++ m.json)
        credits := cfg.creditWindow, creditsReceived := 0 }
    else none
  | .decode => s.decodeStep cfg
  | .deliverWrite =>
    match s.inflight with
    | [] => none
    | w :: rest =>
      if 0 < s.recvPosted then
        some { s with recvPosted := s.recvPosted - 1, inflight := rest, cq := s.cq ++ [w] }
      else none
  | .deliverUp => s.up.deliver.map fun up => { s with up := up }
  | .deliverDown => s.down.deliver.map fun down => { s with down := down }

/-- Both servers have connected their QPs; nothing is posted or sent yet. -/
def srvSys : Sys SrvSt (SrvAct cfg.loads) where
  init :=
    { prefill := .waitReady, credits := 0, creditsReceived := 0, numChunks := 0, prefillPrompt := 0
      decode := .prePost 0, prompts := cfg.prompts, prompt := [], decodePrompt := 0
      expected := 0, chunksReceived := 0, seen := []
      recvPosted := 0, inflight := [], cq := [], up := .empty, down := .empty }
  step := cfg.srvStep

end ServerConfig

/-- A write is posted in prefill's next step. -/
def SrvSt.Posting (s : SrvSt) : Prop := (∃ i, s.prefill = .write i) ∨ s.prefill = .sentinel

/-- What the two servers promise each other. -/
structure Served (cfg : ServerConfig) (s : SrvSt) : Prop where
  /-- Every write is posted onto a posted receive. -/
  available : s.Posting → 1 ≤ s.recvPosted
  fits : s.recvPosted ≤ cfg.creditWindow + 1
  /-- A prompt starts with a full window on both sides and nothing on its way. -/
  start : s.prefill = .transfer →
    s.credits = cfg.creditWindow ∧ s.recvPosted = cfg.creditWindow + 1 ∧
      s.inflight = [] ∧ s.cq = [] ∧ s.up.unread = []
  /-- When prefill waits for a prompt, it has read all credits and done bytes. -/
  clean : s.prefill = .waitHeader → ∀ b ∈ s.up.unread, b.kind = .prompt
  /-- Decode sends a prompt with all its receives posted. -/
  posted : s.decode = .nextPrompt → s.recvPosted = cfg.creditWindow + 1
  /-- Decode leaves its receive loop when it has seen every chunk of the prompt. -/
  complete : s.decode = .sendDone →
    s.expected = s.numChunks ∧ s.chunksReceived = s.numChunks ∧
      s.seen = (List.range s.numChunks).map fun i => ⟨s.decodePrompt, immEncode 0 (.ofNat 32 i)⟩

end Dmaplane
