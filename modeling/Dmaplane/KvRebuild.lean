import Dmaplane.KvData
import Dmaplane.KvPack
import Dmaplane.KvServed

/-!
# Dmaplane.KvRebuild

The KV caches on their way through the two inference servers: for each prompt prefill packs the
layers of its forward pass into the host buffer (`consolidate_kvcache`) and writes the chunks into
decode's buffer, and decode rebuilds a cache from the bytes and the manifest
(`reconstruct_kvcache_zero_copy`). Both use the same buffers for every prompt.

* `cacheSys`       — the two servers with their buffers, under every interleaving.
* `CacheInv`       — what holds in every reachable state.
* `caches_rebuilt` — decode rebuilds for its `i`-th prompt the tensors that prefill extracted for
  its `i`-th prompt, and misses none.
-/

namespace Dmaplane

open Transition Paged

structure ServerModel where
  cfg : ServerConfig
  chunkSize : Nat
  chunk_pos : 0 < chunkSize
  /-- `gpu_staging`, of `max_kv_bytes`. -/
  staging : ByteBuffer
  isCuda : staging.tensor.isCuda = true
  /-- `total_bytes` and `manifest` of a JSON text, as decode restores them. -/
  loadsMeta : List (BitVec 8) → Nat × List KvEntry

structure ServerData (C : Type) where
  /-- Prefill's `gpu_staging`, `host_mmap`, `packed_bytes` and `manifest`. -/
  staging : Tensor
  src : Memory
  packed : Nat
  manifest : List KvEntry
  /-- The writes on their way, and decode's `host_mmap`. -/
  log : DataLog
  /-- Decode's `total_bytes` and `manifest`. -/
  totalBytes : Nat
  entries : List KvEntry
  /-- Decode has the chunks of a prompt and has not rebuilt its cache yet. -/
  pending : Bool
  /-- The layers of every forward pass, and what decode has rebuilt. -/
  extracted : List (List KvLayer)
  rebuilt : List (Except PyErr C)

inductive CacheAct (loads : List (BitVec 8) → Nat) where
  | prefill
  /-- The forward pass gives these layers, and `json.dumps` this text. -/
  | compute (layers : List KvLayer) (answer : Manifest loads)
  | decode
  | reconstruct
  | deliverWrite
  | deliverUp
  | deliverDown

/-- `host_mmap[:len(data)] = data`. -/
def overlay (data : List (BitVec 8)) (mem : Memory) : Memory := fun x => data.getD x (mem x)

/-- `torch.frombuffer(data, dtype=torch.uint8).cuda()`. -/
def frombuffer (data : List (BitVec 8)) : Except PyErr Tensor :=
  if data = [] then .error .valueError else .ok (bytesOf data)

theorem overlay_range (data : List (BitVec 8)) (mem : Memory) :
    (List.range data.length).map (overlay data mem) = data := by
  apply List.ext_getElem
  · rw [List.length_map, List.length_range]
  · intro x h₁ h₂
    simp [overlay, h₂]

namespace ServerModel

variable {C : Type} (api : DynamicCache C) (m : ServerModel)

/-- The write that prefill posts in its next step. -/
def posts (packed : Nat) : PrefillPc → Option (Nat × Nat)
  | .write i => some (i * m.chunkSize, Chunks.len packed m.chunkSize i)
  | .sentinel => some (0, 4)
  | _ => none

/-- What a step of decode from `s` to `s'` does to its variables: the end of `tcp_recv_json`, and
the end of a transfer. -/
def decodeData (s s' : SrvSt) (d : ServerData C) : ServerData C :=
  match s.decode, s'.decode with
  | .waitJson _, .recvLoop _ =>
    { d with
      totalBytes := (m.loadsMeta s.down.got).1
      entries := (m.loadsMeta s.down.got).2 }
  | .repost, _ => { d with pending := true }
  | _, _ => d

/-- The cache from `host_mmap[:total_bytes]`. -/
def reconstruct (d : ServerData C) : Except PyErr C := do
  let hostTensor ← frombuffer ((List.range d.totalBytes).map d.log.dst)
  reconstructKvcache api hostTensor d.entries

/-- From the layers to `tcp_send_json`. -/
def computeData (layers : List KvLayer) (answer : Manifest m.cfg.loads) (d : ServerData C) :
    Option (ServerData C) :=
  if kvcacheSize layers ≤ m.staging.size then
    match consolidateKvcache (layers.map KvLayer.tensors) d.staging with
    | .ok (staging, packed, manifest) =>
      if answer.numChunks = Chunks.count packed m.chunkSize ∧
          m.loadsMeta answer.json = (packed, manifest) then
        some { d with
          staging := staging, src := overlay (staging.bytesAt 0 packed) d.src, packed := packed
          manifest := manifest, extracted := d.extracted ++ [layers] }
      else none
    | .error _ => none
  else none

def cacheStep : SrvSt × ServerData C → CacheAct m.cfg.loads → Option (SrvSt × ServerData C)
  | (s, d), .prefill =>
    (m.cfg.srvStep s .prefill).map fun s' =>
      (s', { d with log := d.log.post (m.posts d.packed s.prefill) })
  | (s, d), .compute layers answer =>
    match m.computeData layers answer d, m.cfg.srvStep s (.compute answer) with
    | some d', some s' => some (s', d')
    | _, _ => none
  | (s, d), .decode =>
    if d.pending then none
    else (m.cfg.srvStep s .decode).map fun s' => (s', m.decodeData s s' d)
  | (s, d), .reconstruct =>
    if d.pending then
      some (s, { d with pending := false, rebuilt := d.rebuilt ++ [reconstruct api d] })
    else none
  | (s, d), .deliverWrite =>
    (m.cfg.srvStep s .deliverWrite).map fun s' => (s', { d with log := d.log.deliver d.src })
  | (s, d), .deliverUp => (m.cfg.srvStep s .deliverUp).map fun s' => (s', d)
  | (s, d), .deliverDown => (m.cfg.srvStep s .deliverDown).map fun s' => (s', d)

/-- The buffers hold `src` and `dst` at first. -/
def cacheSys (src dst : Memory) : Sys (SrvSt × ServerData C) (CacheAct m.cfg.loads) where
  init :=
    (m.cfg.srvSys.init,
      { staging := m.staging.tensor, src := src, packed := 0, manifest := []
        log := ⟨[], dst⟩, totalBytes := 0, entries := [], pending := false
        extracted := [], rebuilt := [] })
  step := cacheStep api m

end ServerModel

/-- The cache has the tensors of these layers. -/
def Rebuilds {C : Type} (api : DynamicCache C) (layers : List KvLayer) (c : Except PyErr C) :
    Prop :=
  ∃ cache, c = .ok cache ∧
    List.Forall₂ (fun l kv => l.k.tensor.Same kv.1 ∧ l.v.tensor.Same kv.2) layers (api.layers cache)

/-- There is something to send, K and V of each layer have one shape, and each layer begins at a
multiple of its element size. -/
structure Rebuildable (layers : List KvLayer) : Prop where
  pos : 0 < kvcacheSize layers
  shape : ∀ l ∈ layers, l.OneShape
  aligned : Aligned 0 layers

/-! ## What one prompt needs -/

/-- The layers fill the front of the staging buffer. -/
theorem consolidate_bytes (b : ByteBuffer) (hcuda : b.tensor.isCuda = true) {layers : List KvLayer}
    (hfit : kvcacheSize layers ≤ b.size) :
    ∃ b' : ByteBuffer, consolidateKvcache (layers.map KvLayer.tensors) b.tensor =
        .ok (b'.tensor, kvcacheSize layers, manifestOf 0 0 layers) ∧ b'.size = b.size ∧
      b'.tensor.isCuda = true ∧ b'.tensor.bytesAt 0 (kvcacheSize layers) = packedBytes layers := by
  have hlen := packedBytes_length layers
  have hroom : b.tensor.offset + (packedBytes layers).length ≤ b.tensor.storage.length := by
    have := b.inStorage
    omega
  have hcontig : b.tensor.isContiguous = true := by
    simp [Tensor.isContiguous, b.shape, b.strides, Strided.contiguous]
  have hpack := consolidateLoop_eq layers b.dtype b.shape b.strides b.inStorage 0 0 (by omega)
  rw [Nat.zero_add, Nat.add_zero] at hpack
  let b' : ByteBuffer :=
    { tensor := { b.tensor with
        storage := splice b.tensor.storage b.tensor.offset (packedBytes layers) }
      size := b.size, dtype := b.dtype, shape := b.shape, strides := b.strides
      inStorage := by rw [splice_length hroom]; exact b.inStorage }
  refine ⟨b', ?_, rfl, hcuda, ?_⟩
  · rw [consolidateKvcache, if_neg (by simp [hcuda]), if_neg (by simp [hcontig])]
    exact hpack
  · rw [Tensor.bytesAt, ← hlen]
    exact slice_splice _ _ _ hroom

/-- The right bytes and the right manifest give the cache. -/
theorem reconstruct_rebuilds {C : Type} {api : DynamicCache C} (hapi : api.Lawful)
    {layers : List KvLayer} (hr : Rebuildable layers) {d : ServerData C}
    (hbytes : (List.range d.totalBytes).map d.log.dst = packedBytes layers)
    (hentries : d.entries = manifestOf 0 0 layers) :
    Rebuilds api layers (ServerModel.reconstruct api d) := by
  have hlen := packedBytes_length layers
  have hne : packedBytes layers ≠ [] := by
    rw [← List.length_pos_iff, hlen]
    exact hr.pos
  have hwhole : (bytesOf (packedBytes layers)).bytesAt 0 (kvcacheSize layers) =
      packedBytes layers := by
    rw [Tensor.bytesAt, ← hlen]
    exact List.take_length
  have hshape : (bytesOf (packedBytes layers)).shape = [(packedBytes layers).length] := rfl
  obtain ⟨kvs, hkvs, hall⟩ := mapM_reconstructEntry (r := bytesOf (packedBytes layers)) rfl
    hshape rfl (by simp [bytesOf]) layers 0 0 (by omega) hr.shape hr.aligned hwhole
  have hcache := foldl_update hapi layers [] api.new kvs hall (by
    rw [hapi.layers_new]; exact List.Forall₂.nil)
  refine ⟨_, ?_, hcache⟩
  simp only [ServerModel.reconstruct, frombuffer, hbytes, if_neg hne, hentries, reconstructKvcache,
    bind, Except.bind, pure, Except.pure]
  rw [hkvs]

namespace ServerModel

variable (m : ServerModel)

/-- The `j`-th write of a prompt. -/
def write (packed j : Nat) : Nat × Nat :=
  if j < Chunks.count packed m.chunkSize then
    (j * m.chunkSize, Chunks.len packed m.chunkSize j)
  else (0, 4)

/-- Chunk by chunk all bytes are covered. -/
theorem write_covers {packed x : Nat} (hx : x < packed) :
    ∃ j < Chunks.count packed m.chunkSize, (m.write packed j).1 ≤ x ∧
      x < (m.write packed j).1 + (m.write packed j).2 := by
  obtain ⟨hj, hlo, hhi⟩ := (Chunks.mem_chunk_iff m.chunk_pos).mpr ⟨hx, rfl⟩
  refine ⟨x / m.chunkSize, hj, ?_⟩
  rw [write, if_pos hj]
  exact ⟨hlo, hhi⟩

end ServerModel

/-! ## The steps of the two servers -/

/-- Prefill has a transfer under way. -/
def PrefillPc.InTransfer : PrefillPc → Prop
  | .waitReady | .waitHeader | .waitPrompt _ | .compute | .finished => False
  | _ => True

/-- One, if decode has turned to a prompt whose cache is not rebuilt. -/
def DecodePc.due : DecodePc → Nat
  | .prePost _ | .sendReady | .nextPrompt | .closed => 0
  | _ => 1

namespace SrvSt

variable {cfg : ServerConfig} {s s' : SrvSt} {p r c : Nat}

/-- How many writes of the prompt are posted. -/
def numPosted (s : SrvSt) : Nat :=
  match s.prefill with
  | .checkCredits i | .stall i | .drain i | .write i => i
  | .writeWait i => i + 1
  | .sentinel => s.numChunks
  | .sentinelWait | .waitRemaining _ => s.numChunks + 1
  | _ => 0

theorem Transfer.numPosted (h : Transfer cfg s p r c) : s.numPosted = p := by
  have hok := h.prefill
  cases hpc : s.prefill <;> rw [hpc] at hok <;> simp only [PrefillOk] at hok <;>
    simp only [SrvSt.numPosted, hpc] <;> omega

theorem Transfer.flight_add (h : Transfer cfg s p r c) :
    s.inflight.length + s.cq.length + r = p := by
  have hq := congrArg List.length h.queue
  have hle := h.polled_le
  rw [List.length_append, List.length_map, List.length_range'] at hq
  omega

theorem Inv.transfer (h : s.Inv cfg) (hin : s.prefill.InTransfer) :
    ∃ p r c, Transfer cfg s p r c := by
  refine h.place.resolve_left fun hr => ?_
  cases hpc : s.prefill <;> rw [hpc] at hr hin <;> first | exact hin | exact hr

/-- Prefill has sent nothing for the next prompt when decode sends its text. -/
theorem Inv.json (h : s.Inv cfg) (hd : s.decode = .sendText) : s.down.unread = [] := by
  rcases h.place with hr | ⟨p, r, c, ht⟩
  · cases hpc : s.prefill <;> rw [hpc] at hr
    case waitReady => exact hr.elim (·.json) (·.turned.json)
    case waitHeader => exact (show s.Idle [] [] from hr).turned.json
    case waitPrompt n => exact hr.1.turned.json
    case compute => exact (show s.Computing from hr).json
    case finished => rw [show s.decode = .closed from hr] at hd; cases hd
    all_goals exact hr.elim
  · rcases ht.decode with ⟨hb, -⟩ | ⟨ht, -⟩
    · rw [hd] at hb
      exact hb.elim
    · exact ht.json

theorem numPosted_nextChunk {t : SrvSt} {i : Nat} (hi : i ≤ s.numChunks)
    (ht : t.prefill = s.nextChunk i) (hn : t.numChunks = s.numChunks) : t.numPosted = i := by
  unfold nextChunk at ht
  split at ht
  · simp only [numPosted, ht]
  · simp only [numPosted, ht, hn]
    omega

/-- Prefill posts the writes of a prompt in order. -/
theorem Inv.posts (m : ServerModel) (hi : s.Inv m.cfg) {packed : Nat}
    (hn : s.prefill.InTransfer → s.numChunks = Chunks.count packed m.chunkSize)
    (hs : s.prefillStep = some s') :
    (m.posts packed s.prefill = none ∧ s'.inflight = s.inflight ∧
        (s'.prefill.InTransfer → s.prefill.InTransfer ∧ s'.numPosted = s.numPosted)) ∨
      (m.posts packed s.prefill = some (m.write packed s.numPosted) ∧ s.prefill.InTransfer ∧
        ∃ w, s'.inflight = s.inflight ++ [w] ∧ s'.numPosted = s.numPosted + 1) := by
  have hread {n : Nat} {k : List SrvByte → SrvSt → SrvSt}
      (hk : ∀ bytes t, (k bytes t).inflight = t.inflight ∧ ((k bytes t).prefill.InTransfer →
        s.prefill.InTransfer ∧ (k bytes t).numPosted = s.numPosted))
      (hr : s.readUp n k = some s') : s'.inflight = s.inflight ∧
        (s'.prefill.InTransfer → s.prefill.InTransfer ∧ s'.numPosted = s.numPosted) := by
    unfold readUp at hr
    split at hr
    · cases hr
    · cases hr
      exact ⟨rfl, fun h => ⟨h, rfl⟩⟩
    · cases hr
      exact hk _ _
  have hok (h : s.prefill.InTransfer) : ∃ p k, PrefillOk m.cfg.creditWindow s.numChunks p k
      s.credits s.inflight.length s.prefill := by
    obtain ⟨p, r, c, ht⟩ := hi.transfer h
    exact ⟨p, _, ht.prefill⟩
  cases hpc : s.prefill with
  | waitReady | waitPrompt n | waitRemaining n =>
    simp only [prefillStep, hpc] at hs
    rw [← hpc]
    refine .inl ⟨by rw [hpc]; rfl, hread ?_ hs⟩
    exact fun _ _ => ⟨rfl, fun h => False.elim h⟩
  | waitHeader =>
    simp only [prefillStep, hpc] at hs
    rw [← hpc]
    refine .inl ⟨by rw [hpc]; rfl, hread ?_ hs⟩
    refine fun bytes _ => ⟨rfl, fun h => ?_⟩
    dsimp only at h
    split at h <;> exact False.elim h
  | stall i =>
    simp only [prefillStep, hpc] at hs
    rw [← hpc]
    refine .inl ⟨by rw [hpc]; rfl, hread ?_ hs⟩
    refine fun _ _ => ⟨rfl, fun _ => ⟨by rw [hpc]; trivial, ?_⟩⟩
    simp only [numPosted, hpc]
  | compute | finished => simp [prefillStep, hpc] at hs
  | transfer =>
    simp only [prefillStep, hpc] at hs; cases hs
    refine .inl ⟨rfl, rfl, fun _ => ⟨trivial, ?_⟩⟩
    refine (numPosted_nextChunk (t := { s with prefill := s.nextChunk 0 })
      (Nat.zero_le s.numChunks) rfl rfl).trans ?_
    simp only [numPosted, hpc]
  | checkCredits i =>
    simp only [prefillStep, hpc] at hs; cases hs
    refine .inl ⟨rfl, rfl, fun _ => ⟨trivial, ?_⟩⟩
    by_cases hc : s.credits ≤ 0 <;> simp only [numPosted, hpc, hc, if_true, if_false]
  | drain i =>
    simp only [prefillStep, hpc] at hs; cases hs
    exact .inl ⟨rfl, rfl, fun _ => ⟨trivial, by simp only [numPosted, hpc]⟩⟩
  | write i =>
    have hin : s.prefill.InTransfer := by rw [hpc]; trivial
    obtain ⟨p, k, h⟩ := hok hin
    rw [hpc] at h
    obtain ⟨-, hlt, -⟩ := h
    rw [hn hin] at hlt
    simp only [prefillStep, hpc] at hs; cases hs
    refine .inr ⟨?_, trivial, _, rfl, by simp only [numPosted, hpc]⟩
    simp only [numPosted, hpc, ServerModel.posts, ServerModel.write, if_pos hlt]
  | writeWait i =>
    obtain ⟨p, k, h⟩ := hok (by rw [hpc]; trivial)
    rw [hpc] at h
    obtain ⟨-, hlt, -⟩ := h
    simp only [prefillStep, hpc] at hs
    split at hs <;> cases hs
    refine .inl ⟨rfl, rfl, fun _ => ⟨trivial, ?_⟩⟩
    refine (numPosted_nextChunk
      (t := { s with prefill := s.nextChunk (i + 1), credits := s.credits - 1 })
      hlt rfl rfl).trans ?_
    simp only [numPosted, hpc]
  | sentinel =>
    have hin : s.prefill.InTransfer := by rw [hpc]; trivial
    have hcount := hn hin
    simp only [prefillStep, hpc] at hs; cases hs
    refine .inr ⟨?_, trivial, _, rfl, by simp only [numPosted, hpc]⟩
    simp only [numPosted, hpc, ServerModel.posts, ServerModel.write, hcount,
      if_neg (Nat.lt_irrefl _)]
  | sentinelWait =>
    simp only [prefillStep, hpc] at hs
    split at hs <;> cases hs
    refine .inl ⟨rfl, rfl, fun h => ⟨trivial, ?_⟩⟩
    by_cases hpos : 0 < s.remaining
    · simp only [numPosted, hpc, if_pos hpos]
    · simp only [if_neg hpos] at h
      exact False.elim h

/-- When decode has polled the sentinel, every chunk of the prompt is delivered. -/
theorem Inv.sentinel_last (hi : s.Inv cfg) {j : Nat} (hpc : s.decode = .poll j)
    (hs : s.decodeStep cfg = some s') (hd : s'.decode = .sendDone) :
    s.prefill.InTransfer ∧ s.numChunks < s.numPosted - s.inflight.length := by
  rcases hi.place with hr | ⟨p, r, c, ht⟩
  · have hplace := hr.place
    simp [hpc, DecodePc.Ahead] at hplace
  · have hin : s.prefill.InTransfer := by
      have hok := ht.prefill
      cases hp : s.prefill <;> rw [hp] at hok <;> first | exact hok | trivial
    rcases ht.decode with ⟨hb, -⟩ | ⟨hturned, -⟩
    · rw [hpc] at hb
      obtain ⟨rfl, -⟩ := hb
      have hflight := ht.flight_add
      simp only [decodeStep, hpc] at hs
      split at hs
      · cases hs
      · rename_i w rest hcq
        obtain ⟨hlt, rfl, -⟩ := ht.queue_cons hcq
        split at hs <;> cases hs
        · rename_i hsent
          have hge : s.numChunks ≤ r := by
            by_contra hlt
            refine immEncode_zero_ne r ?_
            rwa [msg, if_pos (by omega)] at hsent
          rw [hcq, List.length_cons] at hflight
          rw [ht.numPosted]
          exact ⟨hin, by omega⟩
        · cases hd
    · have hahead := hturned.ahead
      rw [hpc] at hahead
      exact hahead.elim

end SrvSt

/-! ## The invariant -/

section Caches

variable {C : Type} {api : DynamicCache C} {m : ServerModel} {src dst : Memory}

/-- What prefill and decode agree on beyond the bytes: decode is told of the current prompt. -/
def Told (m : ServerModel) (s : SrvSt) (d : ServerData C) : Prop :=
  match s.decode with
  | .waitJsonHeader => s.down.unread = [] ∨ ∃ json, s.down.unread = packLen json.length ++ json ∧
      json.length < 2 ^ 32 ∧ m.loadsMeta json = (d.packed, d.manifest)
  | .waitJson n => s.down.unread.length = n ∧ m.loadsMeta s.down.unread = (d.packed, d.manifest)
  | .recvLoop _ | .poll _ | .replenish _ | .sendCredit _ | .sendDone | .repost =>
    d.totalBytes = d.packed ∧ d.entries = d.manifest
  | .nextPrompt => d.pending = true → d.totalBytes = d.packed ∧ d.entries = d.manifest
  | _ => True

/-- Decode has every chunk of the prompt, and has not rebuilt its cache. -/
def Complete (s : SrvSt) (d : ServerData C) : Prop :=
  s.decode = .sendDone ∨ s.decode = .repost ∨ d.pending = true

/-- The transfer under way: the writes on their way, and those in place. -/
structure ChunkFlow (m : ServerModel) (s : SrvSt) (d : ServerData C) : Prop where
  chunks : s.numChunks = Chunks.count d.packed m.chunkSize
  writes : d.log.writes =
    (List.range' (s.numPosted - s.inflight.length) s.inflight.length).map (m.write d.packed)
  placed : ∀ j < s.numPosted - s.inflight.length, ∀ x, (m.write d.packed j).1 ≤ x →
    x < (m.write d.packed j).1 + (m.write d.packed j).2 → d.log.dst x = d.src x

/-- The host buffer of prefill has the layers of its last forward pass. -/
def Sourced (d : ServerData C) : Prop :=
  ∀ layers, d.extracted.getLast? = some layers → d.packed = kvcacheSize layers ∧
    d.manifest = manifestOf 0 0 layers ∧ (List.range d.packed).map d.src = packedBytes layers

structure CacheInv (api : DynamicCache C) (m : ServerModel) (s : SrvSt) (d : ServerData C) :
    Prop where
  staging : ∃ b : ByteBuffer, b.tensor = d.staging ∧ b.size = m.staging.size ∧
    b.tensor.isCuda = true
  prompts : d.extracted.length + (if s.prefill = .compute then 1 else 0) = s.prefillPrompt
  caches : d.rebuilt.length + s.decode.due + d.pending.toNat = s.decodePrompt
  pending : d.pending = true → s.decode = .nextPrompt
  source : Sourced d
  log : d.log.writes.length = s.inflight.length
  flow : s.prefill.InTransfer → ChunkFlow m s d
  told : Told m s d
  complete : Complete s d → ∀ x < d.packed, d.log.dst x = d.src x
  rebuilt : ∀ (i : Nat) layers c, d.extracted[i]? = some layers → d.rebuilt[i]? = some c →
    Rebuildable layers → Rebuilds api layers c
  ahead : d.rebuilt.length ≤ d.extracted.length ∧ d.extracted.length ≤ d.rebuilt.length + 1

variable {s s' : SrvSt} {d d' : ServerData C}

/-- With all chunks in place the buffers agree. -/
theorem ChunkFlow.complete (h : ChunkFlow m s d) (hall : s.numChunks < s.numPosted - s.inflight.length)
    {x : Nat} (hx : x < d.packed) : d.log.dst x = d.src x := by
  obtain ⟨j, hj, hlo, hhi⟩ := m.write_covers hx
  have hn := h.chunks
  exact h.placed j (by omega) x hlo hhi

theorem decodeData_pending (hr : s.decode ≠ .repost) :
    (m.decodeData s s' d).pending = d.pending := by
  unfold ServerModel.decodeData
  split
  · rfl
  · rename_i h
    exact absurd h hr
  · rfl

theorem decodeData_frame (s s' : SrvSt) (d : ServerData C) :
    (m.decodeData s s' d).staging = d.staging ∧ (m.decodeData s s' d).src = d.src ∧
      (m.decodeData s s' d).packed = d.packed ∧ (m.decodeData s s' d).manifest = d.manifest ∧
      (m.decodeData s s' d).log = d.log ∧ (m.decodeData s s' d).extracted = d.extracted ∧
      (m.decodeData s s' d).rebuilt = d.rebuilt := by
  unfold ServerModel.decodeData
  split <;> exact ⟨rfl, rfl, rfl, rfl, rfl, rfl, rfl⟩

namespace CacheInv

/-- Prefill's step. -/
theorem prefill (hi : s.Inv m.cfg) (h : CacheInv api m s d) (hs : s.prefillStep = some s') :
    CacheInv api m s' { d with log := d.log.post (m.posts d.packed s.prefill) } := by
  obtain ⟨hd, -, hdp, -, -, hdown⟩ := SrvSt.prefillStep_frame hs
  obtain ⟨hpc, hn, hp⟩ := SrvSt.prefillStep_counts hs
  have hprompts := h.prompts
  rw [if_neg hpc] at hprompts
  have hcomplete : Complete s' { d with log := d.log.post (m.posts d.packed s.prefill) } →
      Complete s d := by
    rw [Complete, Complete, hd]
    exact id
  have htold : Told m s' { d with log := d.log.post (m.posts d.packed s.prefill) } := by
    have ht := h.told
    rw [Told, hd, hdown]
    exact ht
  have hposts := SrvSt.Inv.posts m hi (fun hin => (h.flow hin).chunks) hs
  rcases hposts with ⟨hnone, hfl, hin⟩ | ⟨hsome, hin, w, hfl, hnum⟩
  · have hlog : d.log.post (m.posts d.packed s.prefill) = d.log := by
      rw [hnone, DataLog.post, Option.toList_none, List.append_nil]
    rw [hlog] at htold hcomplete ⊢
    refine ⟨h.staging, by rw [hp, ← hprompts]; rfl, by rw [hd, hdp]; exact h.caches,
      by rw [hd]; exact h.pending, h.source, by rw [hfl]; exact h.log, fun hin' => ?_, htold,
      fun hc => h.complete (hcomplete hc), h.rebuilt, h.ahead⟩
    obtain ⟨hin, hnum⟩ := hin hin'
    have hf := h.flow hin
    refine ⟨hn.trans hf.chunks, ?_, ?_⟩ <;> rw [hnum, hfl]
    · exact hf.writes
    · exact hf.placed
  · obtain ⟨p, r, c, ht⟩ := hi.transfer hin
    have hflight := ht.flight_add
    rw [← ht.numPosted] at hflight
    have hf := h.flow hin
    have hlen : s'.inflight.length = s.inflight.length + 1 := by
      rw [hfl, List.length_append, List.length_singleton]
    have hsub : s'.numPosted - s'.inflight.length = s.numPosted - s.inflight.length := by omega
    refine ⟨h.staging, by rw [hp, ← hprompts]; rfl, by rw [hd, hdp]; exact h.caches,
      by rw [hd]; exact h.pending, h.source, ?_, fun _ => ⟨hn.trans hf.chunks, ?_, ?_⟩, htold,
      fun hc => h.complete (hcomplete hc), h.rebuilt, h.ahead⟩
    · rw [hsome, DataLog.post, List.length_append, h.log, hlen]
      rfl
    · rw [hsub, hlen, List.range'_1_concat, List.map_append, List.map_singleton, ← hf.writes,
        show s.numPosted - s.inflight.length + s.inflight.length = s.numPosted by omega, hsome]
      rfl
    · rw [hsub]
      exact hf.placed

/-- What a step of decode does to the counts of prompts and caches. -/
theorem decode_counts (hs : s.decodeStep m.cfg = some s') (hp : d.pending = false) :
    s'.decodePrompt + s.decode.due =
      s.decodePrompt + s'.decode.due + (m.decodeData s s' d).pending.toNat := by
  have hread {n : Nat} {k : List (BitVec 8) → SrvSt → SrvSt}
      (hk : ∀ bytes t, (k bytes t).decodePrompt = t.decodePrompt ∧ (k bytes t).decode.due = 1)
      (hdue : s.decode.due = 1) (hr : s.readDown n k = some s') :
      s'.decodePrompt = s.decodePrompt ∧ s'.decode.due = 1 := by
    unfold SrvSt.readDown at hr
    split at hr
    · cases hr
    · cases hr
      exact ⟨rfl, hdue⟩
    · cases hr
      exact hk _ _
  have hkeep (hr : s.decode ≠ .repost) : (m.decodeData s s' d).pending = false :=
    (decodeData_pending hr).trans hp
  cases hpc : s.decode with
  | repost =>
    simp only [SrvSt.decodeStep, hpc] at hs; cases hs
    simp only [ServerModel.decodeData, hpc, DecodePc.due]
    rfl
  | prePost n =>
    rw [hkeep (by simp [hpc])]
    simp only [SrvSt.decodeStep, hpc] at hs
    split at hs <;> cases hs <;> rfl
  | nextPrompt =>
    rw [hkeep (by simp [hpc])]
    simp only [SrvSt.decodeStep, hpc] at hs
    split at hs <;> cases hs <;> rfl
  | sendReady | sendText | replenish j | sendCredit j | sendDone =>
    rw [hkeep (by simp [hpc])]
    simp only [SrvSt.decodeStep, hpc] at hs; cases hs
    rfl
  | waitJsonHeader | waitJson n =>
    rw [hkeep (by simp [hpc])]
    simp only [SrvSt.decodeStep, hpc] at hs
    have hr : s'.decodePrompt = s.decodePrompt ∧ s'.decode.due = 1 := by
      refine hread ?_ (by rw [hpc]; rfl) hs
      exact fun _ _ => ⟨rfl, rfl⟩
    rw [hr.1, hr.2]
    rfl
  | recvLoop j =>
    rw [hkeep (by simp [hpc])]
    simp only [SrvSt.decodeStep, hpc] at hs; cases hs
    dsimp only
    split <;> rfl
  | poll j =>
    rw [hkeep (by simp [hpc])]
    simp only [SrvSt.decodeStep, hpc] at hs
    split at hs
    · cases hs
    · split at hs <;> cases hs <;> rfl
  | closed => simp [SrvSt.decodeStep, hpc] at hs

/-- Decode learns of the prompt from the text that prefill sent. -/
theorem decode_told (hi : s.Inv m.cfg) (h : Told m s d) (hp : d.pending = false)
    (hs : s.decodeStep m.cfg = some s') : Told m s' (m.decodeData s s' d) := by
  have hgot := hi.bounded.down
  unfold Told at h
  cases hpc : s.decode with
  | prePost n | nextPrompt =>
    simp only [SrvSt.decodeStep, hpc] at hs
    split at hs <;> cases hs <;> trivial
  | sendReady =>
    simp only [SrvSt.decodeStep, hpc] at hs; cases hs
    intro hpend
    simp only [ServerModel.decodeData, hpc, hp] at hpend
    cases hpend
  | sendText =>
    have hjson := hi.json hpc
    simp only [SrvSt.decodeStep, hpc] at hs; cases hs
    exact .inl hjson
  | waitJsonHeader =>
    rw [hpc] at h hgot
    simp only [SrvSt.decodeStep, hpc] at hs
    rcases SrvSt.readDown_cases (n := 4) hgot hs with
      ⟨down, rfl, hd, -⟩ | ⟨hdr, down, rfl, hl, hd, -⟩
    · simp only [Told, ServerModel.decodeData, hpc, hd]
      exact h
    · rcases h with hnil | ⟨json, hjson, hlt, hmeta⟩
      · rw [SrvSt.readDown_nil hnil (by decide)] at hs
        cases hs
      · rw [hd] at hjson
        obtain ⟨rfl, rfl⟩ := List.append_inj hjson hl
        simp only [Told, ServerModel.decodeData, hpc]
        exact ⟨(unpackLen_packLen hlt).symm, hmeta⟩
  | waitJson n =>
    rw [hpc] at h hgot
    obtain ⟨hlen, hmeta⟩ := h
    simp only [SrvSt.decodeStep, hpc] at hs
    unfold SrvSt.readDown at hs
    split at hs
    · cases hs
    · rename_i down hr
      cases hs
      simp only [Told, ServerModel.decodeData, hpc, (Stream.recvAll_part hr).1]
      exact ⟨hlen, hmeta⟩
    · rename_i json down hr
      cases hs
      obtain ⟨hl, hd, -⟩ := Stream.recvAll_done (n := n) hgot hr
      have hnil : down.unread = [] := by
        rw [hd, List.length_append] at hlen
        exact List.eq_nil_of_length_eq_zero (by omega)
      rw [hd, hnil, List.append_nil] at hmeta
      simp only [Told, ServerModel.decodeData, hpc, Stream.recvAll_got hr, hmeta, and_self]
  | recvLoop j =>
    rw [hpc] at h
    simp only [SrvSt.decodeStep, hpc] at hs; cases hs
    by_cases hj : j < s.expected + 1 <;>
      simp only [Told, ServerModel.decodeData, hpc, hj, if_true, if_false] <;> exact h
  | poll j =>
    rw [hpc] at h
    simp only [SrvSt.decodeStep, hpc] at hs
    split at hs
    · cases hs
    · split at hs <;> cases hs <;> simp only [Told, ServerModel.decodeData, hpc] <;> exact h
  | replenish j | sendCredit j | sendDone =>
    rw [hpc] at h
    simp only [SrvSt.decodeStep, hpc] at hs; cases hs
    simp only [Told, ServerModel.decodeData, hpc]
    exact h
  | repost =>
    rw [hpc] at h
    simp only [SrvSt.decodeStep, hpc] at hs; cases hs
    simp only [Told, ServerModel.decodeData, hpc]
    exact fun _ => h
  | closed => simp [SrvSt.decodeStep, hpc] at hs

/-- Decode has every chunk when it has polled the sentinel, and not before. -/
theorem decode_complete (hi : s.Inv m.cfg) (hs : s.decodeStep m.cfg = some s')
    (hp : d.pending = false) (hc : Complete s' (m.decodeData s s' d)) :
    Complete s d ∨ s.prefill.InTransfer ∧ s.numChunks < s.numPosted - s.inflight.length := by
  have hkeep (hr : s.decode ≠ .repost) : (m.decodeData s s' d).pending = false :=
    (decodeData_pending hr).trans hp
  by_cases hrep : s.decode = .repost
  · exact .inl (.inr (.inl hrep))
  have hpc' : s'.decode = .sendDone ∨ s'.decode = .repost := by
    rcases hc with hc | hc | hc
    · exact .inl hc
    · exact .inr hc
    · rw [hkeep hrep] at hc
      cases hc
  have hread {n : Nat} {k : List (BitVec 8) → SrvSt → SrvSt}
      (hk : ∀ bytes t, (k bytes t).decode ≠ .sendDone ∧ (k bytes t).decode ≠ .repost)
      (hne : s.decode ≠ .sendDone) (hr : s.readDown n k = some s') : False := by
    unfold SrvSt.readDown at hr
    split at hr
    · cases hr
    · cases hr
      exact hpc'.elim hne hrep
    · cases hr
      exact hpc'.elim (hk _ _).1 (hk _ _).2
  cases hpc : s.decode with
  | sendDone => exact .inl (.inl hpc)
  | poll j =>
    have hdone : s'.decode = .sendDone := by
      refine hpc'.resolve_right fun h => ?_
      simp only [SrvSt.decodeStep, hpc] at hs
      split at hs
      · cases hs
      · split at hs <;> cases hs <;> cases h
    exact .inr (hi.sentinel_last hpc hs hdone)
  | recvLoop j =>
    have hj := hi.loop j hpc
    simp only [SrvSt.decodeStep, hpc, hj, if_true] at hs; cases hs
    simp at hpc'
  | prePost n | nextPrompt =>
    simp only [SrvSt.decodeStep, hpc] at hs
    split at hs <;> cases hs <;> simp at hpc'
  | sendReady | sendText | replenish j | sendCredit j =>
    simp only [SrvSt.decodeStep, hpc] at hs; cases hs
    simp at hpc'
  | waitJsonHeader | waitJson n =>
    simp only [SrvSt.decodeStep, hpc] at hs
    refine (hread ?_ (by simp [hpc]) hs).elim
    exact fun _ _ => ⟨by simp, by simp⟩
  | repost => exact absurd hpc hrep
  | closed => simp [SrvSt.decodeStep, hpc] at hs

/-- Decode's step. -/
theorem decode (hi : s.Inv m.cfg) (h : CacheInv api m s d) (hp : d.pending = false)
    (hs : s.decodeStep m.cfg = some s') : CacheInv api m s' (m.decodeData s s' d) := by
  obtain ⟨hpre, -, -, hn, hprompt, hfl⟩ := SrvSt.decodeStep_frame hs
  obtain ⟨h1, h2, h3, h4, h5, h6, h7⟩ := decodeData_frame (m := m) s s' d
  have hcounts := decode_counts hs hp
  have hcaches := h.caches
  have htold := decode_told hi h.told hp hs
  have hnum : s'.numPosted = s.numPosted := by
    unfold SrvSt.numPosted
    rw [hpre, hn]
  have hpending : (m.decodeData s s' d).pending = true → s'.decode = .nextPrompt := by
    intro hpend
    by_cases hpc : s.decode = .repost
    · simp only [SrvSt.decodeStep, hpc] at hs; cases hs
      rfl
    · rw [decodeData_pending hpc, hp] at hpend
      cases hpend
  refine ⟨by rw [h1]; exact h.staging, by rw [h6, hpre, hprompt]; exact h.prompts, ?_, hpending,
    ?_, by rw [h5, hfl]; exact h.log, fun hin => ?_, htold, fun hc x hx => ?_, ?_,
    by rw [h6, h7]; exact h.ahead⟩
  · rw [h7]
    rw [hp] at hcaches
    simp only [Bool.toNat_false] at hcaches
    omega
  · rw [Sourced, h6, h3, h4, h2]
    exact h.source
  · have hf := h.flow (hpre ▸ hin)
    refine ⟨by rw [hn, h3]; exact hf.chunks, ?_, ?_⟩
    · rw [h5, h3, hnum, hfl]
      exact hf.writes
    · rw [h5, h3, hnum, hfl, h2]
      exact hf.placed
  · rw [h3] at hx
    rw [h5, h2]
    rcases decode_complete hi hs hp hc with hc | ⟨hin, hall⟩
    · exact h.complete hc x hx
    · exact (h.flow hin).complete hall hx
  · rw [h6, h7]
    exact h.rebuilt

/-- A forward pass. -/
theorem compute (hi : s.Inv m.cfg) (h : CacheInv api m s d) {layers : List KvLayer}
    {answer : Manifest m.cfg.loads} (hd : m.computeData layers answer d = some d')
    (hs : m.cfg.srvStep s (.compute answer) = some s') : CacheInv api m s' d' := by
  obtain ⟨b, hb, hsize, hcuda⟩ := h.staging
  simp only [ServerConfig.srvStep] at hs
  split at hs <;> cases hs
  rename_i hpc
  have hcomp : s.Computing := by
    rcases hi.place with hr | ⟨p, r, c, ht⟩
    · rwa [hpc] at hr
    · have hok := ht.prefill
      rw [hpc] at hok
      exact hok.elim
  unfold ServerModel.computeData at hd
  split at hd
  · rename_i hfit
    obtain ⟨b', hcons, hsize', hcuda', hbytes⟩ := consolidate_bytes b hcuda (hsize ▸ hfit)
    rw [← hb, hcons] at hd
    dsimp only at hd
    split at hd <;> cases hd
    rename_i hanswer
    obtain ⟨hchunks, hmeta⟩ := hanswer
    have hprompts := h.prompts
    have hcaches := h.caches
    have hindex := hcomp.index
    rw [if_pos hpc] at hprompts
    have hpend : d.pending = false := by
      by_contra hne
      have hnext := h.pending (by simpa using hne)
      rw [hcomp.place] at hnext
      cases hnext
    rw [hcomp.place, hpend] at hcaches
    simp only [DecodePc.due, Bool.toNat_false] at hcaches
    have hwrites : d.log.writes = [] :=
      List.eq_nil_of_length_eq_zero (by rw [h.log, hcomp.inflight]; rfl)
    refine ⟨⟨b', rfl, hsize'.trans hsize, hcuda'⟩, ?_, h.caches, h.pending, ?_, h.log,
      fun _ => ⟨hchunks, ?_, ?_⟩, ?_, ?_, ?_, ?_⟩
    · simpa using hprompts
    · intro layers' hlast
      obtain rfl : layers = layers' := by simpa using hlast
      refine ⟨rfl, rfl, ?_⟩
      rw [hbytes, ← packedBytes_length]
      exact overlay_range _ _
    · simp only [hcomp.inflight, List.length_nil, List.range'_zero, List.map_nil, hwrites]
    · intro j hj
      have hj' : j < 0 - s.inflight.length := hj
      omega
    · simp only [Told, hcomp.place]
      exact .inr ⟨answer.json, by simp [hcomp.json], answer.json_lt, hmeta⟩
    · intro hc
      simp [Complete, hcomp.place, hpend] at hc
    · intro i layers' c hx hc
      have hi : i < d.rebuilt.length := (List.getElem?_eq_some_iff.mp hc).1
      refine h.rebuilt i layers' c ?_ hc
      rwa [List.getElem?_append_left (by omega)] at hx
    · simp only [List.length_append, List.length_singleton]
      omega
  · cases hd

/-- Decode rebuilds the cache of the last forward pass. -/
theorem reconstruct (hapi : api.Lawful) (hi : s.Inv m.cfg) (h : CacheInv api m s d)
    (hp : d.pending = true) :
    CacheInv api m s { d with
      pending := false, rebuilt := d.rebuilt ++ [ServerModel.reconstruct api d] } := by
  have hpc := h.pending hp
  obtain ⟨hlevel, hne⟩ := hi.level hpc
  have hcaches := h.caches
  have hprompts := h.prompts
  have htold := h.told
  rw [hpc, hp] at hcaches
  rw [if_neg hne] at hprompts
  rw [Told, hpc] at htold
  simp only [DecodePc.due, Bool.toNat_true] at hcaches
  obtain ⟨htotal, hentries⟩ := htold hp
  refine ⟨h.staging, h.prompts, ?_, fun hf => (by cases hf), h.source, h.log, fun hin => ?_, ?_,
    fun hc => ?_, fun i layers c hx hc hr => ?_, ?_⟩
  · rw [hpc]
    simp only [DecodePc.due, Bool.toNat_false, List.length_append, List.length_singleton]
    omega
  · obtain ⟨h1, h2, h3⟩ := h.flow hin
    exact ⟨h1, h2, h3⟩
  · rw [Told, hpc]
    exact fun hf => (by cases hf)
  · simp [Complete, hpc] at hc
  · rcases Nat.lt_or_ge i d.rebuilt.length with hlt | hge
    · rw [List.getElem?_append_left hlt] at hc
      exact h.rebuilt i layers c hx hc hr
    · have hil : i < d.extracted.length := (List.getElem?_eq_some_iff.mp hx).1
      obtain rfl : i = d.rebuilt.length := by omega
      obtain rfl : ServerModel.reconstruct api d = c := by simpa using hc
      have hlast : d.extracted.getLast? = some layers := by
        rw [List.getLast?_eq_getElem?, show d.extracted.length - 1 = d.rebuilt.length by omega]
        exact hx
      obtain ⟨hsize, hmanifest, hsrc⟩ := h.source layers hlast
      refine reconstruct_rebuilds hapi hr ?_ (hentries.trans hmanifest)
      rw [htotal, ← hsrc]
      refine List.map_congr_left fun x hx => ?_
      exact h.complete (.inr (.inr hp)) x (List.mem_range.mp hx)
  · simp only [List.length_append, List.length_singleton]
    omega

/-- The bytes of the oldest write arrive with its completion. -/
theorem deliver (hi : s.Inv m.cfg) (h : CacheInv api m s d) {w : KvWrite} {rest : List KvWrite}
    (hfl : s.inflight = w :: rest) (n : Nat) :
    CacheInv api m { s with recvPosted := n, inflight := rest, cq := s.cq ++ [w] }
      { d with log := d.log.deliver d.src } := by
  have hlog := h.log
  have hwrites := DataLog.writes_deliver d.src d.log
  rw [hfl, List.length_cons] at hlog
  have hdst {x : Nat} (hx : d.log.dst x = d.src x) : (d.log.deliver d.src).dst x = d.src x := by
    rw [DataLog.deliver]
    split
    · exact hx
    · exact copyRange_of_eq hx _ _
  refine ⟨h.staging, h.prompts, h.caches, h.pending, h.source, ?_, fun hin => ?_, h.told,
    fun hc x hx => hdst (h.complete hc x hx), h.rebuilt, h.ahead⟩
  · rw [hwrites, List.length_tail]
    exact Nat.sub_eq_of_eq_add hlog
  · obtain ⟨p, r, c, ht⟩ := hi.transfer hin
    have hflight := ht.flight_add
    rw [← ht.numPosted, hfl, List.length_cons] at hflight
    obtain ⟨hchunks, hw, hplaced⟩ := h.flow hin
    rw [hfl, List.length_cons] at hw hplaced
    have hnext : s.numPosted - (rest.length + 1) + 1 = s.numPosted - rest.length := by omega
    rw [List.range'_succ, List.map_cons, hnext] at hw
    have hnew : d.log.deliver d.src =
        ⟨(List.range' (s.numPosted - rest.length) rest.length).map (m.write d.packed),
          copyRange d.src d.log.dst (m.write d.packed (s.numPosted - (rest.length + 1))).1
            (m.write d.packed (s.numPosted - (rest.length + 1))).2⟩ := by
      rw [DataLog.deliver, hw]
    refine ⟨hchunks, by rw [hnew]; rfl, fun j hj x hlo hhi => ?_⟩
    have hj' : j < s.numPosted - rest.length := hj
    rcases Nat.lt_or_eq_of_le (show j ≤ s.numPosted - (rest.length + 1) by omega) with hj | rfl
    · exact hdst (hplaced j hj x hlo hhi)
    · rw [hnew]
      exact copyRange_inside _ _ ⟨hlo, hhi⟩

end CacheInv

/-! ## Every run -/

namespace ServerModel

/-- Each step is one of the servers, or decode's reconstruction. -/
theorem cacheStep_srv {a : CacheAct m.cfg.loads} (hs : cacheStep api m (s, d) a = some (s', d')) :
    s' = s ∨ ∃ b, m.cfg.srvStep s b = some s' := by
  cases a with
  | prefill | deliverWrite | deliverUp | deliverDown =>
    simp only [cacheStep, Option.map_eq_some_iff, Prod.mk.injEq] at hs
    obtain ⟨t, hs, rfl, -⟩ := hs
    exact .inr ⟨_, hs⟩
  | compute layers answer =>
    simp only [cacheStep] at hs
    split at hs <;> cases hs
    rename_i hs _
    exact .inr ⟨_, hs⟩
  | decode =>
    simp only [cacheStep, Option.ite_none_left_eq_some, Option.map_eq_some_iff,
      Prod.mk.injEq] at hs
    obtain ⟨-, t, hs, rfl, -⟩ := hs
    exact .inr ⟨_, hs⟩
  | reconstruct =>
    simp only [cacheStep, Option.ite_none_right_eq_some, Option.some.injEq, Prod.mk.injEq] at hs
    exact .inl hs.2.1.symm

/-- The servers do with their buffers what they do without. -/
theorem srv_reachable (h : (m.cacheSys api src dst).Reachable (s, d)) :
    m.cfg.srvSys.Reachable s := by
  have hsteps : m.cfg.srvSys.Steps (fun _ _ => True)
      (m.cacheSys api src dst).init.1 (s, d).1 := by
    refine Sys.Steps.project Prod.fst ?_ h
    rintro ⟨s, d⟩ a ⟨s', d'⟩ - hs
    exact (cacheStep_srv hs).imp_right fun ⟨b, hb⟩ => ⟨b, trivial, hb⟩
  exact hsteps

theorem cacheInv_step (hapi : api.Lawful) (hi : s.Inv m.cfg) (h : CacheInv api m s d)
    {a : CacheAct m.cfg.loads} (hs : cacheStep api m (s, d) a = some (s', d')) :
    CacheInv api m s' d' := by
  cases a with
  | prefill =>
    simp only [cacheStep, Option.map_eq_some_iff, Prod.mk.injEq] at hs
    obtain ⟨t, hs, rfl, rfl⟩ := hs
    exact h.prefill hi hs
  | compute layers answer =>
    simp only [cacheStep] at hs
    split at hs <;> cases hs
    rename_i hs hd
    exact h.compute hi hd hs
  | decode =>
    simp only [cacheStep, Option.ite_none_left_eq_some, Option.map_eq_some_iff,
      Prod.mk.injEq] at hs
    obtain ⟨hp, t, hs, rfl, rfl⟩ := hs
    exact h.decode hi (by simpa using hp) hs
  | reconstruct =>
    simp only [cacheStep, Option.ite_none_right_eq_some, Option.some.injEq, Prod.mk.injEq] at hs
    obtain ⟨hp, rfl, rfl⟩ := hs
    exact h.reconstruct hapi hi hp
  | deliverWrite =>
    simp only [cacheStep, Option.map_eq_some_iff, Prod.mk.injEq] at hs
    obtain ⟨t, hs, rfl, rfl⟩ := hs
    simp only [ServerConfig.srvStep] at hs
    split at hs
    · cases hs
    · rename_i w rest hfl
      split at hs <;> cases hs
      exact h.deliver hi hfl _
  | deliverUp =>
    simp only [cacheStep, Option.map_eq_some_iff, Prod.mk.injEq] at hs
    obtain ⟨t, hs, rfl, rfl⟩ := hs
    obtain ⟨up, -, rfl⟩ := Option.map_eq_some_iff.mp hs
    exact ⟨h.staging, h.prompts, h.caches, h.pending, h.source, h.log,
      fun hin => ⟨(h.flow hin).chunks, (h.flow hin).writes, (h.flow hin).placed⟩, h.told,
      h.complete, h.rebuilt, h.ahead⟩
  | deliverDown =>
    simp only [cacheStep, Option.map_eq_some_iff, Prod.mk.injEq] at hs
    obtain ⟨t, hs, rfl, rfl⟩ := hs
    obtain ⟨down, hd, rfl⟩ := Option.map_eq_some_iff.mp hs
    have htold : Told m { s with down := down } d := by
      have ht := h.told
      rw [Told] at ht ⊢
      rw [(Stream.unread_deliver hd).1]
      exact ht
    exact ⟨h.staging, h.prompts, h.caches, h.pending, h.source, h.log,
      fun hin => ⟨(h.flow hin).chunks, (h.flow hin).writes, (h.flow hin).placed⟩, htold,
      h.complete, h.rebuilt, h.ahead⟩

theorem cacheInv (hapi : api.Lawful) (h : (m.cacheSys api src dst).Reachable (s, d)) :
    CacheInv api m s d := by
  refine Sys.ReachableWith.invariant₂ (S := m.cacheSys api src dst)
    (I := fun x => x.1.Inv m.cfg) (J := fun x => CacheInv api m x.1 x.2) ?_ ?_ ?_ h
  · rintro ⟨s, d⟩ hr
    exact srvInv (srv_reachable hr)
  · refine ⟨⟨m.staging, rfl, rfl, m.isCuda⟩, rfl, rfl, fun hf => (by cases hf),
      fun layers hf => (by cases hf), rfl, fun hf => False.elim hf, trivial, fun hc => ?_,
      fun i layers c hf => (by cases hf), Nat.le_refl _, Nat.zero_le _⟩
    intro x hx
    exact absurd hx (Nat.not_lt_zero _)
  · rintro ⟨s, d⟩ a ⟨s', d'⟩ hi h - hs
    exact cacheInv_step hapi hi h hs

end ServerModel

/-- **The caches come through.** In every run of the two servers decode rebuilds one cache for each
prompt, in order, and is at most one forward pass behind; each cache has, tensor for tensor, the
layers that prefill extracted for that prompt. -/
theorem caches_rebuilt (hapi : api.Lawful) (m : ServerModel) (src dst : Memory) (s : SrvSt)
    (d : ServerData C) (h : (m.cacheSys api src dst).Reachable (s, d)) :
    d.rebuilt.length ≤ d.extracted.length ∧ d.extracted.length ≤ d.rebuilt.length + 1 ∧
      (s.decode = .nextPrompt → d.pending = false → d.rebuilt.length = s.decodePrompt) ∧
      ∀ (i : Nat) layers c, d.extracted[i]? = some layers → d.rebuilt[i]? = some c →
        Rebuildable layers → Rebuilds api layers c := by
  have hinv := ServerModel.cacheInv hapi h
  refine ⟨hinv.ahead.1, hinv.ahead.2, fun hpc hp => ?_, hinv.rebuilt⟩
  have hcaches := hinv.caches
  rwa [hpc, hp] at hcaches

end Caches

/-- The manifest of `byteLayer` in one chunk, as `json.dumps` writes it. -/
def byteLayerJson : List (BitVec 8) :=
  [123, 34, 109, 97, 110, 105, 102, 101, 115, 116, 34, 58, 32, 91, 123, 34, 108, 97, 121, 101,
    114, 34, 58, 32, 48, 44, 32, 34, 107, 95, 111, 102, 102, 115, 101, 116, 34, 58, 32, 48, 44,
    32, 34, 107, 95, 115, 105, 122, 101, 34, 58, 32, 50, 44, 32, 34, 118, 95, 111, 102, 102, 115,
    101, 116, 34, 58, 32, 50, 44, 32, 34, 118, 95, 115, 105, 122, 101, 34, 58, 32, 50, 44, 32, 34,
    115, 104, 97, 112, 101, 34, 58, 32, 91, 49, 44, 32, 49, 44, 32, 49, 44, 32, 50, 93, 44, 32,
    34, 100, 116, 121, 112, 101, 34, 58, 32, 34, 116, 111, 114, 99, 104, 46, 117, 105, 110, 116,
    56, 34, 125, 93, 44, 32, 34, 102, 105, 114, 115, 116, 95, 116, 111, 107, 101, 110, 95, 105,
    100, 34, 58, 32, 49, 44, 32, 34, 115, 101, 113, 95, 108, 101, 110, 34, 58, 32, 49, 44, 32, 34,
    110, 117, 109, 95, 108, 97, 121, 101, 114, 115, 34, 58, 32, 49, 44, 32, 34, 116, 111, 116, 97,
    108, 95, 98, 121, 116, 101, 115, 34, 58, 32, 52, 44, 32, 34, 110, 117, 109, 95, 99, 104, 117,
    110, 107, 115, 34, 58, 32, 49, 44, 32, 34, 99, 104, 117, 110, 107, 95, 115, 105, 122, 101, 34,
    58, 32, 52, 125]

/-- A staging buffer of eight bytes, and the prompt "?". -/
def byteModel : ServerModel where
  cfg :=
    { creditWindow := 1, prompts := onePrompt.prompts
      loads := fun json => if json = byteLayerJson then 1 else 0 }
  chunkSize := 4
  chunk_pos := by decide
  staging := bufferOf (List.replicate 8 0)
  isCuda := rfl
  loadsMeta := fun json =>
    if json = byteLayerJson then (4, manifestOf 0 0 [byteLayer]) else (0, [])

def byteAnswer : Manifest byteModel.cfg.loads :=
  { json := byteLayerJson, numChunks := 1, json_lt := by decide +kernel
    loads_json := by decide +kernel }

/-- The prompt, its answer, one chunk and the sentinel, and the cache. -/
def byteRun : List (CacheAct byteModel.cfg.loads) :=
  List.replicate 6 .decode ++ List.replicate 6 .deliverUp ++ List.replicate 6 .prefill ++
    [.compute [byteLayer] byteAnswer] ++ List.replicate 4 .prefill ++ [.deliverWrite, .prefill] ++
    [.prefill, .deliverWrite] ++ List.replicate (4 + byteLayerJson.length) .deliverDown ++
    List.replicate 12 .decode ++ [.reconstruct]

theorem tensors_injective : Function.Injective KvLayer.tensors := by
  rintro ⟨⟨k, _, _, _⟩, ⟨v, _, _, _⟩, _⟩ ⟨⟨k', _, _, _⟩, ⟨v', _, _, _⟩, _⟩ h
  obtain ⟨rfl, rfl⟩ := Prod.mk.inj h
  rfl

theorem caches_rebuilt_byte : ∃ s d c,
    (byteModel.cacheSys listCache (fun _ => 9) fun _ => 9).Reachable (s, d) ∧
      d.rebuilt = [c] ∧ Rebuilds listCache [byteLayer] c := by
  obtain ⟨⟨s, d⟩, hr, hone, hlayers⟩ : ∃ x : SrvSt × ServerData (List (Tensor × Tensor)),
      (byteModel.cacheSys listCache (fun _ => 9) fun _ => 9).Reachable x ∧
        x.2.rebuilt.length = 1 ∧
        x.2.extracted.map (List.map KvLayer.tensors) = [[byteLayer].map KvLayer.tensors] :=
    Sys.exists_of_exec byteRun (by decide +kernel)
  have hextracted : d.extracted = [[byteLayer]] :=
    List.map_injective_iff.mpr (List.map_injective_iff.mpr tensors_injective) hlayers
  obtain ⟨c, hc⟩ : ∃ c, d.rebuilt = [c] := List.length_eq_one_iff.mp hone
  obtain ⟨-, -, -, hall⟩ := caches_rebuilt listCache_lawful byteModel _ _ s d hr
  refine ⟨s, d, c, hr, hc, hall 0 _ c (by rw [hextracted]; rfl) (by rw [hc]; rfl) ?_⟩
  refine ⟨by decide, fun l hl => ?_, rfl, trivial⟩
  obtain rfl := List.mem_singleton.mp hl
  rfl

end Dmaplane
