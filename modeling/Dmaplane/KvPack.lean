import Dmaplane.KvTensor
import Dmaplane.Lib.Chunks

/-!
# Dmaplane.KvPack

The KVCache on its way between the two inference servers: `consolidate_kvcache` packs the layers
into a staging buffer, `prefill_server.py` writes the packed bytes in chunks into the landing
buffer, `reconstruct_kvcache_zero_copy` makes views of it by the manifest.

* `KvTensor`, `KvLayer`: what `extract_kvcache` returns, contiguous four-dimensional tensors.
* The manifest has one shape a layer, that of K, and `view(dtype)` needs offsets that are multiples
  of the element size: `KvLayer.OneShape` and `Aligned`.
-/

namespace Dmaplane

open Paged Strided

structure KvEntry where
  layer : Nat
  kOffset : Nat
  kSize : Nat
  vOffset : Nat
  vSize : Nat
  shape : List Nat
  dtype : Dtype
  deriving DecidableEq

/-- `staging_buf[offset:offset + n].copy_(t.view(-1).view(torch.uint8))`. -/
def packTensor (stagingBuf : Tensor) (offset : Nat) (t : Tensor) : Except PyErr Tensor := do
  let flat ← t.viewFlat
  let flat ← flat.viewDtype .uint8
  let dst ← (stagingBuf.narrow offset (offset + t.nbytes)).copy_ flat
  return { stagingBuf with storage := dst.storage }

/-- The loop of `consolidate_kvcache`, from layer `i` on. -/
def consolidateLoop (stagingBuf : Tensor) (i offset : Nat) :
    List (Tensor × Tensor) → Except PyErr (Tensor × Nat × List KvEntry)
  | [] => return (stagingBuf, offset, [])
  | (k, v) :: layers => do
    let stagingBuf ← packTensor stagingBuf offset k
    let kOffset := offset
    let offset := offset + k.nbytes
    let stagingBuf ← packTensor stagingBuf offset v
    let vOffset := offset
    let offset := offset + v.nbytes
    let (stagingBuf, total, manifest) ← consolidateLoop stagingBuf (i + 1) offset layers
    return (stagingBuf, total, ⟨i, kOffset, k.nbytes, vOffset, v.nbytes, k.shape, k.dtype⟩ :: manifest)

/-- `consolidate_kvcache`: the staging buffer, the number of bytes packed and the manifest. -/
def consolidateKvcache (layers : List (Tensor × Tensor)) (stagingBuf : Tensor) :
    Except PyErr (Tensor × Nat × List KvEntry) :=
  if ¬ stagingBuf.isCuda then .error .assertionError
  else if ¬ stagingBuf.isContiguous then .error .assertionError
  else consolidateLoop stagingBuf 0 0 layers

/-- One of the two views of a layer. -/
def viewAt (recvBuf : Tensor) (offset size : Nat) (dtype : Dtype) (shape strides : List Nat) :
    Except PyErr Tensor := do
  let base := recvBuf.narrow offset (offset + size)
  let typed ← base.viewDtype dtype
  typed.asStrided shape strides

def reconstructEntry (recvBuf : Tensor) (entry : KvEntry) : Except PyErr (Tensor × Tensor) :=
  match entry.shape with
  | [_, heads, seqLen, headDim] => do
    let strides := [heads * seqLen * headDim, seqLen * headDim, headDim, 1]
    let k ← viewAt recvBuf entry.kOffset entry.kSize entry.dtype entry.shape strides
    let v ← viewAt recvBuf entry.vOffset entry.vSize entry.dtype entry.shape strides
    return (k, v)
  | _ => .error .valueError

/-- `transformers.DynamicCache`. -/
structure DynamicCache (C : Type) where
  new : C
  len : C → Nat
  update : C → Tensor → Tensor → Nat → C
  layers : C → List (Tensor × Tensor)

/-- A new cache has no layers; `update` at the index `len` adds a layer with these states. -/
structure DynamicCache.Lawful {C : Type} (api : DynamicCache C) : Prop where
  layers_new : api.layers api.new = []
  len_eq : ∀ c, api.len c = (api.layers c).length
  layers_update : ∀ c k v, ∃ k' v', k.Same k' ∧ v.Same v' ∧
    api.layers (api.update c k v (api.len c)) = api.layers c ++ [(k', v')]

/-- `reconstruct_kvcache_zero_copy`. -/
def reconstructKvcache {C : Type} (api : DynamicCache C) (recvBuf : Tensor)
    (manifest : List KvEntry) : Except PyErr C := do
  let layers ← manifest.mapM (reconstructEntry recvBuf)
  return layers.foldl (fun cache kv => api.update cache kv.1 kv.2 (api.len cache)) api.new

/-- The WRITEIMM loop of `prefill_server.py`: chunk `i` of the packed bytes goes to its offset in
the landing buffer. The chunks arrive in the order `order`. -/
def deliver (packed : List (BitVec 8)) (chunkSize : Nat) (order : List Nat) (recvBuf : Tensor) :
    Tensor :=
  { recvBuf with
    storage := Chunks.writeChunks chunkSize recvBuf.offset packed order recvBuf.storage }

/-! ## Buffers and layers -/

/-- A one-dimensional byte tensor with its storage: a staging or a landing buffer. -/
structure ByteBuffer where
  tensor : Tensor
  size : Nat
  dtype : tensor.dtype = .uint8
  shape : tensor.shape = [size]
  strides : tensor.strides = [1]
  inStorage : tensor.offset + size ≤ tensor.storage.length

/-- The bytes `[off, off + n)` of a buffer. -/
def Tensor.bytesAt (t : Tensor) (off n : Nat) : List (BitVec 8) := slice t.storage (t.offset + off) n

/-- What `extract_kvcache` returns for K and for V. -/
structure KvTensor where
  tensor : Tensor
  contiguous : tensor.isContiguous = true
  rank : tensor.shape.length = 4
  inStorage : tensor.nelement ≠ 0 →
    (tensor.offset + tensor.nelement) * tensor.elementSize ≤ tensor.storage.length

structure KvLayer where
  k : KvTensor
  v : KvTensor
  dtype : v.tensor.dtype = k.tensor.dtype

def KvLayer.tensors (l : KvLayer) : Tensor × Tensor := (l.k.tensor, l.v.tensor)

def KvLayer.nbytes (l : KvLayer) : Nat := l.k.tensor.nbytes + l.v.tensor.nbytes

def KvLayer.bytes (l : KvLayer) : List (BitVec 8) := l.k.tensor.bytes ++ l.v.tensor.bytes

/-- `kvcache_size_from_layers`. -/
def kvcacheSize (layers : List KvLayer) : Nat := (layers.map KvLayer.nbytes).sum

/-- The bytes of all layers, one after another. -/
def packedBytes (layers : List KvLayer) : List (BitVec 8) := layers.flatMap KvLayer.bytes

/-- K and V have the one shape that the manifest has room for. -/
def KvLayer.OneShape (l : KvLayer) : Prop := l.v.tensor.shape = l.k.tensor.shape

/-- Each layer begins at a multiple of its element size, if the first begins at `offset`. -/
def Aligned (offset : Nat) : List KvLayer → Prop
  | [] => True
  | l :: layers =>
    offset % l.k.tensor.elementSize = 0 ∧ Aligned (offset + l.nbytes) layers

/-- The manifest of the layers from number `i` on, packed from `offset` on. -/
def manifestOf (i offset : Nat) : List KvLayer → List KvEntry
  | [] => []
  | l :: layers =>
    ⟨i, offset, l.k.tensor.nbytes, offset + l.k.tensor.nbytes, l.v.tensor.nbytes,
      l.k.tensor.shape, l.k.tensor.dtype⟩ :: manifestOf (i + 1) (offset + l.nbytes) layers

/-- The two intervals of a layer. -/
def KvEntry.intervals (e : KvEntry) : List (Nat × Nat) :=
  [(e.kOffset, e.kSize), (e.vOffset, e.vSize)]

theorem manifestOf_consecutive (layers : List KvLayer) (i offset : Nat) :
    Chunks.Consecutive offset ((manifestOf i offset layers).flatMap KvEntry.intervals)
      (offset + kvcacheSize layers) := by
  induction layers generalizing i offset with
  | nil => rfl
  | cons l layers ih =>
    have h := ih (i + 1) (offset + l.nbytes)
    have hsize : offset + l.nbytes + kvcacheSize layers = offset + kvcacheSize (l :: layers) := by
      simp [kvcacheSize, Nat.add_assoc]
    rw [hsize] at h
    exact ⟨rfl, rfl, by rw [Nat.add_assoc]; exact h⟩

/-! ## Packing -/

theorem KvTensor.bytes_length (t : KvTensor) : t.tensor.bytes.length = t.tensor.nbytes := by
  by_cases h0 : t.tensor.nelement = 0
  · simp [Tensor.bytes, Tensor.nbytes, h0]
  · have h := t.inStorage h0
    rw [Nat.add_mul] at h
    exact slice_length h

theorem KvLayer.bytes_length (l : KvLayer) : l.bytes.length = l.nbytes := by
  rw [KvLayer.bytes, List.length_append, l.k.bytes_length, l.v.bytes_length, KvLayer.nbytes]

theorem packedBytes_length (layers : List KvLayer) :
    (packedBytes layers).length = kvcacheSize layers := by
  induction layers with
  | nil => rfl
  | cons l layers ih =>
    have h : packedBytes (l :: layers) = l.bytes ++ packedBytes layers := rfl
    rw [h, List.length_append, ih, l.bytes_length, kvcacheSize, kvcacheSize, List.map_cons,
      List.sum_cons]

/-- The flat view of the bytes of a contiguous tensor. -/
def Tensor.byteView (t : Tensor) : Tensor :=
  { t with dtype := .uint8, offset := t.offset * t.elementSize, shape := [t.nbytes], strides := [1] }

theorem byteView_bytes (t : Tensor) : t.byteView.bytes = t.bytes := by
  simp [Tensor.byteView, Tensor.bytes, Tensor.nbytes, Tensor.nelement, Tensor.elementSize,
    Dtype.elementSize]

theorem viewFlat_eq {t : Tensor} (hc : t.isContiguous = true) :
    t.viewFlat = .ok { t with shape := [t.nelement], strides := [1] } := by
  simp [Tensor.viewFlat, hc]

theorem viewDtype_uint8 (t : Tensor) :
    ({ t with shape := [t.nelement], strides := [1] } : Tensor).viewDtype .uint8 =
      .ok t.byteView := by
  have hpos := t.dtype.elementSize_pos
  have h1 : Dtype.uint8.elementSize = 1 := rfl
  simp only [Tensor.viewDtype, Tensor.elementSize, h1]
  by_cases hes : 1 = t.dtype.elementSize
  · simp [Tensor.byteView, Tensor.nbytes, Tensor.elementSize, ← hes]
  · have hlt : 1 < t.dtype.elementSize := by omega
    simp [hes, hlt, Tensor.byteView, Tensor.nbytes, Tensor.elementSize]

section Pack

variable {b : Tensor} {size : Nat}

theorem narrow_eq (hs : b.shape = [size]) (hst : b.strides = [1]) {off n : Nat}
    (hfit : off + n ≤ size) :
    b.narrow off (off + n) = { b with offset := b.offset + off, shape := [n] } := by
  have h1 : min off size = off := by omega
  have h2 : min (off + n) size - off = n := by omega
  simp [Tensor.narrow, hs, hst, h1, h2]

theorem packTensor_eq (hd : b.dtype = .uint8) (hs : b.shape = [size]) (hst : b.strides = [1])
    (offset : Nat) {t : Tensor} (hc : t.isContiguous = true) (hfit : offset + t.nbytes ≤ size) :
    packTensor b offset t =
      .ok { b with storage := splice b.storage (b.offset + offset) t.bytes } := by
  have hsrc : t.byteView.shape.prod = t.nbytes := by simp [Tensor.byteView]
  have hcopy : ({ b with offset := b.offset + offset, shape := [t.nbytes] } : Tensor).copy_
      t.byteView = .ok { b with
        offset := b.offset + offset
        shape := [t.nbytes]
        storage := splice b.storage (b.offset + offset) t.bytes } := by
    simp [Tensor.copy_, hsrc, Tensor.nelement, Tensor.elementSize, hd, byteView_bytes,
      Dtype.elementSize]
  simp [packTensor, viewFlat_eq hc, viewDtype_uint8, narrow_eq hs hst hfit, hcopy, bind,
    Except.bind, pure, Except.pure]

/-- `consolidate_kvcache`: the bytes of all layers lie one after another. -/
theorem consolidateLoop_eq (layers : List KvLayer) (hd : b.dtype = .uint8) (hs : b.shape = [size])
    (hst : b.strides = [1]) (hin : b.offset + size ≤ b.storage.length) (i offset : Nat)
    (hfit : offset + kvcacheSize layers ≤ size) :
    consolidateLoop b i offset (layers.map KvLayer.tensors) =
      .ok ({ b with storage := splice b.storage (b.offset + offset) (packedBytes layers) },
        offset + kvcacheSize layers, manifestOf i offset layers) := by
  induction layers generalizing b i offset with
  | nil => simp [consolidateLoop, packedBytes, kvcacheSize, manifestOf, pure, Except.pure]
  | cons l layers ih =>
    have hsize : kvcacheSize (l :: layers) =
        l.k.tensor.nbytes + l.v.tensor.nbytes + kvcacheSize layers := rfl
    have hkl := l.k.bytes_length
    have hvl := l.v.bytes_length
    have hk := packTensor_eq hd hs hst offset l.k.contiguous (by omega)
    have hv := packTensor_eq (b := { b with
      storage := splice b.storage (b.offset + offset) l.k.tensor.bytes }) hd hs hst
      (offset + l.k.tensor.nbytes) l.v.contiguous (by omega)
    -- K and V are one write, at `offset`
    have hkv : splice (splice b.storage (b.offset + offset) l.k.tensor.bytes)
        (b.offset + (offset + l.k.tensor.nbytes)) l.v.tensor.bytes =
          splice b.storage (b.offset + offset) l.bytes := by
      rw [← Nat.add_assoc, ← hkl, splice_append (by omega)]
      rfl
    rw [hkv] at hv
    have hrest := ih (b := { b with storage := splice b.storage (b.offset + offset) l.bytes })
      hd hs hst (by rw [splice_length (by rw [l.bytes_length, KvLayer.nbytes]; omega)]; exact hin)
      (i + 1) (offset + l.k.tensor.nbytes + l.v.tensor.nbytes) (by omega)
    -- and so are they with the layers that follow
    have hall : splice (splice b.storage (b.offset + offset) l.bytes)
        (b.offset + (offset + l.k.tensor.nbytes + l.v.tensor.nbytes)) (packedBytes layers) =
          splice b.storage (b.offset + offset) (packedBytes (l :: layers)) := by
      have hoff : b.offset + (offset + l.k.tensor.nbytes + l.v.tensor.nbytes) =
          b.offset + offset + l.bytes.length := by rw [l.bytes_length, KvLayer.nbytes]; omega
      rw [hoff, splice_append (by rw [l.bytes_length, packedBytes_length, KvLayer.nbytes]; omega)]
      rfl
    rw [hall] at hrest
    simp only [List.map_cons, KvLayer.tensors, consolidateLoop, hk, hv, bind, Except.bind]
    rw [hrest]
    simp only [pure, Except.pure, hsize, manifestOf, KvLayer.nbytes, Nat.add_assoc]

end Pack

/-! ## Views -/

section Views

variable {r : Tensor} {size : Nat}

/-- A view at a multiple of the element size has the bytes that lie there. -/
theorem viewAt_same (hd : r.dtype = .uint8) (hs : r.shape = [size]) (hst : r.strides = [1])
    (hin : r.offset + size ≤ r.storage.length) (off : Nat) (t : KvTensor)
    (hfit : off + t.tensor.nbytes ≤ size)
    (halign : (r.offset + off) % t.tensor.elementSize = 0)
    (hbytes : r.bytesAt off t.tensor.nbytes = t.tensor.bytes) :
    ∃ view, viewAt r off t.tensor.nbytes t.tensor.dtype t.tensor.shape
        (rowMajor t.tensor.shape) = .ok view ∧ t.tensor.Same view := by
  have hpos : 0 < t.tensor.elementSize := t.tensor.dtype.elementSize_pos
  have hmul : (r.offset + off) / t.tensor.elementSize * t.tensor.elementSize = r.offset + off :=
    Nat.div_mul_cancel (Nat.dvd_of_mod_eq_zero halign)
  let typed : Tensor := { r with
    dtype := t.tensor.dtype
    offset := (r.offset + off) / t.tensor.elementSize
    shape := [t.tensor.nelement] }
  let view : Tensor := { typed with
    shape := t.tensor.shape
    strides := rowMajor t.tensor.shape }
  have htyped : (r.narrow off (off + t.tensor.nbytes)).viewDtype t.tensor.dtype = .ok typed := by
    have h1 : Dtype.uint8.elementSize = 1 := rfl
    rw [narrow_eq hs hst hfit]
    simp only [Tensor.viewDtype, hst, Tensor.elementSize, hd, h1]
    by_cases hes : t.tensor.dtype.elementSize = 1
    · simp [hes, hst, typed, Tensor.elementSize, Tensor.nbytes]
    · have hnlt : ¬ t.tensor.dtype.elementSize < 1 := not_lt.mpr hpos
      rw [Tensor.elementSize] at halign
      simp [hes, hst, hnlt, typed, Tensor.elementSize, Tensor.nbytes, halign]
      exact Nat.mul_div_cancel _ hpos
  have hview : typed.asStrided t.tensor.shape (rowMajor t.tensor.shape) = .ok view := by
    have hok : t.tensor.shape.prod = 0 ∨ (typed.offset +
        farthest t.tensor.shape (rowMajor t.tensor.shape) + 1) * typed.elementSize ≤
          typed.storage.length := by
      by_cases h0 : t.tensor.shape.prod = 0
      · exact .inl h0
      · right
        show ((r.offset + off) / t.tensor.elementSize +
          farthest t.tensor.shape (rowMajor t.tensor.shape) + 1) * t.tensor.elementSize ≤
            r.storage.length
        rw [Nat.add_assoc, farthest_rowMajor h0, Nat.add_mul, hmul]
        have hn : t.tensor.nbytes = t.tensor.shape.prod * t.tensor.elementSize := rfl
        omega
    rw [Tensor.asStrided, if_pos hok]
  refine ⟨view, ?_, ?_⟩
  · simp only [viewAt, htyped, hview, bind, Except.bind]
  · have hvc : view.isContiguous = true := by
      simp [Tensor.isContiguous, view, contiguous_rowMajor]
    refine same_of_bytes t.contiguous hvc rfl rfl ?_
    rw [← hbytes]
    show slice r.storage ((r.offset + off) / t.tensor.elementSize * t.tensor.elementSize) _ = _
    rw [hmul]
    rfl

/-- The strides that `reconstruct_kvcache_zero_copy` computes. -/
theorem rowMajor_four (batch heads seqLen headDim : Nat) :
    rowMajor [batch, heads, seqLen, headDim] =
      [heads * seqLen * headDim, seqLen * headDim, headDim, 1] := by
  simp [rowMajor, Nat.mul_assoc]

theorem reconstructEntry_same (hd : r.dtype = .uint8) (hs : r.shape = [size])
    (hst : r.strides = [1]) (hin : r.offset + size ≤ r.storage.length) {i off : Nat} (l : KvLayer)
    (hfit : off + l.nbytes ≤ size) (hshape : l.OneShape)
    (halign : (r.offset + off) % l.k.tensor.elementSize = 0)
    (hk : r.bytesAt off l.k.tensor.nbytes = l.k.tensor.bytes)
    (hv : r.bytesAt (off + l.k.tensor.nbytes) l.v.tensor.nbytes = l.v.tensor.bytes) :
    ∃ kv, reconstructEntry r ⟨i, off, l.k.tensor.nbytes, off + l.k.tensor.nbytes,
        l.v.tensor.nbytes, l.k.tensor.shape, l.k.tensor.dtype⟩ = .ok kv ∧
      l.k.tensor.Same kv.1 ∧ l.v.tensor.Same kv.2 := by
  have hsize : l.nbytes = l.k.tensor.nbytes + l.v.tensor.nbytes := rfl
  have hes : l.v.tensor.elementSize = l.k.tensor.elementSize := by
    rw [Tensor.elementSize, Tensor.elementSize, l.dtype]
  -- V begins a whole number of elements after K
  have halignV : (r.offset + (off + l.k.tensor.nbytes)) % l.v.tensor.elementSize = 0 := by
    rw [hes, ← Nat.add_assoc, Tensor.nbytes, Nat.add_mul_mod_self_right]
    exact halign
  obtain ⟨k, hko, hks⟩ := viewAt_same hd hs hst hin off l.k (by omega) halign hk
  obtain ⟨v, hvo, hvs⟩ := viewAt_same hd hs hst hin (off + l.k.tensor.nbytes) l.v
    (by omega) halignV hv
  refine ⟨(k, v), ?_, hks, hvs⟩
  rw [hshape, l.dtype] at hvo
  have hrank := l.k.rank
  generalize l.k.tensor.shape = shape at hko hvo hrank ⊢
  obtain ⟨batch, heads, seqLen, headDim, rfl⟩ := List.length_eq_four.mp hrank
  rw [rowMajor_four] at hko hvo
  simp only [reconstructEntry, hko, hvo, bind, Except.bind, pure, Except.pure]

/-- Memory that holds the packed layers holds K and V of the first and then the others. -/
theorem bytesAt_cons (hin : r.offset + size ≤ r.storage.length) {off : Nat} {l : KvLayer}
    {layers : List KvLayer} (hfit : off + kvcacheSize (l :: layers) ≤ size)
    (hbytes : r.bytesAt off (kvcacheSize (l :: layers)) = packedBytes (l :: layers)) :
    r.bytesAt off l.k.tensor.nbytes = l.k.tensor.bytes ∧
      r.bytesAt (off + l.k.tensor.nbytes) l.v.tensor.nbytes = l.v.tensor.bytes ∧
      r.bytesAt (off + l.nbytes) (kvcacheSize layers) = packedBytes layers := by
  have hsize : kvcacheSize (l :: layers) = l.nbytes + kvcacheSize layers := rfl
  have hn : l.nbytes = l.k.tensor.nbytes + l.v.tensor.nbytes := rfl
  have hpacked : packedBytes (l :: layers) = l.bytes ++ packedBytes layers := rfl
  rw [Tensor.bytesAt, hsize, hpacked] at hbytes
  obtain ⟨hl, hrest⟩ := slice_eq_append l.bytes_length (by omega) hbytes
  rw [KvLayer.bytes, hn] at hl
  obtain ⟨hk, hv⟩ := slice_eq_append l.k.bytes_length (by omega) hl
  rw [Nat.add_assoc] at hv hrest
  exact ⟨hk, hv, hrest⟩

/-- Each entry of the manifest says where its layer lies. -/
theorem manifestOf_bytes (hin : r.offset + size ≤ r.storage.length) (layers : List KvLayer) :
    ∀ (i off : Nat), off + kvcacheSize layers ≤ size →
      r.bytesAt off (kvcacheSize layers) = packedBytes layers →
      List.Forall₂ (fun l e => r.bytesAt e.kOffset e.kSize = l.k.tensor.bytes ∧
        r.bytesAt e.vOffset e.vSize = l.v.tensor.bytes) layers (manifestOf i off layers) := by
  induction layers with
  | nil => intro i off _ _; exact List.Forall₂.nil
  | cons l layers ih =>
    intro i off hfit hbytes
    have hsize : kvcacheSize (l :: layers) = l.nbytes + kvcacheSize layers := rfl
    obtain ⟨hk, hv, hrest⟩ := bytesAt_cons hin hfit hbytes
    exact List.Forall₂.cons ⟨hk, hv⟩ (ih (i + 1) (off + l.nbytes) (by omega) hrest)

/-- The views of all layers, in order. -/
theorem mapM_reconstructEntry (hd : r.dtype = .uint8) (hs : r.shape = [size])
    (hst : r.strides = [1]) (hin : r.offset + size ≤ r.storage.length) (layers : List KvLayer) :
    ∀ (i off : Nat), off + kvcacheSize layers ≤ size → (∀ l ∈ layers, l.OneShape) →
      Aligned (r.offset + off) layers →
      r.bytesAt off (kvcacheSize layers) = packedBytes layers →
      ∃ kvs, (manifestOf i off layers).mapM (reconstructEntry r) = .ok kvs ∧
        List.Forall₂ (fun l kv => l.k.tensor.Same kv.1 ∧ l.v.tensor.Same kv.2) layers kvs := by
  induction layers with
  | nil => intro i off _ _ _ _; exact ⟨[], rfl, List.Forall₂.nil⟩
  | cons l layers ih =>
    intro i off hfit hshape halign hbytes
    have hsize : kvcacheSize (l :: layers) = l.nbytes + kvcacheSize layers := rfl
    obtain ⟨hk, hv, hrest⟩ := bytesAt_cons hin hfit hbytes
    obtain ⟨kv, hkv, hsame⟩ := reconstructEntry_same (i := i) hd hs hst hin l (by omega)
      (hshape l List.mem_cons_self) halign.1 hk hv
    have halign' : Aligned (r.offset + (off + l.nbytes)) layers := by
      rw [← Nat.add_assoc]
      exact halign.2
    obtain ⟨kvs, hkvs, hall⟩ := ih (i + 1) (off + l.nbytes) (by omega)
      (fun m hm => hshape m (List.mem_cons_of_mem _ hm)) halign' hrest
    refine ⟨kv :: kvs, ?_, List.Forall₂.cons hsame hall⟩
    simp only [manifestOf, List.mapM_cons, hkv, hkvs, bind, Except.bind, pure, Except.pure]

end Views

/-- `cache.update` layer by layer keeps the layers, in order. -/
theorem foldl_update {C : Type} {api : DynamicCache C} (hapi : api.Lawful) (layers : List KvLayer) :
    ∀ (done : List KvLayer) (c : C) (kvs : List (Tensor × Tensor)),
      List.Forall₂ (fun l kv => l.k.tensor.Same kv.1 ∧ l.v.tensor.Same kv.2) layers kvs →
      List.Forall₂ (fun l kv => l.k.tensor.Same kv.1 ∧ l.v.tensor.Same kv.2) done
        (api.layers c) →
      List.Forall₂ (fun l kv => l.k.tensor.Same kv.1 ∧ l.v.tensor.Same kv.2) (done ++ layers)
        (api.layers (kvs.foldl
          (fun cache kv => api.update cache kv.1 kv.2 (api.len cache)) c)) := by
  induction layers with
  | nil =>
    intro done c kvs hkvs hdone
    cases hkvs
    simpa using hdone
  | cons l layers ih =>
    intro done c kvs hkvs hdone
    cases hkvs with
    | @cons _ kv _ kvs hsame hrest =>
      obtain ⟨k', v', hk', hv', hupd⟩ := hapi.layers_update c kv.1 kv.2
      have hnext := ih (done ++ [l]) (api.update c kv.1 kv.2 (api.len c)) kvs hrest (by
        rw [hupd]
        exact List.rel_append hdone
          (List.Forall₂.cons ⟨hsame.1.trans hk', hsame.2.trans hv'⟩ List.Forall₂.nil))
      simpa using hnext

/-! ## The whole way -/

/-- **The transfer is the identity.** The layers are packed one after another, the chunks cover
every packed byte once, and, delivered in whatever order, they reconstruct to the same tensors, if
K and V of each layer have one shape and every layer begins at a multiple of its element size. -/
theorem kvcache_transfer_identity {C : Type} {api : DynamicCache C} (hapi : api.Lawful)
    (layers : List KvLayer) (staging landing : ByteBuffer) (hcuda : staging.tensor.isCuda = true)
    (hstaging : kvcacheSize layers ≤ staging.size) (hlanding : kvcacheSize layers ≤ landing.size)
    {chunkSize : Nat} (hchunk : 0 < chunkSize) :
    ∃ staging' manifest,
      consolidateKvcache (layers.map KvLayer.tensors) staging.tensor =
        .ok (staging', kvcacheSize layers, manifest) ∧
      Chunks.Consecutive 0 (manifest.flatMap KvEntry.intervals) (kvcacheSize layers) ∧
      List.Forall₂ (fun l e => staging'.bytesAt e.kOffset e.kSize = l.k.tensor.bytes ∧
        staging'.bytesAt e.vOffset e.vSize = l.v.tensor.bytes) layers manifest ∧
      (∀ b, b < kvcacheSize layers →
        ∃! i, i < Chunks.count (kvcacheSize layers) chunkSize ∧ i * chunkSize ≤ b ∧
          b < i * chunkSize + Chunks.len (kvcacheSize layers) chunkSize i) ∧
      ∀ order, order.Perm (List.range (Chunks.count (kvcacheSize layers) chunkSize)) →
        (∀ l ∈ layers, l.OneShape) → Aligned landing.tensor.offset layers →
        ∃ cache, reconstructKvcache api (deliver (staging'.bytesAt 0 (kvcacheSize layers))
            chunkSize order landing.tensor) manifest = .ok cache ∧
          List.Forall₂ (fun l kv => l.k.tensor.Same kv.1 ∧ l.v.tensor.Same kv.2) layers
            (api.layers cache) := by
  have hlen := packedBytes_length layers
  have hcontig : staging.tensor.isContiguous = true := by
    simp [Tensor.isContiguous, staging.shape, staging.strides, contiguous]
  have hpack := consolidateLoop_eq layers staging.dtype staging.shape staging.strides
    staging.inStorage 0 0 (by omega)
  rw [Nat.zero_add, Nat.add_zero] at hpack
  have hfit : staging.tensor.offset + (packedBytes layers).length ≤
      staging.tensor.storage.length := by
    have := staging.inStorage
    omega
  have hstaged : Tensor.bytesAt { staging.tensor with
      storage := splice staging.tensor.storage staging.tensor.offset (packedBytes layers) }
        0 (kvcacheSize layers) = packedBytes layers := by
    rw [Tensor.bytesAt, ← hlen]
    exact slice_splice _ _ _ hfit
  refine ⟨{ staging.tensor with
      storage := splice staging.tensor.storage staging.tensor.offset (packedBytes layers) },
    manifestOf 0 0 layers, ?_, ?_, ?_, ?_, ?_⟩
  · rw [consolidateKvcache, if_neg (by simp [hcuda]), if_neg (by simp [hcontig])]
    exact hpack
  · have h := manifestOf_consecutive layers 0 0
    rwa [Nat.zero_add] at h
  · have hroom : 0 + kvcacheSize layers ≤ staging.size := by omega
    refine manifestOf_bytes ?_ layers 0 0 hroom hstaged
    show _ ≤ (splice _ _ _).length
    rw [splice_length hfit]
    exact staging.inStorage
  · intro b hb
    exact Chunks.exists_unique_chunk hchunk hb
  · intro order horder hshape halign
    rw [hstaged]
    have hmem : ∀ i, i ∈ order ↔ i < Chunks.count (packedBytes layers).length chunkSize := by
      intro i
      rw [horder.mem_iff, List.mem_range, hlen]
    have hland : landing.tensor.offset + (packedBytes layers).length ≤
        landing.tensor.storage.length := by
      have := landing.inStorage
      omega
    let landed := deliver (packedBytes layers) chunkSize order landing.tensor
    have hlanded : landed.bytesAt 0 (kvcacheSize layers) = packedBytes layers := by
      rw [← hlen]
      exact Chunks.slice_writeChunks hchunk hmem hland
    have hin : landed.offset + landing.size ≤ landed.storage.length := by
      have hl := (Chunks.writeChunks_getElem? hchunk order (fun i hi => (hmem i).mp hi)
        landing.tensor.storage hland).1
      exact landing.inStorage.trans hl.ge
    obtain ⟨kvs, hkvs, hall⟩ := mapM_reconstructEntry (r := landed) landing.dtype landing.shape
      landing.strides hin layers 0 0 (by omega) hshape halign hlanded
    refine ⟨_, ?_, foldl_update hapi layers [] api.new kvs hall (by
      rw [hapi.layers_new]; exact List.Forall₂.nil)⟩
    simp only [reconstructKvcache, bind, Except.bind, pure, Except.pure]
    rw [hkvs]

/-! ## Two caches that do not come back -/

/-- A `DynamicCache` that keeps what it is given. -/
def listCache : DynamicCache (List (Tensor × Tensor)) where
  new := []
  len := List.length
  update := fun c k v _ => c ++ [(k, v)]
  layers := id

theorem listCache_lawful : listCache.Lawful :=
  ⟨rfl, fun _ => rfl, fun _ k v => ⟨k, v, ⟨rfl, rfl, fun _ _ => rfl⟩, ⟨rfl, rfl, fun _ _ => rfl⟩,
    rfl⟩⟩

/-- A contiguous tensor with a storage of its own. -/
def tensorOf (d : Dtype) (batch heads seqLen headDim : Nat) (storage : List (BitVec 8)) : Tensor :=
  { storage := storage, dtype := d, offset := 0, shape := [batch, heads, seqLen, headDim],
    strides := rowMajor [batch, heads, seqLen, headDim], isCuda := true }

/-- A byte tensor over a whole storage. -/
def bytesOf (storage : List (BitVec 8)) : Tensor :=
  { storage := storage, dtype := .uint8, offset := 0, shape := [storage.length], strides := [1],
    isCuda := true }

def bufferOf (storage : List (BitVec 8)) : ByteBuffer where
  tensor := bytesOf storage
  size := storage.length
  dtype := rfl
  shape := rfl
  strides := rfl
  inStorage := by simp [bytesOf]

/-- K and V of one position, of the given sizes. -/
def layerOf (d : Dtype) (kStorage vStorage : List (BitVec 8)) (kDim vDim : Nat)
    (hk : kDim * d.elementSize ≤ kStorage.length) (hv : vDim * d.elementSize ≤ vStorage.length) :
    KvLayer where
  k := ⟨tensorOf d 1 1 1 kDim kStorage, by
    simp [Tensor.isContiguous, tensorOf, contiguous_rowMajor], rfl, by
    simpa [tensorOf, Tensor.nelement, Tensor.elementSize] using fun _ => hk⟩
  v := ⟨tensorOf d 1 1 1 vDim vStorage, by
    simp [Tensor.isContiguous, tensorOf, contiguous_rowMajor], rfl, by
    simpa [tensorOf, Tensor.nelement, Tensor.elementSize] using fun _ => hv⟩
  dtype := rfl

/-- A layer of bytes, and one of half-precision numbers. -/
def byteLayer : KvLayer := layerOf .uint8 [1, 2] [3, 4] 2 2 (by decide) (by decide)

def halfLayer : KvLayer := layerOf .float16 [5, 6, 7, 8] [9, 10, 11, 12] 2 2 (by decide) (by decide)

/-- Chunks of three bytes, delivered last to first. -/
theorem kvcache_transfer_identity_reversed :
    ∃ staging' manifest cache,
      consolidateKvcache [byteLayer.tensors, halfLayer.tensors]
        (bytesOf (List.replicate 12 0)) = .ok (staging', 12, manifest) ∧
      reconstructKvcache listCache (deliver (staging'.bytesAt 0 12) 3 [3, 2, 1, 0]
        (bytesOf (List.replicate 16 0))) manifest = .ok cache ∧
      List.Forall₂ (fun l kv => l.k.tensor.Same kv.1 ∧ l.v.tensor.Same kv.2)
        [byteLayer, halfLayer] cache := by
  obtain ⟨staging', manifest, hpack, -, -, -, hrest⟩ :=
    kvcache_transfer_identity listCache_lawful [byteLayer, halfLayer]
      (bufferOf (List.replicate 12 0)) (bufferOf (List.replicate 16 0)) rfl (by decide) (by decide)
      (show 0 < 3 by decide)
  have horder : [3, 2, 1, 0].Perm (List.range (Chunks.count 12 3)) := by decide
  have hshape : ∀ l ∈ [byteLayer, halfLayer], l.OneShape := by
    intro l hl
    rcases List.mem_cons.mp hl with rfl | hl
    · rfl
    · rcases List.mem_singleton.mp hl with rfl
      rfl
  obtain ⟨cache, hcache, hsame⟩ := hrest _ horder hshape ⟨rfl, rfl, trivial⟩
  exact ⟨staging', manifest, cache, hpack, hcache, hsame⟩

/-- V has twice the head dimension of K. -/
def wideLayer : KvLayer := layerOf .uint8 [1] [2, 3] 1 2 (by decide) (by decide)

/-- A layer of two bytes. -/
def narrowLayer : KvLayer := layerOf .uint8 [1] [2] 1 1 (by decide) (by decide)

/-- Single-precision numbers: after `narrowLayer` they begin at offset 2. -/
def floatLayer : KvLayer := layerOf .float32 [3, 4, 5, 6] [7, 8, 9, 10] 1 1 (by decide) (by decide)

/-- Where K and V have two shapes, V comes back with that of K; where a layer does not begin at a
multiple of its element size, `view(dtype)` raises. -/
theorem kvcache_transfer_not_identity :
    (∃ staging' manifest cache,
      consolidateKvcache [wideLayer.tensors] (bytesOf (List.replicate 3 0)) =
        .ok (staging', 3, manifest) ∧
      reconstructKvcache listCache (deliver (staging'.bytesAt 0 3) 3 [0]
        (bytesOf (List.replicate 3 0))) manifest = .ok cache ∧
      ¬ List.Forall₂ (fun l kv => l.k.tensor.Same kv.1 ∧ l.v.tensor.Same kv.2)
        [wideLayer] cache) ∧
    ∃ staging' manifest,
      consolidateKvcache [narrowLayer.tensors, floatLayer.tensors]
        (bytesOf (List.replicate 10 0)) = .ok (staging', 10, manifest) ∧
      reconstructKvcache listCache (deliver (staging'.bytesAt 0 10) 10 [0]
        (bytesOf (List.replicate 10 0))) manifest = .error .runtimeError := by
  refine ⟨⟨_, _, _, rfl, rfl, ?_⟩, _, _, rfl, rfl⟩
  intro h
  cases h with
  | cons hsame _ =>
    have hshape := hsame.2.shape
    simp [wideLayer, layerOf, tensorOf] at hshape

end Dmaplane
