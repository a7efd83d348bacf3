import Dmaplane.Lib.Layout
import Dmaplane.Lib.Pipe

/-!
# Dmaplane.KvMetadata

The metadata that the peers of a KVCache transfer exchange over TCP. The C side
(`examples/kvcache/kvcache_common.h`) sends a struct as it lies in memory on x86-64, the Python
side (`examples/kvcache/dmaplane_py.py`) packs a format; each has loops of its own that send and
receive the 72 bytes.

* `layouts_agree`     — the members of the struct lie where the format has its values.
* `metadata_survives` — whoever sends and whoever receives, every run returns the fields that were
  sent, and leaves what follows in the stream.
-/

namespace Dmaplane

open Layout Paged

/-- The fields of the metadata, without padding. -/
@[ext] structure PeerMetadata where
  gid : List Byte
  mac : List Byte
  lid : BitVec 16
  qpn : BitVec 32
  mrAddr : BitVec 64
  mrRkey : BitVec 32
  numLayers : BitVec 32
  chunksPerLayer : BitVec 32
  chunkSize : BitVec 32
  creditWindow : BitVec 32
  bufSize : BitVec 64
  gid_length : gid.length = 16
  mac_length : mac.length = 6

/-! ## The struct -/

/-- The members of `struct tcp_metadata`. -/
inductive Member where
  | gid | mac | lid | qpn | mrAddr | mrRkey | numLayers | chunksPerLayer | chunkSize | creditWindow
  | pad | bufSize
  deriving DecidableEq, Repr

/-- `struct tcp_metadata`. -/
def tcpMetadata : List (Member × CType) :=
  [(.gid, .u8s 16), (.mac, .u8s 6), (.lid, .u16), (.qpn, .u32), (.mrAddr, .u64), (.mrRkey, .u32),
   (.numLayers, .u32), (.chunksPerLayer, .u32), (.chunkSize, .u32), (.creditWindow, .u32),
   (.pad, .u32), (.bufSize, .u64)]

theorem sizeof_tcpMetadata : sizeof tcpMetadata = 72 := rfl

/-- The bytes of a member in a sequence of bytes that is read as the struct. -/
def memberBytes (bytes : List Byte) (f : Member) : List Byte :=
  match (place 0 tcpMetadata).find? (·.1 = f) with
  | some (_, t, off) => slice bytes off t.size
  | none => []

/-- An object of the struct, with whatever `_pad` and the hole before `mr_addr` contain. -/
structure TcpMetadata where
  bytes : List Byte
  size : bytes.length = sizeof tcpMetadata

/-- The members, as the program reads them. -/
def TcpMetadata.fields (m : TcpMetadata) : PeerMetadata where
  gid := memberBytes m.bytes .gid
  mac := memberBytes m.bytes .mac
  lid := BitVec.ofNat 16 (leNat (memberBytes m.bytes .lid))
  qpn := BitVec.ofNat 32 (leNat (memberBytes m.bytes .qpn))
  mrAddr := BitVec.ofNat 64 (leNat (memberBytes m.bytes .mrAddr))
  mrRkey := BitVec.ofNat 32 (leNat (memberBytes m.bytes .mrRkey))
  numLayers := BitVec.ofNat 32 (leNat (memberBytes m.bytes .numLayers))
  chunksPerLayer := BitVec.ofNat 32 (leNat (memberBytes m.bytes .chunksPerLayer))
  chunkSize := BitVec.ofNat 32 (leNat (memberBytes m.bytes .chunkSize))
  creditWindow := BitVec.ofNat 32 (leNat (memberBytes m.bytes .creditWindow))
  bufSize := BitVec.ofNat 64 (leNat (memberBytes m.bytes .bufSize))
  gid_length := show (slice m.bytes 0 16).length = 16 from slice_length (m.size ▸ by decide)
  mac_length := show (slice m.bytes 16 6).length = 6 from slice_length (m.size ▸ by decide)

/-! ## The format -/

/-- `TCP_METADATA_FMT`, "=16s6sHI4xQIIIIIIQ". -/
def tcpMetadataFmt : List Code :=
  [.s 16, .s 6, .H, .I, .x 4, .Q, .I, .I, .I, .I, .I, .I, .Q]

/-- The keyword arguments of `tcp_pack_metadata`, and what `tcp_unpack_metadata` returns. -/
structure PyMetadata where
  gid : Value
  mac : Value
  lid : Value
  qpn : Value
  mrAddr : Value
  mrRkey : Value
  numLayers : Value
  chunksPerLayer : Value
  chunkSize : Value
  creditWindow : Value
  bufSize : Value
  deriving DecidableEq, Repr

def tcpPackMetadata (d : PyMetadata) : Option (List Byte) :=
  structPack tcpMetadataFmt
    [d.gid, d.mac, d.lid, d.qpn, d.mrAddr, d.mrRkey, d.numLayers, d.chunksPerLayer, d.chunkSize,
     d.creditWindow, .int 0, d.bufSize]

def tcpUnpackMetadata (data : List Byte) : Option PyMetadata :=
  match structUnpack tcpMetadataFmt data with
  | some [gid, mac, lid, qpn, mrAddr, mrRkey, numLayers, chunksPerLayer, chunkSize, creditWindow, _,
      bufSize] =>
    some { gid, mac, lid, qpn, mrAddr, mrRkey, numLayers, chunksPerLayer, chunkSize, creditWindow
           bufSize }
  | _ => none

/-- A number of the program as Python has it. -/
def pyInt {w : Nat} (x : BitVec w) : Value := .int (x.toNat : Int)

def PeerMetadata.toPy (d : PeerMetadata) : PyMetadata where
  gid := .bytes d.gid
  mac := .bytes d.mac
  lid := pyInt d.lid
  qpn := pyInt d.qpn
  mrAddr := pyInt d.mrAddr
  mrRkey := pyInt d.mrRkey
  numLayers := pyInt d.numLayers
  chunksPerLayer := pyInt d.chunksPerLayer
  chunkSize := pyInt d.chunkSize
  creditWindow := pyInt d.creditWindow
  bufSize := pyInt d.bufSize

/-! ## One layout -/

/-- The members of the struct lie where the format has its values. -/
theorem layouts_agree :
    (place 0 tcpMetadata).map (fun p => (p.2.1.code, p.2.2)) = spans 0 tcpMetadataFmt := by
  decide

theorem calcsize_fmt : calcsize tcpMetadataFmt = sizeof tcpMetadata := by
  decide

theorem length_memberBytes {bytes : List Byte} (h : bytes.length = sizeof tcpMetadata) :
    ∀ p ∈ tcpMetadata, (memberBytes bytes p.1).length = p.2.size := by
  rw [sizeof_tcpMetadata] at h
  intro p hp
  simp only [tcpMetadata, List.mem_cons, List.not_mem_nil, or_false] at hp
  rcases hp with rfl | rfl | rfl | rfl | rfl | rfl | rfl | rfl | rfl | rfl | rfl | rfl <;>
    exact slice_length (by rw [h]; decide)

/-- The number in a member is a value of its type. -/
theorem pyInt_member {bytes : List Byte} (h : bytes.length = sizeof tcpMetadata) {f : Member}
    {t : CType} (hf : (f, t) ∈ tcpMetadata) {w : Nat} (hw : 256 ^ t.size = 2 ^ w) :
    pyInt (BitVec.ofNat w (leNat (memberBytes bytes f))) = .int (leNat (memberBytes bytes f)) := by
  have hlt := leNat_lt (memberBytes bytes f)
  rw [length_memberBytes h _ hf, hw] at hlt
  rw [pyInt, BitVec.toNat_ofNat, Nat.mod_eq_of_lt hlt]

/-- Python unpacks an object of the struct into its members. -/
theorem unpack_object (m : TcpMetadata) : tcpUnpackMetadata m.bytes = some m.fields.toPy := by
  have hvals : structUnpack tcpMetadataFmt m.bytes =
      some [.bytes (memberBytes m.bytes .gid), .bytes (memberBytes m.bytes .mac),
        .int (leNat (memberBytes m.bytes .lid)), .int (leNat (memberBytes m.bytes .qpn)),
        .int (leNat (memberBytes m.bytes .mrAddr)), .int (leNat (memberBytes m.bytes .mrRkey)),
        .int (leNat (memberBytes m.bytes .numLayers)),
        .int (leNat (memberBytes m.bytes .chunksPerLayer)),
        .int (leNat (memberBytes m.bytes .chunkSize)),
        .int (leNat (memberBytes m.bytes .creditWindow)), .int (leNat (memberBytes m.bytes .pad)),
        .int (leNat (memberBytes m.bytes .bufSize))] := by
    rw [unpack_eq_spans (m.size.trans calcsize_fmt.symm), ← layouts_agree]
    rfl
  have h16 : pyInt m.fields.lid = _ := pyInt_member m.size (t := .u16) (by decide) (by decide)
  have h32 {f : Member} (hf : (f, CType.u32) ∈ tcpMetadata) :
      pyInt (BitVec.ofNat 32 (leNat (memberBytes m.bytes f))) = _ :=
    pyInt_member m.size hf (by decide)
  have h64 {f : Member} (hf : (f, CType.u64) ∈ tcpMetadata) :
      pyInt (BitVec.ofNat 64 (leNat (memberBytes m.bytes f))) = _ :=
    pyInt_member m.size hf (by decide)
  rw [tcpUnpackMetadata, hvals, PeerMetadata.toPy, h16]
  simp only [TcpMetadata.fields]
  rw [h32 (f := .qpn) (by decide), h64 (f := .mrAddr) (by decide), h32 (f := .mrRkey) (by decide),
    h32 (f := .numLayers) (by decide), h32 (f := .chunksPerLayer) (by decide),
    h32 (f := .chunkSize) (by decide), h32 (f := .creditWindow) (by decide),
    h64 (f := .bufSize) (by decide)]

theorem toPy_injective : Function.Injective PeerMetadata.toPy := by
  have hint {w : Nat} {x y : BitVec w} (h : pyInt x = pyInt y) : x = y :=
    BitVec.toNat_inj.mp (Int.ofNat_inj.mp (Value.int.inj h))
  intro a b h
  obtain ⟨h1, h2, h3, h4, h5, h6, h7, h8, h9, h10, h11⟩ := PyMetadata.mk.inj h
  exact PeerMetadata.ext (Value.bytes.inj h1) (Value.bytes.inj h2) (hint h3) (hint h4) (hint h5)
    (hint h6) (hint h7) (hint h8) (hint h9) (hint h10) (hint h11)

theorem fits_pyInt {c : Code} {w : Nat} (hc : c = .H ∨ c = .I ∨ c = .Q)
    (hw : 256 ^ c.size = 2 ^ w) (x : BitVec w) : c.Fits (pyInt x) := by
  refine ⟨hc, Int.natCast_nonneg _, ?_⟩
  have hlt : x.toNat < 256 ^ c.size := hw ▸ x.isLt
  exact_mod_cast hlt

/-- What Python packs are the bytes of an object of the struct with these members. -/
theorem pack_object (d : PeerMetadata) :
    ∃ m : TcpMetadata, tcpPackMetadata d.toPy = some m.bytes ∧ m.fields = d := by
  have h32 (x : BitVec 32) : Code.I.Fits (pyInt x) := fits_pyInt (.inr (.inl rfl)) (by decide) x
  have h64 (x : BitVec 64) : Code.Q.Fits (pyInt x) := fits_pyInt (.inr (.inr rfl)) (by decide) x
  obtain ⟨bytes, hpack, hlen, hun⟩ := unpack_pack tcpMetadataFmt
    [.bytes d.gid, .bytes d.mac, pyInt d.lid, pyInt d.qpn, pyInt d.mrAddr, pyInt d.mrRkey,
      pyInt d.numLayers, pyInt d.chunksPerLayer, pyInt d.chunkSize, pyInt d.creditWindow, .int 0,
      pyInt d.bufSize]
    ⟨congrArg Code.s d.gid_length.symm, congrArg Code.s d.mac_length.symm,
      fits_pyInt (.inl rfl) (by decide) _, h32 _, h64 _, h32 _, h32 _, h32 _, h32 _, h32 _, h32 0,
      h64 _, rfl⟩
  refine ⟨⟨bytes, hlen.trans calcsize_fmt⟩, hpack, toPy_injective (Option.some.inj ?_)⟩
  rw [← unpack_object, tcpUnpackMetadata, structUnpack, if_pos hlen, hun]
  rfl

/-! ## The loops -/

/-- `tcp_send_all` in C: the memory from `p` on, and `len`. -/
def cSendAll : Pipe.SendLoop Byte where
  State := List Byte × Nat
  start buf := (buf, buf.length)
  left s := s.1.take s.2
  sent s n := (s.1.drop n, s.2 - n)
  left_start _ := List.take_length
  left_sent _ _ _ := List.drop_take.symm

/-- `tcp_send_all` in Python: `data` and `total`. -/
def pySendAll : Pipe.SendLoop Byte where
  State := List Byte × Nat
  start data := (data, 0)
  left s := s.1.drop s.2
  sent s n := (s.1, s.2 + n)
  left_start _ := List.drop_zero
  left_sent _ _ _ := List.drop_drop.symm

/-- The variables of `tcp_recv_all` in C; `p` is `len` bytes before the end of the buffer. -/
structure CRecv where
  buf : List Byte
  len : Nat
  len_le : len ≤ buf.length

/-- `recv` has written these bytes to `p`. -/
def CRecv.took (s : CRecv) (xs : List Byte) : CRecv :=
  if h : xs.length ≤ s.len then
    { buf := splice s.buf (s.buf.length - s.len) xs, len := s.len - xs.length
      len_le := by
        have hle := s.len_le
        rw [splice_length (by omega)]
        omega }
  else s

/-- `tcp_recv_all` in C, into a buffer that held `old` before. -/
def cRecvAll (old : Nat → Byte) : Pipe.RecvLoop Byte where
  State := CRecv
  start n := ⟨(List.range n).map old, n, by rw [List.length_map, List.length_range]⟩
  want s := s.len
  got s := s.buf.take (s.buf.length - s.len)
  took s xs := s.took xs
  want_start _ := rfl
  got_start n := by
    dsimp only
    rw [List.length_map, List.length_range, Nat.sub_self, List.take_zero]
  want_took s xs h := by rw [CRecv.took, dif_pos h]
  got_took s xs h := by
    have hle := s.len_le
    have hfit : s.buf.length - s.len + xs.length ≤ s.buf.length := by omega
    have hcut : s.buf.length - (s.len - xs.length) =
        (s.buf.take (s.buf.length - s.len) ++ xs).length := by
      rw [List.length_append, List.length_take]
      omega
    rw [CRecv.took, dif_pos h]
    dsimp only
    rw [splice_length hfit, hcut, splice, List.take_left]

/-- The variables of `tcp_recv_all` in Python. -/
structure PyRecv where
  chunks : List (List Byte)
  nbytes : Nat
  received : Nat

/-- `tcp_recv_all` in Python. -/
def pyRecvAll : Pipe.RecvLoop Byte where
  State := PyRecv
  start nbytes := ⟨[], nbytes, 0⟩
  want s := s.nbytes - s.received
  got s := s.chunks.flatten
  took s xs := { s with chunks := s.chunks ++ [xs], received := s.received + xs.length }
  want_start _ := rfl
  got_start _ := rfl
  want_took _ _ _ := Nat.sub_add_eq _ _ _
  got_took s xs _ := by rw [List.flatten_append, List.flatten_singleton]

/-! ## The exchange -/

/-- Who sends, and what `tcp_send_metadata` is given. -/
inductive Sent where
  | c (m : TcpMetadata)
  | python (d : PeerMetadata)

/-- Who receives; in C a struct that held something before. -/
inductive Receiver where
  | c (old : Nat → Byte)
  | python

namespace Sent

def fields : Sent → PeerMetadata
  | .c m => m.fields
  | .python d => d

/-- What is passed to `tcp_send_all`. -/
def data : Sent → Option (List Byte)
  | .c m => some m.bytes
  | .python d => tcpPackMetadata d.toPy

def loop : Sent → Pipe.SendLoop Byte
  | .c _ => cSendAll
  | .python _ => pySendAll

end Sent

namespace Receiver

def loop : Receiver → Pipe.RecvLoop Byte
  | .c old => cRecvAll old
  | .python => pyRecvAll

/-- What `tcp_recv_all` is asked for: `sizeof(*m)`, `TCP_METADATA_SZ`. -/
def size : Receiver → Nat
  | .c _ => sizeof tcpMetadata
  | .python => calcsize tcpMetadataFmt

/-- `tcp_recv_metadata` makes these fields of the bytes received. -/
def Returns (r : Receiver) (bytes : List Byte) (d : PeerMetadata) : Prop :=
  match r with
  | .c _ => ∃ m : TcpMetadata, m.bytes = bytes ∧ m.fields = d
  | .python => tcpUnpackMetadata bytes = some d.toPy

end Receiver

/-- What is sent are the bytes of an object of the struct. -/
theorem sent_object (src : Sent) :
    ∃ m : TcpMetadata, src.data = some m.bytes ∧ m.fields = src.fields := by
  cases src with
  | c m => exact ⟨m, rfl, rfl⟩
  | python d => exact pack_object d

theorem returns_object (dst : Receiver) (m : TcpMetadata) : dst.Returns m.bytes m.fields := by
  cases dst with
  | c _ => exact ⟨m, rfl, rfl⟩
  | python => exact unpack_object m

/-- In every run, however the stream is cut, the receiver can complete its call, within a bounded
number of them; when it has, it has taken 72 bytes, made the fields of them that were sent, and left
what follows. -/
theorem metadata_survives (src : Sent) (dst : Receiver) (follow : List Byte) :
    ∃ data, src.data = some data ∧
      ∀ as s, (Pipe.sys src.loop dst.loop data follow dst.size).exec
          (Pipe.sys src.loop dst.loop data follow dst.size).init as = some s →
        as.length ≤ 2 * (72 + follow.length) ∧
        (∃ as' s', (Pipe.sys src.loop dst.loop data follow dst.size).exec s as' = some s' ∧
          dst.loop.want s'.receiver = 0) ∧
        (dst.loop.want s.receiver = 0 → (dst.loop.got s.receiver).length = 72 ∧
          dst.Returns (dst.loop.got s.receiver) src.fields ∧ s.unread = follow) := by
  obtain ⟨m, hdata, hfields⟩ := sent_object src
  have hlen : m.bytes.length = 72 := m.size
  have hsize : dst.size = m.bytes.length := by
    rw [hlen]
    cases dst <;> rfl
  refine ⟨m.bytes, hdata, fun as s hex => ?_⟩
  rw [hsize] at hex ⊢
  have hr := Transition.Sys.exec_steps as hex
  have hbound := Pipe.exec_bounded as hex
  refine ⟨?_, Pipe.returns hr, fun hw => ?_⟩
  · have hweight : (Pipe.sys src.loop dst.loop m.bytes follow m.bytes.length).init.weight =
        2 * (m.bytes.length + follow.length) := by
      show 2 * ((src.loop.left (src.loop.start m.bytes)).length + follow.length) + 0 = _
      rw [src.loop.left_start, Nat.add_zero]
    omega
  · obtain ⟨hgot, hrest⟩ := Pipe.exact hr hw
    rw [hgot]
    exact ⟨hlen, hfields ▸ returns_object dst m, hrest⟩

end Dmaplane
