import Dmaplane.Lib.Layout
import Mathlib.Data.List.Forall2
import Mathlib.Data.List.Nodup

/-!
# Dmaplane.Lib.Record

Formats with signed items beside structs with named, possibly signed members.

* `Item`, `pack`, `unpack` — a format as a list of items; `i` is a signed number of four bytes, the
  other items are those of `Lib.Layout`. `unpack_pack` is the round trip, and `pack_cut` says what
  can be packed.
* `Record`, `members`      — a struct, and the values of its members in a sequence of bytes.
* `Describes fmt r`        — the format has the members of the struct where they lie. Then unpacking
  reads the members (`unpack_members`) and packing writes them (`members_pack`).
-/

namespace Layout

namespace Signed

/-- An item of a format. -/
inductive Item where
  | s (n : Nat)
  | H | I | i | Q
  deriving DecidableEq, Repr

namespace Item

def code : Item → Code
  | s n => .s n
  | H => .H
  | I | i => .I
  | Q => .Q

/-- The value that is packed as `code`; a negative number in two's complement. -/
def encode : Item → Value → Option Value
  | i, .int n => if -2 ^ 31 ≤ n ∧ n < 2 ^ 31 then some (.int (n % 2 ^ 32)) else none
  | i, .bytes _ => none
  | _, v => some v

def decode : Item → Value → Value
  | i, .int n => .int (if n < 2 ^ 31 then n else n - 2 ^ 32)
  | _, v => v

def Fits : Item → Value → Prop
  | i, v => ∃ n, v = .int n ∧ -2 ^ 31 ≤ n ∧ n < 2 ^ 31
  | c, v => c.code.Fits v

theorem encode_fits {c : Item} {v : Value} (h : c.Fits v) :
    ∃ w, c.encode v = some w ∧ c.code.Fits w ∧ c.decode w = v := by
  cases c with
  | i =>
    obtain ⟨n, rfl, hlo, hhi⟩ := h
    refine ⟨.int (n % 2 ^ 32), if_pos ⟨hlo, hhi⟩, ⟨.inr (.inl rfl), ?_, ?_⟩, ?_⟩
    · exact Int.emod_nonneg _ (by decide)
    · exact Int.emod_lt_of_pos _ (by decide)
    · simp only [decode]
      congr 1
      split <;> omega
  | s | H | I | Q => exact ⟨v, rfl, h, rfl⟩

theorem fitsAll_cons {c : Item} {w : Value} {fmt : List Code} {ws : List Value} :
    FitsAll (c.code :: fmt) (w :: ws) ↔ c.code.Fits w ∧ FitsAll fmt ws := by
  cases c <;> exact Iff.rfl

end Item

def encodeAll : List Item → List Value → Option (List Value)
  | [], [] => some []
  | c :: fmt, v :: vs =>
    match c.encode v, encodeAll fmt vs with
    | some w, some ws => some (w :: ws)
    | _, _ => none
  | _, _ => none

/-- `struct.pack`. -/
def pack (fmt : List Item) (vs : List Value) : Option (List Byte) :=
  (encodeAll fmt vs).bind (structPack (fmt.map Item.code))

/-- `struct.unpack`. -/
def unpack (fmt : List Item) (bs : List Byte) : Option (List Value) :=
  (structUnpack (fmt.map Item.code) bs).map (List.zipWith Item.decode fmt)

/-- `struct.calcsize`. -/
def size (fmt : List Item) : Nat := calcsize (fmt.map Item.code)

theorem encodeAll_fits {fmt : List Item} {vs : List Value} (h : List.Forall₂ Item.Fits fmt vs) :
    ∃ ws, encodeAll fmt vs = some ws ∧ FitsAll (fmt.map Item.code) ws ∧
      List.zipWith Item.decode fmt ws = vs := by
  induction h with
  | nil => exact ⟨[], rfl, rfl, rfl⟩
  | cons hc _ ih =>
    obtain ⟨w, hw, hfit, hdec⟩ := Item.encode_fits hc
    obtain ⟨ws, hws, hfits, hdecs⟩ := ih
    refine ⟨w :: ws, ?_, ?_, ?_⟩
    · simp only [encodeAll, hw, hws]
    · exact Item.fitsAll_cons.mpr ⟨hfit, hfits⟩
    · rw [List.zipWith_cons_cons, hdec, hdecs]

theorem unpack_pack {fmt : List Item} {vs : List Value} (h : List.Forall₂ Item.Fits fmt vs) :
    ∃ bs, pack fmt vs = some bs ∧ bs.length = size fmt ∧ unpack fmt bs = some vs := by
  obtain ⟨ws, hws, hfits, hdec⟩ := encodeAll_fits h
  obtain ⟨bs, hpack, hlen, hun⟩ := Layout.unpack_pack _ ws hfits
  refine ⟨bs, ?_, hlen, ?_⟩
  · rw [pack, hws]; exact hpack
  · rw [unpack, structUnpack, if_pos hlen, hun, Option.map_some, hdec]

/-! ## What can be packed -/

/-- The value that is packed; a string of bytes is cut or filled with zeros. -/
def Item.cut : Item → Value → Value
  | .s n, .bytes b => .bytes (b.take n ++ List.replicate (n - b.length) 0)
  | _, v => v

theorem length_cut (n : Nat) (b : List Byte) :
    (b.take n ++ List.replicate (n - b.length) 0).length = n := by
  rw [List.length_append, List.length_take, List.length_replicate]
  omega

/-- The bytes of one value. -/
def Item.pack (c : Item) (v : Value) : Option (List Byte) := (c.encode v).bind c.code.pack

theorem Item.pack_cut (c : Item) (v : Value) : c.pack (c.cut v) = c.pack v := by
  cases c with
  | s n =>
    cases v with
    | bytes b =>
      have hlen := length_cut n b
      simp only [Item.pack, encode, cut, code, Option.bind_some, Code.pack, hlen, Nat.sub_self,
        List.replicate_zero, List.append_nil]
      rw [List.take_of_length_le (le_of_eq hlen)]
    | int k => rfl
  | i | H | I | Q => rfl

theorem Item.fits_cut {c : Item} {v : Value} {b : List Byte} (h : c.pack v = some b) :
    c.Fits (c.cut v) := by
  obtain ⟨w, he, hp⟩ := Option.bind_eq_some_iff.mp h
  cases c with
  | s n =>
    obtain rfl : v = w := Option.some.inj he
    cases v with
    | bytes a => exact congrArg Code.s (length_cut n a).symm
    | int k => simp [code, Code.pack] at hp
  | i =>
    cases v with
    | bytes a => simp [encode] at he
    | int k =>
      rw [encode, Option.ite_none_right_eq_some] at he
      exact ⟨k, rfl, he.1⟩
  | H | I | Q =>
    obtain rfl : v = w := Option.some.inj he
    cases v with
    | bytes a => simp [code, Code.pack] at hp
    | int k =>
      rw [code, Code.pack, Option.ite_none_right_eq_some] at hp
      exact ⟨by simp [code], hp.1⟩

theorem pack_cons (c : Item) (fmt : List Item) (v : Value) (vs : List Value) :
    pack (c :: fmt) (v :: vs) =
      (c.pack v).bind fun b => (pack fmt vs).map fun rest => b ++ rest := by
  have hs (w : Value) (ws : List Value) : structPack (c.code :: fmt.map Item.code) (w :: ws) =
      (c.code.pack w).bind fun b => (structPack (fmt.map Item.code) ws).map fun rest =>
        b ++ rest := by
    rw [structPack]
    · cases c.code.pack w <;> cases structPack (fmt.map Item.code) ws <;> rfl
    · -- No item is padding.
      cases c <;> simp [Item.code]
  simp only [pack, Item.pack, encodeAll, List.map_cons]
  cases c.encode v with
  | none => rfl
  | some w =>
    cases encodeAll fmt vs with
    | none => cases hb : c.code.pack w <;> simp [hb]
    | some ws => simp only [Option.bind_some, hs]

/-- Whatever can be packed is packed as values that fit. -/
theorem pack_cut (fmt : List Item) : ∀ vs bs, pack fmt vs = some bs →
    List.Forall₂ Item.Fits fmt (List.zipWith Item.cut fmt vs) ∧
      pack fmt (List.zipWith Item.cut fmt vs) = some bs := by
  induction fmt with
  | nil =>
    intro vs bs h
    cases vs with
    | nil => exact ⟨.nil, h⟩
    | cons v vs => simp [pack, encodeAll] at h
  | cons c fmt ih =>
    intro vs bs h
    cases vs with
    | nil => simp [pack, encodeAll] at h
    | cons v vs =>
      have h' := h
      rw [pack_cons] at h'
      obtain ⟨b, hb, hmap⟩ := Option.bind_eq_some_iff.mp h'
      obtain ⟨rest, hrest, rfl⟩ := Option.map_eq_some_iff.mp hmap
      obtain ⟨hfits, hpack⟩ := ih vs rest hrest
      refine ⟨.cons (Item.fits_cut hb) hfits, ?_⟩
      rw [← h, List.zipWith_cons_cons, pack_cons, pack_cons, Item.pack_cut, hpack, hrest]

/-! ## Structs -/

/-- The type of a member. -/
inductive MType where
  /-- `uint8_t [n]`. -/
  | u8s (n : Nat)
  | u16 | u32 | s32 | u64
  deriving DecidableEq, Repr

namespace MType

/-- A signed member lies as an unsigned one. -/
def ctype : MType → CType
  | u8s n => .u8s n
  | u16 => .u16
  | u32 | s32 => .u32
  | u64 => .u64

def item : MType → Item
  | u8s n => .s n
  | u16 => .H
  | u32 => .I
  | s32 => .i
  | u64 => .Q

end MType

theorem size_code (t : CType) : t.code.size = t.size := by
  cases t <;> rfl

/-- The members of a struct, in order. -/
abbrev Record (ι : Type) := List (ι × MType)

variable {ι : Type}

def Record.places (r : Record ι) : List (ι × CType × Nat) :=
  place 0 (r.map fun p => (p.1, p.2.ctype))

def Record.sizeof (r : Record ι) : Nat := Layout.sizeof (r.map fun p => (p.1, p.2.ctype))

/-- The members as a program reads them. -/
def Record.members (r : Record ι) (bs : List Byte) : List (ι × Value) :=
  List.zipWith (fun p q =>
    (p.1, p.2.item.decode (q.2.1.code.unpack (Paged.slice bs q.2.2 q.2.1.size)))) r r.places

/-- The format has the members of the struct where they lie. -/
structure Describes (fmt : List Item) (r : Record ι) : Prop where
  items : fmt = r.map (·.2.item)
  offsets : r.places.map (fun p => (p.2.1.code, p.2.2)) = spans 0 (fmt.map Item.code)
  size : size fmt = r.sizeof

instance (fmt : List Item) (r : Record ι) : Decidable (Describes fmt r) :=
  decidable_of_iff (fmt = r.map (·.2.item) ∧
      r.places.map (fun p => (p.2.1.code, p.2.2)) = spans 0 (fmt.map Item.code) ∧
      size fmt = r.sizeof)
    ⟨fun h => ⟨h.1, h.2.1, h.2.2⟩, fun h => ⟨h.items, h.offsets, h.size⟩⟩

theorem length_place (fs : List (ι × CType)) : ∀ off, (place off fs).length = fs.length := by
  induction fs with
  | nil => intro off; rfl
  | cons f fs ih => intro off; rw [place, List.length_cons, ih, List.length_cons]

theorem names_members (r : Record ι) (bs : List Byte) :
    (r.members bs).map Prod.fst = r.map Prod.fst := by
  have hlen : r.length = r.places.length := by rw [Record.places, length_place, List.length_map]
  rw [Record.members, List.map_zipWith]
  apply List.ext_getElem
  · simp [← hlen]
  · intro k h₁ h₂
    simp

variable {fmt : List Item} {r : Record ι} {bs : List Byte}

/-- Unpacking reads the members. -/
theorem unpack_members (hd : Describes fmt r) (h : bs.length = r.sizeof) :
    unpack fmt bs = some ((r.members bs).map Prod.snd) := by
  have hlen : bs.length = calcsize (fmt.map Item.code) := h.trans hd.size.symm
  rw [unpack, unpack_eq_spans hlen, ← hd.offsets, Option.map_some, Record.members,
    List.map_zipWith, hd.items, List.map_map, List.zipWith_map_left, List.zipWith_map_right]
  simp only [Function.comp_def, size_code]

/-- Packing writes the members. -/
theorem members_pack (hd : Describes fmt r) {vs : List Value} (h : pack fmt vs = some bs) :
    bs.length = r.sizeof ∧ (r.members bs).map Prod.snd = List.zipWith Item.cut fmt vs := by
  obtain ⟨hfits, hcut⟩ := pack_cut fmt vs bs h
  obtain ⟨bs', hpack, hlen, hun⟩ := unpack_pack hfits
  obtain rfl : bs = bs' := Option.some.inj (hcut.symm.trans hpack)
  have hsize := hlen.trans hd.size
  exact ⟨hsize, Option.some.inj ((unpack_members hd hsize).symm.trans hun)⟩

/-! ## Members by name -/

variable [DecidableEq ι]

/-- The member `f`. -/
def Record.value (r : Record ι) (bs : List Byte) (f : ι) : Option Value :=
  ((r.members bs).find? (·.1 = f)).map Prod.snd

theorem find?_of_getElem? {l : List (ι × Value)} (hn : (l.map Prod.fst).Nodup) {k : Nat} {f : ι}
    {v : Value} (h : l[k]? = some (f, v)) : l.find? (·.1 = f) = some (f, v) := by
  obtain ⟨hk, hv⟩ := List.getElem?_eq_some_iff.mp h
  rw [List.find?_eq_some_iff_getElem]
  refine ⟨by simp, k, hk, hv, ?_⟩
  intro j hj
  have hjl : j < (l.map Prod.fst).length := by rw [List.length_map]; omega
  simp only [Bool.not_eq_true', decide_eq_false_iff_not]
  intro he
  refine Nat.ne_of_lt hj ((List.getElem?_inj hjl hn).mp ?_)
  rw [List.getElem?_map, List.getElem?_map, h, List.getElem?_eq_getElem (by omega)]
  exact congrArg some he

/-- The member at place `k` is the one with its name. -/
theorem value_at (hn : (r.map Prod.fst).Nodup) {k : Nat} {f : ι}
    (hf : (r.map Prod.fst)[k]? = some f) : r.value bs f = ((r.members bs).map Prod.snd)[k]? := by
  rw [← names_members r bs, List.getElem?_map, Option.map_eq_some_iff] at hf
  obtain ⟨⟨f', v⟩, hget, rfl⟩ := hf
  rw [← names_members r bs] at hn
  rw [Record.value, find?_of_getElem? hn hget, List.getElem?_map, hget]

/-- What the members are, by name. -/
theorem value_of_map (hn : (r.map Prod.fst).Nodup) {g : ι × MType → Value}
    (hv : (r.members bs).map Prod.snd = r.map g) {p : ι × MType} (hp : p ∈ r) :
    r.value bs p.1 = some (g p) := by
  obtain ⟨k, hk⟩ := List.mem_iff_getElem?.mp hp
  rw [value_at hn (by rw [List.getElem?_map, hk]; rfl), hv, List.getElem?_map, hk]
  rfl

end Signed
end Layout
