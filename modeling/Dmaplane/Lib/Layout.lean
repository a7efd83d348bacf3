import Dmaplane.Lib.Paged
import Mathlib.Algebra.Order.Ring.Nat

/-!
# Dmaplane.Lib.Layout

Two descriptions of how values lie in a sequence of bytes, both little-endian.

* `Code`, `structPack`, `structUnpack` — a format with explicit pad bytes, read from left to right.
* `CType`, `place` — a struct whose members are put at multiples of their alignment.

`unpack_pack` is the round trip of a format. Where the members of a struct lie at the `spans` of a
format, unpacking reads the members (`unpack_eq_spans`).
-/

namespace Layout

open Paged

abbrev Byte := BitVec 8

/-! ## Numbers -/

/-- The `n` bytes of a number, the lowest first. -/
def leBytes : Nat → Nat → List Byte
  | 0, _ => []
  | n + 1, x => BitVec.ofNat 8 x :: leBytes n (x / 256)

def leNat : List Byte → Nat
  | [] => 0
  | b :: bs => b.toNat + 256 * leNat bs

@[simp] theorem length_leBytes (n : Nat) : ∀ x, (leBytes n x).length = n := by
  induction n with
  | zero => intro x; rfl
  | succ n ih => intro x; rw [leBytes, List.length_cons, ih]

theorem leNat_lt (bs : List Byte) : leNat bs < 256 ^ bs.length := by
  induction bs with
  | nil => exact Nat.zero_lt_one
  | cons b bs ih =>
    have hb := b.isLt
    rw [leNat, List.length_cons, Nat.pow_succ]
    omega

theorem leNat_leBytes (n : Nat) : ∀ x, x < 256 ^ n → leNat (leBytes n x) = x := by
  induction n with
  | zero => intro x hx; exact (Nat.lt_one_iff.mp hx).symm
  | succ n ih =>
    intro x hx
    rw [Nat.pow_succ] at hx
    rw [leBytes, leNat, ih (x / 256) (Nat.div_lt_of_lt_mul (Nat.mul_comm _ _ ▸ hx)),
      BitVec.toNat_ofNat]
    exact Nat.mod_add_div x 256

/-! ## Formats -/

/-- An item of a format. -/
inductive Code where
  /-- `n` bytes. -/
  | s (n : Nat)
  /-- `n` pad bytes, which carry no value. -/
  | x (n : Nat)
  /-- Unsigned numbers of two, four and eight bytes. -/
  | H | I | Q
  deriving DecidableEq, Repr

inductive Value where
  | bytes (b : List Byte)
  | int (v : Int)
  deriving DecidableEq, Repr

namespace Code

def size : Code → Nat
  | .s n | .x n => n
  | .H => 2
  | .I => 4
  | .Q => 8

/-- A string of bytes is cut or filled with zeros, a number must be in range. -/
def pack (c : Code) : Value → Option (List Byte)
  | .bytes b =>
    match c with
    | .s n => some (b.take n ++ List.replicate (n - b.length) 0)
    | .x _ | .H | .I | .Q => none
  | .int v =>
    match c with
    | .H | .I | .Q => if 0 ≤ v ∧ v < 256 ^ c.size then some (leBytes c.size v.toNat) else none
    | .s _ | .x _ => none

def unpack (c : Code) (bs : List Byte) : Value :=
  match c with
  | .s _ | .x _ => .bytes bs
  | .H | .I | .Q => .int (leNat bs)

/-- The value is one that unpacking can return. -/
def Fits (c : Code) : Value → Prop
  | .bytes b => c = .s b.length
  | .int v => (c = .H ∨ c = .I ∨ c = .Q) ∧ 0 ≤ v ∧ v < 256 ^ c.size

theorem pack_of_fits {c : Code} {v : Value} (h : c.Fits v) :
    ∃ bs, c.pack v = some bs ∧ bs.length = c.size ∧ c.unpack bs = v := by
  cases v with
  | bytes b =>
    obtain rfl : c = .s b.length := h
    exact ⟨b, by simp [pack], rfl, rfl⟩
  | int v =>
    obtain ⟨hc, h0, hv⟩ := h
    obtain ⟨n, rfl⟩ := Int.eq_ofNat_of_zero_le h0
    have hn : n < 256 ^ c.size := by exact_mod_cast hv
    have hle := leNat_leBytes c.size n hn
    refine ⟨leBytes c.size n, ?_, length_leBytes _ _, ?_⟩
    · rcases hc with rfl | rfl | rfl <;> simp only [pack, h0, hv, Int.toNat_natCast, and_self, if_true]
    · rcases hc with rfl | rfl | rfl <;> simp only [unpack, hle]

end Code

/-- `struct.pack`; `none` is an error. -/
def structPack : List Code → List Value → Option (List Byte)
  | [], [] => some []
  | [], _ :: _ => none
  | .x n :: fmt, vs => (structPack fmt vs).map (List.replicate n 0 ++ ·)
  | _ :: _, [] => none
  | c :: fmt, v :: vs =>
    match c.pack v, structPack fmt vs with
    | some bs, some rest => some (bs ++ rest)
    | _, _ => none

/-- The values of a format, one after another. -/
def unpackFrom : List Code → List Byte → List Value
  | [], _ => []
  | .x n :: fmt, bs => unpackFrom fmt (bs.drop n)
  | c :: fmt, bs => c.unpack (bs.take c.size) :: unpackFrom fmt (bs.drop c.size)

/-- `struct.calcsize`. -/
def calcsize (fmt : List Code) : Nat := (fmt.map Code.size).sum

/-- `struct.unpack`, which wants exactly the bytes of the format. -/
def structUnpack (fmt : List Code) (bs : List Byte) : Option (List Value) :=
  if bs.length = calcsize fmt then some (unpackFrom fmt bs) else none

/-- The values fit the format. -/
def FitsAll : List Code → List Value → Prop
  | [], vs => vs = []
  | .x _ :: fmt, vs => FitsAll fmt vs
  | _ :: _, [] => False
  | c :: fmt, v :: vs => c.Fits v ∧ FitsAll fmt vs

theorem structPack_cons {c : Code} (hc : ∀ n, c ≠ .x n) {fmt : List Code} {v : Value}
    {vs : List Value} {bs rest : List Byte} (h : c.pack v = some bs)
    (hrest : structPack fmt vs = some rest) : structPack (c :: fmt) (v :: vs) = some (bs ++ rest) := by
  cases c with
  | x n => exact absurd rfl (hc n)
  | s | H | I | Q => simp only [structPack, h, hrest]

theorem unpackFrom_cons {c : Code} (hc : ∀ n, c ≠ .x n) (fmt : List Code) (bs : List Byte) :
    unpackFrom (c :: fmt) bs = c.unpack (bs.take c.size) :: unpackFrom fmt (bs.drop c.size) := by
  cases c with
  | x n => exact absurd rfl (hc n)
  | s | H | I | Q => rfl

/-- What is packed is unpacked again. -/
theorem unpack_pack (fmt : List Code) : ∀ vs, FitsAll fmt vs → ∃ bs, structPack fmt vs = some bs ∧
    bs.length = calcsize fmt ∧ unpackFrom fmt bs = vs := by
  induction fmt with
  | nil => rintro vs rfl; exact ⟨[], rfl, rfl, rfl⟩
  | cons c fmt ih =>
    intro vs h
    have hcode (hc : ∀ n, c ≠ .x n) (v : Value) (vs : List Value) (hv : c.Fits v)
        (hvs : FitsAll fmt vs) : ∃ bs, structPack (c :: fmt) (v :: vs) = some bs ∧
          bs.length = calcsize (c :: fmt) ∧ unpackFrom (c :: fmt) bs = v :: vs := by
      obtain ⟨bs, hpack, hlen, hun⟩ := Code.pack_of_fits hv
      obtain ⟨rest, hrest, hrlen, hrun⟩ := ih vs hvs
      refine ⟨bs ++ rest, structPack_cons hc hpack hrest, ?_, ?_⟩
      · rw [List.length_append, hlen, hrlen]
        rfl
      · rw [unpackFrom_cons hc, List.take_left' hlen, List.drop_left' hlen, hun, hrun]
    cases c with
    | x n =>
      obtain ⟨rest, hrest, hrlen, hrun⟩ := ih vs h
      refine ⟨List.replicate n 0 ++ rest, by simp only [structPack, hrest, Option.map_some], ?_, ?_⟩
      · rw [List.length_append, List.length_replicate, hrlen]
        rfl
      · rw [unpackFrom, List.drop_left' List.length_replicate, hrun]
    | s | H | I | Q =>
      cases vs with
      | nil => exact h.elim
      | cons v vs => exact hcode (by intro n h; cases h) v vs h.1 h.2

/-- The values of a format with their offsets. -/
def spans : Nat → List Code → List (Code × Nat)
  | _, [] => []
  | off, .x n :: fmt => spans (off + n) fmt
  | off, c :: fmt => (c, off) :: spans (off + c.size) fmt

/-- Unpacking reads each value at its offset. -/
theorem unpackFrom_drop (fmt : List Code) (bs : List Byte) : ∀ off,
    unpackFrom fmt (bs.drop off) =
      (spans off fmt).map fun p => p.1.unpack (slice bs p.2 p.1.size) := by
  induction fmt with
  | nil => intro off; rfl
  | cons c fmt ih =>
    intro off
    cases c with
    | x n => rw [unpackFrom, List.drop_drop, ih, spans]
    | s | H | I | Q =>
      rw [unpackFrom_cons (by intro n h; cases h), List.drop_drop, ih]
      rfl

theorem unpack_eq_spans {fmt : List Code} {bs : List Byte} (h : bs.length = calcsize fmt) :
    structUnpack fmt bs =
      some ((spans 0 fmt).map fun p => p.1.unpack (slice bs p.2 p.1.size)) := by
  rw [structUnpack, if_pos h, ← unpackFrom_drop, List.drop_zero]

/-! ## Structs -/

/-- The type of a member. -/
inductive CType where
  /-- `uint8_t [n]`. -/
  | u8s (n : Nat)
  | u16 | u32 | u64
  deriving DecidableEq, Repr

namespace CType

def size : CType → Nat
  | .u8s n => n
  | .u16 => 2
  | .u32 => 4
  | .u64 => 8

def align : CType → Nat
  | .u8s _ => 1
  | .u16 => 2
  | .u32 => 4
  | .u64 => 8

/-- The item that a format has for the type. -/
def code : CType → Code
  | .u8s n => .s n
  | .u16 => .H
  | .u32 => .I
  | .u64 => .Q

end CType

/-- The next multiple of the alignment. -/
def alignUp (off align : Nat) : Nat := (off + (align - 1)) / align * align

/-- The members of a struct with their offsets, the first one at `off` or behind it. -/
def place {ι : Type} : Nat → List (ι × CType) → List (ι × CType × Nat)
  | _, [] => []
  | off, (f, t) :: fs => (f, t, alignUp off t.align) :: place (alignUp off t.align + t.size) fs

/-- `sizeof`: the end of the last member, aligned as the strictest of them. -/
def sizeof {ι : Type} (fs : List (ι × CType)) : Nat :=
  alignUp (((place 0 fs).map fun p => p.2.2 + p.2.1.size).foldl max 0)
    ((fs.map fun p => p.2.align).foldl max 1)

end Layout
