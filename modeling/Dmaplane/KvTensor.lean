import Dmaplane.Lib.Paged
import Dmaplane.Lib.Strided

/-!
# Dmaplane.KvTensor

The tensor operations of `examples/kvcache/kvcache_inference.py`, with the meaning that PyTorch
documents for them: a tensor is a strided view of a storage of bytes, `view`, slicing and
`as_strided` make other views of the same storage, and `copy_` writes it.

`viewDtype`, `narrow` and `copy_` are the one-dimensional cases, which are the ones used.
-/

namespace Dmaplane

open Paged Strided

/-- What a call raises. -/
inductive PyErr where
  | assertionError
  | runtimeError
  | valueError
  deriving DecidableEq, Repr

inductive Dtype where
  | uint8 | int8 | bool | int16 | float16 | bfloat16 | int32 | float32 | int64 | float64
  | complex64 | complex128
  deriving DecidableEq, Repr

def Dtype.elementSize : Dtype → Nat
  | uint8 | int8 | bool => 1
  | int16 | float16 | bfloat16 => 2
  | int32 | float32 => 4
  | int64 | float64 | complex64 => 8
  | complex128 => 16

theorem Dtype.elementSize_pos (d : Dtype) : 0 < d.elementSize := by
  cases d <;> decide

structure Tensor where
  storage : List (BitVec 8)
  dtype : Dtype
  /-- `storage_offset()`, in elements. -/
  offset : Nat
  shape : List Nat
  /-- In elements. -/
  strides : List Nat
  isCuda : Bool
  deriving DecidableEq

namespace Tensor

def nelement (t : Tensor) : Nat := t.shape.prod

def elementSize (t : Tensor) : Nat := t.dtype.elementSize

def nbytes (t : Tensor) : Nat := t.nelement * t.elementSize

def isContiguous (t : Tensor) : Bool := t.nelement = 0 || contiguous t.shape t.strides

/-- The bytes of the element at an index. -/
def elem (t : Tensor) (idx : List Nat) : List (BitVec 8) :=
  slice t.storage ((t.offset + dot idx t.strides) * t.elementSize) t.elementSize

/-- The bytes of a contiguous tensor, in order. -/
def bytes (t : Tensor) : List (BitVec 8) :=
  slice t.storage (t.offset * t.elementSize) t.nbytes

/-- `torch.equal`, with the dtype: the same shape and the same elements. -/
structure Same (t t' : Tensor) : Prop where
  dtype : t'.dtype = t.dtype
  shape : t'.shape = t.shape
  elem : ∀ idx, InShape idx t.shape → t'.elem idx = t.elem idx

theorem Same.trans {t t' t'' : Tensor} (h : t.Same t') (h' : t'.Same t'') : t.Same t'' :=
  ⟨h'.dtype.trans h.dtype, h'.shape.trans h.shape,
    fun idx hi => (h'.elem idx (by rw [h.shape]; exact hi)).trans (h.elem idx hi)⟩

/-- `view(-1)`. -/
def viewFlat (t : Tensor) : Except PyErr Tensor :=
  if t.isContiguous then .ok { t with shape := [t.nelement], strides := [1] }
  else .error .runtimeError

/-- `view(dtype)`: the last dimension must have stride 1; to larger elements, its size and the
storage offset must be multiples of the ratio. -/
def viewDtype (t : Tensor) (d : Dtype) : Except PyErr Tensor :=
  match t.shape, t.strides with
  | [n], [s] =>
    if d.elementSize = t.elementSize then .ok { t with dtype := d }
    else if s ≠ 1 then .error .runtimeError
    else if d.elementSize < t.elementSize then
      let ratio := t.elementSize / d.elementSize
      .ok { t with dtype := d, offset := t.offset * ratio, shape := [n * ratio] }
    else
      let ratio := d.elementSize / t.elementSize
      if n % ratio = 0 ∧ t.offset % ratio = 0 then
        .ok { t with dtype := d, offset := t.offset / ratio, shape := [n / ratio] }
      else .error .runtimeError
  | _, _ => .error .runtimeError

/-- `t[a:b]`, with the bounds cut off at the size. -/
def narrow (t : Tensor) (a b : Nat) : Tensor :=
  match t.shape, t.strides with
  | [n], [s] => { t with offset := t.offset + min a n * s, shape := [min b n - min a n] }
  | _, _ => t

/-- `dst.copy_(src)` of two contiguous tensors of one dtype: `src` must have the size of
`dst`, or one element that is copied to all of `dst`. -/
def copy_ (dst src : Tensor) : Except PyErr Tensor :=
  if src.nelement = dst.nelement then
    .ok { dst with storage := splice dst.storage (dst.offset * dst.elementSize) src.bytes }
  else if src.nelement = 1 then
    .ok { dst with
      storage := splice dst.storage (dst.offset * dst.elementSize)
        (List.replicate dst.nelement src.bytes).flatten }
  else .error .runtimeError

/-- `torch.as_strided(t, shape, strides)`, which checks the storage but not the size of `t`. -/
def asStrided (t : Tensor) (shape strides : List Nat) : Except PyErr Tensor :=
  if shape.prod = 0 ∨
      (t.offset + farthest shape strides + 1) * t.elementSize ≤ t.storage.length then
    .ok { t with shape := shape, strides := strides }
  else .error .runtimeError

end Tensor

/-- An element of a contiguous tensor, by its place in the bytes. -/
theorem elem_eq_slice_bytes {t : Tensor} (hc : t.isContiguous = true) {idx : List Nat}
    (hi : InShape idx t.shape) :
    t.elem idx = slice t.bytes (dot idx (rowMajor t.shape) * t.elementSize) t.elementSize := by
  have hlt := dot_rowMajor_lt hi
  have hdot : dot idx t.strides = dot idx (rowMajor t.shape) := by
    have hne : t.nelement ≠ 0 := by
      intro h0
      rw [Tensor.nelement] at h0
      omega
    simp only [Tensor.isContiguous, hne, decide_false, Bool.false_or] at hc
    exact dot_of_contiguous hi hc
  have hfit : dot idx (rowMajor t.shape) * t.elementSize + t.elementSize ≤ t.nbytes := by
    calc dot idx (rowMajor t.shape) * t.elementSize + t.elementSize
        = (dot idx (rowMajor t.shape) + 1) * t.elementSize := (Nat.succ_mul _ _).symm
      _ ≤ t.nbytes := Nat.mul_le_mul_right _ hlt
  rw [Tensor.elem, Tensor.bytes, slice_slice _ hfit, hdot, Nat.add_mul]

/-- Contiguous tensors of one dtype and shape are the same when their bytes are. -/
theorem same_of_bytes {t t' : Tensor} (hc : t.isContiguous = true) (hc' : t'.isContiguous = true)
    (hd : t'.dtype = t.dtype) (hs : t'.shape = t.shape) (hb : t'.bytes = t.bytes) :
    t.Same t' := by
  refine ⟨hd, hs, ?_⟩
  intro idx hi
  have hes : t'.elementSize = t.elementSize := by rw [Tensor.elementSize, Tensor.elementSize, hd]
  rw [elem_eq_slice_bytes hc hi, elem_eq_slice_bytes hc' (by rw [hs]; exact hi), hb, hs, hes]

end Dmaplane
