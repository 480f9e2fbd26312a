import HvfSched.Lib.Bytes
import HvfSched.Model.Value

/-!
# Parameters in user memory

`get_scheduling_params` (`my_sched_syscalls/sched_sys.c`) copies the parameters
of the calling task into a `struct d_params` of the caller, one field after the
other.

The address space is that of the caller. Which addresses pass `access_ok`,
which ones can be written, and how many bytes `copy_to_user` gets through before
it meets one that cannot, is decided outside the repository (`UserSpace`); the
code relies on `copy_to_user` returning the number of bytes it did not copy.
Addresses are `Nat`: what passes `access_ok` is far from the end of the range.
-/

namespace HvfSched

open Lib

def EFAULT : Int := 14

/-- The address space of the caller: `copied a n` of the `n` bytes for address
`a` are written. -/
structure UserSpace where
  accessOk : Nat → Nat → Bool
  writable : Nat → Bool
  copied : Nat → Nat → Nat
  /-- a part of an accessible range is accessible -/
  accessOk_sub : ∀ a n i k, accessOk a n = true → i + k ≤ n → accessOk (a + i) k = true
  copied_le : ∀ a n, copied a n ≤ n
  copied_writable : ∀ a n i, i < copied a n → writable (a + i) = true
  copied_all : ∀ a n, (∀ i < n, writable (a + i) = true) → copied a n = n

/-- `copy_to_user`: how many bytes were not copied. -/
def copyToUser (U : UserSpace) (dest : Nat) (bytes : List UInt8) (m : Memory) : Nat × Memory :=
  if U.accessOk dest bytes.length then
    let n := U.copied dest bytes.length
    (bytes.length - n, writeBytes m dest (bytes.take n))
  else (bytes.length, m)

/-- A `long` as it lies in memory. -/
def encodeLong (x : Long) : List UInt8 := toBytes 8 x.toUInt64.toNat

def decodeLong (bytes : List UInt8) : Long := (UInt64.ofNat (ofBytes bytes)).toInt64

/-- `sizeof(long)`, and `sizeof(struct d_params)`. -/
def sizeofLong : Nat := 8
def sizeofParams : Nat := 24

/-- `get_scheduling_params`, of the calling task `t`. -/
def getSchedulingParams (U : UserSpace) (t : TaskStruct) (params : Nat) (m : Memory) :
    Int × Memory :=
  if params ≠ 0 ∧ U.accessOk params sizeofParams = true then
    let r₁ := copyToUser U params (encodeLong t.deadline1) m
    if r₁.1 ≠ 0 then (-EFAULT, r₁.2)
    else
      let r₂ := copyToUser U (params + sizeofLong) (encodeLong t.deadline2) r₁.2
      if r₂.1 ≠ 0 then (-EFAULT, r₂.2)
      else
        let r₃ := copyToUser U (params + 2 * sizeofLong) (encodeLong t.computationTime) r₂.2
        if r₃.1 ≠ 0 then (-EFAULT, r₃.2) else (0, r₃.2)
  else (-EINVAL, m)

end HvfSched
