import Mathlib.Data.Nat.Basic

/-!
# Bytes in memory

Numbers as little-endian bytes, and memory as a function from addresses to
bytes. `writeBytes` overwrites a range; what is written in two pieces side by
side is written at once (`writeBytes_append`), and what has been written is
what is read (`readBytes_writeBytes`).
-/

namespace HvfSched.Lib

/-! ## Numbers -/

/-- The lowest `k` bytes of `n`, the least significant first. -/
def toBytes : Nat → Nat → List UInt8
  | 0, _ => []
  | k + 1, n => UInt8.ofNat n :: toBytes k (n / 256)

def ofBytes : List UInt8 → Nat
  | [] => 0
  | b :: bs => b.toNat + 256 * ofBytes bs

@[simp] theorem length_toBytes (k n : Nat) : (toBytes k n).length = k := by
  induction k generalizing n with
  | zero => rfl
  | succ k ih => simp [toBytes, ih]

/-- Reading back keeps what fits in `k` bytes. -/
theorem ofBytes_toBytes (k n : Nat) : ofBytes (toBytes k n) = n % Nat.pow 256 k := by
  induction k generalizing n with
  | zero => exact (Nat.mod_one n).symm
  | succ k ih =>
    have hlow : (UInt8.ofNat n).toNat = n % 256 := rfl
    have hpow : Nat.pow 256 (k + 1) = 256 * Nat.pow 256 k := Nat.mul_comm _ _
    rw [toBytes, ofBytes, ih, hlow, hpow, Nat.mod_mul]

/-! ## Memory -/

abbrev Memory := Nat → UInt8

/-- `bs` is written from address `a` on. -/
def writeBytes (m : Memory) (a : Nat) (bs : List UInt8) : Memory :=
  fun x => if a ≤ x then (bs[x - a]?).getD (m x) else m x

/-- The `k` bytes at address `a`. -/
def readBytes (m : Memory) (a k : Nat) : List UInt8 := (List.range k).map fun i => m (a + i)

variable {m : Memory} {a : Nat}

@[simp] theorem writeBytes_nil : writeBytes m a [] = m := by
  funext x
  simp [writeBytes]

/-- Memory outside the range is as it was. -/
theorem writeBytes_outside {bs : List UInt8} {x : Nat} (h : x < a ∨ a + bs.length ≤ x) :
    writeBytes m a bs x = m x := by
  unfold writeBytes
  split
  next hle =>
    rw [List.getElem?_eq_none (by omega)]
    rfl
  next => rfl

/-- Two writes side by side. -/
theorem writeBytes_append (bs bs' : List UInt8) :
    writeBytes (writeBytes m a bs) (a + bs.length) bs' = writeBytes m a (bs ++ bs') := by
  funext x
  by_cases hlo : a ≤ x
  · by_cases hmid : a + bs.length ≤ x
    · have hold : writeBytes m a bs x = m x := writeBytes_outside (Or.inr hmid)
      show (if a + bs.length ≤ x then (bs'[x - (a + bs.length)]?).getD (writeBytes m a bs x)
        else writeBytes m a bs x) = if a ≤ x then ((bs ++ bs')[x - a]?).getD (m x) else m x
      rw [if_pos hmid, if_pos hlo, hold, List.getElem?_append_right (by omega), Nat.sub_sub]
    · rw [writeBytes_outside (Or.inl (by omega))]
      show (if a ≤ x then (bs[x - a]?).getD (m x) else m x)
        = if a ≤ x then ((bs ++ bs')[x - a]?).getD (m x) else m x
      rw [List.getElem?_append_left (by omega)]
  · rw [writeBytes_outside (Or.inl (by omega)), writeBytes_outside (Or.inl (by omega)),
      writeBytes_outside (Or.inl (by omega))]

/-- What has been written is read. -/
theorem readBytes_writeBytes (bs : List UInt8) (i k : Nat) (h : i + k ≤ bs.length) :
    readBytes (writeBytes m a bs) (a + i) k = (bs.drop i).take k := by
  apply List.ext_getElem?
  intro j
  by_cases hj : j < k
  · have hidx : a + i + j - a = i + j := by omega
    simp only [readBytes, writeBytes, List.getElem?_map, List.getElem?_range hj, Option.map_some,
      List.getElem?_take, if_pos hj, List.getElem?_drop, hidx, if_pos (show a ≤ a + i + j by omega)]
    rw [List.getElem?_eq_getElem (by omega)]
    rfl
  · rw [List.getElem?_eq_none (by simp [readBytes]; omega),
      List.getElem?_eq_none (by simp; omega)]

end HvfSched.Lib
