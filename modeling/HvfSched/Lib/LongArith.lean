/-!
# Signed 64-bit C arithmetic: wrapping and checked

A kernel built with wrap-around `long` arithmetic computes every sum,
difference and product modulo `2^64`; only a division can stop it. Saying
that a computation *performs no overflow* needs the same computation read a
second way, with overflow as an error. `LongOps` is that choice made once:
a function written over an `ops : LongOps` is run as `wrapv` (the machine)
or as `strict` (the machine plus an overflow check), and nothing is written
twice.

* `toInt_add_of_fits` and its siblings: an operation whose exact result
  fits in 64 bits is exact.
* `checked_eq_ok`: what a successful strict operation says about its exact
  result.
* `diffInt`: the difference of two longs cut down to a C `int`, as a
  comparison function that returns `int` does; `diffInt_le_zero_iff` says
  when its sign is right.
-/

namespace HvfSched.Lib

/-- A C `long` on a 64-bit machine. -/
abbrev Long := Int64

/-- The exact value fits in a `long`: it is at least `-2^63` and below `2^63`. -/
def Fits (x : Int) : Prop := -9223372036854775808 ≤ x ∧ x < 9223372036854775808

instance (x : Int) : Decidable (Fits x) := inferInstanceAs (Decidable (_ ∧ _))

/-- What can go wrong in an arithmetic operation: a result outside the type
(only `strict` reports it), or a quotient the divide instruction traps on. -/
inductive Trap
  | overflow
  | divide
  deriving DecidableEq, Repr

/-- One reading of the four operations of `long`. -/
structure LongOps where
  add : Long → Long → Except Trap Long
  sub : Long → Long → Except Trap Long
  mul : Long → Long → Except Trap Long
  div : Long → Long → Except Trap Long

/-- The machine's division: it traps on a zero divisor, and on the one
quotient that does not fit. -/
def machineDiv (a b : Long) : Except Trap Long :=
  if b = 0 ∨ (a = Int64.minValue ∧ b = -1) then .error .divide else .ok (a / b)

/-- Wrap-around arithmetic. -/
def wrapv : LongOps where
  add a b := .ok (a + b)
  sub a b := .ok (a - b)
  mul a b := .ok (a * b)
  div := machineDiv

/-- `v`, unless the exact result `x` it stands for does not fit. -/
def checked (x : Int) (v : Long) : Except Trap Long :=
  if Fits x then .ok v else .error .overflow

/-- The same arithmetic with overflow as an error. -/
def strict : LongOps where
  add a b := checked (a.toInt + b.toInt) (a + b)
  sub a b := checked (a.toInt - b.toInt) (a - b)
  mul a b := checked (a.toInt * b.toInt) (a * b)
  div := machineDiv

/-! ## Exactness -/

theorem fits_toInt (a : Long) : Fits a.toInt := ⟨a.le_toInt, a.toInt_lt⟩

/-- Reduction modulo `2^64` leaves a value that fits alone. -/
theorem bmod_of_fits {x : Int} (h : Fits x) : x.bmod 18446744073709551616 = x := by
  obtain ⟨h₁, h₂⟩ := h
  apply Int.bmod_eq_of_le_mul_two <;> omega

theorem toInt_add_of_fits {a b : Long} (h : Fits (a.toInt + b.toInt)) :
    (a + b).toInt = a.toInt + b.toInt := by
  rw [Int64.toInt_add]
  exact bmod_of_fits h

theorem toInt_sub_of_fits {a b : Long} (h : Fits (a.toInt - b.toInt)) :
    (a - b).toInt = a.toInt - b.toInt := by
  rw [Int64.toInt_sub]
  exact bmod_of_fits h

theorem toInt_mul_of_fits {a b : Long} (h : Fits (a.toInt * b.toInt)) :
    (a * b).toInt = a.toInt * b.toInt := by
  rw [Int64.toInt_mul]
  exact bmod_of_fits h

theorem checked_eq_ok {x : Int} {v w : Long} :
    checked x v = .ok w ↔ Fits x ∧ v = w := by
  unfold checked
  split
  next h => simp [h]
  next h => simp [h]

theorem machineDiv_eq_ok {a b c : Long} (h : machineDiv a b = .ok c) : b ≠ 0 ∧ c = a / b := by
  unfold machineDiv at h
  split at h
  next => cases h
  next hb =>
    injection h with h
    exact ⟨fun h0 => hb (Or.inl h0), h.symm⟩

/-- Division of a nonnegative long by a positive one is the exact floor. -/
theorem toInt_div_of_nonneg {a b : Long} (ha : 0 ≤ a.toInt) (hb : 0 < b.toInt) :
    (a / b).toInt = a.toInt / b.toInt := by
  rw [Int64.toInt_div, Int.tdiv_eq_ediv_of_nonneg ha]
  apply bmod_of_fits
  have hle : a.toInt / b.toInt ≤ a.toInt := Int.ediv_le_self _ ha
  have hge : 0 ≤ a.toInt / b.toInt := Int.ediv_nonneg ha (Int.le_of_lt hb)
  have hlt := a.toInt_lt
  exact ⟨by omega, by omega⟩

/-- Division by a positive long is the exact truncated quotient. -/
theorem toInt_div_of_pos {a b : Long} (hb : 0 < b.toInt) :
    (a / b).toInt = a.toInt.tdiv b.toInt := by
  rw [Int64.toInt_div]
  apply bmod_of_fits
  obtain ⟨hlo, hhi⟩ := fits_toInt a
  have habs := Int.natAbs_tdiv_le_natAbs a.toInt b.toInt
  by_cases hzero : a.toInt.tdiv b.toInt < 9223372036854775808
  · exact ⟨by omega, hzero⟩
  · -- only a negative dividend reaches this size, and its quotient is negative
    have hneg : a.toInt < 0 := by omega
    have hquot : a.toInt.tdiv b.toInt ≤ 0 := by
      have hpos : 0 ≤ (-a.toInt).tdiv b.toInt := Int.tdiv_nonneg (by omega) (Int.le_of_lt hb)
      rw [Int.neg_tdiv] at hpos
      omega
    omega

/-- A positive divisor never traps. -/
theorem machineDiv_of_pos {a b : Long} (hb : 0 < b.toInt) : machineDiv a b = .ok (a / b) := by
  unfold machineDiv
  rw [if_neg]
  rintro (h | ⟨-, h⟩)
  · rw [h] at hb
    exact absurd hb (by decide)
  · rw [h] at hb
    exact absurd hb (by decide)

/-- A conversion to an unsigned type keeps a nonnegative value. -/
theorem toUInt64_of_nonneg {a : Long} (ha : 0 ≤ a.toInt) : (a.toUInt64.toNat : Int) = a.toInt :=
  (BitVec.toInt_eq_toNat_of_lt (BitVec.toInt_pos_iff.mp ha)).symm

/-! ## Comparing through a C `int` -/

/-- The difference of two longs, stored in an `int`. -/
def diffInt (a b : Long) : Int32 := (a - b).toInt32

/-- Two longs close enough for their difference to be an `int`: they are less
than `2^31` apart. -/
def Near (a b : Long) : Prop :=
  -2147483648 < a.toInt - b.toInt ∧ a.toInt - b.toInt < 2147483648

instance (a b : Long) : Decidable (Near a b) := inferInstanceAs (Decidable (_ ∧ _))

/-- The `int` difference of near longs has the right sign. -/
theorem diffInt_le_zero_iff {a b : Long} (h : Near a b) : diffInt a b ≤ 0 ↔ a ≤ b := by
  obtain ⟨h₁, h₂⟩ := h
  have hsub : (a - b).toInt = a.toInt - b.toInt := toInt_sub_of_fits ⟨by omega, by omega⟩
  have hcut : (diffInt a b).toInt = a.toInt - b.toInt := by
    rw [diffInt, Int64.toInt_toInt32, hsub]
    apply Int.bmod_eq_of_le_mul_two <;> omega
  rw [Int32.le_iff_toInt_le, hcut, Int64.le_iff_toInt_le]
  show a.toInt - b.toInt ≤ 0 ↔ a.toInt ≤ b.toInt
  omega

end HvfSched.Lib
