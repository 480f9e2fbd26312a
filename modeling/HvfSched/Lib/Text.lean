import Mathlib.Data.List.Infix
import Mathlib.Data.List.Basic

/-!
# Text with separators and numbers

What is needed to print records as lines of text and to read them back: a
decimal notation for integers with its reader, and how a line splits into
fields when something is put in front of it.
-/

namespace HvfSched.Lib

abbrev Text := List Char

/-! ## Numbers -/

/-- Decimal notation. -/
def showInt (x : Int) : Text :=
  if x < 0 then '-' :: Nat.toDigits 10 x.natAbs else Nat.toDigits 10 x.natAbs

def readNat (t : Text) : Option Nat :=
  if t ≠ [] ∧ t.all Char.isDigit = true then some (Nat.ofDigitChars 10 t 0) else none

def readInt : Text → Option Int
  | '-' :: t => (readNat t).map fun n => -Int.ofNat n
  | t => (readNat t).map Int.ofNat

theorem isDigit_toDigits {n : Nat} {c : Char} (h : c ∈ Nat.toDigits 10 n) : c.isDigit = true :=
  Nat.isDigit_of_mem_toDigits (by omega) (by omega) h

theorem readNat_toDigits (n : Nat) : readNat (Nat.toDigits 10 n) = some n := by
  have hall : (Nat.toDigits 10 n).all Char.isDigit = true :=
    List.all_eq_true.mpr fun _ h => isDigit_toDigits h
  rw [readNat, if_pos ⟨Nat.toDigits_ne_nil, hall⟩, Nat.ofDigitChars_toDigits (by omega) (by omega)]

/-- Digits are read as a natural number. -/
theorem readInt_of_digits {t : Text} (h : ∀ c ∈ t, c.isDigit = true) :
    readInt t = (readNat t).map Int.ofNat := by
  unfold readInt
  split
  next t => exact absurd (h '-' List.mem_cons_self) (by decide)
  next => rfl

theorem readInt_showInt (x : Int) : readInt (showInt x) = some x := by
  unfold showInt
  split
  next hneg =>
    rw [readInt, readNat_toDigits, Option.map_some]
    have habs : -Int.ofNat x.natAbs = x := by
      rw [Int.ofNat_eq_natCast]
      omega
    rw [habs]
  next hpos =>
    rw [readInt_of_digits fun _ h => isDigit_toDigits h, readNat_toDigits, Option.map_some]
    exact congrArg some (Int.natAbs_of_nonneg (Int.not_lt.mp hpos))

/-- A text with a character that belongs to no number is refused. -/
theorem readInt_eq_none {t : Text} {c : Char} (hc : c ∈ t) (hdigit : c.isDigit = false)
    (hsign : c ≠ '-') : readInt t = none := by
  have hnat : ∀ t : Text, c ∈ t → readNat t = none := by
    intro t hc
    refine if_neg fun h => ?_
    rw [List.all_eq_true.mp h.2 c hc] at hdigit
    cases hdigit
  unfold readInt
  split
  next t =>
    rw [hnat t ((List.mem_cons.mp hc).resolve_left hsign)]
    rfl
  next =>
    rw [hnat _ hc]
    rfl

theorem not_mem_showInt {c : Char} (hdigit : c.isDigit = false) (hsign : c ≠ '-') (x : Int) :
    c ∉ showInt x := by
  intro hc
  have h := readInt_eq_none hc hdigit hsign
  rw [readInt_showInt] at h
  cases h

theorem showInt_injective : Function.Injective showInt := by
  intro x y h
  have hread := congrArg readInt h
  rw [readInt_showInt, readInt_showInt] at hread
  exact Option.some.inj hread

/-! ## Fields -/

variable {α : Type} [BEq α] [LawfulBEq α] {sep : α}

/-- No field has a separator in it. -/
theorem not_mem_of_mem_splitOn {l f : List α} (h : f ∈ List.splitOn sep l) : sep ∉ f := by
  induction l generalizing f with
  | nil =>
    rw [List.splitOn_eq_singleton List.not_mem_nil, List.mem_singleton] at h
    rw [h]
    exact List.not_mem_nil
  | cons y l ih =>
    rw [List.splitOn_cons_eq_if_modifyHead] at h
    split at h
    next =>
      rcases List.mem_cons.mp h with rfl | h
      · exact List.not_mem_nil
      · exact ih h
    next hy =>
      cases hl : List.splitOn sep l with
      | nil => exact absurd hl (List.splitOn_ne_nil sep l)
      | cons g gs =>
        rw [hl, List.modifyHead_cons] at h
        rcases List.mem_cons.mp h with rfl | h
        · -- the first field gets the character
          intro hmem
          rcases List.mem_cons.mp hmem with rfl | hmem
          · exact hy (beq_self_eq_true _)
          · exact ih (hl ▸ List.mem_cons_self) hmem
        · exact ih (hl ▸ List.mem_cons_of_mem g h)

/-- A line split into fields: there is one field for each separator, and then
the last one. What is put behind the line and has no separator goes to the last
field. -/
theorem splitOn_append_last (pre : List α) {f : List α} (hf : sep ∉ f) :
    ∃ init last, init.length = pre.count sep ∧ List.splitOn sep pre = init ++ [last] ∧
      List.splitOn sep (pre ++ f) = init ++ [last ++ f] := by
  induction pre with
  | nil =>
    exact ⟨[], [], rfl, List.splitOn_eq_singleton List.not_mem_nil, List.splitOn_eq_singleton hf⟩
  | cons y pre ih =>
    obtain ⟨init, last, hlen, hpre, hsplit⟩ := ih
    rw [List.cons_append, List.splitOn_cons_eq_if_modifyHead, List.splitOn_cons_eq_if_modifyHead,
      hpre, hsplit]
    by_cases hy : y = sep
    · refine ⟨[] :: init, last, ?_, ?_, ?_⟩
      · rw [hy, List.count_cons_self, List.length_cons, hlen]
      · rw [hy]
        simp
      · rw [hy]
        simp
    · have hne : (y == sep) = false := beq_eq_false_iff_ne.mpr hy
      have hcount : (y :: pre).count sep = pre.count sep := List.count_cons_of_ne hy
      rw [hne]
      cases init with
      | nil => exact ⟨[], y :: last, hlen.trans hcount.symm, rfl, rfl⟩
      | cons i init => exact ⟨(y :: i) :: init, last, hlen.trans hcount.symm, rfl, rfl⟩

end HvfSched.Lib
