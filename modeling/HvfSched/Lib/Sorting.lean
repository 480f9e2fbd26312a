import Mathlib.Data.List.Sort

/-!
# Sorting in place, by comparing and swapping

A C library sort is handed an array, a function that compares two entries and a
function that swaps two entries; it moves nothing by itself. Whatever algorithm
it uses, the array it leaves is reached from the one it was given by swaps
(`Swapped`), so it is a permutation as soon as a swap is one.

`SortLib cmp swap` is a sort for one comparison and one swap. Where it puts
entries that compare equal is left open: two sorts may differ in that, but not
in the keys they leave at each position (`SortLib.keys_eq`).
`SortLib.insertion` is one that can be run.
-/

namespace HvfSched.Lib

variable {α κ : Type} {l l' : List α}

/-- A function that swaps the entries at two positions. -/
abbrev SwapFn (α : Type) := (l : List α) → Fin l.length → Fin l.length → List α

/-- The second array is reached from the first one by swaps. -/
inductive Swapped (swap : SwapFn α) : List α → List α → Prop
  | refl (l : List α) : Swapped swap l l
  | step {l l' : List α} (i j : Fin l.length) (h : Swapped swap (swap l i j) l') :
      Swapped swap l l'

/-- A swap loses nothing and invents nothing. -/
def Permutes (swap : SwapFn α) : Prop := ∀ l i j, (swap l i j).Perm l

theorem Swapped.perm {swap : SwapFn α} (hswap : Permutes swap) (h : Swapped swap l l') :
    l'.Perm l := by
  induction h with
  | refl l => exact .refl l
  | step i j _ ih => exact ih.trans (hswap _ i j)

/-- A library sort for one comparison function and one swap function. -/
structure SortLib (cmp : α → α → Int) (swap : SwapFn α) where
  sort : List α → List α
  swaps : ∀ l, Swapped swap l (sort l)
  sorted : ∀ l, (sort l).Pairwise fun a b => cmp a b ≤ 0

namespace SortLib

variable {cmp : α → α → Int} {swap : SwapFn α}

theorem perm (S : SortLib cmp swap) (hswap : Permutes swap) (l : List α) : (S.sort l).Perm l :=
  (S.swaps l).perm hswap

section Keys

variable [LinearOrder κ] {key : α → κ}

theorem keys_pairwise (S : SortLib cmp swap) (hkey : ∀ a b, cmp a b ≤ 0 ↔ key a ≤ key b)
    (l : List α) : ((S.sort l).map key).Pairwise (· ≤ ·) :=
  List.pairwise_map.mpr ((S.sorted l).imp fun h => (hkey _ _).mp h)

/-- The keys at the positions do not depend on the sort. -/
theorem keys_eq (S S' : SortLib cmp swap) (hkey : ∀ a b, cmp a b ≤ 0 ↔ key a ≤ key b)
    (hswap : Permutes swap) (l : List α) : (S.sort l).map key = (S'.sort l).map key := by
  have hperm : (S.sort l).Perm (S'.sort l) := (S.perm hswap l).trans (S'.perm hswap l).symm
  exact (hperm.map key).eq_of_pairwise (fun _ _ _ _ => le_antisymm) (S.keys_pairwise hkey l)
    (S'.keys_pairwise hkey l)

/-- Between two sorts of one array the keys still rise with the position. -/
theorem key_le (S S' : SortLib cmp swap) (hkey : ∀ a b, cmp a b ≤ 0 ↔ key a ≤ key b)
    (hswap : Permutes swap) {l : List α} {i j : Nat} {a b : α} (hij : i ≤ j)
    (ha : (S.sort l)[i]? = some a) (hb : (S'.sort l)[j]? = some b) : key a ≤ key b := by
  have ha' : ((S'.sort l).map key)[i]? = some (key a) := by
    rw [← keys_eq S S' hkey hswap, List.getElem?_map, ha]
    rfl
  have hb' : ((S'.sort l).map key)[j]? = some (key b) := by
    rw [List.getElem?_map, hb]
    rfl
  obtain ⟨hi, hgi⟩ := List.getElem?_eq_some_iff.mp ha'
  obtain ⟨hj, hgj⟩ := List.getElem?_eq_some_iff.mp hb'
  rw [← hgi, ← hgj]
  exact (List.sortedLE_iff_pairwise.mpr (S'.keys_pairwise hkey l)).getElem_le_getElem_of_le hij

end Keys

end SortLib

/-! ## A sort that can be run -/

/-- The swap of two entries. -/
def exchange (l : List α) (i j : Fin l.length) : List α := (l.set i (l.get j)).set j (l.get i)

theorem exchange_permutes : Permutes (@exchange α) := by
  intro l i j
  exact List.set_set_perm i.isLt j.isLt

theorem Swapped.trans {swap : SwapFn α} {l₁ l₂ l₃ : List α} (h : Swapped swap l₁ l₂)
    (h' : Swapped swap l₂ l₃) : Swapped swap l₁ l₃ := by
  induction h with
  | refl => exact h'
  | step i j _ ih => exact .step i j (ih h')

/-- Swaps behind the first entry. -/
theorem Swapped.cons (a : α) (h : Swapped exchange l l') :
    Swapped exchange (a :: l) (a :: l') := by
  induction h with
  | refl l => exact .refl _
  | step i j _ ih => exact .step i.succ j.succ ih

/-- Every permutation is made of swaps. -/
theorem swapped_of_perm (h : l.Perm l') : Swapped exchange l l' := by
  induction h with
  | nil => exact .refl []
  | cons a _ ih => exact ih.cons a
  | swap a b l => exact .step ⟨0, by simp⟩ ⟨1, by simp⟩ (.refl _)
  | trans _ _ ih ih' => exact ih.trans ih'

/-- Insertion sort, for a comparison that agrees with the order of a key. -/
def SortLib.insertion [LinearOrder κ] (cmp : α → α → Int) (key : α → κ)
    (hkey : ∀ a b, cmp a b ≤ 0 ↔ key a ≤ key b) : SortLib cmp (@exchange α) where
  sort := List.insertionSort fun a b => key a ≤ key b
  swaps l := swapped_of_perm (List.perm_insertionSort _ l).symm
  sorted l := by
    have : Std.Total (fun a b : α => key a ≤ key b) := ⟨fun a b => le_total _ _⟩
    have : IsTrans α (fun a b : α => key a ≤ key b) := ⟨fun a b c => le_trans⟩
    exact (List.pairwise_insertionSort _ l).imp fun h => (hkey _ _).mpr h

end HvfSched.Lib
