import Mathlib.Data.List.Sort

/-!
# Linked binary search trees, seen through their in-order sequence

An intrusive search tree has two halves. The user of the tree writes the
descent that finds the link for a new node (`linkLeaf`); a balancing library
then recolours and rotates, and later unlinks nodes (`RbLib`). The library
half is a parameter: all that is assumed of it is that balancing keeps the
in-order sequence and that erasing a linked node removes exactly that node
from it. Neighbours (`succIn`, `predIn`) and the last node are read off the
sequence.

Two facts carry everything above this file:

* `linkLeaf_toList_split`: whatever the descent decides, the new node lands
  at one place of the sequence and the rest keeps its order.
* `linkLeaf_toList_sorted`: over a sorted sequence, a descent that goes left
  on "not above" is `List.orderedInsert`, so equal keys go before the ones
  already there.
-/

namespace HvfSched.Lib

variable {α : Type}

/-- A binary tree of linked nodes. -/
inductive OrdTree (α : Type)
  | nil
  | node (left : OrdTree α) (x : α) (right : OrdTree α)
  deriving DecidableEq, Repr

namespace OrdTree

/-- The in-order sequence. -/
def toList : OrdTree α → List α
  | nil => []
  | node l x r => l.toList ++ x :: r.toList

/-- Walk down from the root, left at a node `y` when `goLeft y`, and link `x`
at the empty place reached. -/
def linkLeaf (goLeft : α → Bool) (x : α) : OrdTree α → OrdTree α
  | nil => node nil x nil
  | node l y r =>
    if goLeft y then node (linkLeaf goLeft x l) y r else node l y (linkLeaf goLeft x r)

/-- `RB_EMPTY_ROOT`. -/
def isEmpty : OrdTree α → Bool
  | nil => true
  | node .. => false

@[simp] theorem toList_nil : (nil : OrdTree α).toList = [] := rfl

@[simp] theorem toList_node (l : OrdTree α) (x : α) (r : OrdTree α) :
    (node l x r).toList = l.toList ++ x :: r.toList := rfl

theorem isEmpty_iff (t : OrdTree α) : t.isEmpty = true ↔ t.toList = [] := by
  cases t with
  | nil => simp [isEmpty]
  | node l x r => simp [isEmpty]

theorem linkLeaf_toList_split (goLeft : α → Bool) (x : α) :
    ∀ t : OrdTree α, ∃ l₁ l₂, t.toList = l₁ ++ l₂ ∧
      (t.linkLeaf goLeft x).toList = l₁ ++ x :: l₂
  | nil => ⟨[], [], rfl, rfl⟩
  | node l y r => by
    by_cases hy : goLeft y = true
    · obtain ⟨l₁, l₂, h, h'⟩ := linkLeaf_toList_split goLeft x l
      refine ⟨l₁, l₂ ++ y :: r.toList, ?_, ?_⟩
      · simp [h]
      · simp [linkLeaf, hy, h']
    · obtain ⟨l₁, l₂, h, h'⟩ := linkLeaf_toList_split goLeft x r
      refine ⟨l.toList ++ y :: l₁, l₂, ?_, ?_⟩
      · simp [h]
      · simp [linkLeaf, hy, h']

/-- The tree that is one right spine. -/
def spine : List α → OrdTree α
  | [] => nil
  | x :: l => node nil x (spine l)

theorem spine_toList : ∀ l : List α, (spine l).toList = l
  | [] => rfl
  | x :: l => by simp [spine, spine_toList l]

end OrdTree

/-! ## Ordered insertion -/

section Sorted

variable {κ : Type} [LinearOrder κ] (key : α → κ)

/-- Inserting into the left part of a sorted sequence, when the pivot is not
below the new element. -/
theorem orderedInsert_append_left {x y : α} (l r : List α) (hy : key x ≤ key y) :
    (l ++ y :: r).orderedInsert (fun a b => key a ≤ key b) x
      = l.orderedInsert (fun a b => key a ≤ key b) x ++ y :: r := by
  induction l with
  | nil => simp [hy]
  | cons z l ih =>
    by_cases hz : key x ≤ key z
    · simp [hz]
    · simp [hz, ih]

/-- Inserting past a pivot that is strictly below the new element. -/
theorem orderedInsert_append_right {x y : α} (l r : List α)
    (hl : ∀ z ∈ l, key z ≤ key y) (hy : key y < key x) :
    (l ++ y :: r).orderedInsert (fun a b => key a ≤ key b) x
      = l ++ y :: r.orderedInsert (fun a b => key a ≤ key b) x := by
  induction l with
  | nil => simp [not_le.mpr hy]
  | cons z l ih =>
    have hz : ¬ key x ≤ key z :=
      not_le.mpr (lt_of_le_of_lt (hl z (List.mem_cons_self ..)) hy)
    have hrest := ih (fun w hw => hl w (List.mem_cons_of_mem _ hw))
    simp [hz, hrest]

theorem OrdTree.linkLeaf_toList_sorted (goLeft : α → Bool) (x : α) :
    ∀ t : OrdTree α, t.toList.Pairwise (fun a b => key a ≤ key b) →
      (∀ y ∈ t.toList, goLeft y = true ↔ key x ≤ key y) →
      (t.linkLeaf goLeft x).toList
        = t.toList.orderedInsert (fun a b => key a ≤ key b) x
  | .nil, _, _ => rfl
  | .node l y r, hs, hgo => by
    rw [OrdTree.toList_node] at hs hgo
    obtain ⟨hsl, hsr, hlr⟩ := List.pairwise_append.mp hs
    have hgol : ∀ z ∈ l.toList, goLeft z = true ↔ key x ≤ key z :=
      fun z hz => hgo z (List.mem_append_left _ hz)
    have hgor : ∀ z ∈ r.toList, goLeft z = true ↔ key x ≤ key z :=
      fun z hz => hgo z (List.mem_append_right _ (List.mem_cons_of_mem _ hz))
    have hgoy := hgo y (List.mem_append_right _ (List.mem_cons_self ..))
    rw [OrdTree.toList_node]
    by_cases hy : goLeft y = true
    · rw [orderedInsert_append_left key _ _ (hgoy.mp hy),
        ← OrdTree.linkLeaf_toList_sorted goLeft x l hsl hgol]
      simp [OrdTree.linkLeaf, hy]
    · have hlt : key y < key x := not_le.mp (fun h => hy (hgoy.mpr h))
      rw [orderedInsert_append_right key _ _
          (fun z hz => hlr z hz y (List.mem_cons_self ..)) hlt,
        ← OrdTree.linkLeaf_toList_sorted goLeft x r hsr.of_cons hgor]
      simp [OrdTree.linkLeaf, hy]

/-- A new element strictly above everything goes to the end. -/
theorem orderedInsert_of_all_lt {x : α} {l : List α} (h : ∀ y ∈ l, key y < key x) :
    l.orderedInsert (fun a b => key a ≤ key b) x = l ++ [x] := by
  induction l with
  | nil => rfl
  | cons y l ih =>
    have hy : ¬ key x ≤ key y := not_le.mpr (h y (List.mem_cons_self ..))
    have hrest := ih (fun z hz => h z (List.mem_cons_of_mem _ hz))
    simp [hy, hrest]

/-- A new element that is not above the last one leaves the last one last. -/
theorem getLast?_orderedInsert_of_le {x y : α} {l : List α}
    (hlast : l.getLast? = some y) (hxy : key x ≤ key y) :
    (l.orderedInsert (fun a b => key a ≤ key b) x).getLast? = some y := by
  obtain ⟨front, rfl⟩ := List.getLast?_eq_some_iff.mp hlast
  rw [orderedInsert_append_left key front [] hxy]
  simp

end Sorted

/-! ## Neighbours in the sequence -/

variable [DecidableEq α]

/-- The element after `x`. -/
def succIn (x : α) : List α → Option α
  | a :: b :: l => if a = x then some b else succIn x (b :: l)
  | _ => none

/-- The element before `x`. -/
def predIn (x : α) : List α → Option α
  | a :: b :: l => if b = x then some a else predIn x (b :: l)
  | _ => none

theorem succIn_mem {x y : α} : ∀ {l : List α}, succIn x l = some y → y ∈ l
  | [], h => by cases h
  | [a], h => by cases h
  | a :: b :: l, h => by
    rw [succIn] at h
    split at h
    next =>
      injection h with h
      rw [← h]
      exact List.mem_cons_of_mem _ (List.mem_cons_self ..)
    next => exact List.mem_cons_of_mem _ (succIn_mem h)

/-- In a sequence without repetition the element before `x` is another one,
so it is still there when `x` is gone. -/
theorem predIn_mem_erase {x y : α} : ∀ {l : List α}, l.Nodup → predIn x l = some y → y ∈ l.erase x
  | [], _, h => by cases h
  | [a], _, h => by cases h
  | a :: b :: l, hnd, h => by
    obtain ⟨ha, hnd'⟩ := List.nodup_cons.mp hnd
    rw [predIn] at h
    split at h
    next hb =>
      injection h with h
      have hax : a ≠ x := fun e => ha (by simp [e, hb])
      rw [List.erase_cons_tail (by simpa using hax), ← h]
      exact List.mem_cons_self ..
    next hb =>
      have hrest := predIn_mem_erase hnd' h
      by_cases hax : a = x
      · rw [hax, List.erase_cons_head]
        exact List.mem_of_mem_erase hrest
      · rw [List.erase_cons_tail (by simpa using hax)]
        exact List.mem_cons_of_mem _ hrest

theorem succIn_append_pair {x y : α} :
    ∀ {l : List α}, x ∉ l → succIn x (l ++ [x, y]) = some y
  | [], _ => by simp [succIn]
  | [a], h => by
    have ha : a ≠ x := fun e => h (by simp [e])
    simp [succIn, ha]
  | a :: b :: l, h => by
    have ha : a ≠ x := fun e => h (by simp [e])
    have hrest : x ∉ b :: l := fun hm => h (List.mem_cons_of_mem _ hm)
    have ih := succIn_append_pair (y := y) hrest
    simpa [succIn, ha] using ih

theorem predIn_append_pair {x y : α} :
    ∀ {l : List α}, x ∉ l → x ≠ y → predIn x (l ++ [y, x]) = some y
  | [], _, hxy => by simp [predIn]
  | [a], h, hxy => by
    simp [predIn, Ne.symm hxy]
  | a :: b :: l, h, hxy => by
    have hb : b ≠ x := fun e => h (by simp [e])
    have hrest : x ∉ b :: l := fun hm => h (List.mem_cons_of_mem _ hm)
    have ih := predIn_append_pair hrest hxy
    simpa [predIn, hb] using ih

/-- Removing the last element: its predecessor becomes the last. -/
theorem getLast?_erase_last {x : α} {l : List α} (hnd : l.Nodup) (hx : l.getLast? = some x) :
    (l.erase x).getLast? = predIn x l := by
  obtain ⟨front, rfl⟩ := List.getLast?_eq_some_iff.mp hx
  have hxf : x ∉ front := fun h =>
    (List.nodup_append.mp hnd).2.2 x h x (List.mem_singleton.mpr rfl) rfl
  rw [List.erase_append_right [x] hxf, List.erase_cons_head, List.append_nil]
  rcases List.eq_nil_or_concat front with hnil | ⟨front', y, hf⟩
  · rw [hnil]
    rfl
  · rw [List.concat_eq_append] at hf
    subst hf
    have hxy : x ≠ y := fun h => hxf (by simp [h])
    have hxf' : x ∉ front' := fun h => hxf (List.mem_append_left _ h)
    rw [List.append_assoc]
    show _ = predIn x (front' ++ [y, x])
    rw [predIn_append_pair hxf' hxy]
    simp

/-- Removing another element leaves the last one last. -/
theorem getLast?_erase_ne {x y : α} {l : List α} (hy : l.getLast? = some y) (hxy : x ≠ y)
    (hx : x ∈ l) : (l.erase x).getLast? = some y := by
  obtain ⟨front, rfl⟩ := List.getLast?_eq_some_iff.mp hy
  have hxf : x ∈ front := by
    rcases List.mem_append.mp hx with h | h
    · exact h
    · exact absurd (List.mem_singleton.mp h) hxy
  rw [List.erase_append_left [y] hxf]
  simp

/-! ## The balancing library -/

/-- What is assumed of a red-black tree library: `insertColor` rebalances
after a leaf was linked, `erase` unlinks a node. Both are free to choose the
shape; the in-order sequence is fixed. -/
structure RbLib (α : Type) [DecidableEq α] where
  insertColor : α → OrdTree α → OrdTree α
  erase : α → OrdTree α → OrdTree α
  insertColor_toList : ∀ x t, (insertColor x t).toList = t.toList
  erase_toList : ∀ x t, x ∈ t.toList → (erase x t).toList = t.toList.erase x

/-- A library that never rotates on insertion and flattens on erasure. -/
def RbLib.plain (α : Type) [DecidableEq α] : RbLib α where
  insertColor _ t := t
  erase x t := OrdTree.spine (t.toList.erase x)
  insertColor_toList _ _ := rfl
  erase_toList _ _ _ := OrdTree.spine_toList _

end HvfSched.Lib
