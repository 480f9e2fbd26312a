import HvfSched.Queue.Entity

/-!
# Ordered queues

A queue is ordered when its in-order sequence is sorted by the values its
entities have now and the cached maximum is the last of the sequence. Linking
a new entity keeps a queue ordered as long as the `int` in which the
insertion loop keeps the difference of two values has the right sign
(`Near`), and it puts the entity in front of its equals; unlinking keeps it
ordered without conditions.
-/

namespace HvfSched

open Lib

variable {E : Env} {s s' : Sys} {c d : Cpu} {p q : TaskId}

/-- `curr_sched_value` as a number. -/
def Sys.key (s : Sys) (p : TaskId) : Int := (s.value p).toInt

structure Ordered (s : Sys) (c : Cpu) : Prop where
  nodup : (s.queue c).Nodup
  sorted : (s.queue c).Pairwise (fun a b => s.key a ≤ s.key b)
  max : (s.rq c).hvf.maxValueEntity = (s.queue c).getLast?

/-- Same queue, and the same values inside it. -/
theorem Ordered.congr (h : Ordered s c) (hq : s'.queue c = s.queue c)
    (hm : (s'.rq c).hvf.maxValueEntity = (s.rq c).hvf.maxValueEntity)
    (hv : ∀ p ∈ s.queue c, s'.value p = s.value p) : Ordered s' c := by
  refine ⟨?_, ?_, ?_⟩
  · rw [hq]
    exact h.nodup
  · rw [hq]
    refine h.sorted.imp_of_mem ?_
    intro x y hx hy hxy
    show (s'.value x).toInt ≤ (s'.value y).toInt
    rw [hv x hx, hv y hy]
    exact hxy
  · rw [hm, hq]
    exact h.max

/-- The value under which an enqueue links a task. -/
def linkValue (t : TaskStruct) : Long := (penaltyIfExceeded t).hvf.currSchedValue

theorem enqueueHvfEntity_value_self (E : Env) (c : Cpu) (p : TaskId) (s : Sys) :
    (enqueueHvfEntity E c p s).value p = linkValue (s.task p) := by
  unfold Sys.value
  rw [enqueueHvfEntity_task, if_pos rfl]
  rfl

theorem enqueueHvfEntity_value_ne (E : Env) (c : Cpu) (s : Sys) (hq : q ≠ p) :
    (enqueueHvfEntity E c p s).value q = s.value q := by
  unfold Sys.value
  rw [enqueueHvfEntity_task, if_neg hq]

/-- The insertion loop, run over a sorted queue, is an ordered insertion
before the equal values. -/
theorem enqueueHvfEntity_queue_sorted (hp : p ∉ s.queue c)
    (hs : (s.queue c).Pairwise (fun a b => s.key a ≤ s.key b))
    (hnear : ∀ q ∈ s.queue c, Near (linkValue (s.task p)) (s.value q)) :
    (enqueueHvfEntity E c p s).queue c
      = (s.queue c).orderedInsert
          (fun a b => (enqueueHvfEntity E c p s).key a ≤ (enqueueHvfEntity E c p s).key b) p := by
  have hkey : ∀ q ∈ s.queue c, (enqueueHvfEntity E c p s).key q = s.key q := by
    intro q hq
    have hqp : q ≠ p := fun h => hp (h ▸ hq)
    unfold Sys.key
    rw [enqueueHvfEntity_value_ne E c s hqp]
  rw [enqueueHvfEntity_queue_self, insertedTree, hvfRqRbtreeInsert, E.rb.insertColor_toList]
  refine OrdTree.linkLeaf_toList_sorted (enqueueHvfEntity E c p s).key _ p _ ?_ ?_
  · refine hs.imp_of_mem ?_
    intro a b ha hb hab
    rw [hkey a ha, hkey b hb]
    exact hab
  · intro q hq
    have hqp : q ≠ p := fun h => hp (h ▸ hq)
    rw [hkey q hq, Sys.key, enqueueHvfEntity_value_self]
    unfold goesLeft Sys.value
    rw [Sys.setTask_self, Sys.setTask_ne _ _ hqp, decide_eq_true_iff]
    exact (diffInt_le_zero_iff (hnear q hq)).trans Int64.le_iff_toInt_le

theorem enqueueHvfEntity_ordered (h : Ordered s c) (hp : p ∉ s.queue c)
    (hnear : ∀ q ∈ s.queue c, Near (linkValue (s.task p)) (s.value q)) :
    Ordered (enqueueHvfEntity E c p s) c := by
  have hq := enqueueHvfEntity_queue_sorted (E := E) hp h.sorted hnear
  have hkey : ∀ q ∈ s.queue c, (enqueueHvfEntity E c p s).key q = s.key q := by
    intro q hq
    have hqp : q ≠ p := fun h => hp (h ▸ hq)
    unfold Sys.key
    rw [enqueueHvfEntity_value_ne E c s hqp]
  have hs : (s.queue c).Pairwise
      (fun a b => (enqueueHvfEntity E c p s).key a ≤ (enqueueHvfEntity E c p s).key b) := by
    refine h.sorted.imp_of_mem ?_
    intro a b ha hb hab
    rw [hkey a ha, hkey b hb]
    exact hab
  refine ⟨?_, ?_, ?_⟩
  · exact (enqueueHvfEntity_perm E c p s).nodup_iff.mpr (List.nodup_cons.mpr ⟨hp, h.nodup⟩)
  · rw [hq]
    exact hs.orderedInsert p _
  · rw [enqueueHvfEntity_max, ← enqueueHvfEntity_queue_self]
    split
    next => rfl
    next m hm =>
      rw [h.max] at hm
      split
      next hlt =>
        -- the new value is strictly above the old maximum, so above all
        have hall : ∀ y ∈ s.queue c,
            (enqueueHvfEntity E c p s).key y < (enqueueHvfEntity E c p s).key p := by
          intro y hy
          have hym : (enqueueHvfEntity E c p s).key y ≤ (enqueueHvfEntity E c p s).key m := by
            obtain ⟨front, hf⟩ := List.getLast?_eq_some_iff.mp hm
            rw [hf] at hy hs
            rcases List.mem_append.mp hy with hy | hy
            · exact (List.pairwise_append.mp hs).2.2 y hy m (List.mem_singleton.mpr rfl)
            · rw [List.mem_singleton.mp hy]
          exact lt_of_le_of_lt hym (Int64.lt_iff_toInt_lt.mp hlt)
        obtain ⟨front, hf⟩ := List.getLast?_eq_some_iff.mp hm
        have hmf : m ∉ front := by
          have hnd := h.nodup
          rw [hf] at hnd
          exact fun hmem => (List.nodup_append.mp hnd).2.2 m hmem m (List.mem_singleton.mpr rfl) rfl
        rw [hq, orderedInsert_of_all_lt _ hall, hf, List.append_assoc]
        show succIn m (front ++ [m, p]) = _
        rw [succIn_append_pair hmf]
        simp
      next hle =>
        rw [hq]
        refine (getLast?_orderedInsert_of_le (enqueueHvfEntity E c p s).key hm ?_).symm
        have hle' := Int64.not_lt.mp hle
        exact Int64.le_iff_toInt_le.mp hle'

theorem unlinked_value (h : Unlinked E c p s s') (q : TaskId) : s'.value q = s.value q := by
  unfold Sys.value
  rw [h.task]
  split
  next hq =>
    rw [hq]
    rfl
  next => rfl

theorem unlinked_ordered (h : Unlinked E c p s s') (ho : Ordered s c) : Ordered s' c := by
  have hkey : s'.key = s.key := by
    funext q
    unfold Sys.key
    rw [unlinked_value h]
  refine ⟨?_, ?_, ?_⟩
  · rw [h.queue]
    exact ho.nodup.erase p
  · rw [h.queue, hkey]
    exact ho.sorted.sublist List.erase_sublist
  · rw [h.max, h.queue, ho.max]
    split
    next hlast => exact (getLast?_erase_last ho.nodup hlast).symm
    next hne =>
      cases hm : (s.queue c).getLast? with
      | none =>
        rw [List.getLast?_eq_none_iff] at hm
        have hmem := h.mem
        rw [hm] at hmem
        cases hmem
      | some m =>
        have hpm : p ≠ m := fun e => hne (by rw [hm, e])
        exact (getLast?_erase_ne hm hpm h.mem).symm

/-! ## The maximum -/

theorem Ordered.max_mem {m : TaskId} (h : Ordered s c)
    (hm : (s.rq c).hvf.maxValueEntity = some m) :
    m ∈ s.queue c ∧ ∀ q ∈ s.queue c, s.value q ≤ s.value m := by
  rw [h.max] at hm
  obtain ⟨front, hf⟩ := List.getLast?_eq_some_iff.mp hm
  have hs := h.sorted
  rw [hf] at hs ⊢
  refine ⟨List.mem_append_right _ (List.mem_singleton.mpr rfl), ?_⟩
  intro q hq
  rcases List.mem_append.mp hq with hq | hq
  · exact Int64.le_iff_toInt_le.mpr
      ((List.pairwise_append.mp hs).2.2 q hq m (List.mem_singleton.mpr rfl))
  · rw [List.mem_singleton.mp hq]
    exact Int64.le_refl _

/-- The pick out of an ordered tree. -/
theorem Ordered.pickTaskHvf (h : Ordered s c) (hne : s.queue c ≠ []) :
    ∃ m, pickTaskHvf s c = .ok m ∧ (s.rq c).hvf.maxValueEntity = some m := by
  cases hm : (s.queue c).getLast? with
  | none => exact absurd (List.getLast?_eq_none_iff.mp hm) hne
  | some m =>
    have hmax := h.max.trans hm
    refine ⟨m, ?_, hmax⟩
    unfold HvfSched.pickTaskHvf
    rw [if_neg, hmax]
    rw [OrdTree.isEmpty_iff]
    exact hne

end HvfSched
