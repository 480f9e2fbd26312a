import HvfSched.Lib.OrdTree

/-!
# A stable priority queue, as the list of its arrivals

The abstract queue is the list of the elements in it, oldest first: an
arrival goes to the end, a removal takes its element out. Serving the queue
by key, ties to the earliest arrival, means reading it in one particular
order. `ByKey key arrivals seq` is that order, written from the one served
last to the one served first: sorted by key, and within one key the arrivals
reversed.

The three rules below (`nil`, `insert`, `erase`) let an implementation that
keeps such a sequence follow the abstract queue step by step;
`getLast?_eq` says who is served first.
-/

namespace HvfSched.Lib

variable {α κ : Type} [LinearOrder κ] {key key' : α → κ} {arrivals seq : List α}

/-- `seq` lists the arrivals by key, within one key the latest first. -/
structure ByKey (key : α → κ) (arrivals seq : List α) : Prop where
  perm : seq.Perm arrivals
  sorted : seq.Pairwise (fun a b => key a ≤ key b)
  ties : ∀ k, seq.filter (fun a => key a = k) = (arrivals.filter (fun a => key a = k)).reverse

/-- The earliest of the arrivals that no arrival exceeds. -/
def earliestMax (key : α → κ) (arrivals : List α) : Option α :=
  arrivals.find? (fun a => ∀ b ∈ arrivals, key b ≤ key a)

theorem filter_orderedInsert_of_ne {x : α} {k : κ} (hx : key x ≠ k) (l : List α) :
    (l.orderedInsert (fun a b => key a ≤ key b) x).filter (fun a => key a = k)
      = l.filter (fun a => key a = k) := by
  induction l with
  | nil => simp [hx]
  | cons y l ih =>
    by_cases hy : key x ≤ key y
    · rw [List.orderedInsert_cons_of_le _ l hy, List.filter_cons_of_neg (by simpa using hx)]
    · rw [List.orderedInsert_of_not_le _ l hy, List.filter_cons, List.filter_cons, ih]

theorem filter_orderedInsert_self (x : α) (l : List α) :
    (l.orderedInsert (fun a b => key a ≤ key b) x).filter (fun a => key a = key x)
      = x :: l.filter (fun a => key a = key x) := by
  induction l with
  | nil => simp
  | cons y l ih =>
    by_cases hy : key x ≤ key y
    · rw [List.orderedInsert_cons_of_le _ l hy, List.filter_cons_of_pos (by simp)]
    · have hne : ¬ key y = key x := fun h => hy (le_of_eq h.symm)
      rw [List.orderedInsert_of_not_le _ l hy, List.filter_cons_of_neg (by simpa using hne), ih,
        List.filter_cons_of_neg (by simpa using hne)]

namespace ByKey

theorem nil : ByKey key [] [] := ⟨.refl _, .nil, fun _ => rfl⟩

/-- An arrival goes in front of the ones with its key. -/
theorem insert (h : ByKey key arrivals seq) (x : α) :
    ByKey key (arrivals ++ [x]) (seq.orderedInsert (fun a b => key a ≤ key b) x) where
  perm := by
    refine (List.perm_orderedInsert _ x seq).trans ?_
    exact (h.perm.cons x).trans (List.perm_append_singleton x arrivals).symm
  sorted := h.sorted.orderedInsert x seq
  ties k := by
    by_cases hx : key x = k
    · subst hx
      rw [filter_orderedInsert_self, h.ties]
      simp
    · rw [filter_orderedInsert_of_ne hx, h.ties]
      simp [hx]

/-- A removal, from a queue without repetition. -/
theorem erase [DecidableEq α] (h : ByKey key arrivals seq) (hnd : arrivals.Nodup) (x : α) :
    ByKey key (arrivals.erase x) (seq.erase x) where
  perm := h.perm.erase x
  sorted := h.sorted.sublist List.erase_sublist
  ties k := by
    rw [(h.perm.nodup_iff.mpr hnd).erase_eq_filter, hnd.erase_eq_filter, List.filter_filter,
      List.filter_filter]
    have hcomm : (fun a => decide (key a = k) && (a != x))
        = fun a => (a != x) && decide (key a = k) := by
      funext a
      exact Bool.and_comm _ _
    rw [hcomm, ← List.filter_filter, ← List.filter_filter, h.ties, List.filter_reverse]

/-- Only the keys of the elements in the queue matter. -/
theorem congr (h : ByKey key arrivals seq) (hk : ∀ x ∈ arrivals, key' x = key x) :
    ByKey key' arrivals seq where
  perm := h.perm
  sorted := by
    refine h.sorted.imp_of_mem ?_
    intro a b ha hb hab
    rw [hk a (h.perm.mem_iff.mp ha), hk b (h.perm.mem_iff.mp hb)]
    exact hab
  ties k := by
    have hseq : seq.filter (fun a => key' a = k) = seq.filter (fun a => key a = k) :=
      List.filter_congr fun a ha => by rw [hk a (h.perm.mem_iff.mp ha)]
    have harr : arrivals.filter (fun a => key' a = k) = arrivals.filter (fun a => key a = k) :=
      List.filter_congr fun a ha => by rw [hk a ha]
    rw [hseq, harr, h.ties]

/-- The last of the sequence is the earliest arrival of maximal key. -/
theorem getLast?_eq (h : ByKey key arrivals seq) : seq.getLast? = earliestMax key arrivals := by
  rcases List.eq_nil_or_concat seq with hnil | ⟨front, m, hseq⟩
  · have harr : arrivals = [] := by
      have hp := h.perm
      rw [hnil] at hp
      exact hp.nil_eq.symm
    rw [hnil, harr]
    rfl
  · rw [List.concat_eq_append] at hseq
    have hmax : ∀ a ∈ arrivals, key a ≤ key m := by
      intro a ha
      have hmem := h.perm.mem_iff.mpr ha
      have hs := h.sorted
      rw [hseq] at hmem hs
      rcases List.mem_append.mp hmem with hf | hm
      · exact (List.pairwise_append.mp hs).2.2 a hf m (List.mem_singleton.mpr rfl)
      · rw [List.mem_singleton.mp hm]
    have hm : m ∈ arrivals := h.perm.mem_iff.mp (by rw [hseq]; simp)
    -- the maximal arrivals are those with the key of `m`
    have hsame : arrivals.filter (fun a => ∀ b ∈ arrivals, key b ≤ key a)
        = arrivals.filter (fun a => key a = key m) := by
      apply List.filter_congr
      intro a ha
      rw [decide_eq_decide]
      constructor
      · intro hall
        exact le_antisymm (hmax a ha) (hall m hm)
      · intro heq b hb
        rw [heq]
        exact hmax b hb
    have hlast : (seq.filter (fun a => key a = key m)).getLast? = some m := by
      rw [hseq, List.filter_append]
      simp
    rw [earliestMax, ← List.head?_filter, hsame, ← List.getLast?_reverse, ← h.ties, hlast, hseq]
    simp

end ByKey

/-! ## One element at a time

An implementation works on one element at a time, and may take it out and put
it back more than once. What that amounts to is one of three things
(`Seated`), and these compose. With a stamp for each arrival, the order in
which the queue is served is a strict one (`Ranked`). -/

theorem orderedInsert_congr_key {x : α} {l : List α} (hx : key' x = key x)
    (h : ∀ a ∈ l, key' a = key a) :
    l.orderedInsert (fun a b => key' a ≤ key' b) x
      = l.orderedInsert (fun a b => key a ≤ key b) x := by
  induction l with
  | nil => rfl
  | cons y l ih =>
    have hy := h y List.mem_cons_self
    have ih := ih fun a ha => h a (List.mem_cons_of_mem y ha)
    rw [List.orderedInsert, List.orderedInsert, hx, hy, ih]

/-- Sorted by key, and within one key by stamp, the latest arrival first. -/
def Ranked (key : α → κ) (since : α → Nat) (seq : List α) : Prop :=
  seq.Pairwise fun a b => key a < key b ∨ (key a = key b ∧ since b < since a)

namespace Ranked

variable {since since' : α → Nat} {x : α}

theorem congr (h : Ranked key since seq) (hkey : ∀ a ∈ seq, key' a = key a)
    (hsince : ∀ a ∈ seq, since' a = since a) : Ranked key' since' seq := by
  refine h.imp_of_mem ?_
  intro a b ha hb hab
  rw [hkey a ha, hkey b hb, hsince a ha, hsince b hb]
  exact hab

/-- An arrival that is later than everybody in the queue. -/
theorem insert (h : Ranked key since seq) (hx : ∀ a ∈ seq, since a < since x) :
    Ranked key since (seq.orderedInsert (fun a b => key a ≤ key b) x) := by
  induction seq with
  | nil => exact List.pairwise_singleton _ x
  | cons y l ih =>
    obtain ⟨hy, hl⟩ := List.pairwise_cons.mp h
    by_cases hxy : key x ≤ key y
    · rw [List.orderedInsert_cons_of_le _ l hxy]
      refine List.pairwise_cons.mpr ⟨?_, h⟩
      intro a ha
      have hxa : key x ≤ key a := by
        rcases List.mem_cons.mp ha with rfl | ha
        · exact hxy
        · rcases hy a ha with hlt | ⟨heq, -⟩
          · exact le_trans hxy (le_of_lt hlt)
          · rw [← heq]
            exact hxy
      rcases lt_or_eq_of_le hxa with hlt | heq
      · exact Or.inl hlt
      · exact Or.inr ⟨heq, hx a ha⟩
    · rw [List.orderedInsert_of_not_le _ l hxy]
      refine List.pairwise_cons.mpr ⟨?_, ih hl fun a ha => hx a (List.mem_cons_of_mem y ha)⟩
      intro a ha
      rcases (List.mem_orderedInsert _).mp ha with rfl | ha
      · exact Or.inl (lt_of_not_ge hxy)
      · exact hy a ha

end Ranked

section Seats

variable [DecidableEq α] {key'' : α → κ} {x : α} {seq' seq'' : List α}

/-- What becomes of a sequence when `x` is worked on: `x` keeps its seat and
its key, or it goes, or it arrives, before the elements of the same key. -/
inductive Seated (key key' : α → κ) (x : α) (seq seq' : List α) : Prop
  | kept (hseq : seq' = seq) (hkey : key' x = key x)
  | gone (hseq : seq' = seq.erase x)
  | arrived (hseq : seq' = (seq.erase x).orderedInsert (fun a b => key' a ≤ key' b) x)

namespace Seated

/-- The others are not touched. -/
theorem erase_eq (h : Seated key key' x seq seq') (hnd : seq.Nodup) :
    seq'.erase x = seq.erase x := by
  cases h with
  | kept hseq _ => rw [hseq]
  | gone hseq =>
    rw [hseq]
    exact List.erase_of_not_mem hnd.not_mem_erase
  | arrived hseq =>
    rw [hseq]
    exact List.erase_orderedInsert_of_notMem hnd.not_mem_erase

theorem trans (h : Seated key key' x seq seq') (h' : Seated key' key'' x seq' seq'')
    (hnd : seq.Nodup) (hothers : ∀ a, a ≠ x → key'' a = key' a) :
    Seated key key'' x seq seq'' := by
  have herase := h.erase_eq hnd
  cases h' with
  | kept hseq' hkey' =>
    subst hseq'
    cases h with
    | kept hseq hkey => exact .kept hseq (hkey'.trans hkey)
    | gone hseq => exact .gone hseq
    | arrived hseq =>
      refine .arrived (hseq.trans (orderedInsert_congr_key hkey' ?_).symm)
      intro a ha
      exact hothers a ((hnd.mem_erase_iff.mp ha).1)
  | gone hseq' => exact .gone (hseq'.trans herase)
  | arrived hseq' => exact .arrived (hseq'.trans (by rw [herase]))

/-- An element that was not there, and is there now, has arrived. -/
theorem arrived_of_mem (h : Seated key key' x seq seq') (hx : x ∉ seq) (hx' : x ∈ seq') :
    seq' = seq.orderedInsert (fun a b => key' a ≤ key' b) x := by
  cases h with
  | kept hseq _ => exact absurd (hseq ▸ hx') hx
  | gone hseq =>
    rw [hseq, List.erase_of_not_mem hx] at hx'
    exact absurd hx' hx
  | arrived hseq => rw [hseq, List.erase_of_not_mem hx]

end Seated

end Seats

end HvfSched.Lib
