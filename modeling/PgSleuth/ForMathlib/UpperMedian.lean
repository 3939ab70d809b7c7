import Mathlib.Data.List.Sort

/-!
# The upper median and majorities

Sorting a list and reading the element at index `length / 2` is the cheap way to take a median:
no averaging, and for an even length the upper of the two middle elements. This file says what a
threshold test on that element decides. Over any linear order, and for every length of either
parity, it decides whether at least half of the elements lie above the threshold. A threshold may be
anything that larger elements pass when smaller ones do.
-/

section UpperMedian

variable {α : Type*} [LE α]

/-- In a sorted list the element at index `m` has an upward closed property exactly when everything
from `m` on does, and then the number of elements that do is at least what is left from `m`. -/
theorem getElem_iff_of_pairwise {p : α → Bool} (hp : ∀ a b, a ≤ b → p a = true → p b = true)
    {l : List α} (hl : l.Pairwise (· ≤ ·)) {m : ℕ} (hm : m < l.length) :
    p l[m] = true ↔ l.length - m ≤ l.countP p := by
  have hsplit : l.countP p = (l.take m).countP p + (l.drop m).countP p := by
    rw [← List.countP_append, List.take_append_drop]
  have hcons : l.drop m = l[m] :: l.drop (m + 1) := List.drop_eq_getElem_cons hm
  constructor
  · intro ht
    have hall : ∀ a ∈ l.drop m, p a = true := by
      intro a ha
      rw [hcons, List.mem_cons] at ha
      rcases ha with rfl | ha
      · exact ht
      · have hsub := hl.sublist (List.drop_sublist m l)
        rw [hcons, List.pairwise_cons] at hsub
        exact hp _ _ (hsub.1 a ha) ht
    have hdrop : (l.drop m).countP p = l.length - m := by
      rw [List.countP_eq_length.mpr hall, List.length_drop]
    omega
  · intro hcount
    by_contra ht
    -- nothing up to and including index `m` has the property
    have htake : (l.take m).countP p = 0 := by
      refine List.countP_eq_zero.mpr ?_
      intro a ha hpa
      have hpair := List.pairwise_append.mp (by rwa [List.take_append_drop m l])
      exact ht (hp _ _ (hpair.2.2 a ha l[m] (by rw [hcons]; exact List.mem_cons_self ..)) hpa)
    have hrest : (l.drop m).countP p ≤ l.length - (m + 1) := by
      rw [hcons, List.countP_cons_of_neg ht, ← List.length_drop]
      exact List.countP_le_length
    omega

/-- **The upper median has an upward closed property exactly when at least half of the elements
do.** -/
theorem upperMedian_iff [Std.IsLinearOrder α] [DecidableLE α] {p : α → Bool}
    (hp : ∀ a b, a ≤ b → p a = true → p b = true) (l : List α) (hl : l ≠ []) :
    (∃ m, (l.insertionSort (· ≤ ·))[l.length / 2]? = some m ∧ p m = true) ↔
      l.length ≤ 2 * l.countP p := by
  have hlen : 0 < l.length := List.length_pos_iff.mpr hl
  have hsort : (l.insertionSort (· ≤ ·)).Pairwise (· ≤ ·) := List.pairwise_insertionSort _ l
  have hperm : (l.insertionSort (· ≤ ·)).Perm l := List.perm_insertionSort _ l
  have hidx : l.length / 2 < (l.insertionSort (· ≤ ·)).length := by rw [hperm.length_eq]; omega
  have key := getElem_iff_of_pairwise hp hsort hidx
  rw [hperm.length_eq, hperm.countP_eq] at key
  rw [List.getElem?_eq_getElem hidx]
  simp only [Option.some.injEq, exists_eq_left', key]
  omega

end UpperMedian
