import Mathlib.Data.List.Infix
import Mathlib.Data.Vector.Basic

/-!
# Strings in fixed-size buffers

A string kept in a buffer of fixed length is closed by the first terminator in it, and what stands
behind the terminator is not part of the string. Here the terminator is any element a test rejects,
or the element the buffer was filled with before the string was copied into it.

## Main results

* `List.takeWhile_eq_of_agree` — buffers that agree up to and including their first terminator
  hold the same string
* `List.mem_iff_mem_takeWhile_or_dropWhile` — an element is in the string or behind it
* `Vector.toList_ofFn_getD`, `Vector.takeWhile_ofFn_getD` — a string copied into a cleared buffer
-/

namespace List

variable {α : Type*} {p : α → Bool}

theorem mem_iff_mem_takeWhile_or_dropWhile (p : α → Bool) {l : List α} {x : α} :
    x ∈ l ↔ x ∈ l.takeWhile p ∨ x ∈ l.dropWhile p := by
  rw [← List.mem_append, List.takeWhile_append_dropWhile]

/-- The string of a nonempty buffer starts with its first element, unless that closes it. -/
theorem head?_takeWhile_cons (x : α) (l : List α) :
    ((x :: l).takeWhile p).head? = if p x then some x else none := by
  rw [List.takeWhile_cons]
  split <;> rfl

/-- **What stands behind the terminator does not matter.** -/
theorem takeWhile_eq_of_agree : ∀ {l l' : List α},
    (∀ i : ℕ, (∀ j < i, ∀ x, l[j]? = some x → p x = true) → l[i]? = l'[i]?) →
      l.takeWhile p = l'.takeWhile p
  | [], l', h => by
    have hnil : l' = [] := List.head?_eq_none_iff.mp (by
      rw [List.head?_eq_getElem?, ← h 0 fun j hj => absurd hj (Nat.not_lt_zero j)]
      rfl)
    rw [hnil]
  | x :: l, [], h => by simpa using h 0 fun j hj => absurd hj (Nat.not_lt_zero j)
  | x :: l, y :: l', h => by
    obtain rfl : x = y := by simpa using h 0 fun j hj => absurd hj (Nat.not_lt_zero j)
    cases hx : p x with
    | false => simp [hx]
    | true =>
      have htail : l.takeWhile p = l'.takeWhile p := by
        refine takeWhile_eq_of_agree fun i hi => ?_
        refine h (i + 1) fun j hj z hz => ?_
        cases j with
        | zero =>
          obtain rfl : x = z := by simpa using hz
          exact hx
        | succ j => exact hi j (Nat.lt_of_succ_lt_succ hj) z hz
      rw [List.takeWhile_cons, List.takeWhile_cons, if_pos hx, if_pos hx, htail]

end List

namespace Vector

variable {α : Type*} {n : ℕ} {l : List α}

/-- A string copied into a buffer full of `z`, with room for it. -/
theorem toList_ofFn_getD (h : l.length ≤ n) (z : α) :
    (Vector.ofFn fun i : Fin n => l.getD i z).toList = l ++ List.replicate (n - l.length) z := by
  refine List.ext_getElem (by simp; omega) ?_
  intro i hi hi'
  rw [Vector.getElem_toList, Vector.getElem_ofFn]
  rcases Nat.lt_or_ge i l.length with hlt | hge
  · simp [hlt]
  · simp [List.getElem_append_right hge, List.getElem?_eq_none hge]

/-- Such a string is read back, when it holds no terminator itself. -/
theorem takeWhile_ofFn_getD [DecidableEq α] (h : l.length ≤ n) {z : α} (hz : z ∉ l) :
    (Vector.ofFn fun i : Fin n => l.getD i z).toList.takeWhile (· ≠ z) = l := by
  have hne : ∀ x ∈ l, decide (x ≠ z) = true := by
    intro x hx
    have hxz : x ≠ z := fun h => hz (h ▸ hx)
    simpa using hxz
  rw [toList_ofFn_getD h, List.takeWhile_append_of_pos hne]
  simp

end Vector
