import Mathlib.Data.List.Basic

/-!
# Words between breaks

A text is a list, and some of its elements are breaks. Its words are the longest pieces without one.
What a reader of words makes of a text is settled by three rules: breaks at either end do not
matter, and a word is followed by the words of what comes after the break that ends it.

## Main results

* `List.words_append_left`, `List.words_append_right` — breaks at the ends
* `List.words_append_of_isWord` — a word, and what comes after it
* `List.words_eq_singleton`, `List.words_eq_nil` — a single word, and none
-/

namespace List

variable {α : Type*} (p : α → Bool)

/-- The words of a text, with the breaks `p`. -/
def words (l : List α) : List (List α) := (l.splitOnP p).filter (· ≠ [])

/-- A word has an element, and none of its elements is a break. -/
def IsWord (w : List α) : Prop := w ≠ [] ∧ ∀ x ∈ w, p x = false

variable {p}

instance (w : List α) : Decidable (IsWord p w) := inferInstanceAs (Decidable (_ ∧ _))

@[simp] theorem words_nil : words p [] = [] := by simp [words]

/-- A break separates the words before it from those after it. -/
theorem words_append_cons {x : α} (hx : p x = true) (l m : List α) :
    words p (l ++ x :: m) = words p l ++ words p m := by
  rw [words, splitOnP_append_cons l m hx, filter_append]
  rfl

theorem words_eq_nil {l : List α} (h : ∀ x ∈ l, p x = true) : words p l = [] := by
  induction l with
  | nil => exact words_nil
  | cons x l ih =>
    rw [← nil_append (x :: l), words_append_cons (h x (mem_cons_self ..)), words_nil,
      ih fun y hy => h y (mem_cons_of_mem _ hy)]
    rfl

/-- Breaks in front do not matter. -/
theorem words_append_left {l : List α} (h : ∀ x ∈ l, p x = true) (m : List α) :
    words p (l ++ m) = words p m := by
  induction l with
  | nil => rfl
  | cons x l ih =>
    rw [cons_append, ← nil_append (x :: (l ++ m)), words_append_cons (h x (mem_cons_self ..)),
      words_nil, ih fun y hy => h y (mem_cons_of_mem _ hy)]
    rfl

/-- Nor do breaks at the end. -/
theorem words_append_right (l : List α) {m : List α} (h : ∀ x ∈ m, p x = true) :
    words p (l ++ m) = words p l := by
  cases m with
  | nil => rw [append_nil]
  | cons x m =>
    rw [words_append_cons (h x (mem_cons_self ..)),
      words_eq_nil fun y hy => h y (mem_cons_of_mem _ hy), append_nil]

theorem words_eq_singleton {w : List α} (hw : IsWord p w) : words p w = [w] := by
  rw [words, splitOnP_eq_singleton hw.2]
  simp [hw.1]

/-- **A word, and what comes after it.** -/
theorem words_append_of_isWord {w l : List α} (hw : IsWord p w) (hl : ∀ x ∈ l.head?, p x = true) :
    words p (w ++ l) = w :: words p l := by
  cases l with
  | nil => rw [append_nil, words_eq_singleton hw, words_nil]
  | cons x l =>
    have hx : p x = true := hl x rfl
    rw [words_append_cons hx, words_eq_singleton hw, ← nil_append (x :: l), words_append_cons hx,
      words_nil]
    rfl

end List
