import Mathlib.Data.List.Basic
import Mathlib.Data.List.Induction

/-!
# The run a list ends with

`trailingRun p l` is the length of the run of elements satisfying `p` that `l` ends with. An
alarm that fires "after `N` consecutive breaches" is a statement about this number, so the
recursion that updates it one element at a time is the invariant every such alarm is proved by.

## Main results

* `trailingRun_concat` — the one-step update, which is what a streak counter implements
* `le_trailingRun_iff`, `le_trailingRun_iff_getElem?` — the declarative reading: the last `n`
  elements satisfy `p`
* `exists_trailingRun_eq` — the run grows by one at a time, so a run of length `n` passed through
  every shorter length on the way
* `exists_trailingRun_range_eq_iff` — the runs seen along a time line
-/

section TrailingRun

variable {α β : Type*} (p : α → Bool)

/-- The length of the run of elements satisfying `p` that `l` ends with. -/
def trailingRun (l : List α) : ℕ := (l.reverse.takeWhile p).length

@[simp] theorem trailingRun_nil : trailingRun p [] = 0 := rfl

@[simp] theorem trailingRun_concat (l : List α) (a : α) :
    trailingRun p (l ++ [a]) = if p a then trailingRun p l + 1 else 0 := by
  cases h : p a <;> simp [trailingRun, h]

/-- Elements satisfying `p` make the run longer. -/
theorem trailingRun_append_of_forall (l : List α) {m : List α} (h : ∀ a ∈ m, p a = true) :
    trailingRun p (l ++ m) = trailingRun p l + m.length := by
  induction m using List.reverseRecOn with
  | nil => simp
  | append_singleton m a ih =>
    rw [← List.append_assoc, trailingRun_concat, if_pos (h a (by simp)),
      ih fun b hb => h b (List.mem_append_left _ hb), List.length_append, List.length_singleton,
      Nat.add_assoc]

/-- Nothing before an element that does not satisfy `p` counts. -/
theorem trailingRun_append_cons_of_not (l : List α) {a : α} (h : p a = false) (m : List α) :
    trailingRun p (l ++ a :: m) = trailingRun p m := by
  induction m using List.reverseRecOn with
  | nil => simp [h]
  | append_singleton m b ih =>
    rw [← List.cons_append, ← List.append_assoc, trailingRun_concat, trailingRun_concat, ih]

theorem trailingRun_le_length (l : List α) : trailingRun p l ≤ l.length := by
  have hle := (List.takeWhile_sublist (l := l.reverse) p).length_le
  rwa [List.length_reverse] at hle

/-- The run, and what ended the one before it. -/
theorem exists_append_cons_of_trailingRun_lt {l : List α} (h : trailingRun p l < l.length) :
    ∃ init a run, l = init ++ a :: run ∧ p a = false ∧ (∀ b ∈ run, p b = true) ∧
      run.length = trailingRun p l := by
  induction l using List.reverseRecOn with
  | nil => simp at h
  | append_singleton l a ih =>
    cases ha : p a with
    | false => exact ⟨l, a, [], rfl, ha, by simp, by simp [ha]⟩
    | true =>
      rw [trailingRun_concat, if_pos ha, List.length_append, List.length_singleton] at h
      obtain ⟨init, b, run, rfl, hb, hrun, hlen⟩ := ih (by omega)
      refine ⟨init, b, run ++ [a], by simp, hb, ?_, ?_⟩
      · intro c hc
        rcases List.mem_append.mp hc with hc | hc
        · exact hrun c hc
        · rwa [List.mem_singleton.mp hc]
      · rw [trailingRun_concat, if_pos ha, List.length_append, List.length_singleton, hlen]

/-- Running the predicate through a map changes nothing. -/
theorem trailingRun_map (f : β → α) (l : List β) :
    trailingRun p (l.map f) = trailingRun (p ∘ f) l := by
  simp [trailingRun, ← List.map_reverse, List.takeWhile_map]

/-- When every list of the run has an element satisfying `q`, there are at least as many of
those. -/
theorem trailingRun_le_countP_flatten {p : List α → Bool} {q : α → Bool}
    (h : ∀ b, p b = true → 0 < b.countP q) (l : List (List α)) :
    trailingRun p l ≤ l.flatten.countP q := by
  induction l using List.reverseRecOn with
  | nil => exact Nat.le_refl _
  | append_singleton l b ih =>
    rw [trailingRun_concat, List.flatten_concat, List.countP_append]
    split
    · next hb => exact Nat.add_le_add ih (h b hb)
    · exact Nat.zero_le _

/-- A run at least `n` long, read as a statement about the last `n` elements. -/
theorem le_trailingRun_iff {l : List α} {n : ℕ} :
    n ≤ trailingRun p l ↔ n ≤ l.length ∧ ∀ a ∈ l.drop (l.length - n), p a := by
  induction l using List.reverseRecOn generalizing n with
  | nil => simp
  | append_singleton l a ih =>
    cases n with
    | zero => simp
    | succ n =>
      have hdrop : (l ++ [a]).drop ((l ++ [a]).length - (n + 1)) =
          l.drop (l.length - n) ++ [a] := by
        rw [List.drop_append_of_le_length (by simp)]
        simp
      rw [trailingRun_concat, hdrop]
      by_cases ha : p a
      · simp [ha, ih, or_imp, forall_and]
      · simp [ha]

/-- The same, counting back from the end. -/
theorem le_trailingRun_iff_getElem? {l : List α} {n : ℕ} :
    n ≤ trailingRun p l ↔
      ∀ i < n, i < l.length ∧ ∃ a, l[l.length - 1 - i]? = some a ∧ p a = true := by
  rw [le_trailingRun_iff]
  constructor
  · rintro ⟨hn, hall⟩ i hi
    have hlt : l.length - 1 - i < l.length := by omega
    refine ⟨by omega, l[l.length - 1 - i], List.getElem?_eq_getElem hlt, hall _ ?_⟩
    refine List.mem_drop_iff_getElem.mpr ⟨n - 1 - i, by omega, ?_⟩
    congr 1
    omega
  · intro h
    have hn : n ≤ l.length := by
      by_contra hlt
      exact absurd (h l.length (by omega)).1 (Nat.lt_irrefl _)
    refine ⟨hn, ?_⟩
    intro a ha
    obtain ⟨j, hj, rfl⟩ := List.mem_drop_iff_getElem.mp ha
    obtain ⟨-, a, hat, hp⟩ := h (n - 1 - j) (by omega)
    rw [show l.length - 1 - (n - 1 - j) = l.length - n + j by omega,
      List.getElem?_eq_getElem (by omega)] at hat
    rwa [Option.some.inj hat]

/-- A run passes through every shorter length on its way. -/
theorem exists_trailingRun_eq {l : List α} {n : ℕ} (h : n ≤ trailingRun p l) :
    ∃ k ≤ l.length, trailingRun p (l.take k) = n := by
  induction l using List.reverseRecOn with
  | nil => exact ⟨0, Nat.le_refl _, by simp at h ⊢; omega⟩
  | append_singleton l a ih =>
    by_cases hn : n ≤ trailingRun p l
    · obtain ⟨k, hk, hrun⟩ := ih hn
      refine ⟨k, by simp; omega, ?_⟩
      rwa [List.take_append_of_le_length hk]
    · refine ⟨(l ++ [a]).length, Nat.le_refl _, ?_⟩
      rw [List.take_length]
      rw [trailingRun_concat] at h ⊢
      by_cases ha : p a
      · rw [if_pos ha] at h ⊢
        omega
      · rw [if_neg ha] at h ⊢
        omega

/-- On a growing time line, a run of length `n` is reached exactly when `n` consecutive instants
satisfy `p`. -/
theorem exists_trailingRun_range_eq_iff (p : ℕ → Bool) (n : ℕ) :
    (∃ m, trailingRun p (List.range m) = n) ↔ ∃ a, ∀ i < n, p (a + i) = true := by
  constructor
  · rintro ⟨m, hm⟩
    obtain ⟨hle, hall⟩ := (le_trailingRun_iff p).mp (Nat.le_of_eq hm.symm)
    rw [List.length_range] at hle hall
    refine ⟨m - n, fun i hi => hall _ (List.mem_iff_getElem?.mpr ⟨i, ?_⟩)⟩
    rw [List.getElem?_drop, List.getElem?_range (by omega)]
  · rintro ⟨a, ha⟩
    have hle : n ≤ trailingRun p (List.range (a + n)) := by
      refine (le_trailingRun_iff p).mpr ⟨by simp, ?_⟩
      intro b hb
      obtain ⟨i, hi⟩ := List.mem_iff_getElem?.mp hb
      rw [List.length_range, Nat.add_sub_cancel, List.getElem?_drop] at hi
      obtain ⟨hlt, rfl⟩ := List.getElem?_eq_some_iff.mp hi
      rw [List.length_range] at hlt
      rw [List.getElem_range]
      exact ha i (by omega)
    obtain ⟨k, hk, hrun⟩ := exists_trailingRun_eq p hle
    rw [List.take_range] at hrun
    exact ⟨_, hrun⟩

end TrailingRun
