import Mathlib.Data.List.ReduceOption
import PgSleuth.ForMathlib.TrailingRun

/-!
# Runs that failures do not interrupt

A loop that asks, gets an answer or fails, and counts how many answers in a row satisfy a predicate.
When it skips the failures, the run it counts is a run of the answers. Whether that is also a run of
the questions depends on where the failures are, and this file says where they must not be.

## Main definitions

* `BridgesGap` — a failure falls inside a run of `n` answers

## Main results

* `forall_run_iff_not_bridgesGap` — every run of `n` answers is a run of `n` questions exactly when
  no failure falls inside one
-/

section GappedRun

variable {α : Type*} (p : α → Bool)

/-- Some failure comes after fewer than `n` answers in a row that satisfy `p`, at least one, and the
answers after it complete the run to `n`. -/
def BridgesGap (n : ℕ) (l : List (Option α)) : Prop :=
  ∃ pre post, l = pre ++ none :: post ∧
    0 < trailingRun p pre.reduceOption ∧ trailingRun p pre.reduceOption < n ∧
    n - trailingRun p pre.reduceOption ≤ post.reduceOption.length ∧
    ∀ a ∈ post.reduceOption.take (n - trailingRun p pre.reduceOption), p a = true

/-- The answers of a run of questions are as many. -/
theorem trailingRun_any_le_length (l : List (Option α)) :
    trailingRun (Option.any p) l ≤ l.reduceOption.length := by
  induction l using List.reverseRecOn with
  | nil => simp
  | append_singleton l o ih =>
    cases o with
    | none => simp
    | some a =>
      rw [trailingRun_concat, List.reduceOption_append, List.length_append]
      split
      · exact Nat.add_le_add_right ih 1
      · exact Nat.zero_le _

/-- The last answer of a run satisfies the predicate. -/
theorem satisfies_of_trailingRun_pos {l : List (Option α)} {t : ℕ} {a : α}
    (ha : l[t]? = some (some a)) (hrun : 0 < trailingRun p (l.take (t + 1)).reduceOption) :
    p a = true := by
  by_contra hne
  rw [List.take_add_one, ha, List.reduceOption_append] at hrun
  have hzero := trailingRun_concat p ((l.take t).reduceOption) a
  rw [if_neg hne] at hzero
  exact Nat.ne_of_gt hrun hzero

/-- The questions up to the answer with a given number. -/
theorem exists_append_some_of_lt {l : List (Option α)} {n : ℕ} (h : n < l.reduceOption.length) :
    ∃ init a post, l = init ++ some a :: post ∧ l.reduceOption.take (n + 1) =
      init.reduceOption ++ [a] ∧ init.reduceOption.length = n := by
  induction l generalizing n with
  | nil => simp at h
  | cons o l ih =>
    cases o with
    | none =>
      obtain ⟨init, a, post, rfl, htake, hlen⟩ := ih (by simpa using h)
      exact ⟨none :: init, a, post, rfl, by simpa using htake, by simpa using hlen⟩
    | some b =>
      cases n with
      | zero => exact ⟨[], b, l, rfl, by simp, rfl⟩
      | succ n =>
        obtain ⟨init, a, post, rfl, htake, hlen⟩ := ih (by simpa using h)
        exact ⟨some b :: init, a, post, rfl, by simpa using htake, by simpa using hlen⟩

/-- Questions that all got an answer satisfying `p`. -/
theorem reduceOption_of_forall_any {l : List (Option α)} (h : ∀ o ∈ l, o.any p = true) :
    (∀ a ∈ l.reduceOption, p a = true) ∧ l.reduceOption.length = l.length := by
  induction l with
  | nil => simp
  | cons o l ih =>
    obtain ⟨hall, hlen⟩ := ih fun o ho => h o (List.mem_cons_of_mem _ ho)
    have ho := h o (List.mem_cons_self ..)
    cases o with
    | none => cases ho
    | some a =>
      rw [List.reduceOption_cons_of_some]
      exact ⟨List.forall_mem_cons.mpr ⟨ho, hall⟩, by rw [List.length_cons, hlen, List.length_cons]⟩

/-- A failure inside a run of answers leaves a run of questions that is too short. -/
theorem exists_trailingRun_lt_of_bridgesGap {n : ℕ} {l : List (Option α)}
    (h : BridgesGap p n l) :
    ∃ init a post, l = init ++ some a :: post ∧
      trailingRun p (init ++ [some a]).reduceOption = n ∧
      trailingRun (Option.any p) (init ++ [some a]) < n := by
  obtain ⟨pre, post, rfl, hpos, hlt, hlen, hall⟩ := h
  obtain ⟨m, hm⟩ : ∃ m, n - trailingRun p pre.reduceOption = m + 1 :=
    Nat.exists_eq_add_one.mpr (Nat.sub_pos_of_lt hlt)
  rw [hm] at hlen hall
  obtain ⟨init, a, post, rfl, htake, hinit⟩ := exists_append_some_of_lt hlen
  rw [htake] at hall
  refine ⟨pre ++ none :: init, a, post, by simp, ?_, ?_⟩
  · have hred : (pre ++ none :: init ++ [some a]).reduceOption =
        pre.reduceOption ++ (init.reduceOption ++ [a]) := by
      simp [List.reduceOption_append]
    rw [hred, trailingRun_append_of_forall p _ hall, List.length_append, hinit,
      List.length_singleton]
    omega
  · rw [List.append_assoc, List.cons_append, trailingRun_append_cons_of_not _ _ rfl]
    have hle := trailingRun_any_le_length p (init ++ [some a])
    rw [List.reduceOption_append, List.length_append, hinit] at hle
    have hone : ([some a] : List (Option α)).reduceOption.length = 1 := rfl
    omega

/-- A run of questions that is too short for the run of answers has a failure before it. -/
theorem bridgesGap_of_trailingRun_lt {n : ℕ} {init post : List (Option α)} {a : α}
    (hrun : trailingRun p (init ++ [some a]).reduceOption = n)
    (hlt : trailingRun (Option.any p) (init ++ [some a]) < n) :
    BridgesGap p n (init ++ some a :: post) := by
  have hle := trailingRun_le_length (Option.any p) (init ++ [some a])
  have hred := trailingRun_le_length p (init ++ [some a]).reduceOption
  have hlen := List.reduceOption_length_le (init ++ [some a])
  obtain ⟨pre, o, run, heq, ho, hall, hlast⟩ :=
    exists_append_cons_of_trailingRun_lt (Option.any p) (l := init ++ [some a]) (by omega)
  obtain ⟨hp, hanswers⟩ := reduceOption_of_forall_any p hall
  cases o with
  | some b =>
    -- the answer before the run of questions ends the run of answers as well
    rw [heq, List.reduceOption_append, List.reduceOption_cons_of_some,
      trailingRun_append_cons_of_not p _ ho] at hrun
    have hshort := trailingRun_le_length p run.reduceOption
    omega
  | none =>
    rw [heq, List.reduceOption_append, List.reduceOption_cons_of_none,
      trailingRun_append_of_forall p _ hp, hanswers] at hrun
    have hpos : 0 < run.length := by
      rw [List.length_pos_iff]
      rintro rfl
      have hend := congrArg List.getLast? heq
      simp at hend
    have hk : n - trailingRun p pre.reduceOption = run.reduceOption.length := by omega
    refine ⟨pre, run ++ post, ?_, by omega, by omega, ?_, ?_⟩
    · rw [List.append_cons, heq]
      simp
    · rw [hk, List.reduceOption_append, List.length_append]
      omega
    · rw [hk, List.reduceOption_append, List.take_left]
      exact hp

/-- **Runs of answers are runs of questions** exactly when no failure falls inside one: wherever the
answers so far end with a run of `n`, so do the questions. -/
theorem forall_run_iff_not_bridgesGap (n : ℕ) (l : List (Option α)) :
    (∀ t a, l[t]? = some (some a) → trailingRun p (l.take (t + 1)).reduceOption = n →
      ∀ i < n, i ≤ t ∧ ∃ b, l[t - i]? = some (some b) ∧ p b = true) ↔ ¬ BridgesGap p n l := by
  constructor
  · intro h hgap
    obtain ⟨init, a, post, rfl, hrun, hlt⟩ := exists_trailingRun_lt_of_bridgesGap p hgap
    refine Nat.not_le.mpr hlt ((le_trailingRun_iff_getElem? _).mpr ?_)
    intro i hi
    obtain ⟨hit, b, hb, hp⟩ :=
      h init.length a (by simp) (by rw [← hrun, List.append_cons, List.take_left' (by simp)]) i hi
    refine ⟨by rw [List.length_append, List.length_singleton]; omega, some b, ?_, hp⟩
    have hlt : init.length - i < (init ++ [some a]).length := by
      rw [List.length_append, List.length_singleton]
      omega
    rw [List.append_cons, List.getElem?_append_left hlt] at hb
    rw [← hb, List.length_append, List.length_singleton, Nat.add_sub_cancel]
  · intro hgap t a ha hrun
    have ht : t < l.length := (List.getElem?_eq_some_iff.mp ha).1
    have htake : l.take (t + 1) = l.take t ++ [some a] := by
      rw [List.take_add_one, ha]
      rfl
    have hsplit : l = l.take t ++ some a :: l.drop (t + 1) := by
      rw [List.append_cons, ← htake, List.take_append_drop]
    rw [htake] at hrun
    have hle : n ≤ trailingRun (Option.any p) (l.take t ++ [some a]) := by
      by_contra hlt
      rw [hsplit] at hgap
      exact hgap (bridgesGap_of_trailingRun_lt p hrun (Nat.lt_of_not_le hlt))
    have hlen : (l.take t ++ [some a]).length = t + 1 := by
      rw [List.length_append, List.length_take, List.length_singleton]
      omega
    intro i hi
    obtain ⟨hit, o, ho, hp⟩ := (le_trailingRun_iff_getElem? _).mp hle i hi
    rw [hlen] at hit
    rw [hlen, ← htake, List.getElem?_take_of_lt (by omega), Nat.add_sub_cancel] at ho
    cases o with
    | none => cases hp
    | some b => exact ⟨by omega, b, ho, hp⟩

end GappedRun
