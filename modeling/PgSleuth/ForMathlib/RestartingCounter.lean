import Mathlib.Algebra.Order.Floor.Semiring
import Mathlib.Algebra.BigOperators.Group.List.Basic
import Mathlib.Tactic.Linarith
import PgSleuth.ForMathlib.Mealy

/-!
# Counters that restart

A counter counts up, is read from time to time, and may restart from zero at any moment without
telling its reader. The reader adds up the rises it sees between successive readings and takes every
drop for a restart. Whatever it adds up was really counted: what is counted between a restart and
the next reading may be missed, but nothing is counted twice.

## The invariant

What was added up is at most what was counted before the counter's current value, plus as much of
that value as the last reading had already shown.

## Main results

* `rises_concat` — one more reading
* `rises_readings_le_counted` — the bound, over every history
-/

/-- The rises along a list of readings, starting from `prev`: each reading counts for what it
exceeds the one before it by. -/
def rises : ℕ → List ℕ → ℕ
  | _, [] => 0
  | prev, v :: vs => (v - prev) + rises v vs

@[simp] theorem rises_nil (prev : ℕ) : rises prev [] = 0 := rfl

/-- One more reading. -/
theorem rises_concat (prev : ℕ) (vs : List ℕ) (v : ℕ) :
    rises prev (vs ++ [v]) = rises prev vs + (v - vs.getLast?.getD prev) := by
  induction vs generalizing prev with
  | nil => simp [rises]
  | cons u vs ih =>
    rw [List.cons_append, rises, rises, ih, List.getLast?_cons, Option.getD_some, Nat.add_assoc]

/-- Readings in a row. -/
theorem rises_append (prev : ℕ) (vs ws : List ℕ) :
    rises prev (vs ++ ws) = rises prev vs + rises (vs.getLast?.getD prev) ws := by
  induction vs generalizing prev with
  | nil => simp
  | cons u vs ih =>
    rw [List.cons_append, rises, rises, ih, List.getLast?_cons, Option.getD_some, Nat.add_assoc]

/-- A reader that has forgotten the last reading takes for new what the counter still shows of
it. -/
theorem rises_zero (prev : ℕ) (vs : List ℕ) :
    rises 0 vs = rises prev vs + min prev (vs.head?.getD 0) := by
  cases vs with
  | nil => simp
  | cons v vs =>
    rw [rises, rises, List.head?_cons, Option.getD_some]
    omega

namespace RestartingCounter

/-- What can happen to a counter. -/
inductive Event (R : Type*)
  | count (amount : R)
  | restart
  | read

variable {R : Type*} [CommRing R] [LinearOrder R] [IsStrictOrderedRing R] [FloorSemiring R]

/-- One event: the counter's next value, and what a reader sees of it, in whole units. -/
def step (value : R) : Event R → R × Option ℕ
  | .count amount => (value + amount, none)
  | .restart => (0, none)
  | .read => (value, some ⌊value⌋₊)

/-- What the reader has seen. -/
def readings (events : List (Event R)) : List ℕ :=
  (Mealy.outputs step 0 events).filterMap id

/-- What an event adds to the true count. -/
def Event.amount : Event R → R
  | .count amount => amount
  | _ => 0

/-- Everything that was ever counted. -/
def counted (events : List (Event R)) : R := (events.map Event.amount).sum

omit [IsStrictOrderedRing R] in
theorem readings_concat (events : List (Event R)) (e : Event R) :
    readings (events ++ [e]) =
      readings events ++ (step (Mealy.final step 0 events) e).2.toList := by
  rw [readings, readings, Mealy.outputs_append, List.filterMap_append]
  cases h : (step (Mealy.final step 0 events) e).2 <;> simp [h]

omit [LinearOrder R] [IsStrictOrderedRing R] [FloorSemiring R] in
theorem counted_concat (events : List (Event R)) (e : Event R) :
    counted (events ++ [e]) = counted events + e.amount := by
  simp [counted]

/-- **The invariant, after every history.** -/
theorem rises_invariant {events : List (Event R)} (h : ∀ e ∈ events, 0 ≤ e.amount) :
    let value := Mealy.final step 0 events
    let last := (readings events).getLast?.getD 0
    0 ≤ value ∧ value ≤ counted events ∧
      (rises 0 (readings events) : R) ≤
        counted events - value + (min last ⌊value⌋₊ : ℕ) := by
  induction events using List.reverseRecOn with
  | nil => simp [readings, counted]
  | append_singleton events e ih =>
    have he : 0 ≤ e.amount := h e (by simp)
    obtain ⟨hvalue, hcounted, hrises⟩ := ih fun e' he' => h e' (List.mem_append_left _ he')
    simp only [readings_concat, counted_concat, Mealy.final_append, Mealy.final_cons,
      Mealy.final_nil]
    generalize Mealy.final step 0 events = value at *
    generalize readings events = seen at *
    have hfloor : (⌊value⌋₊ : R) ≤ value := Nat.floor_le hvalue
    cases e with
    | count amount =>
      have hmono : min (seen.getLast?.getD 0) ⌊value⌋₊ ≤
          min (seen.getLast?.getD 0) ⌊value + amount⌋₊ :=
        min_le_min_left _ (Nat.floor_mono (le_add_of_nonneg_right he))
      have hmono : ((min (seen.getLast?.getD 0) ⌊value⌋₊ : ℕ) : R) ≤
          (min (seen.getLast?.getD 0) ⌊value + amount⌋₊ : ℕ) := Nat.cast_le.mpr hmono
      simp only [step, Event.amount, Option.toList_none, List.append_nil] at he ⊢
      exact ⟨by linarith, by linarith, by linarith⟩
    | restart =>
      have hmin : ((min (seen.getLast?.getD 0) ⌊value⌋₊ : ℕ) : R) ≤ ⌊value⌋₊ :=
        Nat.cast_le.mpr (Nat.min_le_right _ _)
      simp only [step, Event.amount, Option.toList_none, List.append_nil, Nat.floor_zero,
        Nat.min_zero, Nat.cast_zero]
      exact ⟨le_refl 0, by linarith, by linarith⟩
    | read =>
      -- a rise adds what the last reading had not shown, a drop adds nothing
      have hread : min (seen.getLast?.getD 0) ⌊value⌋₊ + (⌊value⌋₊ - seen.getLast?.getD 0) =
          ⌊value⌋₊ := by omega
      have hread : ((min (seen.getLast?.getD 0) ⌊value⌋₊ : ℕ) : R) +
          (⌊value⌋₊ - seen.getLast?.getD 0 : ℕ) = ⌊value⌋₊ := by exact_mod_cast hread
      simp only [step, Event.amount, Option.toList_some, rises_concat, List.getLast?_concat,
        Option.getD_some, Nat.min_self, Nat.cast_add, add_zero]
      exact ⟨hvalue, hcounted, by linarith⟩

/-- **Nothing is counted twice.** -/
theorem rises_readings_le_counted {events : List (Event R)} (h : ∀ e ∈ events, 0 ≤ e.amount) :
    (rises 0 (readings events) : R) ≤ counted events := by
  obtain ⟨hvalue, -, hrises⟩ := rises_invariant h
  have hfloor : ((min ((readings events).getLast?.getD 0)
      ⌊Mealy.final step 0 events⌋₊ : ℕ) : R) ≤ Mealy.final step 0 events :=
    le_trans (Nat.cast_le.mpr (Nat.min_le_right _ _)) (Nat.floor_le hvalue)
  linarith

end RestartingCounter
