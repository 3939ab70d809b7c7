import PgSleuth.ForMathlib.Mealy

/-!
# First occurrences

A machine that reports each thing once: it remembers the keys of what it has reported and keeps
silent when a key comes again. What it reports in a run is the list of first occurrences, which the
core library calls `eraseDupsBy`.

## Main definitions

* `List.firstsBy` — the elements of a list whose key no earlier element has
* `Mealy.ReportsOnce` — one step of a machine that reports each key once

## Main results

* `List.firstsBy_concat` — one more element
* `Mealy.ReportsOnce.flatMap_outputs` — what such a machine reports in a run
-/

namespace List

variable {α κ : Type*} [DecidableEq κ] (key : α → κ)

/-- The elements of a list whose key no earlier element has, in order. -/
def firstsBy (l : List α) : List α := l.eraseDupsBy fun a b => key a == key b

theorem firstsBy_cons (a : α) (l : List α) :
    firstsBy key (a :: l) = a :: firstsBy key (l.filter fun b => key b ≠ key a) := by
  rw [firstsBy, List.eraseDupsBy_cons]
  simp [firstsBy]

/-- **One more element** is a first occurrence exactly when its key is new. -/
theorem firstsBy_concat : ∀ (l : List α) (b : α),
    firstsBy key (l ++ [b]) =
      if key b ∈ l.map key then firstsBy key l else firstsBy key l ++ [b]
  | [], _ => rfl
  | a :: l, b => by
    have hlt : (l.filter fun c => key c ≠ key a).length < l.length + 1 :=
      Nat.lt_succ_of_le (List.length_filter_le _ l)
    rw [List.cons_append, firstsBy_cons, firstsBy_cons, List.filter_append]
    by_cases hba : key b = key a
    · simp [hba]
    · have hkeep : [b].filter (fun c => key c ≠ key a) = [b] := by simp [hba]
      have hmem : key b ∈ (l.filter fun c => key c ≠ key a).map key ↔
          key b ∈ (a :: l).map key := by
        simp only [List.mem_map, List.mem_filter, List.mem_cons, decide_eq_true_eq]
        constructor
        · rintro ⟨c, ⟨hc, -⟩, hcb⟩
          exact ⟨c, Or.inr hc, hcb⟩
        · rintro ⟨c, rfl | hc, hcb⟩
          · exact absurd hcb.symm hba
          · exact ⟨c, ⟨hc, hcb ▸ hba⟩, hcb⟩
      rw [hkeep, firstsBy_concat (l.filter fun c => key c ≠ key a) b]
      by_cases hseen : key b ∈ (a :: l).map key
      · rw [if_pos (hmem.mpr hseen), if_pos hseen]
      · rw [if_neg (mt hmem.mp hseen), if_neg hseen, List.cons_append]
termination_by l => l.length
decreasing_by exact hlt

end List

namespace Mealy

variable {σ ι ω ρ α κ : Type*}

/-- One step of a machine that reports each key once: `subject` is what an input asks to have
reported, `view` picks the reports out of an output, and `seen s k` says that `s` remembers `k`. -/
structure ReportsOnce (step : σ → ι → σ × ω) (subject : ι → Option α) (key : α → κ)
    (report : α → ρ) (view : ω → List ρ) (seen : σ → κ → Prop) : Prop where
  seen_step : ∀ s i k, seen (step s i).1 k ↔ seen s k ∨ ∃ a, subject i = some a ∧ key a = k
  silent : ∀ s i, subject i = none → view (step s i).2 = []
  again : ∀ s i a, subject i = some a → seen s (key a) → view (step s i).2 = []
  first : ∀ s i a, subject i = some a → ¬ seen s (key a) → view (step s i).2 = [report a]

namespace ReportsOnce

variable {step : σ → ι → σ × ω} {subject : ι → Option α} {key : α → κ} {report : α → ρ}
  {view : ω → List ρ} {seen : σ → κ → Prop}

/-- What such a machine remembers after a run. -/
theorem seen_final (h : ReportsOnce step subject key report view seen) {s : σ}
    (hs : ∀ k, ¬ seen s k) (is : List ι) (k : κ) :
    seen (final step s is) k ↔ k ∈ (is.filterMap subject).map key := by
  refine final_induction (P := fun is s => seen s k ↔ k ∈ (is.filterMap subject).map key) step
    ?_ ?_ is
  · simpa using hs k
  · intro is i ih
    rw [h.seen_step, ih, List.filterMap_append, List.map_append, List.mem_append]
    cases hi : subject i <;> simp [hi, eq_comm]

/-- **What such a machine reports in a run**: the first of each key, in order. -/
theorem flatMap_outputs [DecidableEq κ] (h : ReportsOnce step subject key report view seen)
    {s : σ} (hs : ∀ k, ¬ seen s k) (is : List ι) :
    (outputs step s is).flatMap view = ((is.filterMap subject).firstsBy key).map report := by
  induction is using List.reverseRecOn with
  | nil => rfl
  | append_singleton is i ih =>
    rw [outputs_append, List.flatMap_append, ih, outputs_cons, outputs_nil, List.flatMap_cons,
      List.flatMap_nil, List.append_nil, List.filterMap_append]
    cases hi : subject i with
    | none => simp [hi, h.silent _ i hi]
    | some a =>
      have hsingle : [i].filterMap subject = [a] := by simp [hi]
      rw [hsingle, List.firstsBy_concat]
      by_cases hseen : key a ∈ (is.filterMap subject).map key
      · rw [if_pos hseen, h.again _ i a hi ((h.seen_final hs is _).mpr hseen), List.append_nil]
      · rw [if_neg hseen, h.first _ i a hi (mt (h.seen_final hs is _).mp hseen), List.map_append,
          List.map_singleton]

end ReportsOnce

end Mealy
