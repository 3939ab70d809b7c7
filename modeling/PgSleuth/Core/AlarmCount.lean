import PgSleuth.Core.SkippedTicks
import PgSleuth.ForMathlib.LongBlocks

/-!
# How many findings a loop emits

A loop that reports streaks emits one finding for each run of breaches that is long enough, however
long it gets, and none for the others.

## Main results

* `ReportsStreaks.length_findings` — the number of findings of a run of the loop
-/

namespace PgSleuth

namespace ConsecutiveBreachCounter

section ReportsStreaks

variable {σ ι ω : Type*} {step : σ → ι → σ × Option ω} {counter : σ → ConsecutiveBreachCounter}
  {breached : ω → Bool} {state : ω → BreachState} {finding : ω → Option Finding}
  {fireAfter : UInt32}

/-- The verdicts a loop computes on its way. -/
def loopVerdicts (step : σ → ι → σ × Option ω) (breached : ω → Bool) (s : σ) (is : List ι) :
    List Bool :=
  ((Mealy.outputs step s is).map (Option.map breached)).reduceOption

theorem loopVerdicts_concat (s : σ) (is : List ι) (i : ι) :
    loopVerdicts step breached s (is ++ [i]) = loopVerdicts step breached s is ++
      ((step (Mealy.final step s is) i).2.map breached).toList := by
  rw [loopVerdicts, Mealy.outputs_append, List.map_append, List.reduceOption_append,
    ← loopVerdicts]
  cases h : (step (Mealy.final step s is) i).2 <;> simp [h]

/-- After any ticks the counter follows the verdicts there were. -/
theorem ReportsStreaks.tracks_final
    (h : ReportsStreaks step counter breached state finding fireAfter) {s₀ : σ}
    (hs₀ : counter s₀ = default) (is : List ι) :
    Tracks fireAfter (loopVerdicts step breached s₀ is) (counter (Mealy.final step s₀ is)) := by
  induction is using List.reverseRecOn with
  | nil =>
    rw [Mealy.final_nil, hs₀]
    exact tracks_default fireAfter
  | append_singleton is i ih =>
    have hcounter : counter (step (Mealy.final step s₀ is) i).1 = _ :=
      (congrArg Prod.fst (h.observes (Mealy.final step s₀ is) i)).symm
    rw [loopVerdicts_concat, Mealy.final_append, Mealy.final_cons, Mealy.final_nil, hcounter]
    cases (step (Mealy.final step s₀ is) i).2 with
    | none => simpa [skipStep] using ih
    | some o => exact ih.observe (breached o)

/-- A tick has a finding exactly when its verdict makes a run of breaches `max 1 fire_after`
long. -/
theorem ReportsStreaks.isSome_finding_iff
    (h : ReportsStreaks step counter breached state finding fireAfter) {history : List Bool} {s : σ}
    (hs : Tracks fireAfter history (counter s)) {i : ι} {o : ω} (ho : (step s i).2 = some o) :
    (finding o).isSome = true ↔
      trailingRun id (history ++ [breached o]) = max 1 fireAfter.toNat := by
  have hstate : ((counter s).observe (breached o) fireAfter).2 = state o := by
    have hobserves := congrArg Prod.snd (h.observes s i)
    rw [ho] at hobserves
    exact Option.some.inj hobserves
  have hfires (streak : UInt32) := hs.justFired_iff (breached o) streak
  rw [hstate] at hfires
  constructor
  · intro hsome
    obtain ⟨f, hf⟩ := Option.isSome_iff_exists.mp hsome
    obtain ⟨streak, hstreak⟩ := h.fires s i o f ho hf
    exact ((hfires streak).mp hstreak).1
  · intro hrun
    have hfired := (hfires (max 1 fireAfter)).mpr ⟨hrun, UInt32.toNat_max_one fireAfter⟩
    obtain ⟨f, hf, -⟩ := h.reports s i o _ ho hfired
    rw [hf]
    rfl

/-- **One finding for each long run.** A loop that reports streaks emits as many findings as there
are maximal runs of at least `max 1 fire_after` breaches among its verdicts. -/
theorem ReportsStreaks.length_findings
    (h : ReportsStreaks step counter breached state finding fireAfter) {s₀ : σ}
    (hs₀ : counter s₀ = default) (is : List ι) :
    ((Mealy.outputs step s₀ is).filterMap fun o => o.bind finding).length =
      longBlocks id (max 1 fireAfter.toNat) (loopVerdicts step breached s₀ is) := by
  have hk : 0 < max 1 fireAfter.toNat := by omega
  rw [List.filterMap_eq_flatMap_toList,
    ← Mealy.outputsOn_eq_outputs step (fun _ => true) fun _ _ => rfl]
  refine Mealy.length_flatMap_outputsOn id _ hk rfl (fun _ _ hp => Bool.noConfusion hp) ?_ is
  intro is i _
  rw [loopVerdicts_concat]
  cases ho : (step (Mealy.final step s₀ is) i).2 with
  | none => simp
  | some o =>
    right
    have hfinding := (h.isSome_finding_iff (h.tracks_final hs₀ is) ho).trans
      (trailingRun_id_concat_iff _ hk)
    refine ⟨breached o, rfl, ?_⟩
    rw [if_congr hfinding.symm rfl rfl, Option.bind_some]
    cases finding o <;> simp

end ReportsStreaks

end ConsecutiveBreachCounter

end PgSleuth
