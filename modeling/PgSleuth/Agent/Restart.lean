import PgSleuth.Agent.AlarmCount
import PgSleuth.Cli.ThrottleCounters

/-!
# What a restart costs

None of the loops writes its state anywhere. A loop that is stopped and started again has forgotten
the streak it was in, whether it has fired in it, the snapshot to compare the next one with, and the
samples of the interval. Compared with one that was never stopped and sees the same, that is at most
one finding too many or too few.

## Main results

* `restart_costs_at_most_one` — for each of the five loops
-/

namespace PgSleuth

namespace CheckpointStorm

variable (args : Args)

theorem restart (before after : List Tick) :
    OffByOne (findings args (before ++ after)).length
      ((findings args before).length + (findings args after).length) := by
  have hk : 0 < max 1 args.fireAfter.toNat := by omega
  obtain ⟨o, ho⟩ : ∃ o : Option CheckpointBucket,
      classified args (before ++ after) =
        classified args before ++ o.toList ++ classified args after := by
    refine ⟨(Option.map₂ classify (snapshots before).getLast? (snapshots after).head?).join, ?_⟩
    rw [classified_eq, snapshots_append, zipWith_tail_append, List.reduceOption_append,
      List.reduceOption_append, ← classified_eq, ← classified_eq]
    congr 2
    cases Option.map₂ classify (snapshots before).getLast? (snapshots after).head? with
    | none => rfl
    | some o => cases o <;> rfl
  rw [length_findings, length_findings, length_findings, ho]
  exact longBlocks_cut _ _ hk _ _ o

end CheckpointStorm

theorem ConnectionStorm.restart (args : Args) (before after : List Tick) :
    OffByOne (findings args (before ++ after)).length
      ((findings args before).length + (findings args after).length) := by
  have hk : 0 < max 1 args.fireAfter.toNat := by omega
  have hcut := longBlocks_cut id _ hk (verdicts args before).reduceOption
    (verdicts args after).reduceOption none
  rw [Option.toList_none, List.append_nil, ← List.reduceOption_append, verdicts, verdicts,
    ← List.map_append] at hcut
  rwa [length_findings, length_findings, length_findings]

theorem TempSpill.restart (cfg : TempSpillConfig) (before after : List Tick) :
    OffByOne (findings cfg (before ++ after)).length
      ((findings cfg before).length + (findings cfg after).length) := by
  have hcut := longBlocks_cut id 1 Nat.one_pos (verdicts cfg before).reduceOption
    (verdicts cfg after).reduceOption none
  rw [Option.toList_none, List.append_nil, ← List.reduceOption_append, verdicts, verdicts,
    ← List.map_append] at hcut
  rwa [length_findings, length_findings, length_findings]

/-- What is lost is the comparison of the first read after the restart with the last one before. -/
theorem CgroupThrottle.restart (args : Args) (before after : List Tick) :
    OffByOne (findings args (before ++ after)).length
      ((findings args before).length + (findings args after).length) := by
  have hk : 0 < max 1 args.fireAfter.toNat := by omega
  rw [length_findings, length_findings, length_findings, reduceOption_verdicts,
    reduceOption_verdicts, reduceOption_verdicts, reads, List.map_append,
    List.reduceOption_append, ← reads, ← reads, zipWith_tail_append]
  exact longBlocks_cut id _ hk _ _ _

/-- The findings of the fsync-jitter rule on what the loader is served. -/
def jitterFindings (args : Args) (discovery : Option PgDiscovery) (inputs : List LoaderInput) :
    List Finding :=
  (tickEffects args discovery inputs).flatMap fun es => es.filterMap Effect.asFinding

/-- What is lost are samples of the interval in which the restart happens. -/
theorem restart_jitter (args : Args) (discovery : Option PgDiscovery)
    (before after : List LoaderInput) :
    OffByOne (jitterFindings args discovery (before ++ after)).length
      ((jitterFindings args discovery before).length +
        (jitterFindings args discovery after).length) := by
  have hk : 0 < max 1 args.fsyncFireAfter.toNat := by omega
  have hbatches := (@batches_append _ _ LoaderInput.isTick LoaderInput.writeFlushSample before
    after).1
  simp only [jitterFindings, length_findings_tickEffects, jitterVerdicts, fsyncBatches, hbatches]
  cases batches LoaderInput.isTick LoaderInput.writeFlushSample after with
  | nil => exact ⟨by simp, by simp⟩
  | cons batch rest =>
    rw [List.modifyHead_cons, List.map_append, List.map_cons, List.map_cons]
    exact longBlocks_cut_changed _ hk _ _ _ _

/-- **A restart costs at most one finding.** Stop any of the five loops at any moment and start it
again: over all it sees before and after, it sends out as many findings as it would have without the
restart, or one more, or one less. -/
theorem restart_costs_at_most_one (args : Args) (discovery : Option PgDiscovery)
    (before after : List LoaderInput) (stormArgs : ConnectionStorm.Args)
    (stormBefore stormAfter : List ConnectionStorm.Tick) (throttleArgs : CgroupThrottle.Args)
    (throttleBefore throttleAfter : List CgroupThrottle.Tick)
    (spillCfg : TempSpill.TempSpillConfig) (spillBefore spillAfter : List TempSpill.Tick)
    (checkpointArgs : CheckpointStorm.Args)
    (checkpointBefore checkpointAfter : List CheckpointStorm.Tick) :
    OffByOne (jitterFindings args discovery (before ++ after)).length
        ((jitterFindings args discovery before).length +
          (jitterFindings args discovery after).length) ∧
      OffByOne (ConnectionStorm.findings stormArgs (stormBefore ++ stormAfter)).length
        ((ConnectionStorm.findings stormArgs stormBefore).length +
          (ConnectionStorm.findings stormArgs stormAfter).length) ∧
      OffByOne (CgroupThrottle.findings throttleArgs (throttleBefore ++ throttleAfter)).length
        ((CgroupThrottle.findings throttleArgs throttleBefore).length +
          (CgroupThrottle.findings throttleArgs throttleAfter).length) ∧
      OffByOne (TempSpill.findings spillCfg (spillBefore ++ spillAfter)).length
        ((TempSpill.findings spillCfg spillBefore).length +
          (TempSpill.findings spillCfg spillAfter).length) ∧
      OffByOne
        (CheckpointStorm.findings checkpointArgs (checkpointBefore ++ checkpointAfter)).length
        ((CheckpointStorm.findings checkpointArgs checkpointBefore).length +
          (CheckpointStorm.findings checkpointArgs checkpointAfter).length) :=
  ⟨restart_jitter .., ConnectionStorm.restart .., CgroupThrottle.restart ..,
    TempSpill.restart .., CheckpointStorm.restart ..⟩

end PgSleuth
