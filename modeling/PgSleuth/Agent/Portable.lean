import PgSleuth.Agent.AlarmCount
import PgSleuth.Otel.Portable

/-!
# The findings of this repository lose nothing

Six rules build findings, and five loops emit them. Whatever the arguments and whatever happens on
the host, a finding that is emitted is read back from its JSON, its log record has every attribute
once, and no other finding that is emitted has that record.

## Main definitions

* `Emitted` — a finding that some run of the agent or of a poller emits

## Main results

* `Emitted.plain` — such a finding has the one shape
* `emitted_loses_nothing` — it is read back, and told apart from all others by its log record
-/

namespace PgSleuth

/-! ### What the rules build -/

theorem plain_buildFinding (firedAt : DateTime) (pgInstance devLabel : String)
    (p50Ms thresholdMs : UInt64) (streak : UInt32) (intervalMs : UInt64) :
    (buildFinding firedAt pgInstance devLabel p50Ms thresholdMs streak intervalMs).Plain :=
  ⟨_, _, rfl, rfl, by simp, by simp [reservedKeys]⟩

theorem plain_buildTempFileFinding (firedAt : DateTime) (pgInstance : String) (pid : UInt32)
    (comm path syscall : String) :
    (buildTempFileFinding firedAt pgInstance pid comm path syscall).Plain :=
  ⟨_, _, rfl, rfl, by simp, by simp [reservedKeys]⟩

theorem ConnectionStorm.plain_buildFinding (firedAt : DateTime) (pgInstance : String)
    (backends threshold : UInt64) (streak : UInt32) (intervalMs : UInt64) :
    (buildFinding firedAt pgInstance backends threshold streak intervalMs).Plain :=
  ⟨_, _, rfl, rfl, by simp, by simp [reservedKeys]⟩

theorem CgroupThrottle.plain_buildFinding (firedAt : DateTime) (pgInstance : String)
    (b : BreachValue) (threshold : UInt64) (streak : UInt32) (intervalMs : UInt64) :
    (buildFinding firedAt pgInstance b threshold streak intervalMs).Plain :=
  ⟨_, _, rfl, rfl, by simp, by simp [reservedKeys]⟩

theorem CheckpointStorm.plain_buildFinding (firedAt : DateTime) (pgInstance : String)
    (bucket : CheckpointBucket) (streak : UInt32) (intervalMs : UInt64) :
    (buildFinding firedAt pgInstance bucket streak intervalMs).Plain :=
  ⟨_, _, rfl, rfl, by simp, by simp [reservedKeys]⟩

theorem TempSpill.plain_buildFinding (firedAt : DateTime) (cfg : TempSpillConfig)
    (snap : TempSpillSample) (reason : BreachReason) :
    (buildFinding firedAt cfg snap reason).Plain := by
  cases reason <;> exact ⟨_, _, rfl, rfl, by simp, by simp [reservedKeys]⟩

/-! ### What the loops emit -/

/-- The findings of a run of the agent. -/
def agentFindings (args : Args) (discovery : Option PgDiscovery) (sizes : RingSlots)
    (run : List HostEvent) : List Finding :=
  (sentOut args discovery sizes run).filterMap Effect.asFinding

/-- Some run emits the finding. -/
inductive Emitted : Finding → Prop
  | agent {args : Args} {discovery : Option PgDiscovery} {sizes : RingSlots}
    {run : List HostEvent} {f : Finding} (h : f ∈ agentFindings args discovery sizes run) :
    Emitted f
  | connectionStorm {args : ConnectionStorm.Args} {ticks : List ConnectionStorm.Tick}
    {f : Finding} (h : f ∈ ConnectionStorm.findings args ticks) : Emitted f
  | cgroupThrottle {args : CgroupThrottle.Args} {ticks : List CgroupThrottle.Tick}
    {f : Finding} (h : f ∈ CgroupThrottle.findings args ticks) : Emitted f
  | checkpointStorm {args : CheckpointStorm.Args} {ticks : List CheckpointStorm.Tick}
    {f : Finding} (h : f ∈ CheckpointStorm.findings args ticks) : Emitted f
  | tempSpill {cfg : TempSpill.TempSpillConfig} {ticks : List TempSpill.Tick} {f : Finding}
    (h : f ∈ TempSpill.findings cfg ticks) : Emitted f

/-- One input makes the loader emit plain findings. -/
theorem plain_of_mem_loaderStep (args : Args) (discovery : Option PgDiscovery) (s : LoaderState)
    (i : LoaderInput) {f : Finding} (h : Effect.finding f ∈ (loaderStep args discovery s i).2) :
    f.Plain := by
  cases i with
  | traceEvent event => cases h
  | blockEvent event => cases h
  | latencyEvent event => simp [loaderStep] at h
  | tempFileEvent now event =>
    simp only [loaderStep, Option.mem_toList, Option.map_eq_some_iff, Effect.finding.injEq,
      exists_eq_right, tempFileEvent] at h
    split at h
    · cases h
    split at h
    · cases h
    · obtain rfl := Option.some.inj h
      exact plain_buildTempFileFinding ..
  | tick now =>
    simp only [loaderStep, Option.mem_toList, Option.map_eq_some_iff, Effect.finding.injEq,
      exists_eq_right, ruleTick] at h
    split at h
    · obtain rfl := Option.some.inj h
      exact plain_buildFinding ..
    · cases h

/-- **Every finding that is emitted is plain.** -/
theorem Emitted.plain {f : Finding} (h : Emitted f) : f.Plain := by
  cases h with
  | @agent args discovery sizes run _ h =>
    obtain ⟨e, he, hf⟩ := List.mem_filterMap.mp h
    rw [sentOut_eq] at he
    obtain ⟨es, hes, hmem⟩ := List.mem_flatten.mp he
    obtain ⟨pre, i, post, -, rfl⟩ := (Mealy.mem_outputs_iff _).mp hes
    cases e with
    | finding g =>
      obtain rfl := Option.some.inj hf
      exact plain_of_mem_loaderStep args discovery _ i hmem
    | walIoLatency latencyNs device opClass => cases hf
  | connectionStorm h =>
    obtain ⟨tick, -, snap, streak, -, -, rfl⟩ := ConnectionStorm.exists_of_mem_findings _ h
    exact ConnectionStorm.plain_buildFinding ..
  | cgroupThrottle h =>
    obtain ⟨-, tick, -, prev, cur, b, streak, -, -, -, -, -, rfl⟩ :=
      CgroupThrottle.exists_of_mem_findings _ h
    exact CgroupThrottle.plain_buildFinding ..
  | checkpointStorm h =>
    obtain ⟨-, tick, -, b, streak, -, -, -, -, rfl⟩ := CheckpointStorm.exists_of_mem_findings _ h
    exact CheckpointStorm.plain_buildFinding ..
  | tempSpill h =>
    obtain ⟨tick, -, snap, reason, -, -, rfl⟩ := TempSpill.exists_of_mem_findings _ h
    exact TempSpill.plain_buildFinding ..

/-- **No finding that is emitted loses anything.** Each is read back from its text, even by a reader
that gets no double right, and its log record has every attribute once, under its key. As long as no
two documents have one text, two that were fired at or after 1970 and not inside a leap second have
different records. -/
theorem emitted_loses_nothing :
    (∀ f, Emitted f → f.Portable) ∧
      ∀ render : Json → String, Function.Injective render →
        Set.InjOn (recordOf render) {f | Emitted f ∧ 0 ≤ f.firedAt.timestamp ∧
          f.firedAt.subsecNanos.val < 1000000000} := by
  constructor
  · intro f hf
    exact hf.plain.portable
  · rintro render hrender f ⟨hf, htime, hnanos⟩ g ⟨hg, htime', hnanos'⟩ h
    exact toRecord_injOn hrender ⟨htime, hnanos, hf.plain.clear⟩ ⟨htime', hnanos', hg.plain.clear⟩ h

/-- Two kilobytes of temporary files where one is too much. -/
def spilledFinding : Finding :=
  TempSpill.buildFinding (.atSecond 0) ⟨"/tmp/pgdata-stub", 1000, 10, "fixture-pg"⟩
    ⟨2000, 1000000, 500000⟩ (.footprint 2000 1000)

theorem emitted_spilledFinding : Emitted spilledFinding :=
  @Emitted.tempSpill ⟨"/tmp/pgdata-stub", 1000, 10, "fixture-pg"⟩
    [⟨.atSecond 0, some ⟨2000, 1000000, 500000⟩⟩] _ (List.mem_singleton.mpr rfl)

/-- It is read back from its text, and a finding with its record was not emitted in 1970 or later
unless it is this one. -/
theorem emitted_loses_nothing_spilledFinding :
    (Json.ofText recursionLimit (Json.toText (spilledFinding.toJson stamp))).bind
        (Finding.deserialize parseStamp) = some spilledFinding ∧
      ∀ f, Emitted f → 0 ≤ f.firedAt.timestamp → f.firedAt.subsecNanos.val < 1000000000 →
        recordOf Json.toText f = recordOf Json.toText spilledFinding → f = spilledFinding := by
  obtain ⟨hportable, hinj⟩ := emitted_loses_nothing
  refine ⟨(hportable spilledFinding emitted_spilledFinding).text _ _ _ _
    (readsBackExactly_toText fun _ => False) parseStamp_stamp, ?_⟩
  intro f hf htime hnanos h
  exact hinj Json.toText Json.toText_injective ⟨hf, htime, hnanos⟩
    ⟨emitted_spilledFinding, by decide, by decide⟩ h

end PgSleuth
