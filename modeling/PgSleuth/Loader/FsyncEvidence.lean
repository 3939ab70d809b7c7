import PgSleuth.Loader.FsyncAlarm

/-!
# What the fsync-jitter alarm says about itself

The alarm is decided in nanoseconds, and what its finding carries is the P50 in whole milliseconds,
rounded down. So a P50 less than a millisecond above the threshold is reported as equal to it, and
the finding says of itself that something exceeds what it does not exceed.

## Main definitions

* `JitterFinding` — the findings of the rule, over a whole run of the loop
* `SupportsAlarm` — the numbers a finding carries are in the relation it states
* `breachingByMs` — a batch whose P50 is a whole millisecond above the threshold

## Main results

* `lt_p50Ms_iff` — when the number reported exceeds the threshold
* `evidence_supports_iff` — in every run, exactly when all findings support the alarm
-/

namespace PgSleuth

/-- The evidence of a finding puts its P50 above its threshold, as its summary does. -/
def SupportsAlarm (f : Finding) : Prop :=
  ∃ p50Ms thresholdMs : UInt64, f.evidence.get? "p50_ms" = some (.int p50Ms.toNat) ∧
    f.evidence.get? "threshold_ms" = some (.int thresholdMs.toNat) ∧ thresholdMs < p50Ms

/-- A batch breaches by a whole millisecond when it is not empty and at least half of it exceeds the
threshold by so much. -/
def breachingByMs (thresholdMs : UInt64) (batch : List UInt64) : Bool :=
  !batch.isEmpty &&
    batch.length ≤ 2 * batch.countP fun ns => (thresholdMs.toNat + 1) * 1000000 ≤ ns.toNat

/-! ### One finding -/

section Finding

variable (firedAt : DateTime) (pgInstance devLabel : String) (p50Ms thresholdMs : UInt64)
  (streak : UInt32) (intervalMs : UInt64)

theorem buildFinding_p50Ms :
    (buildFinding firedAt pgInstance devLabel p50Ms thresholdMs streak
      intervalMs).evidence.get? "p50_ms" = some (.int p50Ms.toNat) := by
  rw [buildFinding]
  exact JsonValue.get?_ofJson_of_mem (by simp) (by simp) (Json.normalize_int_uint64 p50Ms)

theorem buildFinding_thresholdMs :
    (buildFinding firedAt pgInstance devLabel p50Ms thresholdMs streak
      intervalMs).evidence.get? "threshold_ms" = some (.int thresholdMs.toNat) := by
  rw [buildFinding]
  exact JsonValue.get?_ofJson_of_mem (by simp) (by simp) (Json.normalize_int_uint64 thresholdMs)

/-- A finding supports the alarm exactly when it was built to. -/
theorem supportsAlarm_buildFinding_iff :
    SupportsAlarm (buildFinding firedAt pgInstance devLabel p50Ms thresholdMs streak intervalMs) ↔
      thresholdMs < p50Ms := by
  constructor
  · rintro ⟨p50Ms', thresholdMs', hp50, hthreshold, hlt⟩
    rw [buildFinding_p50Ms] at hp50
    rw [buildFinding_thresholdMs] at hthreshold
    obtain rfl : p50Ms = p50Ms' := by simpa [UInt64.toNat_inj] using hp50
    obtain rfl : thresholdMs = thresholdMs' := by simpa [UInt64.toNat_inj] using hthreshold
    exact hlt
  · intro hlt
    exact ⟨p50Ms, thresholdMs, buildFinding_p50Ms .., buildFinding_thresholdMs .., hlt⟩

end Finding

/-- Rounding down to milliseconds keeps what is a whole one above the threshold. -/
theorem lt_div_million_iff (thresholdMs ns : UInt64) :
    thresholdMs < ns / 1000000 ↔ (thresholdMs.toNat + 1) * 1000000 ≤ ns.toNat := by
  have hmillion : (1000000 : UInt64).toNat = 1000000 := rfl
  rw [UInt64.lt_iff_toNat_lt, UInt64.toNat_div, hmillion, Nat.lt_iff_add_one_le,
    Nat.le_div_iff_mul_le (by decide)]

theorem breachingByMs_iff {thresholdMs : UInt64} {batch : List UInt64} :
    breachingByMs thresholdMs batch = true ↔
      batch ≠ [] ∧ batch.length ≤ 2 * batch.countP
        fun ns => (thresholdMs.toNat + 1) * 1000000 ≤ ns.toNat := by
  rw [breachingByMs, Bool.and_eq_true, decide_eq_true_iff, Bool.not_eq_true',
    List.isEmpty_eq_false_iff]

/-- **The number reported exceeds the threshold** exactly when the batch breaches by a whole
millisecond. -/
theorem lt_p50Ms_iff (thresholdMs : UInt64) (batch : List UInt64) :
    thresholdMs < (p50Ns batch).getD 0 / 1000000 ↔ breachingByMs thresholdMs batch = true := by
  have hp (a b : UInt64) (hab : a ≤ b) :
      decide ((thresholdMs.toNat + 1) * 1000000 ≤ a.toNat) = true →
        decide ((thresholdMs.toNat + 1) * 1000000 ≤ b.toNat) = true := by
    rw [decide_eq_true_iff, decide_eq_true_iff]
    exact fun ha => le_trans ha (UInt64.le_iff_toNat_le.mp hab)
  rw [lt_div_million_iff, breachingByMs_iff, ← p50Ns_map_iff hp batch]
  cases p50Ns batch with
  | none =>
    have hzero : (0 : UInt64).toNat = 0 := rfl
    rw [Option.getD_none, hzero, Option.map_none, Option.getD_none]
    constructor
    · intro h
      omega
    · intro h
      cases h
  | some ns => rw [Option.getD_some, Option.map_some, Option.getD_some, decide_eq_true_iff]

/-! ### All findings of a run -/

section Run

variable (args : Args) (discovery : Option PgDiscovery)

/-- The loop emits this finding of the fsync-jitter rule somewhere in a run. -/
def JitterFinding (inputs : List LoaderInput) (f : Finding) : Prop :=
  f.ruleId = "storage.wal.fsync.jitter" ∧
    ∃ es ∈ Mealy.outputs (loaderStep args discovery) .new inputs, Effect.finding f ∈ es

/-- Between ticks the rule emits nothing. -/
theorem ruleId_of_finding_mem {s : LoaderState} {i : LoaderInput} (hi : i.isTick = false)
    {f : Finding} (hf : Effect.finding f ∈ (loaderStep args discovery s i).2) :
    f.ruleId = "storage.temp_spill.attribution" := by
  cases i with
  | tick now => exact Bool.noConfusion hi
  | tempFileEvent now event =>
    have hsome : (tempFileEvent args now s.seenSpills event).2 = some f := by
      simpa [loaderStep] using hf
    obtain ⟨-, -, rfl⟩ := (tempFileEvent_eq_some ..).mp hsome
    rfl
  | latencyEvent event => simp [loaderStep] at hf
  | _ => cases hf

/-- The findings of the rule are those that come out at the ticks. -/
theorem jitterFinding_iff {inputs : List LoaderInput} {f : Finding} :
    JitterFinding args discovery inputs f ↔
      ∃ es ∈ tickEffects args discovery inputs, Effect.finding f ∈ es := by
  constructor
  · rintro ⟨hrule, es, hes, hf⟩
    obtain ⟨pre, i, post, heq, rfl⟩ := (Mealy.mem_outputs_iff _).mp hes
    refine ⟨_, (Mealy.mem_outputsOn_iff _ _).mpr ⟨pre, i, post, heq, ?_, rfl⟩, hf⟩
    by_contra hi
    rw [ruleId_of_finding_mem args discovery (Bool.eq_false_of_not_eq_true hi) hf] at hrule
    exact absurd hrule (by decide)
  · rintro ⟨es, hes, hf⟩
    constructor
    · obtain ⟨j, hj⟩ := List.mem_iff_getElem?.mp hes
      obtain ⟨now, batch, -, hmem⟩ := finding_mem_tickEffects args discovery hj
      obtain ⟨-, rfl⟩ := (hmem f).mp hf
      rfl
    · obtain ⟨pre, i, post, heq, -, ho⟩ := (Mealy.mem_outputsOn_iff _ _).mp hes
      exact ⟨es, (Mealy.mem_outputs_iff _).mpr ⟨pre, i, post, heq, ho⟩, hf⟩

/-- The alarm goes off with the batch `batch`, which completes a run of `max 1 fire_after` breaching
ones. -/
def FiresWith (inputs : List LoaderInput) (batch : List UInt64) : Prop :=
  ∃ j, (fsyncBatches inputs)[j]? = some batch ∧
    trailingRun (breaching args.fsyncThresholdMs) ((fsyncBatches inputs).take (j + 1)) =
      max 1 args.fsyncFireAfter.toNat

/-- What the loop emits when the alarm goes off with this batch. -/
def alarmOn (now : DateTime) (batch : List UInt64) : Finding :=
  buildFinding now args.pgInstance (devLabel args discovery) ((p50Ns batch).getD 0 / 1000000)
    args.fsyncThresholdMs (max 1 args.fsyncFireAfter) args.intervalMs

theorem supportsAlarm_alarmOn_iff (now : DateTime) (batch : List UInt64) :
    SupportsAlarm (alarmOn args discovery now batch) ↔
      breachingByMs args.fsyncThresholdMs batch = true := by
  rw [alarmOn, supportsAlarm_buildFinding_iff, lt_p50Ms_iff]

/-- Every finding of the rule comes from a batch with which the alarm goes off. -/
theorem JitterFinding.exists_firesWith {inputs : List LoaderInput} {f : Finding}
    (h : JitterFinding args discovery inputs f) :
    ∃ now batch, FiresWith args inputs batch ∧ f = alarmOn args discovery now batch := by
  obtain ⟨es, hes, hf⟩ := (jitterFinding_iff args discovery).mp h
  obtain ⟨j, hj⟩ := List.mem_iff_getElem?.mp hes
  obtain ⟨now, batch, hbatch, hmem⟩ := finding_mem_tickEffects args discovery hj
  obtain ⟨hrun, rfl⟩ := (hmem f).mp hf
  exact ⟨now, batch, ⟨j, hbatch, hrun⟩, rfl⟩

/-- And every such batch leads to one. -/
theorem FiresWith.exists_jitterFinding {inputs : List LoaderInput} {batch : List UInt64}
    (h : FiresWith args inputs batch) :
    ∃ now, JitterFinding args discovery inputs (alarmOn args discovery now batch) := by
  obtain ⟨j, hbatch, hrun⟩ := h
  have hlt : j < (tickEffects args discovery inputs).length := by
    rw [length_tickEffects]
    exact (List.getElem?_eq_some_iff.mp hbatch).1
  have hj := List.getElem?_eq_getElem hlt
  obtain ⟨now, batch', hbatch', hmem⟩ := finding_mem_tickEffects args discovery hj
  obtain rfl : batch' = batch := by rwa [hbatch', Option.some.injEq] at hbatch
  exact ⟨now, (jitterFinding_iff args discovery).mpr
    ⟨_, List.mem_of_getElem? hj, (hmem _).mpr ⟨hrun, rfl⟩⟩⟩

/-- **Exactly when the findings support the alarm.** In any run of the loop, every finding of the
rule carries a P50 above its threshold exactly when each batch with which the alarm goes off has, in
at least half of its samples, a whole millisecond above the threshold. -/
theorem evidence_supports_iff (inputs : List LoaderInput) :
    (∀ f, JitterFinding args discovery inputs f → SupportsAlarm f) ↔
      ∀ batch, FiresWith args inputs batch → breachingByMs args.fsyncThresholdMs batch = true := by
  constructor
  · intro h batch hfires
    obtain ⟨now, hf⟩ := FiresWith.exists_jitterFinding args discovery hfires
    exact (supportsAlarm_alarmOn_iff args discovery now batch).mp (h _ hf)
  · intro h f hf
    obtain ⟨now, batch, hfires, rfl⟩ := JitterFinding.exists_firesWith args discovery hf
    exact (supportsAlarm_alarmOn_iff args discovery now batch).mpr (h batch hfires)

end Run

/-! ### Half a millisecond above the threshold -/

/-- A flush that took 10.5 milliseconds. -/
def slowFlush : BlockIoLatencyEvent where
  dev := 0
  opClass := OpClass.writeFlush.asU8
  bytes := 8192
  latencyNs := 10500000

/-- Three seconds with one such flush in each. -/
def slowFlushes : List LoaderInput :=
  [.latencyEvent slowFlush, .tick (.atSecond 1), .latencyEvent slowFlush, .tick (.atSecond 2),
    .latencyEvent slowFlush, .tick (.atSecond 3)]

/-- The findings do not always support the alarm: with every default, a P50 of 10.5 milliseconds in
three seconds in a row is reported as 10 milliseconds, which is said to exceed 10. -/
theorem not_evidence_supports :
    ¬ ∀ (args : Args) (discovery : Option PgDiscovery) (inputs : List LoaderInput) (f : Finding),
      JitterFinding args discovery inputs f → SupportsAlarm f := by
  intro h
  have hfires : FiresWith {} slowFlushes [10500000] := ⟨2, by decide, by decide⟩
  obtain ⟨now, hf⟩ := FiresWith.exists_jitterFinding {} none hfires
  have hsupports := (supportsAlarm_alarmOn_iff {} none now _).mp (h {} none _ _ hf)
  exact absurd hsupports (by decide)

end PgSleuth
