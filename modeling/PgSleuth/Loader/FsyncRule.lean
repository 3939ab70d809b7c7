import PgSleuth.Core.Finding
import PgSleuth.Core.Window
import PgSleuth.Ebpf.Common
import PgSleuth.ForMathlib.UpperMedian
import PgSleuth.Loader.Config

/-!
# The fsync-jitter rule

The rule state of the loader and what one tick does to it: take the P50 of the samples collected
since the last tick, compare it with the threshold, feed the verdict to the counter, and start
over. No average is taken and nothing is interpolated, so the verdict is a statement about how many
samples exceed the threshold.

## Main definitions

* `ruleTick` — one evaluation of the rule
* `breaching` — the verdict, in exact integers

## Main results

* `ruleTick_eq` — a tick feeds the counter exactly the verdict `breaching`
* `ruleTick_fires_iff` — when a tick emits, in terms of the verdicts so far
-/

namespace PgSleuth

/-- The label of an `op_class` byte. -/
def opClassStr (opClass : UInt8) : String :=
  if opClass = OpClass.read.asU8 then "read"
  else if opClass = OpClass.write.asU8 then "write"
  else if opClass = OpClass.writeFlush.asU8 then "write_flush"
  else "other"

/-- The upper median of a list of latencies, `none` when there is none. -/
def p50Ns (samples : List UInt64) : Option UInt64 :=
  if samples.isEmpty then none
  else (samples.insertionSort (· ≤ ·))[samples.length / 2]?

/-- The finding of the fsync-jitter rule. -/
def buildFinding (firedAt : DateTime) (pgInstance devLabel : String) (p50Ms thresholdMs : UInt64)
    (streak : UInt32) (intervalMs : UInt64) : Finding where
  schemaVersion := findingSchemaVersion
  ruleId := "storage.wal.fsync.jitter"
  ruleVersion := 1
  tier := .deep
  severity := .high
  firedAt := firedAt
  pgInstance := { id := pgInstance, dbName := none, role := .unknown }
  summary := s!"WAL device commit P50 latency {p50Ms}ms > {thresholdMs}ms for {streak} " ++
    s!"consecutive {intervalMs}ms intervals (device={devLabel})"
  evidence := .ofJson (.object
    [("p50_ms", .int p50Ms.toNat), ("threshold_ms", .int thresholdMs.toNat),
      ("streak_intervals", .int streak.toNat), ("interval_ms", .int intervalMs.toNat),
      ("device", .string devLabel)])
  remediation :=
    { text := "Investigate WAL device contention; check device IO queue depth and storage " ++
        "tail latency."
      knobs := ["wal_sync_method", "synchronous_commit"] }
  otelAttributes := .ofList [("pgsleuth.wal.device", AttributeValue.string devLabel)]

/-- The streak a finding reports. -/
theorem buildFinding_streakIntervals (firedAt : DateTime) (pgInstance devLabel : String)
    (p50Ms thresholdMs : UInt64) (streak : UInt32) (intervalMs : UInt64) :
    (buildFinding firedAt pgInstance devLabel p50Ms thresholdMs streak
      intervalMs).evidence.get? "streak_intervals" = some (.int streak.toNat) := by
  rw [buildFinding]
  exact JsonValue.get?_ofJson_of_mem (by simp) (by simp) (Json.normalize_int_uint32 streak)

/-- The device a finding is about. -/
theorem buildFinding_device (firedAt : DateTime) (pgInstance devLabel : String)
    (p50Ms thresholdMs : UInt64) (streak : UInt32) (intervalMs : UInt64) :
    (buildFinding firedAt pgInstance devLabel p50Ms thresholdMs streak
      intervalMs).evidence.get? "device" = some (.string devLabel) := by
  rw [buildFinding]
  exact JsonValue.get?_ofJson_of_mem (by simp) (by simp) (Json.normalize_string devLabel)

/-- The samples of the current interval, and the counter over the intervals before it. -/
structure RuleState where
  writeFlushSamplesNs : List UInt64
  counter : ConsecutiveBreachCounter

/-- `RuleState::new`. -/
def RuleState.new : RuleState := ⟨[], .default⟩

/-- A latency event, as the rule sees it: writes and flushes are collected, the rest is not. -/
def RuleState.push (s : RuleState) (event : BlockIoLatencyEvent) : RuleState :=
  if event.opClass = OpClass.write.asU8 ∨ event.opClass = OpClass.writeFlush.asU8 then
    { s with writeFlushSamplesNs := s.writeFlushSamplesNs ++ [event.latencyNs] }
  else s

/-- One evaluation of the rule. -/
def ruleTick (args : Args) (devLabel : String) (now : DateTime) (s : RuleState) :
    RuleState × Option Finding :=
  let p50NsOpt := p50Ns s.writeFlushSamplesNs
  let p50NsVal := p50NsOpt.getD 0
  let p50Ms := p50NsVal / 1000000
  let thresholdNs := args.fsyncThresholdMs.saturatingMul 1000000
  let breached := (p50NsOpt.map fun ns => decide (thresholdNs < ns)).getD false
  let next := s.counter.observe breached args.fsyncFireAfter
  (⟨[], next.1⟩,
    match next.2 with
    | .justFired streak =>
      some (buildFinding now args.pgInstance devLabel p50Ms args.fsyncThresholdMs streak
        args.intervalMs)
    | _ => none)

/-! ### The verdict, in exact integers -/

/-- A batch breaches when it is not empty and at least half of it exceeds the threshold. -/
def breaching (thresholdMs : UInt64) (batch : List UInt64) : Bool :=
  !batch.isEmpty &&
    batch.length ≤ 2 * batch.countP fun ns => thresholdMs.toNat * 1000000 < ns.toNat

/-- Saturation does not change the comparison: a product out of range is above every sample. -/
theorem saturatingMul_lt_iff (thresholdMs ns : UInt64) :
    thresholdMs.saturatingMul 1000000 < ns ↔ thresholdMs.toNat * 1000000 < ns.toNat := by
  have hns := ns.toNat_lt
  have hmillion : (1000000 : UInt64).toNat = 1000000 := rfl
  rw [UInt64.lt_iff_toNat_lt, UInt64.toNat_saturatingMul, hmillion]
  omega

/-- The P50 passes a test that longer latencies pass too exactly when there are samples and at least
half of them do. -/
theorem p50Ns_map_iff {p : UInt64 → Bool} (hp : ∀ a b, a ≤ b → p a = true → p b = true)
    (batch : List UInt64) :
    ((p50Ns batch).map p).getD false = true ↔
      batch ≠ [] ∧ batch.length ≤ 2 * batch.countP p := by
  by_cases hempty : batch = []
  · simp [hempty, p50Ns]
  · rw [and_iff_right hempty, ← upperMedian_iff hp batch hempty, p50Ns,
      if_neg (by simpa using hempty)]
    cases (batch.insertionSort (· ≤ ·))[batch.length / 2]? <;> simp

/-- **The P50 test is the majority test**, in exact integers. -/
theorem p50Ns_breached_eq (thresholdMs : UInt64) (batch : List UInt64) :
    ((p50Ns batch).map fun ns => decide (thresholdMs.saturatingMul 1000000 < ns)).getD false =
      breaching thresholdMs batch := by
  have hcount : (batch.countP fun ns => thresholdMs.saturatingMul 1000000 < ns) =
      batch.countP fun ns => thresholdMs.toNat * 1000000 < ns.toNat :=
    List.countP_congr fun ns _ => by
      simpa only [decide_eq_true_eq] using saturatingMul_lt_iff thresholdMs ns
  have hp (a b : UInt64) (hab : a ≤ b) :
      decide (thresholdMs.saturatingMul 1000000 < a) = true →
        decide (thresholdMs.saturatingMul 1000000 < b) = true := by
    simp only [decide_eq_true_eq]
    exact fun ha => UInt64.lt_of_lt_of_le ha hab
  rw [Bool.eq_iff_iff, p50Ns_map_iff hp, hcount]
  simp [breaching]

/-- Everything one tick does, for any state: the batch is gone, and the counter has seen the
verdict on it. -/
theorem ruleTick_eq (args : Args) (devLabel : String) (now : DateTime) (s : RuleState) :
    let next := s.counter.observe (breaching args.fsyncThresholdMs s.writeFlushSamplesNs)
      args.fsyncFireAfter
    (ruleTick args devLabel now s).1 = ⟨[], next.1⟩ ∧
      ∀ f, (ruleTick args devLabel now s).2 = some f ↔
        ∃ streak, next.2 = .justFired streak ∧
          f = buildFinding now args.pgInstance devLabel
            ((p50Ns s.writeFlushSamplesNs).getD 0 / 1000000) args.fsyncThresholdMs streak
            args.intervalMs := by
  have hverdict := p50Ns_breached_eq args.fsyncThresholdMs s.writeFlushSamplesNs
  simp only [ruleTick, hverdict]
  generalize s.counter.observe (breaching args.fsyncThresholdMs s.writeFlushSamplesNs)
    args.fsyncFireAfter = next
  refine ⟨trivial, ?_⟩
  intro f
  cases next.2 <;> simp [eq_comm]

/-- **When a tick emits.** Under the counter's invariant, exactly when the run of breaches that the
verdict on this batch ends is `max 1 fire_after` long; the finding then reports that length. -/
theorem ruleTick_fires_iff (args : Args) (devLabel : String) (now : DateTime) {s : RuleState}
    {history : List Bool} (h : s.counter.Tracks args.fsyncFireAfter history) (f : Finding) :
    (ruleTick args devLabel now s).2 = some f ↔
      trailingRun id (history ++ [breaching args.fsyncThresholdMs s.writeFlushSamplesNs]) =
          max 1 args.fsyncFireAfter.toNat ∧
        f = buildFinding now args.pgInstance devLabel
          ((p50Ns s.writeFlushSamplesNs).getD 0 / 1000000) args.fsyncThresholdMs
          (max 1 args.fsyncFireAfter) args.intervalMs := by
  have hmax := UInt32.toNat_max_one args.fsyncFireAfter
  rw [(ruleTick_eq args devLabel now s).2 f]
  constructor
  · rintro ⟨streak, hstreak, rfl⟩
    obtain ⟨hrun, hval⟩ := (h.justFired_iff _ streak).mp hstreak
    obtain rfl : streak = max 1 args.fsyncFireAfter := UInt32.toNat_inj.mp (by rw [hval, hmax])
    exact ⟨hrun, rfl⟩
  · rintro ⟨hrun, rfl⟩
    exact ⟨_, (h.justFired_iff _ _).mpr ⟨hrun, hmax⟩, rfl⟩

end PgSleuth
