import PgSleuth.Core.SkippedTicks

/-!
# The connection-storm rule

`pgsleuth-cli/src/connection_storm.rs`: at each tick the poller counts the client backends and
compares the count with the threshold. A poll that fails is skipped, and the breach counter does not
hear of it.

## Main definitions

* `stormStep` — one tick of the loop
* `verdicts` — what the polls say about the threshold

## Main results

* `reportsStreaks` — the loop is one that reports streaks
* `evidenceTrue_iff` — when its findings are right
-/

namespace PgSleuth

namespace ConnectionStorm

/-- The field of the `pg_stat_activity` snapshot the rule uses. -/
structure SessionSnapshot where
  clientBackends : UInt64
deriving DecidableEq

/-- The finding of the rule. -/
def buildFinding (firedAt : DateTime) (pgInstance : String) (backends threshold : UInt64)
    (streak : UInt32) (intervalMs : UInt64) : Finding where
  schemaVersion := findingSchemaVersion
  ruleId := "storage.conn.storm"
  ruleVersion := 1
  tier := .standard
  severity := .high
  firedAt := firedAt
  pgInstance := { id := pgInstance, dbName := none, role := .unknown }
  summary := s!"Client backend count {backends} > {threshold} for {streak} consecutive " ++
    s!"{intervalMs}ms intervals (eBPF churn signal pending)"
  evidence := .ofJson (.object
    [("client_backends", .int backends.toNat), ("backend_threshold", .int threshold.toNat),
      ("streak_intervals", .int streak.toNat), ("interval_ms", .int intervalMs.toNat),
      ("churn_observed", .bool false)])
  remediation :=
    { text := "Investigate connection pool sizing and any client retry storms. " ++
        "PG's process-per-connection model makes high concurrent counts " ++
        "expensive even when idle."
      knobs := ["max_connections", "tcp_keepalives_idle", "tcp_keepalives_interval"] }
  otelAttributes := .ofList [("pgsleuth.conn.churn_observed", AttributeValue.bool false)]

/-- The streak a finding reports. -/
theorem buildFinding_streakIntervals (firedAt : DateTime) (pgInstance : String)
    (backends threshold : UInt64) (streak : UInt32) (intervalMs : UInt64) :
    (buildFinding firedAt pgInstance backends threshold streak intervalMs).evidence.get?
      "streak_intervals" = some (.int streak.toNat) := by
  rw [buildFinding]
  exact JsonValue.get?_ofJson_of_mem (by simp) (by simp) (Json.normalize_int_uint32 streak)

/-- What the loop is started with. -/
structure Args where
  intervalMs : UInt64
  backendThreshold : UInt64
  fireAfter : UInt32
  pgInstanceId : String

/-- One tick: the clock, and the answer to the poll. -/
structure Tick where
  now : DateTime
  poll : Option SessionSnapshot

/-- What one successful tick computes. -/
structure Outcome where
  breached : Bool
  state : BreachState
  finding : Option Finding

/-- One tick of the loop, which a failed poll leaves at once. -/
def stormStep (args : Args) (counter : ConsecutiveBreachCounter) (tick : Tick) :
    ConsecutiveBreachCounter × Option Outcome :=
  match tick.poll with
  | none => (counter, none)
  | some snap =>
    let breached : Bool := args.backendThreshold < snap.clientBackends
    let next := counter.observe breached args.fireAfter
    let finding :=
      match next.2 with
      | .justFired streak =>
        some (buildFinding tick.now args.pgInstanceId snap.clientBackends args.backendThreshold
          streak args.intervalMs)
      | _ => none
    (next.1, some ⟨breached, next.2, finding⟩)

variable (args : Args)

/-- The loop from the start, over any ticks. -/
def outcomes (ticks : List Tick) : List (Option Outcome) :=
  Mealy.outputs (stormStep args) .default ticks

/-- The finding a tick emits. -/
def findingAt (ticks : List Tick) (t : ℕ) : Option Finding :=
  ((outcomes args ticks)[t]?.bind id).bind Outcome.finding

/-- What the polls say about the threshold, as far as they succeed. -/
def verdicts (ticks : List Tick) : List (Option Bool) :=
  ticks.map fun tick => tick.poll.map fun snap => args.backendThreshold < snap.clientBackends

/-- The poll of the tick with index `t` succeeded, and breached. -/
def BreachedAt (ticks : List Tick) (t : ℕ) : Prop :=
  ∃ tick snap, ticks[t]? = some tick ∧ tick.poll = some snap ∧
    args.backendThreshold < snap.clientBackends

/-- Everything a tick with a successful poll does. -/
theorem stormStep_of_poll (counter : ConsecutiveBreachCounter) {tick : Tick}
    {snap : SessionSnapshot} (h : tick.poll = some snap) :
    ∃ o, stormStep args counter tick =
        ((counter.observe (args.backendThreshold < snap.clientBackends) args.fireAfter).1, some o) ∧
      o.breached = decide (args.backendThreshold < snap.clientBackends) ∧
      o.state = (counter.observe (args.backendThreshold < snap.clientBackends) args.fireAfter).2 ∧
      ∀ f, o.finding = some f ↔ ∃ streak, o.state = .justFired streak ∧
        f = buildFinding tick.now args.pgInstanceId snap.clientBackends args.backendThreshold
          streak args.intervalMs := by
  refine ⟨_, by simp only [stormStep, h]; rfl, rfl, rfl, ?_⟩
  intro f
  generalize counter.observe (args.backendThreshold < snap.clientBackends) args.fireAfter = next
  cases next.2 <;> simp [eq_comm]

/-- **The loop reports streaks.** -/
theorem reportsStreaks :
    ConsecutiveBreachCounter.ReportsStreaks (stormStep args) id Outcome.breached Outcome.state
      Outcome.finding args.fireAfter where
  observes counter tick := by
    cases h : tick.poll with
    | none => simp [stormStep, h, ConsecutiveBreachCounter.skipStep]
    | some snap =>
      obtain ⟨o, ho, hbreached, hstate, -⟩ := stormStep_of_poll args counter h
      simp [ho, hbreached, hstate, ConsecutiveBreachCounter.skipStep]
  reports counter tick o streak ho hstate := by
    cases h : tick.poll with
    | none => simp [stormStep, h] at ho
    | some snap =>
      obtain ⟨o', ho', -, -, hfinding⟩ := stormStep_of_poll args counter h
      obtain rfl : o' = o := by simpa [ho'] using ho
      exact ⟨_, (hfinding _).mpr ⟨streak, hstate, rfl⟩, buildFinding_streakIntervals ..⟩
  fires counter tick o f ho hf := by
    cases h : tick.poll with
    | none => simp [stormStep, h] at ho
    | some snap =>
      obtain ⟨o', ho', -, -, hfinding⟩ := stormStep_of_poll args counter h
      obtain rfl : o' = o := by simpa [ho'] using ho
      obtain ⟨streak, hstreak, -⟩ := (hfinding f).mp hf
      exact ⟨streak, hstreak⟩

/-- The verdicts the loop computes are those of the polls. -/
theorem outcomes_breached (ticks : List Tick) :
    (outcomes args ticks).map (Option.map Outcome.breached) = verdicts args ticks := by
  refine List.ext_getElem? ?_
  intro t
  rw [outcomes, verdicts, List.getElem?_map, List.getElem?_map, Mealy.getElem?_outputs]
  cases ticks[t]? with
  | none => rfl
  | some tick => cases h : tick.poll <;> simp [stormStep, h]

/-- A tick computes a breach exactly when its poll breached. -/
theorem exists_outcome_breached_iff (ticks : List Tick) (t : ℕ) :
    (∃ o, (outcomes args ticks)[t]? = some (some o) ∧ o.breached = true) ↔
      BreachedAt args ticks t := by
  have hat := congrArg (·[t]?) (outcomes_breached args ticks)
  simp only [verdicts, List.getElem?_map] at hat
  calc (∃ o, (outcomes args ticks)[t]? = some (some o) ∧ o.breached = true)
      ↔ (outcomes args ticks)[t]?.map (Option.map Outcome.breached) = some (some true) := by simp
    _ ↔ BreachedAt args ticks t := by
        rw [hat]
        simp [BreachedAt]

/-- **Exactly when the findings are right**: when no failed poll comes after fewer than
`max 1 fire_after` breaches in a row and is followed by as many more as complete the streak. -/
theorem evidenceTrue_iff (ticks : List Tick) :
    ConsecutiveBreachCounter.EvidenceTrue (findingAt args ticks) (BreachedAt args ticks) ↔
      ¬ BridgesGap id (max 1 args.fireAfter.toNat) (verdicts args ticks) := by
  have hstart : id ConsecutiveBreachCounter.default = .default := rfl
  have h := (reportsStreaks args).evidenceTrue_iff hstart ticks
  rw [← outcomes, outcomes_breached] at h
  simp only [exists_outcome_breached_iff] at h
  exact h

end ConnectionStorm

end PgSleuth
