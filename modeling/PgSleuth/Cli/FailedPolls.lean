import PgSleuth.Cli.CgroupThrottle
import PgSleuth.Cli.ConnectionStorm

/-!
# Failed polls inside a streak

The connection-storm and the cgroup-throttle loop both leave a tick whose poll fails before their
breach counter hears of it, and both report the counter's streak as so many consecutive intervals.
This file says exactly when that is true, for both of them.

## Main results

* `CgroupThrottle.evidenceTrue_iff` — when the findings of the cgroup-throttle loop are right
* `evidenceTrue_iff_not_bridgesGap` — when those of either loop are
* `not_evidenceTrue` — a failed poll between two breaches is not always told from a streak
-/

namespace PgSleuth

namespace CgroupThrottle

/-- The streak a finding reports. -/
theorem buildFinding_streakIntervals (firedAt : DateTime) (pgInstance : String) (b : BreachValue)
    (threshold : UInt64) (streak : UInt32) (intervalMs : UInt64) :
    (buildFinding firedAt pgInstance b threshold streak intervalMs).evidence.get?
      "streak_intervals" = some (.int streak.toNat) := by
  rw [buildFinding]
  exact JsonValue.get?_ofJson_of_mem (by simp) (by simp) (Json.normalize_int_uint32 streak)

variable (args : Args)

/-- The loop from the start, over any ticks. -/
def outcomes (ticks : List Tick) : List (Option Outcome) :=
  Mealy.outputs (throttleStep args) .new ticks

/-- The finding a tick emits. -/
def findingAt (ticks : List Tick) (t : ℕ) : Option Finding :=
  ((outcomes args ticks)[t]?.bind id).bind Outcome.finding

/-- The rate over an interval exceeds the threshold. -/
def exceeds (prev : Option CpuStat) (cur : CpuStat) : Bool :=
  (breachValue prev cur args.intervalMs).any fun b =>
    args.throttledMsPerSecThreshold < b.throttledMsPerSec

/-- What the reads say about the threshold, as far as they succeed: each is compared with the last
successful one before it. -/
def verdicts (ticks : List Tick) : List (Option Bool) :=
  (reads ticks).mapIdx fun t read => read.map (exceeds args (lastSome ((reads ticks).take t)))

/-- A counter that fires has seen a breach. -/
theorem breached_of_justFired {counter : ConsecutiveBreachCounter} {breached : Bool}
    {fireAfter streak : UInt32}
    (h : (counter.observe breached fireAfter).2 = .justFired streak) : breached = true := by
  cases breached with
  | true => rfl
  | false => simp [ConsecutiveBreachCounter.observe] at h

/-- Everything a tick with a successful read does. -/
theorem throttleStep_of_read (s : State) {tick : Tick} {cur : CpuStat}
    (h : tick.read = some cur) :
    ∃ o, throttleStep args s tick =
        (⟨(s.counter.observe (exceeds args s.prev cur) args.fireAfter).1, some cur⟩, some o) ∧
      o.breached = exceeds args s.prev cur ∧
      o.state = (s.counter.observe (exceeds args s.prev cur) args.fireAfter).2 ∧
      ∀ f, o.finding = some f ↔ ∃ streak b, o.state = .justFired streak ∧
        breachValue s.prev cur args.intervalMs = some b ∧
        f = buildFinding tick.now args.pgInstanceId b args.throttledMsPerSecThreshold streak
          args.intervalMs := by
  refine ⟨_, by simp only [throttleStep, h]; rfl, rfl, rfl, ?_⟩
  intro f
  cases breachValue s.prev cur args.intervalMs with
  | none =>
    generalize s.counter.observe _ args.fireAfter = next
    cases next.2 <;> simp
  | some b =>
    generalize s.counter.observe _ args.fireAfter = next
    cases next.2 <;> simp [eq_comm]

/-- **The loop reports streaks.** -/
theorem reportsStreaks :
    ConsecutiveBreachCounter.ReportsStreaks (throttleStep args) State.counter Outcome.breached
      Outcome.state Outcome.finding args.fireAfter where
  observes s tick := by
    cases h : tick.read with
    | none => simp [throttleStep, h, ConsecutiveBreachCounter.skipStep]
    | some cur =>
      obtain ⟨o, ho, hbreached, hstate, -⟩ := throttleStep_of_read args s h
      simp [ho, hbreached, hstate, ConsecutiveBreachCounter.skipStep]
  reports s tick o streak ho hstate := by
    cases h : tick.read with
    | none => simp [throttleStep, h] at ho
    | some cur =>
      obtain ⟨o', ho', -, hobserve, hfinding⟩ := throttleStep_of_read args s h
      obtain rfl : o' = o := by simpa [ho'] using ho
      -- a counter fires on a breach, and a breach has a rate
      have hexceeds : exceeds args s.prev cur = true :=
        breached_of_justFired (hobserve.symm.trans hstate)
      obtain ⟨b, hb, -⟩ := Option.any_eq_true _ _ |>.mp hexceeds
      exact ⟨_, (hfinding _).mpr ⟨streak, b, hstate, hb, rfl⟩, buildFinding_streakIntervals ..⟩
  fires s tick o f ho hf := by
    cases h : tick.read with
    | none => simp [throttleStep, h] at ho
    | some cur =>
      obtain ⟨o', ho', -, -, hfinding⟩ := throttleStep_of_read args s h
      obtain rfl : o' = o := by simpa [ho'] using ho
      obtain ⟨streak, b, hstreak, -, -⟩ := (hfinding f).mp hf
      exact ⟨streak, hstreak⟩

/-- The verdicts the loop computes are those of the reads. -/
theorem outcomes_breached (ticks : List Tick) :
    (outcomes args ticks).map (Option.map Outcome.breached) = verdicts args ticks := by
  refine List.ext_getElem? ?_
  intro t
  have hprev : (Mealy.final (throttleStep args) .new (ticks.take t)).prev =
      lastSome ((reads ticks).take t) := by rw [prev_final, reads, reads, List.map_take]
  rw [outcomes, verdicts, List.getElem?_map, List.getElem?_mapIdx, Mealy.getElem?_outputs,
    ← hprev, reads, List.getElem?_map]
  cases ticks[t]? with
  | none => rfl
  | some tick =>
    cases h : tick.read with
    | none => simp [throttleStep, h]
    | some cur =>
      obtain ⟨o, ho, hbreached, -⟩ := throttleStep_of_read args
        (Mealy.final (throttleStep args) .new (ticks.take t)) h
      simp [h, ho, hbreached]

/-- **Exactly when the findings are right**: when no failed read comes after fewer than
`max 1 fire_after` breaches in a row and is followed by as many more as complete the streak. -/
theorem evidenceTrue_iff (ticks : List Tick) :
    ConsecutiveBreachCounter.EvidenceTrue (findingAt args ticks) (BreachedAt args ticks) ↔
      ¬ BridgesGap id (max 1 args.fireAfter.toNat) (verdicts args ticks) := by
  have h := (reportsStreaks args).evidenceTrue_iff (rfl : State.new.counter = .default) ticks
  rw [← outcomes, outcomes_breached] at h
  exact h

end CgroupThrottle

open ConsecutiveBreachCounter

/-- **Exactly when the findings of both loops are right**, in every run: when no failed poll comes
after fewer than `max 1 fire_after` breaches in a row, at least one, and is followed by as many more
as complete the streak. -/
theorem evidenceTrue_iff_not_bridgesGap (stormArgs : ConnectionStorm.Args)
    (stormTicks : List ConnectionStorm.Tick) (throttleArgs : CgroupThrottle.Args)
    (throttleTicks : List CgroupThrottle.Tick) :
    (EvidenceTrue (ConnectionStorm.findingAt stormArgs stormTicks)
        (ConnectionStorm.BreachedAt stormArgs stormTicks) ↔
      ¬ BridgesGap id (max 1 stormArgs.fireAfter.toNat)
        (ConnectionStorm.verdicts stormArgs stormTicks)) ∧
    (EvidenceTrue (CgroupThrottle.findingAt throttleArgs throttleTicks)
        (CgroupThrottle.BreachedAt throttleArgs throttleTicks) ↔
      ¬ BridgesGap id (max 1 throttleArgs.fireAfter.toNat)
        (CgroupThrottle.verdicts throttleArgs throttleTicks)) :=
  ⟨ConnectionStorm.evidenceTrue_iff stormArgs stormTicks,
    CgroupThrottle.evidenceTrue_iff throttleArgs throttleTicks⟩

/-! ### A failed poll between two breaches -/

/-- Three ticks: 150 backends, a poll that fails, 150 backends. -/
def failedPoll : List ConnectionStorm.Tick :=
  [⟨.atSecond 0, some ⟨150⟩⟩, ⟨.atSecond 2, none⟩, ⟨.atSecond 4, some ⟨150⟩⟩]

/-- The findings are not always right: with a failed poll between two breaches, the finding reports
two consecutive intervals. -/
theorem not_evidenceTrue :
    ¬ ((∀ (args : ConnectionStorm.Args) (ticks : List ConnectionStorm.Tick),
        EvidenceTrue (ConnectionStorm.findingAt args ticks)
          (ConnectionStorm.BreachedAt args ticks)) ∧
      ∀ (args : CgroupThrottle.Args) (ticks : List CgroupThrottle.Tick),
        EvidenceTrue (CgroupThrottle.findingAt args ticks)
          (CgroupThrottle.BreachedAt args ticks)) := by
  rintro ⟨h, -⟩
  refine (ConnectionStorm.evidenceTrue_iff ⟨2000, 100, 2, "fixture-pg"⟩ failedPoll).mp (h _ _) ?_
  have hverdicts : ConnectionStorm.verdicts ⟨2000, 100, 2, "fixture-pg"⟩ failedPoll =
      [some true, none, some true] := by decide
  rw [hverdicts]
  exact ⟨[some true], [some true], rfl, by decide, by decide, by decide, by decide⟩

end PgSleuth
