import Mathlib.Algebra.Order.Field.Basic
import Mathlib.Data.Rat.Lemmas
import Mathlib.Tactic.FieldSimp
import Mathlib.Tactic.Linarith
import PgSleuth.Core.Finding
import PgSleuth.Core.Window
import PgSleuth.ForMathlib.LastSome

/-!
# The cgroup-throttle rule

`pgsleuth-cli/src/cgroup_throttle.rs`: at each tick the poller reads `cpu.stat`, divides the growth
of `throttled_usec` since the last successful read by the length of one interval, and compares the
quotient with the threshold. A read that fails is skipped, and the next quotient is then taken over
a longer time than it is divided by.

## Main definitions

* `breachValue`, `throttleStep` — the rate, and one tick of the loop
* `NoFalseBreach` — a tick that counts as breached had a rate above the threshold over the time that
  really passed
* `Exceeds` — the throttled time of one interval exceeds the threshold, in exact integers

## Main results

* `breachedAt_iff` — when a tick counts as breached
* `noFalseBreach_iff` — which runs have no false breach, and which patterns of failures allow one
* `breachedAt_iff_exceeds_iff` — which breaches the division loses
-/

namespace PgSleuth

namespace CgroupThrottle

/-- The fields of `cpu.stat` the rule uses. -/
structure CpuStat where
  nrPeriods : UInt64
  nrThrottled : UInt64
  throttledUsec : UInt64
deriving DecidableEq

/-- The quantities of one interval, for the evidence of a finding. -/
structure BreachValue where
  throttledUsecDelta : UInt64
  /-- Throttled milliseconds per second of wall-clock. -/
  throttledMsPerSec : UInt64
  periodsDelta : UInt64
  throttledPeriodsDelta : UInt64
deriving DecidableEq

/-- The quantities of the interval between two reads, `none` without an earlier one. -/
def breachValue (prev : Option CpuStat) (cur : CpuStat) (intervalMs : UInt64) :
    Option BreachValue :=
  prev.map fun p =>
    let throttledUsecDelta := cur.throttledUsec.saturatingSub p.throttledUsec
    { throttledUsecDelta
      throttledMsPerSec := if intervalMs = 0 then 0 else throttledUsecDelta / intervalMs
      periodsDelta := cur.nrPeriods.saturatingSub p.nrPeriods
      throttledPeriodsDelta := cur.nrThrottled.saturatingSub p.nrThrottled }

/-- The finding of the rule. -/
def buildFinding (firedAt : DateTime) (pgInstance : String) (b : BreachValue) (threshold : UInt64)
    (streak : UInt32) (intervalMs : UInt64) : Finding where
  schemaVersion := findingSchemaVersion
  ruleId := "cpu.cgroup.throttle"
  ruleVersion := 1
  tier := .standard
  severity := .high
  firedAt := firedAt
  pgInstance := { id := pgInstance, dbName := none, role := .unknown }
  summary := s!"Cgroup throttled {b.throttledMsPerSec}ms/sec > {threshold}ms/sec threshold " ++
    s!"for {streak} consecutive {intervalMs}ms intervals"
  evidence := .ofJson (.object
    [("throttled_ms_per_sec", .int b.throttledMsPerSec.toNat),
      ("throttled_usec_delta", .int b.throttledUsecDelta.toNat),
      ("periods_delta", .int b.periodsDelta.toNat),
      ("throttled_periods_delta", .int b.throttledPeriodsDelta.toNat),
      ("threshold_ms_per_sec", .int threshold.toNat), ("streak_intervals", .int streak.toNat),
      ("interval_ms", .int intervalMs.toNat), ("eBPF_correlation", .bool false)])
  remediation :=
    { text := "Raise the cgroup's CFS CPU quota or migrate to a node with more CPU " ++
        "headroom. Latency spikes correlated with throttle windows are root-cause; " ++
        "inside-PG metrics will look healthy."
      knobs := ["cpu.max", "limits.cpu (K8s)"] }
  otelAttributes :=
    .ofList [("pgsleuth.cgroup.throttle.eBPF_correlation", AttributeValue.bool false)]

/-- What the loop is started with. -/
structure Args where
  intervalMs : UInt64
  throttledMsPerSecThreshold : UInt64
  fireAfter : UInt32
  pgInstanceId : String

/-- One tick: the clock, and the answer to the read. -/
structure Tick where
  now : DateTime
  read : Option CpuStat

/-- The variables of the loop. -/
structure State where
  counter : ConsecutiveBreachCounter
  prev : Option CpuStat

/-- The state the loop starts in. -/
def State.new : State := ⟨.default, none⟩

/-- What one successful tick computes. -/
structure Outcome where
  breach : Option BreachValue
  breached : Bool
  state : BreachState
  finding : Option Finding

/-- One tick of the loop, which a failed read leaves at once. -/
def throttleStep (args : Args) (s : State) (tick : Tick) : State × Option Outcome :=
  match tick.read with
  | none => (s, none)
  | some cur =>
    let breach := breachValue s.prev cur args.intervalMs
    let breached := breach.any fun b => args.throttledMsPerSecThreshold < b.throttledMsPerSec
    let next := s.counter.observe breached args.fireAfter
    let finding :=
      match next.2, breach with
      | .justFired streak, some b =>
        some (buildFinding tick.now args.pgInstanceId b args.throttledMsPerSecThreshold streak
          args.intervalMs)
      | _, _ => none
    (⟨next.1, some cur⟩, some ⟨breach, breached, next.2, finding⟩)

variable (args : Args)

/-- The answers to the reads of a run. -/
def reads (ticks : List Tick) : List (Option CpuStat) := ticks.map Tick.read

/-- The tick with index `t` counts as breached. -/
def BreachedAt (ticks : List Tick) (t : ℕ) : Prop :=
  ∃ o, (Mealy.outputs (throttleStep args) .new ticks)[t]? = some (some o) ∧ o.breached = true

/-! ### What the loop remembers -/

/-- After any ticks the loop remembers the last successful read. -/
theorem prev_final (ticks : List Tick) :
    (Mealy.final (throttleStep args) .new ticks).prev = lastSome (reads ticks) := by
  refine Mealy.final_induction (P := fun ticks (s : State) => s.prev = lastSome (reads ticks)) _
    rfl ?_ ticks
  intro ticks tick ih
  rw [reads, List.map_append, List.map_singleton, lastSome_concat, ← reads, ← ih]
  cases h : tick.read <;> simp [throttleStep, h]

/-- The quotient exceeds the threshold exactly when the growth reaches the next multiple. -/
theorem lt_div_iff {d i t : UInt64} (hi : 0 < i.toNat) :
    t < d / i ↔ (t.toNat + 1) * i.toNat ≤ d.toNat := by
  rw [UInt64.lt_iff_toNat_lt, UInt64.toNat_div, Nat.lt_iff_add_one_le, Nat.le_div_iff_mul_le hi]

/-- What a successful read makes of the remembered one. -/
theorem throttleStep_breached (hI : 0 < args.intervalMs.toNat) (s : State) {tick : Tick}
    {c : CpuStat} (hc : tick.read = some c) :
    ∃ o, (throttleStep args s tick).2 = some o ∧ (o.breached = true ↔ ∃ p, s.prev = some p ∧
      (args.throttledMsPerSecThreshold.toNat + 1) * args.intervalMs.toNat ≤
        c.throttledUsec.toNat - p.throttledUsec.toNat) := by
  have hne : args.intervalMs ≠ 0 := by
    rintro h
    rw [h] at hI
    exact absurd hI (by decide)
  refine ⟨_, by simp only [throttleStep, hc]; rfl, ?_⟩
  cases hp : s.prev with
  | none => simp [breachValue]
  | some p => simp [breachValue, hne, lt_div_iff hI]

/-- **When a tick counts as breached**: the growth since the last successful read reaches one
millisecond more for each second of a single interval than the threshold. -/
theorem breachedAt_iff (hI : 0 < args.intervalMs.toNat) {ticks : List Tick} {t : ℕ} :
    BreachedAt args ticks t ↔ ∃ s p c, LastSuccess (reads ticks) s t p ∧
      (reads ticks)[t]? = some (some c) ∧
        (args.throttledMsPerSecThreshold.toNat + 1) * args.intervalMs.toNat ≤
          c.throttledUsec.toNat - p.throttledUsec.toNat := by
  have hprev : (Mealy.final (throttleStep args) .new (ticks.take t)).prev =
      lastSome ((reads ticks).take t) := by rw [prev_final, reads, reads, List.map_take]
  have hread : (reads ticks)[t]? = ticks[t]?.map Tick.read := List.getElem?_map ..
  rw [BreachedAt, Mealy.getElem?_outputs, hread]
  cases htick : ticks[t]? with
  | none => simp
  | some tick =>
    have ht : t ≤ (reads ticks).length := by
      rw [reads, List.length_map]
      exact Nat.le_of_lt (List.getElem?_eq_some_iff.mp htick).1
    cases hc : tick.read with
    | none => simp [throttleStep, hc]
    | some c =>
      obtain ⟨o, ho, hbreached⟩ :=
        throttleStep_breached args hI (Mealy.final (throttleStep args) .new (ticks.take t)) hc
      rw [hprev] at hbreached
      simp only [Option.map_some, ho, Option.some.injEq, exists_eq_left', hbreached,
        lastSome_take_eq_some_iff ht, hc]
      constructor
      · rintro ⟨p, ⟨s, hs⟩, hle⟩
        exact ⟨s, p, c, hs, rfl, hle⟩
      · rintro ⟨s, p, c', hs, rfl, hle⟩
        exact ⟨p, ⟨s, hs⟩, hle⟩

/-! ### False breaches -/

/-- The throttled milliseconds per second over `n` intervals between two reads. -/
def trueRate (args : Args) (p c : CpuStat) (n : ℕ) : ℚ :=
  ((c.throttledUsec.toNat - p.throttledUsec.toNat : ℕ) / 1000 : ℚ) /
    (n * args.intervalMs.toNat / 1000 : ℚ)

/-- Whenever a tick counts as breached, the rate since the last successful read, over the time that
really passed, exceeds the threshold. -/
def NoFalseBreach (ticks : List Tick) : Prop :=
  ∀ t, BreachedAt args ticks t → ∃ s p c, LastSuccess (reads ticks) s t p ∧
    (reads ticks)[t]? = some (some c) ∧
      (args.throttledMsPerSecThreshold.toNat : ℚ) < trueRate args p c (t - s)

/-- The successful reads never decrease. -/
def NeverDecreasing (ticks : List Tick) : Prop :=
  ∀ (s t : ℕ) (p c : CpuStat), s ≤ t → (reads ticks)[s]? = some (some p) →
    (reads ticks)[t]? = some (some c) → p.throttledUsec.toNat ≤ c.throttledUsec.toNat

/-- The rate, cleared of denominators. -/
theorem lt_trueRate_iff (hI : 0 < args.intervalMs.toNat) {p c : CpuStat} {n : ℕ} (hn : 0 < n) :
    (args.throttledMsPerSecThreshold.toNat : ℚ) < trueRate args p c n ↔
      args.throttledMsPerSecThreshold.toNat * (n * args.intervalMs.toNat) <
        c.throttledUsec.toNat - p.throttledUsec.toNat := by
  have hpos : (0 : ℚ) < n * args.intervalMs.toNat := by exact_mod_cast Nat.mul_pos hn hI
  rw [trueRate, div_div_div_cancel_right₀ (by norm_num), lt_div_iff₀ hpos]
  exact_mod_cast Iff.rfl

/-- **Which runs have no false breach**: between two successive successful reads that are not one
tick apart, the throttled time either stays below one interval's worth or exceeds the threshold over
all of them. -/
theorem noFalseBreach_iff_reads (hI : 0 < args.intervalMs.toNat) (ticks : List Tick) :
    NoFalseBreach args ticks ↔ ∀ s t p c, LastSuccess (reads ticks) s t p →
      (reads ticks)[t]? = some (some c) →
        t = s + 1 ∨
          c.throttledUsec.toNat - p.throttledUsec.toNat <
            (args.throttledMsPerSecThreshold.toNat + 1) * args.intervalMs.toNat ∨
          args.throttledMsPerSecThreshold.toNat * ((t - s) * args.intervalMs.toNat) <
            c.throttledUsec.toNat - p.throttledUsec.toNat := by
  constructor
  · intro h s t p c hs hc
    rcases Nat.lt_or_ge (c.throttledUsec.toNat - p.throttledUsec.toNat)
      ((args.throttledMsPerSecThreshold.toNat + 1) * args.intervalMs.toNat) with hlt | hge
    · exact Or.inr (Or.inl hlt)
    · obtain ⟨s', p', c', hs', hc', hrate⟩ :=
        h t ((breachedAt_iff args hI).mpr ⟨s, p, c, hs, hc, hge⟩)
      obtain ⟨rfl, rfl⟩ := hs.unique hs'
      obtain rfl : c = c' := by simpa [hc] using hc'
      exact Or.inr (Or.inr ((lt_trueRate_iff args hI (Nat.sub_pos_of_lt hs.1)).mp hrate))
  · intro h t hbreached
    obtain ⟨s, p, c, hs, hc, hge⟩ := (breachedAt_iff args hI).mp hbreached
    refine ⟨s, p, c, hs, hc, (lt_trueRate_iff args hI (Nat.sub_pos_of_lt hs.1)).mpr ?_⟩
    rcases h s t p c hs hc with rfl | hlt | hlt
    · -- one tick apart, the quotient is the rate
      rw [Nat.add_sub_cancel_left, Nat.one_mul]
      have hmul := Nat.add_one_mul args.throttledMsPerSecThreshold.toNat args.intervalMs.toNat
      omega
    · omega
    · exact hlt

/-- The run in which every read up to position `s` finds nothing throttled, and every later one
finds `growth`. The reads fail where they fail in `ticks`. -/
def stepRun (ticks : List Tick) (s : ℕ) (growth : UInt64) : List Tick :=
  ticks.mapIdx fun i tick =>
    { tick with read := tick.read.map fun _ => ⟨0, 0, if i ≤ s then 0 else growth⟩ }

theorem reads_stepRun (ticks : List Tick) (s : ℕ) (growth : UInt64) (i : ℕ) :
    (reads (stepRun ticks s growth))[i]? =
      (reads ticks)[i]?.map (Option.map fun _ => ⟨0, 0, if i ≤ s then 0 else growth⟩) := by
  simp [reads, stepRun, Function.comp_def]

theorem neverDecreasing_stepRun (ticks : List Tick) (s : ℕ) (growth : UInt64) :
    NeverDecreasing (stepRun ticks s growth) := by
  intro i j p c hij hp hc
  rw [reads_stepRun] at hp hc
  simp only [Option.map_eq_some_iff] at hp hc
  obtain ⟨-, -, -, -, rfl⟩ := hp
  obtain ⟨-, -, -, -, rfl⟩ := hc
  by_cases hi : i ≤ s
  · simp [hi]
  · have hj : ¬ j ≤ s := by omega
    simp [hi, hj]

theorem map_isSome_reads_stepRun (ticks : List Tick) (s : ℕ) (growth : UInt64) :
    (reads (stepRun ticks s growth)).map Option.isSome = (reads ticks).map Option.isSome := by
  refine List.ext_getElem? ?_
  intro i
  rw [List.getElem?_map, List.getElem?_map, reads_stepRun]
  cases (reads ticks)[i]? with
  | none => rfl
  | some o => cases o <;> rfl

/-- **Which patterns of failures allow a false breach**: all with a failed read between two
successful ones, unless the threshold is zero or too high to be reached. -/
theorem noFalseBreach_forall_iff (hI : 0 < args.intervalMs.toNat) (ticks : List Tick) :
    (∀ ticks', (reads ticks').map Option.isSome = (reads ticks).map Option.isSome →
        NeverDecreasing ticks' → NoFalseBreach args ticks') ↔
      args.throttledMsPerSecThreshold.toNat = 0 ∨
        2 ^ 64 ≤ (args.throttledMsPerSecThreshold.toNat + 1) * args.intervalMs.toNat ∨
        ∀ s t p c, LastSuccess (reads ticks) s t p → (reads ticks)[t]? = some (some c) →
          t = s + 1 := by
  constructor
  · intro h
    by_contra hno
    push Not at hno
    obtain ⟨hthreshold, hreach, s, t, p, c, hs, hc, hgap⟩ := hno
    let growth : UInt64 :=
      .ofNat ((args.throttledMsPerSecThreshold.toNat + 1) * args.intervalMs.toNat)
    have hgrowth : growth.toNat =
        (args.throttledMsPerSecThreshold.toNat + 1) * args.intervalMs.toNat :=
      UInt64.toNat_ofNat_of_lt' hreach
    have hrun := h (stepRun ticks s growth) (map_isSome_reads_stepRun ticks s growth)
      (neverDecreasing_stepRun ticks s growth)
    -- the growth is just enough for one interval, and too little for two
    have hs' : LastSuccess (reads (stepRun ticks s growth)) s t ⟨0, 0, 0⟩ := by
      refine ⟨hs.1, by rw [reads_stepRun, hs.2.1]; simp, ?_⟩
      intro r hr hr'
      rw [reads_stepRun, hs.2.2 r hr hr']
      rfl
    have hc' : (reads (stepRun ticks s growth))[t]? = some (some ⟨0, 0, growth⟩) := by
      rw [reads_stepRun, hc]
      simp [Nat.not_le.mpr hs.1]
    have hle : (args.throttledMsPerSecThreshold.toNat + 1) * args.intervalMs.toNat ≤
        args.throttledMsPerSecThreshold.toNat * ((t - s) * args.intervalMs.toNat) :=
      calc (args.throttledMsPerSecThreshold.toNat + 1) * args.intervalMs.toNat
          ≤ args.throttledMsPerSecThreshold.toNat * 2 * args.intervalMs.toNat :=
            Nat.mul_le_mul_right _ (by omega)
        _ = args.throttledMsPerSecThreshold.toNat * (2 * args.intervalMs.toNat) :=
            Nat.mul_assoc ..
        _ ≤ args.throttledMsPerSecThreshold.toNat * ((t - s) * args.intervalMs.toNat) :=
            Nat.mul_le_mul_left _ (Nat.mul_le_mul_right _ (by have := hs.1; omega))
    have hdelta : growth.toNat - (0 : UInt64).toNat =
        (args.throttledMsPerSecThreshold.toNat + 1) * args.intervalMs.toNat := hgrowth
    have hcases := (noFalseBreach_iff_reads args hI _).mp hrun s t _ _ hs' hc'
    rw [hdelta] at hcases
    rcases hcases with heq | hlt | hlt
    · exact hgap heq
    · exact Nat.lt_irrefl _ hlt
    · exact Nat.not_lt.mpr hle hlt
  · intro hcond ticks' hpattern _
    refine (noFalseBreach_iff_reads args hI ticks').mpr ?_
    intro s t p c hs hc
    rcases hcond with hzero | hreach | hgap
    · have hpos : 0 < (args.throttledMsPerSecThreshold.toNat + 1) * args.intervalMs.toNat :=
        Nat.mul_pos (Nat.succ_pos _) hI
      rw [hzero, Nat.zero_mul] at *
      omega
    · have := c.throttledUsec.toNat_lt
      exact Or.inr (Or.inl (by omega))
    · obtain ⟨p', hs'⟩ := hs.of_map_isSome_eq hpattern
      have hat := congrArg (·[t]?) hpattern
      simp only [List.getElem?_map, hc, Option.map_some, Option.isSome_some] at hat
      obtain ⟨o, ho, hsome⟩ := Option.map_eq_some_iff.mp hat.symm
      obtain ⟨c', rfl⟩ := Option.isSome_iff_exists.mp hsome
      exact Or.inl (hgap s t p' c' hs' ho)

/-- **Exactly when there is no false breach.** In one run: when no two successive successful reads
lie several ticks apart with a growth between them that is enough for one interval and too little
for all of them. In all runs whose reads fail at the same ticks: when no failed read lies between
two successful ones, or the threshold is zero, or no `u64` reaches it. -/
theorem noFalseBreach_iff (hI : 0 < args.intervalMs.toNat) (ticks : List Tick) :
    (NoFalseBreach args ticks ↔ ∀ s t p c, LastSuccess (reads ticks) s t p →
      (reads ticks)[t]? = some (some c) →
        t = s + 1 ∨
          c.throttledUsec.toNat - p.throttledUsec.toNat <
            (args.throttledMsPerSecThreshold.toNat + 1) * args.intervalMs.toNat ∨
          args.throttledMsPerSecThreshold.toNat * ((t - s) * args.intervalMs.toNat) <
            c.throttledUsec.toNat - p.throttledUsec.toNat) ∧
      ((∀ ticks', (reads ticks').map Option.isSome = (reads ticks).map Option.isSome →
          NeverDecreasing ticks' → NoFalseBreach args ticks') ↔
        args.throttledMsPerSecThreshold.toNat = 0 ∨
          2 ^ 64 ≤ (args.throttledMsPerSecThreshold.toNat + 1) * args.intervalMs.toNat ∨
          ∀ s t p c, LastSuccess (reads ticks) s t p → (reads ticks)[t]? = some (some c) →
            t = s + 1) :=
  ⟨noFalseBreach_iff_reads args hI ticks, noFalseBreach_forall_iff args hI ticks⟩

/-! ### One failed read -/

/-- One second between ticks, 50 ms per second, as the command line defaults have it. -/
def oneSecond : Args where
  intervalMs := 1000
  throttledMsPerSecThreshold := 50
  fireAfter := 3
  pgInstanceId := "fixture-pg"

/-- Sixty throttled milliseconds in two seconds, and a read that fails in between. -/
def failedRead : List Tick :=
  [⟨.atSecond 0, some ⟨10, 1, 0⟩⟩, ⟨.atSecond 1, none⟩, ⟨.atSecond 2, some ⟨30, 3, 60000⟩⟩]

theorem noFalseBreach_iff_failedRead :
    0 < oneSecond.intervalMs.toNat ∧
      (NoFalseBreach oneSecond failedRead ↔ ∀ s t p c, LastSuccess (reads failedRead) s t p →
        (reads failedRead)[t]? = some (some c) →
          t = s + 1 ∨
            c.throttledUsec.toNat - p.throttledUsec.toNat <
              (oneSecond.throttledMsPerSecThreshold.toNat + 1) * oneSecond.intervalMs.toNat ∨
            oneSecond.throttledMsPerSecThreshold.toNat *
                ((t - s) * oneSecond.intervalMs.toNat) <
              c.throttledUsec.toNat - p.throttledUsec.toNat) :=
  ⟨by decide, (noFalseBreach_iff oneSecond (by decide) failedRead).1⟩

theorem neverDecreasing_failedRead : NeverDecreasing failedRead := by
  intro s t p c hst hp hc
  have ht : t < 3 := (List.getElem?_eq_some_iff.mp hc).1
  have hcases : t = 0 ∨ t = 1 ∨ t = 2 := by omega
  rcases hcases with rfl | rfl | rfl
  · obtain rfl : s = 0 := by omega
    rw [hp] at hc
    cases hc
    exact Nat.le_refl _
  · cases hc
  · have hthrottled : p.throttledUsec = 0 ∨ p.throttledUsec = 60000 := by
      have hcases : s = 0 ∨ s = 1 ∨ s = 2 := by omega
      rcases hcases with rfl | rfl | rfl <;> cases hp
      · exact Or.inl rfl
      · exact Or.inr rfl
    cases hc
    rcases hthrottled with h | h
    · rw [h]
      decide
    · rw [h]

/-- There are false breaches: thirty throttled milliseconds per second, read after a failure, count
as sixty. -/
theorem not_noFalseBreach :
    ¬ ∀ (args : Args) (ticks : List Tick), 0 < args.intervalMs.toNat → NeverDecreasing ticks →
      NoFalseBreach args ticks := by
  intro h
  have hrun := h oneSecond failedRead (by decide) neverDecreasing_failedRead
  have hlast : LastSuccess (reads failedRead) 0 2 ⟨10, 1, 0⟩ :=
    ⟨by decide, rfl, fun r hr hr' => by
      obtain rfl : r = 1 := by omega
      rfl⟩
  have hcases := (noFalseBreach_iff_reads oneSecond (by decide) failedRead).mp hrun 0 2
    ⟨10, 1, 0⟩ ⟨30, 3, 60000⟩ hlast rfl
  exact absurd hcases (by decide)

/-! ### Breaches lost to the division -/

/-- Throttled time exceeded the threshold in the interval between two reads, in microseconds:
`threshold` milliseconds a second are `threshold` microseconds a millisecond. -/
def Exceeds (args : Args) (p c : CpuStat) : Prop :=
  p.throttledUsec.toNat + args.throttledMsPerSecThreshold.toNat * args.intervalMs.toNat <
    c.throttledUsec.toNat

/-- **When the tick after a successful read counts as breached.** -/
theorem breachedAt_succ_iff (hI : 0 < args.intervalMs.toNat) {ticks : List Tick} {s : ℕ}
    {p c : CpuStat} (hp : (reads ticks)[s]? = some (some p))
    (hc : (reads ticks)[s + 1]? = some (some c)) :
    BreachedAt args ticks (s + 1) ↔
      (args.throttledMsPerSecThreshold.toNat + 1) * args.intervalMs.toNat ≤
        c.throttledUsec.toNat - p.throttledUsec.toNat := by
  have hlast : LastSuccess (reads ticks) s (s + 1) p :=
    ⟨Nat.lt_succ_self s, hp, fun r hr hr' => by omega⟩
  rw [breachedAt_iff args hI]
  constructor
  · rintro ⟨s', p', c', hs', hc', hle⟩
    obtain ⟨-, rfl⟩ := hlast.unique hs'
    obtain rfl : c = c' := by simpa [hc] using hc'
    exact hle
  · intro hle
    exact ⟨s, p, c, hlast, hc, hle⟩

/-- **Which breaches are lost**: the tick after a successful read counts as breached exactly when
throttled time exceeded the threshold, unless it did so by less than one microsecond for each
millisecond of the interval. Then it exceeded the threshold and the tick does not count. -/
theorem breachedAt_iff_exceeds_iff (hI : 0 < args.intervalMs.toNat) {ticks : List Tick} {s : ℕ}
    {p c : CpuStat} (hp : (reads ticks)[s]? = some (some p))
    (hc : (reads ticks)[s + 1]? = some (some c)) :
    (BreachedAt args ticks (s + 1) ↔ Exceeds args p c) ↔
      ¬ (args.throttledMsPerSecThreshold.toNat * args.intervalMs.toNat <
          c.throttledUsec.toNat - p.throttledUsec.toNat ∧
        c.throttledUsec.toNat - p.throttledUsec.toNat <
          (args.throttledMsPerSecThreshold.toNat + 1) * args.intervalMs.toNat) := by
  have hmul := Nat.add_one_mul args.throttledMsPerSecThreshold.toNat args.intervalMs.toNat
  rw [breachedAt_succ_iff args hI hp hc, Exceeds]
  omega

/-- Two reads one second apart, with 50.999 throttled milliseconds between them. -/
def justOver : List Tick :=
  [⟨.atSecond 0, some ⟨10, 1, 0⟩⟩, ⟨.atSecond 1, some ⟨20, 2, 50999⟩⟩]

theorem breachedAt_iff_exceeds_iff_justOver :
    (BreachedAt oneSecond justOver 1 ↔ Exceeds oneSecond ⟨10, 1, 0⟩ ⟨20, 2, 50999⟩) ↔
      ¬ (oneSecond.throttledMsPerSecThreshold.toNat * oneSecond.intervalMs.toNat < 50999 ∧
        50999 < (oneSecond.throttledMsPerSecThreshold.toNat + 1) * oneSecond.intervalMs.toNat) :=
  breachedAt_iff_exceeds_iff oneSecond (by decide) (s := 0) rfl rfl

/-- Some breaches are lost: 50.999 milliseconds per second exceed 50, and do not count. -/
theorem not_breachedAt_iff_exceeds :
    ¬ ∀ (args : Args) (ticks : List Tick) (s : ℕ) (p c : CpuStat), 0 < args.intervalMs.toNat →
      (reads ticks)[s]? = some (some p) → (reads ticks)[s + 1]? = some (some c) →
        p.throttledUsec.toNat ≤ c.throttledUsec.toNat →
          (BreachedAt args ticks (s + 1) ↔ Exceeds args p c) := by
  intro h
  have hlost := h oneSecond justOver 0 ⟨10, 1, 0⟩ ⟨20, 2, 50999⟩ (by decide) rfl rfl (by decide)
  rw [breachedAt_succ_iff oneSecond (by decide) (s := 0) rfl rfl, Exceeds] at hlost
  exact absurd hlost (by decide)

end CgroupThrottle

end PgSleuth
