import PgSleuth.Core.SkippedTicks

/-!
# The temp-spill capacity rule

`pgsleuth-cli/src/temp_spill.rs`: at each tick the poller measures the temporary files and the mount
they are on, and compares both with their thresholds. The share of the mount that is free goes
through a rounded percentage of eight bits; what is decided is nevertheless the exact ratio.

## Main definitions

* `TempSpillSample.breaches` — the comparison
* `tempSpillStep` — one tick of the loop, with its single-fire latch

## Main results

* `freePct_lt_iff` — comparing the percentage is comparing the ratio
* `breaches_exact` — when a sample breaches, and why
-/

namespace PgSleuth

namespace TempSpill

/-- What the poller is started with. The poll interval, which only the timer uses, is left out. -/
structure TempSpillConfig where
  /-- Path to `$PGDATA`. -/
  pgdata : String
  /-- Fires when the size of `pgsql_tmp/` exceeds this. -/
  footprintThresholdBytes : UInt64
  /-- Fires when less than this percentage of the mount is free. 0 turns the trigger off. -/
  freeThresholdPct : UInt8
  pgInstanceId : String
deriving DecidableEq

/-- One snapshot of the temp-spill state. -/
structure TempSpillSample where
  /-- Sum of file sizes under `pgsql_tmp/`. -/
  footprintBytes : UInt64
  mountTotalBytes : UInt64
  /-- Free bytes available to processes that are not root's. -/
  mountAvailableBytes : UInt64
deriving DecidableEq

/-- Which threshold tripped, with the numbers that were compared. -/
inductive BreachReason
  | footprint (bytes thresholdBytes : UInt64)
  | freeSpace (freePct thresholdPct : UInt8)
deriving DecidableEq

/-- Free percentage, rounded down and held at 255. The product is taken in 128 bits. -/
def TempSpillSample.freePct (snap : TempSpillSample) : UInt8 :=
  if snap.mountTotalBytes == 0 then 100
  else
    .ofNatClamp (min (snap.mountAvailableBytes.toNat * 100) (2 ^ 128 - 1) /
      snap.mountTotalBytes.toNat)

/-- Whether a sample breaches the configured thresholds. -/
def TempSpillSample.breaches (snap : TempSpillSample) (cfg : TempSpillConfig) :
    Option BreachReason :=
  if cfg.footprintThresholdBytes < snap.footprintBytes then
    some (.footprint snap.footprintBytes cfg.footprintThresholdBytes)
  else if 0 < cfg.freeThresholdPct && snap.freePct < cfg.freeThresholdPct then
    some (.freeSpace snap.freePct cfg.freeThresholdPct)
  else none

/-- The part of a finding that depends on the reason: trigger, summary and evidence. -/
def reasonText (snap : TempSpillSample) : BreachReason → String × String × Json
  | .footprint bytes thresholdBytes =>
    ("footprint",
      s!"pgsql_tmp/ footprint {bytes} bytes > {thresholdBytes} bytes threshold " ++
        s!"(free={snap.freePct}%, total={snap.mountTotalBytes} bytes)",
      .object
        [("trigger", .string "footprint"), ("footprint_bytes", .int bytes.toNat),
          ("footprint_threshold_bytes", .int thresholdBytes.toNat),
          ("mount_total_bytes", .int snap.mountTotalBytes.toNat),
          ("mount_available_bytes", .int snap.mountAvailableBytes.toNat),
          ("free_pct", .int snap.freePct.toNat)])
  | .freeSpace freePct thresholdPct =>
    ("free_space",
      s!"Free space {freePct}% < {thresholdPct}% threshold on pgsql_tmp/ mount " ++
        s!"(footprint={snap.footprintBytes} bytes, total={snap.mountTotalBytes} bytes)",
      .object
        [("trigger", .string "free_space"), ("free_pct", .int freePct.toNat),
          ("free_threshold_pct", .int thresholdPct.toNat),
          ("mount_available_bytes", .int snap.mountAvailableBytes.toNat),
          ("mount_total_bytes", .int snap.mountTotalBytes.toNat),
          ("footprint_bytes", .int snap.footprintBytes.toNat)])

/-- The finding of the rule. -/
def buildFinding (firedAt : DateTime) (cfg : TempSpillConfig) (snap : TempSpillSample)
    (reason : BreachReason) : Finding where
  schemaVersion := findingSchemaVersion
  ruleId := "storage.temp_spill.capacity"
  ruleVersion := 1
  tier := .standard
  severity := .high
  firedAt := firedAt
  pgInstance := { id := cfg.pgInstanceId, dbName := none, role := .unknown }
  summary := (reasonText snap reason).2.1
  evidence := .ofJson (reasonText snap reason).2.2
  remediation :=
    { text := "Investigate the queries causing the spill (`pg_stat_database.temp_bytes`, " ++
        "`log_temp_files`). Resize the temp tablespace volume if traffic is " ++
        "expected to grow. Consider raising `work_mem` for the offending sessions " ++
        "to keep sorts/hashes in memory."
      knobs := ["work_mem", "temp_tablespaces", "temp_file_limit"] }
  otelAttributes :=
    .ofList
      [("pgsleuth.pgdata", AttributeValue.string cfg.pgdata),
        ("pgsleuth.temp_spill.trigger", AttributeValue.string (reasonText snap reason).1)]

/-- One tick: the clock, and the snapshot if it could be taken. -/
structure Tick where
  now : DateTime
  sample : Option TempSpillSample
deriving DecidableEq

/-- One tick of the loop: a failed snapshot is skipped, a breach fires unless one is already
firing, and the first sample without one re-arms. -/
def tempSpillStep (cfg : TempSpillConfig) (firing : Bool) (tick : Tick) : Bool × Option Finding :=
  match tick.sample with
  | none => (firing, none)
  | some snap =>
    match snap.breaches cfg, firing with
    | some reason, false => (true, some (buildFinding tick.now cfg snap reason))
    | none, true => (false, none)
    | _, _ => (firing, none)

/-! ### The two thresholds -/

/-- **Comparing the percentage is comparing the ratio.** Neither the rounding nor the ceiling at 255
makes a difference to a threshold of eight bits. -/
theorem freePct_lt_iff {snap : TempSpillSample} (htotal : 0 < snap.mountTotalBytes) (pct : UInt8) :
    snap.freePct < pct ↔
      snap.mountAvailableBytes.toNat * 100 < pct.toNat * snap.mountTotalBytes.toNat := by
  have hpos : 0 < snap.mountTotalBytes.toNat := UInt64.lt_iff_toNat_lt.mp htotal
  have hne : ¬ snap.mountTotalBytes = 0 := fun h => by simp [h] at hpos
  have havail := snap.mountAvailableBytes.toNat_lt
  have hpct := pct.toNat_lt
  have hexact : min (snap.mountAvailableBytes.toNat * 100) (2 ^ 128 - 1) =
      snap.mountAvailableBytes.toNat * 100 := Nat.min_eq_left (by omega)
  have hdiv : snap.mountAvailableBytes.toNat * 100 / snap.mountTotalBytes.toNat < pct.toNat ↔
      snap.mountAvailableBytes.toNat * 100 < pct.toNat * snap.mountTotalBytes.toNat :=
    Nat.div_lt_iff_lt_mul hpos
  rw [TempSpillSample.freePct, if_neg (by simpa using hne), hexact, UInt8.lt_iff_toNat_lt,
    UInt8.toNat_ofNatClamp, ← hdiv]
  omega

/-- The exact condition of the second trigger. -/
def LowSpace (snap : TempSpillSample) (cfg : TempSpillConfig) : Prop :=
  snap.mountAvailableBytes.toNat * 100 < cfg.freeThresholdPct.toNat * snap.mountTotalBytes.toNat

instance (snap : TempSpillSample) (cfg : TempSpillConfig) : Decidable (LowSpace snap cfg) :=
  inferInstanceAs (Decidable (_ < _))

/-- The strict inequality a reason names, between the numbers it carries. -/
def BreachReason.Strict : BreachReason → Prop
  | .footprint bytes thresholdBytes => thresholdBytes < bytes
  | .freeSpace freePct thresholdPct => freePct < thresholdPct

/-- The comparison over the integers. -/
theorem breaches_eq {snap : TempSpillSample} (htotal : 0 < snap.mountTotalBytes)
    (cfg : TempSpillConfig) :
    snap.breaches cfg =
      if cfg.footprintThresholdBytes < snap.footprintBytes then
        some (.footprint snap.footprintBytes cfg.footprintThresholdBytes)
      else if LowSpace snap cfg then some (.freeSpace snap.freePct cfg.freeThresholdPct)
      else none := by
  have hlow : (0 < cfg.freeThresholdPct && snap.freePct < cfg.freeThresholdPct) = true ↔
      LowSpace snap cfg := by
    rw [LowSpace, ← freePct_lt_iff htotal]
    simp only [Bool.and_eq_true, decide_eq_true_eq, and_iff_right_iff_imp]
    exact fun h => UInt8.lt_of_le_of_lt (UInt8.zero_le ..) h
  unfold TempSpillSample.breaches
  rw [if_congr hlow rfl rfl]

/-- A reason is true of the numbers it carries. -/
theorem strict_of_breaches {snap : TempSpillSample} {cfg : TempSpillConfig} {reason : BreachReason}
    (h : snap.breaches cfg = some reason) : reason.Strict := by
  unfold TempSpillSample.breaches at h
  split at h
  · rename_i hfootprint
    obtain rfl := Option.some.inj h
    exact hfootprint
  · split at h
    · rename_i hlow
      obtain rfl := Option.some.inj h
      simp only [Bool.and_eq_true, decide_eq_true_eq] at hlow
      exact hlow.2
    · cases h

/-- When a sample breaches at all. -/
theorem isSome_breaches {snap : TempSpillSample} (htotal : 0 < snap.mountTotalBytes)
    (cfg : TempSpillConfig) :
    (snap.breaches cfg).isSome = true ↔
      cfg.footprintThresholdBytes < snap.footprintBytes ∨ LowSpace snap cfg := by
  rw [breaches_eq htotal]
  by_cases hfootprint : cfg.footprintThresholdBytes < snap.footprintBytes <;>
    by_cases hlow : LowSpace snap cfg <;> simp [hfootprint, hlow]

/-- The second sample and configuration are at least as bad as the first: on the same mount, no
smaller a footprint, no more space available, no higher a footprint threshold and no lower a
percentage. -/
structure AtLeastAsBad (snap snap' : TempSpillSample) (cfg cfg' : TempSpillConfig) : Prop where
  total : snap'.mountTotalBytes = snap.mountTotalBytes
  footprint : snap.footprintBytes ≤ snap'.footprintBytes
  available : snap'.mountAvailableBytes ≤ snap.mountAvailableBytes
  threshold : cfg'.footprintThresholdBytes ≤ cfg.footprintThresholdBytes
  percent : cfg.freeThresholdPct ≤ cfg'.freeThresholdPct

/-- A breach stays one when everything gets worse. -/
theorem AtLeastAsBad.isSome_breaches {snap snap' : TempSpillSample} {cfg cfg' : TempSpillConfig}
    (h : AtLeastAsBad snap snap' cfg cfg') (htotal : 0 < snap.mountTotalBytes)
    (hbreach : (snap.breaches cfg).isSome = true) : (snap'.breaches cfg').isSome = true := by
  have htotal' : 0 < snap'.mountTotalBytes := by rwa [h.total]
  rw [TempSpill.isSome_breaches htotal] at hbreach
  rw [TempSpill.isSome_breaches htotal']
  refine hbreach.imp (fun hfootprint => ?_) fun hlow => ?_
  · exact UInt64.lt_of_le_of_lt h.threshold (UInt64.lt_of_lt_of_le hfootprint h.footprint)
  · have havail := UInt64.le_iff_toNat_le.mp h.available
    have hpct := UInt8.le_iff_toNat_le.mp h.percent
    unfold LowSpace at hlow ⊢
    rw [h.total]
    calc snap'.mountAvailableBytes.toNat * 100
        ≤ snap.mountAvailableBytes.toNat * 100 := Nat.mul_le_mul_right _ havail
      _ < cfg.freeThresholdPct.toNat * snap.mountTotalBytes.toNat := hlow
      _ ≤ cfg'.freeThresholdPct.toNat * snap.mountTotalBytes.toNat := Nat.mul_le_mul_right _ hpct

/-- **The thresholds are exact and monotone.** On a mount that has a size: the footprint is the
reason exactly when it exceeds its threshold; if it does not, the free space is exactly when
`available * 100 < percent * total` over the integers; if neither, there is no breach. Whatever the
reason, its strict inequality holds of the numbers it carries. And what is at least as bad as a
breach is a breach. -/
theorem breaches_exact (snap : TempSpillSample) (htotal : 0 < snap.mountTotalBytes)
    (cfg : TempSpillConfig) :
    (snap.breaches cfg = some (.footprint snap.footprintBytes cfg.footprintThresholdBytes) ↔
      cfg.footprintThresholdBytes.toNat < snap.footprintBytes.toNat) ∧
    (¬ cfg.footprintThresholdBytes.toNat < snap.footprintBytes.toNat →
      (snap.breaches cfg = some (.freeSpace snap.freePct cfg.freeThresholdPct) ↔
        snap.mountAvailableBytes.toNat * 100 <
          cfg.freeThresholdPct.toNat * snap.mountTotalBytes.toNat)) ∧
    (snap.breaches cfg = none ↔
      ¬ cfg.footprintThresholdBytes.toNat < snap.footprintBytes.toNat ∧
        ¬ snap.mountAvailableBytes.toNat * 100 <
          cfg.freeThresholdPct.toNat * snap.mountTotalBytes.toNat) ∧
    (∀ reason, snap.breaches cfg = some reason → reason.Strict) ∧
    (∀ snap' cfg', AtLeastAsBad snap snap' cfg cfg' → (snap.breaches cfg).isSome = true →
      (snap'.breaches cfg').isSome = true) := by
  rw [← UInt64.lt_iff_toNat_lt]
  refine ⟨?_, ?_, ?_, fun _ h => strict_of_breaches h,
    fun _ _ h hbreach => h.isSome_breaches htotal hbreach⟩
  · rw [breaches_eq htotal]
    by_cases hfootprint : cfg.footprintThresholdBytes < snap.footprintBytes <;>
      by_cases hlow : LowSpace snap cfg <;> simp [hfootprint, hlow]
  · intro hfootprint
    rw [breaches_eq htotal, if_neg hfootprint, ← LowSpace]
    by_cases hlow : LowSpace snap cfg <;> simp [hlow]
  · rw [← Option.not_isSome_iff_eq_none, TempSpill.isSome_breaches htotal, not_or]
    rfl

/-- Ten percent of a mount is free, and half of it should be. -/
theorem breaches_exact_tenPercent :
    let snap : TempSpillSample := ⟨0, 100000, 10000⟩
    let cfg : TempSpillConfig := ⟨"/tmp/pgdata-stub", 18446744073709551615, 50, "fixture-pg"⟩
    0 < snap.mountTotalBytes ∧
      snap.breaches cfg = some (.freeSpace snap.freePct cfg.freeThresholdPct) :=
  ⟨by decide, ((breaches_exact ⟨0, 100000, 10000⟩ (by decide)
    ⟨"/tmp/pgdata-stub", 18446744073709551615, 50, "fixture-pg"⟩).2.1 (by decide)).mpr (by decide)⟩

end TempSpill

end PgSleuth
