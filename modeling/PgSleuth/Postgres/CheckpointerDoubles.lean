import PgSleuth.ForMathlib.Binary64
import PgSleuth.Postgres.ClassifierAlgebra

/-!
# The classifier on doubles

`stat_checkpointer::poll` hands the phase times on as the doubles the server sends, and `classify`
subtracts, scales and compares doubles. Each operation rounds, so that it can find another bucket
than exact arithmetic would. On whole milliseconds, as far as a double counts them in halves,
nothing is rounded and both find the same.

## Main definitions

* `CheckpointerRow`, `CheckpointerRow.snapshot` — the row of a poll, and what is kept of it
* `classifyF64` — the classifier
* `CheckpointerRow.bucketBetween` — the bucket of the exact differences of two rows

## Main results

* `classifyF64_eq_classify` — on whole milliseconds the classifier is that of exact arithmetic
* `CheckpointerRow.classify_exact_snapshot` — which decides on the differences of the rows
-/

namespace PgSleuth

open Binary64

/-- The row of a poll. -/
structure CheckpointerRow where
  numTimed : Int64
  numRequested : Int64
  writeTimeMs : Float
  syncTimeMs : Float
  walFpi : Int64

/-- A snapshot whose times are doubles. -/
structure CheckpointerSnapshotF64 where
  numTimed : UInt64
  numRequested : UInt64
  writeTimeMs : Float
  syncTimeMs : Float
  walFpi : UInt64

/-- What a poll keeps of the row: a count that is negative is none. -/
def CheckpointerRow.snapshot (row : CheckpointerRow) : CheckpointerSnapshotF64 where
  numTimed := row.numTimed.clampToUInt64
  numRequested := row.numRequested.clampToUInt64
  writeTimeMs := row.writeTimeMs
  syncTimeMs := row.syncTimeMs
  walFpi := row.walFpi.clampToUInt64

/-- The dominant bucket between two snapshots, in double precision. -/
def classifyF64 (prev cur : CheckpointerSnapshotF64) : Option CheckpointBucket :=
  let timedD := cur.numTimed.saturatingSub prev.numTimed
  let reqD := cur.numRequested.saturatingSub prev.numRequested
  let checkpointsInInterval := timedD.saturatingAdd reqD
  if checkpointsInInterval = 0 then none
  else if timedD < reqD then some .forced
  else
    let writeD := maxNum (cur.writeTimeMs - prev.writeTimeMs) 0.0
    let syncD := maxNum (cur.syncTimeMs - prev.syncTimeMs) 0.0
    let fpiD := cur.walFpi.saturatingSub prev.walFpi
    if syncD * 1.5 < writeD then some .writePhaseDominant
    else if writeD * 1.5 < syncD then some .syncPhaseDominant
    else if 1000 ≤ fpiD / max checkpointsInInterval 1 then some .fpwFlood
    else none

/-! ### Whole milliseconds -/

/-- A time in whole milliseconds, less than seventy thousand years. -/
def WholeMs (t : Float) : Prop := ∃ n : ℕ, n < 2 ^ 51 ∧ value t = some (n : ℚ)

/-- The number of a finite double. -/
def exactMs (t : Float) : ℚ := (value t).getD 0

/-- The clamped difference of two such times is exact. -/
theorem value_clampedSub {s t : Float} (hs : WholeMs s) (ht : WholeMs t) :
    ∃ d : ℕ, d < 2 ^ 51 ∧ value (maxNum (t - s) 0.0) = some (d : ℚ) ∧
      max (exactMs t - exactMs s) 0 = d := by
  obtain ⟨m, hm, hsm⟩ := hs
  obtain ⟨n, hn, htn⟩ := ht
  have hzero : value 0.0 = some 0 := by decide +kernel
  have hsub : value (t - s) = some ((n : ℚ) - m) := by
    refine value_sub htn hsm ?_
    have hrep : Representable (((n : ℤ) - m : ℤ) : ℚ) := representable_int (by rw [abs_lt]; omega)
    exact_mod_cast hrep
  have hmax : max ((n : ℚ) - m) 0 = ((n - m : ℕ) : ℚ) := by
    rcases le_total m n with h | h
    · rw [Nat.cast_sub h, max_eq_left]
      exact sub_nonneg.mpr (by exact_mod_cast h)
    · rw [Nat.sub_eq_zero_of_le h, Nat.cast_zero, max_eq_right]
      exact sub_nonpos.mpr (by exact_mod_cast h)
  refine ⟨n - m, by omega, ?_, ?_⟩
  · rw [value_maxNum hsub hzero, hmax]
  · rw [exactMs, exactMs, hsm, htn, Option.getD_some, Option.getD_some, hmax]

/-- So is half as much again, and the comparison with it. -/
theorem mul_lt_iff {x y : Float} {a b : ℕ} (ha : a < 2 ^ 51) (hx : value x = some (a : ℚ))
    (hy : value y = some (b : ℚ)) : x * 1.5 < y ↔ (a : ℚ) * (3 / 2) < b := by
  have hhalf : value 1.5 = some (3 / 2) := by decide +kernel
  refine lt_iff (value_mul hx hhalf ?_) hy
  have hrep : Representable (((3 * a : ℕ) : ℤ) / 2) := representable_half (by rw [abs_lt]; omega)
  have heq : (a : ℚ) * (3 / 2) = ((3 * a : ℕ) : ℤ) / 2 := by
    push_cast
    ring
  rwa [heq]

namespace CheckpointerSnapshotF64

/-- The snapshot in exact arithmetic. -/
def exact (s : CheckpointerSnapshotF64) : CheckpointerSnapshot where
  numTimed := s.numTimed
  numRequested := s.numRequested
  writeTimeMs := exactMs s.writeTimeMs
  syncTimeMs := exactMs s.syncTimeMs
  walFpi := s.walFpi

/-- Both times are in whole milliseconds. -/
structure WholeTimes (s : CheckpointerSnapshotF64) : Prop where
  writeTimeMs : WholeMs s.writeTimeMs
  syncTimeMs : WholeMs s.syncTimeMs

end CheckpointerSnapshotF64

/-- **On whole milliseconds nothing is rounded**: the classifier finds what it would in exact
arithmetic. -/
theorem classifyF64_eq_classify {p c : CheckpointerSnapshotF64} (hp : p.WholeTimes)
    (hc : c.WholeTimes) : classifyF64 p c = classify p.exact c.exact := by
  obtain ⟨w, hw, hvw, hew⟩ := value_clampedSub hp.writeTimeMs hc.writeTimeMs
  obtain ⟨s, hs, hvs, hes⟩ := value_clampedSub hp.syncTimeMs hc.syncTimeMs
  simp only [classifyF64, classify, CheckpointerSnapshotF64.exact, hew, hes]
  refine if_congr Iff.rfl rfl (if_congr Iff.rfl rfl ?_)
  exact if_congr (mul_lt_iff hs hvs hvw) rfl (if_congr (mul_lt_iff hw hvw hvs) rfl rfl)

/-- Where a double has no place for a half, rounding can hide a bucket. -/
example : classifyF64 ⟨0, 0, 0, 0, 0⟩ ⟨1, 0, 13510798882111484, 9007199254740989, 0⟩ = none ∧
    classify ⟨0, 0, 0, 0, 0⟩ ⟨1, 0, 13510798882111484, 9007199254740989, 0⟩ =
      some .writePhaseDominant := by
  decide +kernel

/-! ### Two rows -/

namespace CheckpointerRow

/-- The bucket of the exact differences of two rows, as far as they are growth. -/
def bucketBetween (p c : CheckpointerRow) : Option CheckpointBucket :=
  bucketOf (c.numTimed.toInt.toNat - p.numTimed.toInt.toNat)
    (c.numRequested.toInt.toNat - p.numRequested.toInt.toNat)
    (max (exactMs c.writeTimeMs - exactMs p.writeTimeMs) 0)
    (max (exactMs c.syncTimeMs - exactMs p.syncTimeMs) 0)
    (c.walFpi.toInt.toNat - p.walFpi.toInt.toNat)

/-- **The classifier decides on the differences of the rows**, exactly. -/
theorem classify_exact_snapshot (p c : CheckpointerRow) :
    classify p.snapshot.exact c.snapshot.exact = bucketBetween p c := by
  simp only [classify_eq_bucketOf, bucketBetween, timedDelta, requestedDelta, writeDelta, syncDelta,
    fpiDelta, snapshot, CheckpointerSnapshotF64.exact, Int64.toNat_clampToUInt64]

end CheckpointerRow

end PgSleuth
