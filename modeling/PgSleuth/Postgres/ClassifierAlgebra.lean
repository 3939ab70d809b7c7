import Mathlib.Tactic.Linarith
import PgSleuth.Postgres.StatCheckpointer

/-!
# Symmetry, translation and scaling of the checkpoint classifier

The classifier looks at two snapshots only through five differences, each held at zero when its
counter went backwards. Of those it makes a decision that treats the two phases alike, compares
phase times with phase times only, and counts checkpoints exactly. This file says so, and reads off
what the classifier has in common with the decision.

## Main definitions

* `bucketOf` — the decision, on exact differences
* `CheckpointerSnapshot.swapPhases`, `CheckpointerSnapshot.shift`,
  `CheckpointerSnapshot.scaleTimes` — the changes of a snapshot that matter little or not at all

## Main results

* `classify_eq_bucketOf` — neither the clamped sum nor the integer division makes a difference
* `classifier_algebra` — the classifier under each of the changes, and what two of the buckets mean
-/

namespace PgSleuth

section Deltas

variable (p c : CheckpointerSnapshot)

/-- Timed checkpoints counted between two snapshots. -/
def timedDelta : ℕ := c.numTimed.toNat - p.numTimed.toNat

/-- Requested checkpoints counted between two snapshots. -/
def requestedDelta : ℕ := c.numRequested.toNat - p.numRequested.toNat

/-- Full-page images written between two snapshots. -/
def fpiDelta : ℕ := c.walFpi.toNat - p.walFpi.toNat

/-- Write time booked between two snapshots. -/
def writeDelta : ℚ := max (c.writeTimeMs - p.writeTimeMs) 0

/-- Sync time booked between two snapshots. -/
def syncDelta : ℚ := max (c.syncTimeMs - p.syncTimeMs) 0

end Deltas

/-- The bucket of an interval, on exact differences. -/
def bucketOf (timed requested : ℕ) (write sync : ℚ) (fpi : ℕ) : Option CheckpointBucket :=
  if timed + requested = 0 then none
  else if timed < requested then some .forced
  else if sync * (3 / 2) < write then some .writePhaseDominant
  else if write * (3 / 2) < sync then some .syncPhaseDominant
  else if 1000 * (timed + requested) ≤ fpi then some .fpwFlood
  else none

/-- **The classifier decides on exact differences.** A sum of counts that is held at the largest
`u64` is larger than any number of images anyway, and the quotient reaches a thousand exactly when
the images do. -/
theorem classify_eq_bucketOf (p c : CheckpointerSnapshot) :
    classify p c = bucketOf (timedDelta p c) (requestedDelta p c) (writeDelta p c) (syncDelta p c)
      (fpiDelta p c) := by
  have htimed : (c.numTimed.saturatingSub p.numTimed).toNat = timedDelta p c :=
    UInt64.toNat_saturatingSub ..
  have hreq : (c.numRequested.saturatingSub p.numRequested).toNat = requestedDelta p c :=
    UInt64.toNat_saturatingSub ..
  have hfpi : (c.walFpi.saturatingSub p.walFpi).toNat = fpiDelta p c :=
    UInt64.toNat_saturatingSub ..
  have hbound := (c.walFpi.saturatingSub p.walFpi).toNat_lt
  have hsum : ((c.numTimed.saturatingSub p.numTimed).saturatingAdd
      (c.numRequested.saturatingSub p.numRequested)).toNat =
        min (timedDelta p c + requestedDelta p c) (2 ^ 64 - 1) := by
    rw [UInt64.toNat_saturatingAdd, htimed, hreq]
  generalize hn : (c.numTimed.saturatingSub p.numTimed).saturatingAdd
    (c.numRequested.saturatingSub p.numRequested) = n at hsum
  have hzero : n = 0 ↔ timedDelta p c + requestedDelta p c = 0 := by
    rw [← UInt64.toNat_inj, hsum, UInt64.toNat_zero]
    omega
  have hforced : c.numTimed.saturatingSub p.numTimed < c.numRequested.saturatingSub p.numRequested ↔
      timedDelta p c < requestedDelta p c := by
    rw [UInt64.lt_iff_toNat_lt, htimed, hreq]
  have hflood : n ≠ 0 → (1000 ≤ c.walFpi.saturatingSub p.walFpi / max n 1 ↔
      1000 * (timedDelta p c + requestedDelta p c) ≤ fpiDelta p c) := by
    intro hne
    have hpos : 0 < n.toNat := UInt64.lt_iff_toNat_lt.mp (UInt64.pos_iff_ne_zero.mpr hne)
    have hle : (1 : UInt64) ≤ n := UInt64.le_iff_toNat_le.mpr hpos
    have hmax : max n 1 = n := by
      rw [UInt64.max_def]
      split
      · rename_i h
        exact UInt64.le_antisymm hle h
      · rfl
    have h1000 : (1000 : UInt64).toNat = 1000 := rfl
    rw [hmax, UInt64.le_iff_toNat_le, UInt64.toNat_div, h1000, hfpi, Nat.le_div_iff_mul_le hpos]
    omega
  unfold classify bucketOf
  simp only [hn, hzero, hforced]
  by_cases h : timedDelta p c + requestedDelta p c = 0
  · rw [if_pos h, if_pos h]
  · rw [if_neg h, if_neg h, if_congr (hflood (hzero.not.mpr h)) rfl rfl]
    rfl

/-! ### The decision -/

/-- Write phase and sync phase change places. -/
def CheckpointBucket.swapPhases : CheckpointBucket → CheckpointBucket
  | .writePhaseDominant => .syncPhaseDominant
  | .syncPhaseDominant => .writePhaseDominant
  | .forced => .forced
  | .fpwFlood => .fpwFlood

/-- **The decision treats the phases alike.** Unless they are negative, not both can exceed the
other by half. -/
theorem bucketOf_swap (timed requested fpi : ℕ) {write sync : ℚ} (hs : 0 ≤ sync) :
    bucketOf timed requested sync write fpi =
      (bucketOf timed requested write sync fpi).map CheckpointBucket.swapPhases := by
  unfold bucketOf
  by_cases hsum : timed + requested = 0
  · rw [if_pos hsum, if_pos hsum]
    rfl
  rw [if_neg hsum, if_neg hsum]
  by_cases hforced : timed < requested
  · rw [if_pos hforced, if_pos hforced]
    rfl
  rw [if_neg hforced, if_neg hforced]
  by_cases hwrite : sync * (3 / 2) < write
  · have hsync : ¬ write * (3 / 2) < sync := by linarith
    rw [if_neg hsync, if_pos hwrite, if_pos hwrite]
    rfl
  by_cases hsync : write * (3 / 2) < sync
  · rw [if_pos hsync, if_neg hwrite, if_pos hsync]
    rfl
  · rw [if_neg hsync, if_neg hwrite, if_neg hwrite, if_neg hsync]
    split_ifs <;> rfl

/-- **The decision compares phase times with phase times only.** -/
theorem bucketOf_scale (timed requested fpi : ℕ) (write sync : ℚ) {k : ℚ} (hk : 0 < k) :
    bucketOf timed requested (k * write) (k * sync) fpi =
      bucketOf timed requested write sync fpi := by
  have hcmp (a b : ℚ) : k * a * (3 / 2) < k * b ↔ a * (3 / 2) < b := by
    rw [mul_assoc, mul_lt_mul_iff_right₀ hk]
  simp only [bucketOf, hcmp]

/-- What the last bucket takes. -/
theorem bucketOf_eq_fpwFlood_iff {timed requested fpi : ℕ} {write sync : ℚ} :
    bucketOf timed requested write sync fpi = some .fpwFlood ↔
      0 < timed + requested ∧ ¬ timed < requested ∧ ¬ sync * (3 / 2) < write ∧
        ¬ write * (3 / 2) < sync ∧ 1000 * (timed + requested) ≤ fpi := by
  unfold bucketOf
  constructor
  · intro h
    split_ifs at h with hsum hforced hwrite hsync hflood
    · cases h
    · cases h
    · cases h
    · exact ⟨Nat.pos_of_ne_zero hsum, hforced, hwrite, hsync, hflood⟩
  · rintro ⟨hsum, hforced, hwrite, hsync, hflood⟩
    rw [if_neg (Nat.ne_zero_of_lt hsum), if_neg hforced, if_neg hwrite, if_neg hsync, if_pos hflood]

/-! ### Changes of a snapshot -/

namespace CheckpointerSnapshot

/-- Write time and sync time change places. -/
def swapPhases (s : CheckpointerSnapshot) : CheckpointerSnapshot :=
  { s with writeTimeMs := s.syncTimeMs, syncTimeMs := s.writeTimeMs }

/-- Every cumulative field grows by the same field of `d`. -/
def shift (s d : CheckpointerSnapshot) : CheckpointerSnapshot where
  numTimed := s.numTimed + d.numTimed
  numRequested := s.numRequested + d.numRequested
  writeTimeMs := s.writeTimeMs + d.writeTimeMs
  syncTimeMs := s.syncTimeMs + d.syncTimeMs
  walFpi := s.walFpi + d.walFpi

/-- None of the counters overflows when it does. -/
structure ShiftFits (s d : CheckpointerSnapshot) : Prop where
  numTimed : s.numTimed.toNat + d.numTimed.toNat < 2 ^ 64
  numRequested : s.numRequested.toNat + d.numRequested.toNat < 2 ^ 64
  walFpi : s.walFpi.toNat + d.walFpi.toNat < 2 ^ 64

/-- Both phase times are multiplied by `k`. -/
def scaleTimes (s : CheckpointerSnapshot) (k : ℚ) : CheckpointerSnapshot :=
  { s with writeTimeMs := k * s.writeTimeMs, syncTimeMs := k * s.syncTimeMs }

end CheckpointerSnapshot

/-- Without overflow, what is added on both sides cancels. -/
theorem toNat_add_sub_toNat_add {a b d : UInt64} (ha : a.toNat + d.toNat < 2 ^ 64)
    (hb : b.toNat + d.toNat < 2 ^ 64) : (a + d).toNat - (b + d).toNat = a.toNat - b.toNat := by
  rw [UInt64.toNat_add, UInt64.toNat_add, Nat.mod_eq_of_lt ha, Nat.mod_eq_of_lt hb]
  omega

/-- A clamped difference scales with its terms. -/
theorem max_mul_sub_mul (a b : ℚ) {k : ℚ} (hk : 0 < k) :
    max (k * a - k * b) 0 = k * max (a - b) 0 := by
  rw [mul_max_of_nonneg _ _ hk.le, mul_sub, mul_zero]

theorem classify_swapPhases (p c : CheckpointerSnapshot) :
    classify p.swapPhases c.swapPhases = (classify p c).map CheckpointBucket.swapPhases := by
  rw [classify_eq_bucketOf, classify_eq_bucketOf]
  exact bucketOf_swap _ _ _ (le_max_right ..)

theorem classify_shift {p c d : CheckpointerSnapshot} (hp : p.ShiftFits d) (hc : c.ShiftFits d) :
    classify (p.shift d) (c.shift d) = classify p c := by
  have htimed : timedDelta (p.shift d) (c.shift d) = timedDelta p c :=
    toNat_add_sub_toNat_add hc.numTimed hp.numTimed
  have hreq : requestedDelta (p.shift d) (c.shift d) = requestedDelta p c :=
    toNat_add_sub_toNat_add hc.numRequested hp.numRequested
  have hfpi : fpiDelta (p.shift d) (c.shift d) = fpiDelta p c :=
    toNat_add_sub_toNat_add hc.walFpi hp.walFpi
  have hwrite : writeDelta (p.shift d) (c.shift d) = writeDelta p c := by
    simp [writeDelta, CheckpointerSnapshot.shift]
  have hsync : syncDelta (p.shift d) (c.shift d) = syncDelta p c := by
    simp [syncDelta, CheckpointerSnapshot.shift]
  rw [classify_eq_bucketOf, classify_eq_bucketOf, htimed, hreq, hfpi, hwrite, hsync]

theorem classify_scaleTimes (p c : CheckpointerSnapshot) {k : ℚ} (hk : 0 < k) :
    classify (p.scaleTimes k) (c.scaleTimes k) = classify p c := by
  have hwrite : writeDelta (p.scaleTimes k) (c.scaleTimes k) = k * writeDelta p c :=
    max_mul_sub_mul _ _ hk
  have hsync : syncDelta (p.scaleTimes k) (c.scaleTimes k) = k * syncDelta p c :=
    max_mul_sub_mul _ _ hk
  rw [classify_eq_bucketOf, classify_eq_bucketOf, hwrite, hsync]
  exact bucketOf_scale _ _ _ _ _ hk

/-- A count advanced between two snapshots. -/
def CountAdvanced (p c : CheckpointerSnapshot) : Prop :=
  p.numTimed < c.numTimed ∨ p.numRequested < c.numRequested

theorem countAdvanced_iff {p c : CheckpointerSnapshot} :
    CountAdvanced p c ↔ 0 < timedDelta p c + requestedDelta p c := by
  rw [CountAdvanced, UInt64.lt_iff_toNat_lt, UInt64.lt_iff_toNat_lt]
  unfold timedDelta requestedDelta
  omega

/-- **The algebra of the classifier**, for any two snapshots. It is silent when no count advanced;
exchanging the phases in both exchanges the two phase buckets and nothing else; adding the same to
the counters of both, as long as none overflows, or multiplying all phase times by one positive
factor changes nothing. The forced bucket is the one with more requested than timed checkpoints, and
the full-page-image bucket the one where a count advanced, that is not so, neither phase exceeds the
other by half, and there are at least a thousand images for each checkpoint, exactly. -/
theorem classifier_algebra (p c : CheckpointerSnapshot) :
    (¬ CountAdvanced p c → classify p c = none) ∧
    classify p.swapPhases c.swapPhases = (classify p c).map CheckpointBucket.swapPhases ∧
    (∀ d : CheckpointerSnapshot, p.ShiftFits d → c.ShiftFits d →
      classify (p.shift d) (c.shift d) = classify p c) ∧
    (∀ k : ℚ, 0 < k → classify (p.scaleTimes k) (c.scaleTimes k) = classify p c) ∧
    (classify p c = some .forced ↔ timedDelta p c < requestedDelta p c) ∧
    (classify p c = some .fpwFlood ↔
      CountAdvanced p c ∧ ¬ timedDelta p c < requestedDelta p c ∧
        ¬ syncDelta p c * (3 / 2) < writeDelta p c ∧
        ¬ writeDelta p c * (3 / 2) < syncDelta p c ∧
        1000 * (timedDelta p c + requestedDelta p c) ≤ fpiDelta p c) := by
  refine ⟨fun h => ?_, classify_swapPhases p c, fun d hp hc => classify_shift hp hc,
    fun k hk => classify_scaleTimes p c hk, ?_, ?_⟩
  · rw [countAdvanced_iff] at h
    rw [classify_eq_bucketOf, bucketOf, if_pos (Nat.eq_zero_of_not_pos h)]
  · rw [classify_eq_forced_iff, UInt64.lt_iff_toNat_lt, UInt64.toNat_saturatingSub,
      UInt64.toNat_saturatingSub]
    rfl
  · rw [classify_eq_bucketOf, bucketOf_eq_fpwFlood_iff, countAdvanced_iff]

end PgSleuth
