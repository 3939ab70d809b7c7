import PgSleuth.Core.Finding
import PgSleuth.ForMathlib.LastSome
import PgSleuth.ForMathlib.Mealy
import PgSleuth.Postgres.StatCheckpointer

/-!
# The checkpoint-storm rule

`pgsleuth-cli/src/checkpoint_storm.rs`: each snapshot is classified against the one before it, and a
finding is emitted when one bucket recurs. The loop compares neighbouring snapshots only, so what
one interval sees of a checkpoint may be less than what the checkpoint did.

## Main results

* `prev_final` — the loop compares each snapshot with the last one it got
* `obtains_iff` — when the bucket of an interval survives one more poll inside it
-/

namespace PgSleuth

namespace CheckpointStorm

/-- Consecutive ticks classified as one bucket. -/
structure DominantStreak where
  current : Option CheckpointBucket
  streak : UInt32
  firedFor : Option CheckpointBucket
deriving DecidableEq

/-- `Default::default()`. -/
def DominantStreak.default : DominantStreak := ⟨none, 0, none⟩

/-- Outcome of feeding the streak one classification. -/
inductive StreakState
  | building (bucket : CheckpointBucket) (streak : UInt32)
  | justFired (bucket : CheckpointBucket) (streak : UInt32)
  | stillFiring (bucket : CheckpointBucket) (streak : UInt32)
  | noClassification
deriving DecidableEq

/-- Feed one interval's classification. -/
def DominantStreak.observe (d : DominantStreak) (bucket : Option CheckpointBucket)
    (fireAfter : UInt32) : DominantStreak × StreakState :=
  match bucket with
  | none => (d, .noClassification)
  | some b =>
    let d : DominantStreak :=
      if d.current = some b then { d with streak := d.streak.saturatingAdd 1 }
      else ⟨some b, 1, none⟩
    if d.streak < fireAfter then (d, .building b d.streak)
    else if d.firedFor = some b then (d, .stillFiring b d.streak)
    else ({ d with firedFor := some b }, .justFired b d.streak)

/-- The finding of the rule. -/
def buildFinding (firedAt : DateTime) (pgInstance : String) (bucket : CheckpointBucket)
    (streak : UInt32) (intervalMs : UInt64) : Finding where
  schemaVersion := findingSchemaVersion
  ruleId := "storage.checkpoint.storm"
  ruleVersion := 1
  tier := .standard
  severity := .high
  firedAt := firedAt
  pgInstance := { id := pgInstance, dbName := none, role := .unknown }
  summary := s!"Checkpoint storm — `{bucket.slug}` bucket dominant for {streak} " ++
    s!"consecutive {intervalMs}ms intervals"
  evidence := .ofJson (.object
    [("bucket", .string bucket.slug), ("streak_intervals", .int streak.toNat),
      ("interval_ms", .int intervalMs.toNat)])
  remediation := { text := bucket.recommendationText, knobs := bucket.knobs }
  otelAttributes := .ofList [("pgsleuth.checkpoint.bucket", AttributeValue.string bucket.slug)]

/-- What the loop is started with. -/
structure Args where
  intervalMs : UInt64
  fireAfter : UInt32
  pgInstanceId : String

/-- One tick: the clock, and the answer to the poll. -/
structure Tick where
  now : DateTime
  poll : Option CheckpointerSnapshot

/-- The variables of the loop. -/
structure State where
  prev : Option CheckpointerSnapshot
  streak : DominantStreak

/-- The state the loop starts in. -/
def State.new : State := ⟨none, .default⟩

/-- What one successful tick computes. -/
structure Outcome where
  bucket : Option CheckpointBucket
  state : StreakState
  finding : Option Finding

/-- One tick of the loop, which a failed poll leaves at once. -/
def stormStep (args : Args) (s : State) (tick : Tick) : State × Option Outcome :=
  match tick.poll with
  | none => (s, none)
  | some cur =>
    let bucket := s.prev.bind fun p => classify p cur
    let next := s.streak.observe bucket args.fireAfter
    let finding :=
      match next.2 with
      | .justFired b streak =>
        some (buildFinding tick.now args.pgInstanceId b streak args.intervalMs)
      | _ => none
    (⟨some cur, next.1⟩, some ⟨bucket, next.2, finding⟩)

variable (args : Args)

/-- The bucket a tick obtains, `none` also when its poll fails. -/
def bucketAt (ticks : List Tick) (t : ℕ) : Option CheckpointBucket :=
  ((Mealy.outputs (stormStep args) .new ticks)[t]?.bind id).bind Outcome.bucket

/-- After any ticks the loop remembers the last snapshot it got. -/
theorem prev_final (ticks : List Tick) :
    (Mealy.final (stormStep args) .new ticks).prev = lastSome (ticks.map Tick.poll) := by
  refine Mealy.final_induction (P := fun ticks (s : State) =>
    s.prev = lastSome (ticks.map Tick.poll)) _ rfl ?_ ticks
  intro ticks tick ih
  rw [List.map_append, List.map_singleton, lastSome_concat, ← ih]
  cases h : tick.poll <;> simp [stormStep, h]

/-- **What a tick obtains**: the bucket between the last snapshot and its own. -/
theorem bucketAt_append (ticks post : List Tick) (now : DateTime) (c : CheckpointerSnapshot) :
    bucketAt args (ticks ++ ⟨now, some c⟩ :: post) ticks.length =
      (lastSome (ticks.map Tick.poll)).bind fun p => classify p c := by
  have hget : (ticks ++ (⟨now, some c⟩ : Tick) :: post)[ticks.length]? = some ⟨now, some c⟩ := by
    simp
  rw [bucketAt, Mealy.getElem?_outputs, hget, List.take_left, ← prev_final args]
  simp [stormStep]

/-! ### One more poll -/

/-- Three snapshots polled one after the other, after anything else. -/
def threePolls (before : List Tick) (now : ℕ → DateTime) (p m c : CheckpointerSnapshot) :
    List Tick :=
  before ++ [⟨now 0, some p⟩, ⟨now 1, some m⟩, ⟨now 2, some c⟩]

/-- The loop obtains `b` at the second or at the third of the three polls. -/
def Obtains (before : List Tick) (now : ℕ → DateTime) (p m c : CheckpointerSnapshot)
    (b : CheckpointBucket) : Prop :=
  bucketAt args (threePolls before now p m c) (before.length + 1) = some b ∨
    bucketAt args (threePolls before now p m c) (before.length + 2) = some b

/-- The loop compares the three with their neighbours, whatever came before. -/
theorem obtains_iff_classify (before : List Tick) (now : ℕ → DateTime)
    (p m c : CheckpointerSnapshot) (b : CheckpointBucket) :
    Obtains args before now p m c b ↔ classify p m = some b ∨ classify m c = some b := by
  have hm := bucketAt_append args (before ++ [⟨now 0, some p⟩]) [⟨now 2, some c⟩] (now 1) m
  have hc := bucketAt_append args (before ++ [⟨now 0, some p⟩, ⟨now 1, some m⟩]) []
    (now 2) c
  have hlast : lastSome ((before ++ [(⟨now 0, some p⟩ : Tick), ⟨now 1, some m⟩]).map Tick.poll) =
      some m := by
    rw [List.append_cons, List.map_append, List.map_singleton, lastSome_concat]
    rfl
  rw [hlast] at hc
  rw [List.map_append, List.map_singleton, lastSome_concat] at hm
  simp only [List.append_assoc, List.cons_append, List.nil_append, List.length_append,
    List.length_cons, List.length_nil, Option.some_or, Option.bind_some] at hm hc
  rw [Obtains, threePolls, hm, hc]

/-- **When the bucket of an interval survives one more poll inside it.** The counts move in at most
one of the two ticks, and so do the phase times. Then the loop obtains the bucket of the whole
interval exactly when it is the forced one or the times move in no tick but that of the counts. -/
theorem obtains_iff (before : List Tick) (now : ℕ → DateTime) {p m c : CheckpointerSnapshot}
    (hcounts : CountsStill p m ∨ CountsStill m c) (htimes : TimesStill p m ∨ TimesStill m c)
    {b : CheckpointBucket} (hb : classify p c = some b) :
    Obtains args before now p m c b ↔
      b = .forced ∨ ((CountsStill p m → TimesStill p m) ∧ (CountsStill m c → TimesStill m c)) := by
  rw [obtains_iff_classify]
  constructor
  · intro hobtained
    by_cases hforced : b = .forced
    · exact Or.inl hforced
    · refine Or.inr ⟨?_, ?_⟩
      · intro hstill
        rw [classify_of_countsStill hstill] at hobtained
        have hmc : classify m c = some b := hobtained.resolve_left (by simp)
        exact htimes.resolve_right fun ht => hforced (classify_of_timesStill ht hmc)
      · intro hstill
        rw [classify_of_countsStill hstill] at hobtained
        have hpm : classify p m = some b := hobtained.resolve_right (by simp)
        exact htimes.resolve_left fun ht => hforced (classify_of_timesStill ht hpm)
  · rintro (rfl | ⟨hpm, hmc⟩)
    · rw [classify_eq_forced_iff] at hb
      rcases hcounts with ⟨htimed, hreq⟩ | ⟨htimed, hreq⟩
      · exact Or.inr (classify_eq_forced_iff.mpr (by rwa [htimed, hreq]))
      · exact Or.inl (classify_eq_forced_iff.mpr (by rwa [← htimed, ← hreq]))
    · rcases hcounts with hstill | hstill
      · exact Or.inr ((classify_congr_left hstill (hpm hstill)).trans hb)
      · exact Or.inl ((classify_congr_right hstill (hmc hstill)).symm.trans hb)

/-! ### A checkpoint whose times are booked late -/

/-- Every field is at least what it was. -/
structure Advances (p c : CheckpointerSnapshot) : Prop where
  numTimed : p.numTimed ≤ c.numTimed
  numRequested : p.numRequested ≤ c.numRequested
  writeTimeMs : p.writeTimeMs ≤ c.writeTimeMs
  syncTimeMs : p.syncTimeMs ≤ c.syncTimeMs
  walFpi : p.walFpi ≤ c.walFpi

/-- One timed checkpoint, counted in the first tick. -/
def beforeCheckpoint : CheckpointerSnapshot := ⟨10, 0, 100, 50, 0⟩

def countedCheckpoint : CheckpointerSnapshot := ⟨11, 0, 100, 50, 0⟩

/-- Its write time, booked in the second. -/
def bookedCheckpoint : CheckpointerSnapshot := ⟨11, 0, 200, 50, 0⟩

theorem countsStill_bookedCheckpoint : CountsStill countedCheckpoint bookedCheckpoint := ⟨rfl, rfl⟩

theorem timesStill_countedCheckpoint : TimesStill beforeCheckpoint countedCheckpoint :=
  ⟨rfl, rfl, rfl⟩

theorem classify_bookedCheckpoint :
    classify beforeCheckpoint bookedCheckpoint = some .writePhaseDominant := by
  have hcount : ¬ (bookedCheckpoint.numTimed.saturatingSub beforeCheckpoint.numTimed).saturatingAdd
      (bookedCheckpoint.numRequested.saturatingSub beforeCheckpoint.numRequested) = 0 := by decide
  have htimed : ¬ bookedCheckpoint.numTimed.saturatingSub beforeCheckpoint.numTimed <
      bookedCheckpoint.numRequested.saturatingSub beforeCheckpoint.numRequested := by decide
  have hwrite : max (bookedCheckpoint.syncTimeMs - beforeCheckpoint.syncTimeMs) 0 * (3 / 2) <
      max (bookedCheckpoint.writeTimeMs - beforeCheckpoint.writeTimeMs) 0 := by
    norm_num [bookedCheckpoint, beforeCheckpoint]
  simp only [classify, if_neg hcount, if_neg htimed, if_pos hwrite]

theorem obtains_iff_bookedCheckpoint :
    (CountsStill beforeCheckpoint countedCheckpoint ∨
        CountsStill countedCheckpoint bookedCheckpoint) ∧
      (TimesStill beforeCheckpoint countedCheckpoint ∨
        TimesStill countedCheckpoint bookedCheckpoint) ∧
      classify beforeCheckpoint bookedCheckpoint = some .writePhaseDominant ∧
      (Obtains ⟨1000, 3, "fixture-pg"⟩ [] (fun _ => .atSecond 0) beforeCheckpoint countedCheckpoint
          bookedCheckpoint .writePhaseDominant ↔
        CheckpointBucket.writePhaseDominant = .forced ∨
          ((CountsStill beforeCheckpoint countedCheckpoint →
              TimesStill beforeCheckpoint countedCheckpoint) ∧
            (CountsStill countedCheckpoint bookedCheckpoint →
              TimesStill countedCheckpoint bookedCheckpoint))) :=
  ⟨Or.inr countsStill_bookedCheckpoint, Or.inl timesStill_countedCheckpoint,
    classify_bookedCheckpoint,
    obtains_iff _ _ _ (Or.inr countsStill_bookedCheckpoint) (Or.inl timesStill_countedCheckpoint)
      classify_bookedCheckpoint⟩

/-- One more poll can hide a bucket: counted in one tick and booked in the next, a checkpoint
dominated by its write phase is classified in neither. -/
theorem not_obtains :
    ¬ ∀ (args : Args) (before : List Tick) (now : ℕ → DateTime) (p m c : CheckpointerSnapshot),
      Advances p m → Advances m c → CountsStill p m ∨ CountsStill m c →
        TimesStill p m ∨ TimesStill m c → ∀ b, classify p c = some b →
          Obtains args before now p m c b := by
  intro h
  have hadvances : Advances beforeCheckpoint countedCheckpoint :=
    ⟨by decide, by decide, le_refl _, le_refl _, UInt64.le_refl _⟩
  have hadvances' : Advances countedCheckpoint bookedCheckpoint :=
    ⟨UInt64.le_refl _, UInt64.le_refl _, by norm_num [countedCheckpoint, bookedCheckpoint],
      le_refl _, UInt64.le_refl _⟩
  have hobtained := h ⟨1000, 3, "fixture-pg"⟩ [] (fun _ => .atSecond 0) _ _ _ hadvances hadvances'
    (Or.inr countsStill_bookedCheckpoint) (Or.inl timesStill_countedCheckpoint) _
    classify_bookedCheckpoint
  rw [obtains_iff_classify, classify_of_countsStill countsStill_bookedCheckpoint] at hobtained
  rcases hobtained with hfirst | hsecond
  · exact CheckpointBucket.noConfusion (classify_of_timesStill timesStill_countedCheckpoint hfirst)
  · cases hsecond

end CheckpointStorm

end PgSleuth
