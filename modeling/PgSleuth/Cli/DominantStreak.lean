import PgSleuth.Cli.CheckpointStorm
import PgSleuth.Core.Window

/-!
# A breach counter for each bucket

`DominantStreak` keeps two optional buckets where `ConsecutiveBreachCounter` keeps a flag, and
counts buckets instead of breaches. It is nevertheless the same machine: a breach counter that every
classified interval feeds a breach, and that starts afresh whenever the bucket changes. Intervals
without a classification do not exist for it.

## The simulation

The fired bucket is the current one or none, and which of the two is the flag of the breach counter.
That the fired bucket is never another one is what makes comparing it with the new bucket as good as
reading a flag.

## Main definitions

* `BucketCounter` — the breach counter that starts afresh with every new bucket

## Main results

* `outputs_observe_eq` — the two machines give the same answers to every sequence of calls
* `dominantStreak_spec` — that, what a missing classification does, and how often a block fires
-/

namespace PgSleuth

namespace CheckpointStorm

/-- The arguments of one call of `observe`. -/
structure StreakCall where
  bucket : Option CheckpointBucket
  fireAfter : UInt32
deriving DecidableEq

/-- One call. -/
def DominantStreak.callStep (d : DominantStreak) (call : StreakCall) :
    DominantStreak × StreakState :=
  d.observe call.bucket call.fireAfter

/-- The call brings a classification. -/
def StreakCall.isClassified (call : StreakCall) : Bool := call.bucket.isSome

/-! ### One call -/

/-- The streak with one more interval of bucket `b` counted. -/
def DominantStreak.counted (d : DominantStreak) (b : CheckpointBucket) : DominantStreak :=
  if d.current = some b then { d with streak := d.streak.saturatingAdd 1 } else ⟨some b, 1, none⟩

theorem DominantStreak.current_counted (d : DominantStreak) (b : CheckpointBucket) :
    (d.counted b).current = some b := by
  rw [counted]
  split
  · assumption
  · rfl

/-- Everything a classified call can do, with the branch conditions that lead there. -/
theorem DominantStreak.observe_cases (d : DominantStreak) (b : CheckpointBucket)
    (fireAfter : UInt32) :
    ((d.counted b).streak < fireAfter ∧
      d.observe (some b) fireAfter = (d.counted b, .building b (d.counted b).streak)) ∨
    (¬ (d.counted b).streak < fireAfter ∧ (d.counted b).firedFor = some b ∧
      d.observe (some b) fireAfter = (d.counted b, .stillFiring b (d.counted b).streak)) ∨
    (¬ (d.counted b).streak < fireAfter ∧ (d.counted b).firedFor ≠ some b ∧
      d.observe (some b) fireAfter =
        ({ d.counted b with firedFor := some b }, .justFired b (d.counted b).streak)) := by
  have hobserve : d.observe (some b) fireAfter =
      if (d.counted b).streak < fireAfter then (d.counted b, .building b (d.counted b).streak)
      else if (d.counted b).firedFor = some b then
        (d.counted b, .stillFiring b (d.counted b).streak)
      else ({ d.counted b with firedFor := some b }, .justFired b (d.counted b).streak) := rfl
  by_cases hlt : (d.counted b).streak < fireAfter
  · exact Or.inl ⟨hlt, by rw [hobserve, if_pos hlt]⟩
  · by_cases hfired : (d.counted b).firedFor = some b
    · exact Or.inr (Or.inl ⟨hlt, hfired, by rw [hobserve, if_neg hlt, if_pos hfired]⟩)
    · exact Or.inr (Or.inr ⟨hlt, hfired, by rw [hobserve, if_neg hlt, if_neg hfired]⟩)

/-! ### The breach counter behind it -/

/-- A breach counter, with the bucket classified last. -/
structure BucketCounter where
  last : Option CheckpointBucket
  counter : ConsecutiveBreachCounter

/-- Nothing classified yet. -/
def BucketCounter.new : BucketCounter := ⟨none, .default⟩

/-- The answer of a breach counter, for a bucket. -/
def StreakState.ofBreachState (b : CheckpointBucket) : BreachState → StreakState
  | .building streak => .building b streak
  | .justFired streak => .justFired b streak
  | .stillFiring streak => .stillFiring b streak
  | .reset => .noClassification

/-- Feed the counter a breach, after a restart when the bucket is not the one classified last. -/
def BucketCounter.callStep (r : BucketCounter) (call : StreakCall) :
    BucketCounter × StreakState :=
  match call.bucket with
  | none => (r, .noClassification)
  | some b =>
    let counter := if r.last = some b then r.counter else .default
    let next := counter.observe true call.fireAfter
    (⟨some b, next.1⟩, .ofBreachState b next.2)

/-! ### The simulation -/

/-- The streak is that of the counter, and the fired bucket is the current one when the counter is
firing and none when it is not. -/
structure DominantStreak.Mirrors (d : DominantStreak) (r : BucketCounter) : Prop where
  current : d.current = r.last
  streak : d.streak = r.counter.streak
  firedFor : d.firedFor = if r.counter.firedThisRun then r.last else none

namespace DominantStreak

theorem mirrors_default : default.Mirrors .new where
  current := rfl
  streak := rfl
  firedFor := rfl

/-- Counting the bucket of the counter. -/
theorem Mirrors.counted {d : DominantStreak} {r : BucketCounter} {b : CheckpointBucket}
    (h : d.Mirrors r) (hb : r.last = some b) :
    d.counted b = ⟨some b, r.counter.streak.saturatingAdd 1,
      if r.counter.firedThisRun then some b else none⟩ := by
  obtain ⟨current, streak, firedFor⟩ := d
  obtain ⟨hcurrent, hstreak, hfired⟩ := h
  rw [hb] at hcurrent hfired
  simp only at hcurrent hstreak hfired
  rw [DominantStreak.counted, if_pos hcurrent, hcurrent, hstreak, hfired]

/-- A call with the bucket of the counter: both machines count on. -/
theorem Mirrors.observe {d : DominantStreak} {r : BucketCounter} {b : CheckpointBucket}
    (h : d.Mirrors r) (hb : r.last = some b) (fireAfter : UInt32) :
    (d.observe (some b) fireAfter).1.Mirrors ⟨some b, (r.counter.observe true fireAfter).1⟩ ∧
      (d.observe (some b) fireAfter).2 = .ofBreachState b (r.counter.observe true fireAfter).2 := by
  have hcounted := h.counted hb
  have hd := d.observe_cases b fireAfter
  rw [hcounted] at hd
  rcases r.counter.observe_cases true fireAfter with ⟨hfalse, -⟩ | ⟨-, hbelow, heq⟩ |
    ⟨-, hreach, hflag, heq⟩ | ⟨-, hreach, hflag, heq⟩
  · exact absurd hfalse (by decide)
  · rcases hd with ⟨-, hd⟩ | ⟨hreach, -⟩ | ⟨hreach, -⟩
    · rw [hd, heq]
      exact ⟨⟨rfl, rfl, rfl⟩, rfl⟩
    · exact absurd hbelow hreach
    · exact absurd hbelow hreach
  · rw [hflag] at hd
    rcases hd with ⟨hbelow, -⟩ | ⟨-, -, hd⟩ | ⟨-, hfired, -⟩
    · exact absurd hbelow hreach
    · rw [hd, heq]
      exact ⟨⟨rfl, rfl, rfl⟩, rfl⟩
    · exact absurd rfl hfired
  · rw [hflag] at hd
    rcases hd with ⟨hbelow, -⟩ | ⟨-, hfired, -⟩ | ⟨-, -, hd⟩
    · exact absurd hbelow hreach
    · cases hfired
    · rw [hd, heq]
      exact ⟨⟨rfl, rfl, rfl⟩, rfl⟩

/-- One call keeps the two machines in step. -/
theorem Mirrors.callStep {d : DominantStreak} {r : BucketCounter} (h : d.Mirrors r)
    (call : StreakCall) :
    (d.callStep call).1.Mirrors (r.callStep call).1 ∧
      (d.callStep call).2 = (r.callStep call).2 := by
  obtain ⟨bucket, fireAfter⟩ := call
  cases bucket with
  | none => exact ⟨h, rfl⟩
  | some b =>
    by_cases hlast : r.last = some b
    · have hstep : r.callStep ⟨some b, fireAfter⟩ =
          (⟨some b, (r.counter.observe true fireAfter).1⟩,
            .ofBreachState b (r.counter.observe true fireAfter).2) := by
        simp [BucketCounter.callStep, hlast]
      rw [hstep]
      exact h.observe hlast fireAfter
    · -- a new bucket: the streak starts at one on either side
      have hcurrent : d.current ≠ some b := h.current ▸ hlast
      have hfresh : (⟨some b, 0, none⟩ : DominantStreak).Mirrors ⟨some b, .default⟩ :=
        ⟨rfl, rfl, rfl⟩
      have hstart : d.callStep ⟨some b, fireAfter⟩ =
          (⟨some b, 0, none⟩ : DominantStreak).observe (some b) fireAfter := by
        have hone : (0 : UInt32).saturatingAdd 1 = 1 := by decide
        simp [DominantStreak.callStep, DominantStreak.observe, hcurrent, hone]
      have hstep : r.callStep ⟨some b, fireAfter⟩ =
          (⟨some b, (ConsecutiveBreachCounter.default.observe true fireAfter).1⟩,
            .ofBreachState b (ConsecutiveBreachCounter.default.observe true fireAfter).2) := by
        simp [BucketCounter.callStep, hlast]
      rw [hstart, hstep]
      exact hfresh.observe rfl fireAfter

/-- **The two machines give the same answers**, to every sequence of calls, and stay in step. -/
theorem outputs_observe_eq (calls : List StreakCall) :
    Mealy.outputs DominantStreak.callStep default calls =
        Mealy.outputs BucketCounter.callStep .new calls ∧
      (Mealy.final DominantStreak.callStep default calls).Mirrors
        (Mealy.final BucketCounter.callStep .new calls) :=
  Mealy.simulation _ (fun _ _ call h => h.callStep call) mirrors_default calls

/-- The fired bucket is never another one than the current. -/
theorem Mirrors.current_of_firedFor {d : DominantStreak} {r : BucketCounter} (h : d.Mirrors r)
    {b : CheckpointBucket} (hb : d.firedFor = some b) : d.current = some b := by
  obtain ⟨hcurrent, -, hfired⟩ := h
  rw [hfired] at hb
  split at hb
  · rw [hcurrent, hb]
  · cases hb

/-! ### Intervals without a classification -/

/-- A call that brings no classification changes nothing. -/
theorem callStep_of_isClassified_eq_false (d : DominantStreak) {call : StreakCall}
    (h : call.isClassified = false) : d.callStep call = (d, .noClassification) := by
  obtain ⟨bucket, fireAfter⟩ := call
  cases bucket with
  | none => rfl
  | some b => exact Bool.noConfusion h

/-- The answers to the classified intervals are those of a run without the others. -/
theorem outputsOn_isClassified (calls : List StreakCall) :
    Mealy.outputsOn DominantStreak.callStep StreakCall.isClassified default calls =
      Mealy.outputs DominantStreak.callStep default (calls.filter StreakCall.isClassified) := by
  rw [← Mealy.outputsOn_filter _ _ (fun _ h => h)
      (fun d call h => by rw [callStep_of_isClassified_eq_false d h]),
    Mealy.outputsOn_eq_outputs _ _ fun call hcall => (List.mem_filter.mp hcall).2]

/-! ### One finding per block -/

/-- The streak is one of bucket `b`, and has fired. -/
def FiringFor (d : DominantStreak) (b : CheckpointBucket) : Prop :=
  d.current = some b ∧ d.firedFor = some b

/-- Firing for a bucket is what a call that fires leaves behind. -/
theorem firingFor_of_justFired {d : DominantStreak} {call : StreakCall} {b : CheckpointBucket}
    {s : UInt32} (h : (d.callStep call).2 = .justFired b s) : (d.callStep call).1.FiringFor b := by
  obtain ⟨bucket, fireAfter⟩ := call
  cases bucket with
  | none => cases h
  | some b' =>
    rw [DominantStreak.callStep] at h ⊢
    rcases d.observe_cases b' fireAfter with ⟨-, heq⟩ | ⟨-, -, heq⟩ | ⟨-, -, heq⟩
    · rw [heq] at h
      cases h
    · rw [heq] at h
      cases h
    · rw [heq] at h ⊢
      cases h
      exact ⟨d.current_counted b, rfl⟩

/-- While only this bucket and missing classifications come in, a streak that has fired does not
fire again. -/
theorem FiringFor.callStep {d : DominantStreak} {b : CheckpointBucket} (h : d.FiringFor b)
    {call : StreakCall} (hcall : call.bucket = none ∨ call.bucket = some b) :
    (d.callStep call).1.FiringFor b ∧ ∀ b' s, (d.callStep call).2 ≠ .justFired b' s := by
  obtain ⟨bucket, fireAfter⟩ := call
  rcases hcall with rfl | rfl
  · exact ⟨h, fun b' s => StreakState.noConfusion⟩
  · have hfired : (d.counted b).firedFor = some b := by
      rw [DominantStreak.counted, if_pos h.1]
      exact h.2
    rw [DominantStreak.callStep]
    rcases d.observe_cases b fireAfter with ⟨-, heq⟩ | ⟨-, -, heq⟩ | ⟨-, hne, -⟩
    · rw [heq]
      exact ⟨⟨d.current_counted b, hfired⟩, fun b' s => StreakState.noConfusion⟩
    · rw [heq]
      exact ⟨⟨d.current_counted b, hfired⟩, fun b' s => StreakState.noConfusion⟩
    · exact absurd hfired hne

theorem FiringFor.final {d : DominantStreak} {b : CheckpointBucket} (h : d.FiringFor b)
    {calls : List StreakCall} (hcalls : ∀ call ∈ calls, call.bucket = none ∨ call.bucket = some b) :
    (Mealy.final DominantStreak.callStep d calls).FiringFor b := by
  induction calls generalizing d with
  | nil => exact h
  | cons call calls ih =>
    have hnext := (h.callStep (hcalls call (List.mem_cons_self ..))).1
    exact ih hnext fun c hc => hcalls c (List.mem_cons_of_mem _ hc)

/-- **A block of one bucket fires at most once**, missing classifications or not. -/
theorem not_justFired_again {pre mid : List StreakCall} {call call' : StreakCall}
    {b : CheckpointBucket} {s : UInt32}
    (hfired : ((Mealy.final DominantStreak.callStep default pre).callStep call).2 = .justFired b s)
    (hblock : ∀ c ∈ mid ++ [call'], c.bucket = none ∨ c.bucket = some b) (b' : CheckpointBucket)
    (s' : UInt32) :
    ((Mealy.final DominantStreak.callStep default (pre ++ call :: mid)).callStep call').2 ≠
      .justFired b' s' := by
  have hmid : (Mealy.final DominantStreak.callStep default (pre ++ call :: mid)).FiringFor b := by
    rw [Mealy.final_append, Mealy.final_cons]
    exact (firingFor_of_justFired hfired).final fun c hc => hblock c (List.mem_append_left _ hc)
  exact (hmid.callStep (hblock call' (by simp))).2 b' s'

/-- **The streak over whole runs.** To every sequence of calls it gives the answers of a breach
counter that is restarted with every new bucket; a missing classification is answered as such and
leaves everything after it as if it had not been there; the fired bucket is never another than the
current one; and a block of one bucket fires at most once. -/
theorem dominantStreak_spec :
    (∀ calls : List StreakCall, Mealy.outputs DominantStreak.callStep default calls =
      Mealy.outputs BucketCounter.callStep .new calls) ∧
    (∀ (d : DominantStreak) (fireAfter : UInt32),
      d.callStep ⟨none, fireAfter⟩ = (d, .noClassification)) ∧
    (∀ calls : List StreakCall,
      Mealy.outputsOn DominantStreak.callStep StreakCall.isClassified default calls =
        Mealy.outputs DominantStreak.callStep default (calls.filter StreakCall.isClassified)) ∧
    (∀ (calls : List StreakCall) (b : CheckpointBucket),
      (Mealy.final DominantStreak.callStep default calls).firedFor = some b →
        (Mealy.final DominantStreak.callStep default calls).current = some b) ∧
    (∀ (pre mid : List StreakCall) (call call' : StreakCall) (b : CheckpointBucket) (s : UInt32),
      ((Mealy.final DominantStreak.callStep default pre).callStep call).2 = .justFired b s →
      (∀ c ∈ mid ++ [call'], c.bucket = none ∨ c.bucket = some b) → ∀ b' s',
        ((Mealy.final DominantStreak.callStep default (pre ++ call :: mid)).callStep call').2 ≠
          .justFired b' s') := by
  refine ⟨?_, ?_, outputsOn_isClassified, ?_, ?_⟩
  · intro calls
    exact (outputs_observe_eq calls).1
  · intro d fireAfter
    exact callStep_of_isClassified_eq_false d rfl
  · intro calls b hb
    exact (outputs_observe_eq calls).2.current_of_firedFor hb
  · intro pre mid call call' b s hfired hblock b' s'
    exact not_justFired_again hfired hblock b' s'

end DominantStreak

end CheckpointStorm

end PgSleuth
