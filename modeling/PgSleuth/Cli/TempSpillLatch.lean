import PgSleuth.Cli.TempSpill
import PgSleuth.ForMathlib.LastSome

/-!
# The single-fire latch

The temp-spill loop keeps a `firing` flag of its own where the other loops have a
`ConsecutiveBreachCounter`. The flag says whether the last sample that could be taken breached, and
that is all the counter knows too when it fires after one breach. So both announce the same ticks:
the first sample of each run of breaching ones.

## Main definitions

* `verdicts` — what the samples say, as far as they can be taken
* `RunFrom` — a run of breaching samples and failures, from its first sample
* `Carries` — a finding says why it was emitted

## Main results

* `firing_final` — what the flag says about the history
* `findingAt_eq_some_iff` — which ticks emit a finding, and which finding
* `latch_matches_counter` — the latch against the counter, over any ticks
-/

namespace PgSleuth

namespace TempSpill

variable (cfg : TempSpillConfig)

/-- What the sample of a tick says, if it could be taken. -/
def verdict (tick : Tick) : Option Bool := tick.sample.map fun snap => (snap.breaches cfg).isSome

/-- What the samples of a run of the loop say. -/
def verdicts (ticks : List Tick) : List (Option Bool) := ticks.map (verdict cfg)

/-- The loop from the start, over any ticks: the finding the tick with index `t` emits. -/
def findingAt (ticks : List Tick) (t : ℕ) : Option Finding :=
  (Mealy.outputs (tempSpillStep cfg) false ticks)[t]?.join

/-- The latch after the first `t` ticks. -/
def firingAfter (ticks : List Tick) (t : ℕ) : Bool :=
  Mealy.final (tempSpillStep cfg) false (ticks.take t)

/-- The tick emits, when nothing is firing, for this sample and reason. -/
def Emits (tick : Tick) (reason : BreachReason) (f : Finding) : Prop :=
  ∃ snap, tick.sample = some snap ∧ snap.breaches cfg = some reason ∧
    f = buildFinding tick.now cfg snap reason

/-- A finding says which threshold tripped, with the numbers that were compared. -/
def Carries (f : Finding) : BreachReason → Prop
  | .footprint bytes thresholdBytes =>
    f.evidence.get? "trigger" = some (.string "footprint") ∧
      f.evidence.get? "footprint_bytes" = some (.int bytes.toNat) ∧
      f.evidence.get? "footprint_threshold_bytes" = some (.int thresholdBytes.toNat)
  | .freeSpace freePct thresholdPct =>
    f.evidence.get? "trigger" = some (.string "free_space") ∧
      f.evidence.get? "free_pct" = some (.int freePct.toNat) ∧
      f.evidence.get? "free_threshold_pct" = some (.int thresholdPct.toNat)

/-- From the tick with index `first` to the one with index `last`, every sample that could be taken
breached, the first of them at `first`; and the last one that could be taken before did not. -/
structure RunFrom (ticks : List Tick) (first last : ℕ) : Prop where
  le : first ≤ last
  begins : (verdicts cfg ticks)[first]? = some (some true)
  fresh : lastSome ((verdicts cfg ticks).take first) ≠ some true
  goesOn : ∀ t, first < t → t ≤ last → (verdicts cfg ticks)[t]? ≠ some (some false)

/-- A sample that begins a run is one. -/
theorem RunFrom.self {cfg : TempSpillConfig} {ticks : List Tick} {t : ℕ}
    (hbegins : (verdicts cfg ticks)[t]? = some (some true))
    (hfresh : lastSome ((verdicts cfg ticks).take t) ≠ some true) : RunFrom cfg ticks t t :=
  ⟨Nat.le_refl t, hbegins, hfresh, fun _ hlt hle => absurd hlt (Nat.not_lt.mpr hle)⟩

/-! ### One tick -/

/-- What a tick leaves in the flag: its verdict, if there is one. -/
theorem tempSpillStep_fst (firing : Bool) (tick : Tick) :
    (tempSpillStep cfg firing tick).1 = (verdict cfg tick).getD firing := by
  obtain ⟨now, sample⟩ := tick
  cases sample with
  | none => rfl
  | some snap =>
    cases hbreach : snap.breaches cfg <;> cases firing <;> simp [tempSpillStep, verdict, hbreach]

/-- Which finding a tick emits. -/
theorem tempSpillStep_eq_some {firing : Bool} {tick : Tick} {f : Finding} :
    (tempSpillStep cfg firing tick).2 = some f ↔
      firing = false ∧ ∃ reason, Emits cfg tick reason f := by
  obtain ⟨now, sample⟩ := tick
  cases sample with
  | none => simp [tempSpillStep, Emits]
  | some snap =>
    cases hbreach : snap.breaches cfg with
    | none => cases firing <;> simp [tempSpillStep, Emits, hbreach]
    | some reason => cases firing <;> simp [tempSpillStep, Emits, hbreach, eq_comm]

/-- A tick that emits has a breaching sample. -/
theorem Emits.verdict_eq {tick : Tick} {reason : BreachReason} {f : Finding}
    (h : Emits cfg tick reason f) : verdict cfg tick = some true := by
  obtain ⟨snap, hsample, hbreach, -⟩ := h
  simp [verdict, hsample, hbreach]

/-- And every tick with one would, were nothing firing. -/
theorem exists_emits {tick : Tick} (h : verdict cfg tick = some true) :
    ∃ reason f, Emits cfg tick reason f := by
  obtain ⟨snap, hsample, hsome⟩ := Option.map_eq_some_iff.mp h
  obtain ⟨reason, hbreach⟩ := Option.isSome_iff_exists.mp hsome
  exact ⟨reason, _, snap, hsample, hbreach, rfl⟩

/-- What is emitted says why. -/
theorem Emits.carries {tick : Tick} {reason : BreachReason} {f : Finding}
    (h : Emits cfg tick reason f) : Carries f reason := by
  obtain ⟨snap, -, -, rfl⟩ := h
  cases reason with
  | footprint bytes thresholdBytes =>
    exact ⟨JsonValue.get?_ofJson_of_mem (by simp) (by simp) (Json.normalize_string _),
      JsonValue.get?_ofJson_of_mem (by simp) (by simp) (Json.normalize_int_uint64 bytes),
      JsonValue.get?_ofJson_of_mem (by simp) (by simp) (Json.normalize_int_uint64 thresholdBytes)⟩
  | freeSpace freePct thresholdPct =>
    exact ⟨JsonValue.get?_ofJson_of_mem (by simp) (by simp) (Json.normalize_string _),
      JsonValue.get?_ofJson_of_mem (by simp) (by simp) (Json.normalize_int_uint8 freePct),
      JsonValue.get?_ofJson_of_mem (by simp) (by simp) (Json.normalize_int_uint8 thresholdPct)⟩

/-! ### A counter that fires after one breach -/

open ConsecutiveBreachCounter

/-- **With `fire_after` one**, the counter fires at the breaches before which the last verdict was
not one. -/
theorem exists_firesAt_one_iff {verdicts : List (Option Bool)} {t : ℕ} :
    (∃ s, FiresAt 1 verdicts t s) ↔
      verdicts[t]? = some (some true) ∧ lastSome (verdicts.take t) ≠ some true := by
  have hone : max 1 (1 : UInt32).toNat = 1 := rfl
  have hrun : verdicts[t]? = some (some true) →
      (trailingRun id (verdicts.take (t + 1)).reduceOption = 1 ↔
        lastSome (verdicts.take t) ≠ some true) := by
    intro hat
    have hsplit : (verdicts.take (t + 1)).reduceOption =
        (verdicts.take t).reduceOption ++ [true] := by
      rw [List.take_add_one, hat, List.reduceOption_append]
      rfl
    rw [hsplit, trailingRun_concat, ne_eq, lastSome_eq_some_true_iff]
    simp
  constructor
  · rintro ⟨s, hs⟩
    obtain ⟨hat, hlen, -⟩ := justFired_skipStep_iff.mp hs
    rw [hone] at hlen
    exact ⟨hat, (hrun hat).mp hlen⟩
  · rintro ⟨hat, hfresh⟩
    refine ⟨1, justFired_skipStep_iff.mpr ⟨hat, ?_, rfl⟩⟩
    rw [hone]
    exact (hrun hat).mpr hfresh

/-! ### What the flag says about the history -/

/-- **After any ticks** the flag is set exactly when the last sample that could be taken
breached. -/
theorem firing_final (ticks : List Tick) :
    Mealy.final (tempSpillStep cfg) false ticks = true ↔
      lastSome (verdicts cfg ticks) = some true := by
  refine Mealy.final_induction (P := fun ticks firing => firing = true ↔
    lastSome (verdicts cfg ticks) = some true) _ (by simp [verdicts]) ?_ ticks
  intro ticks tick ih
  have hconcat : lastSome (verdicts cfg (ticks ++ [tick])) =
      (verdict cfg tick).or (lastSome (verdicts cfg ticks)) := by simp [verdicts]
  rw [hconcat, tempSpillStep_fst]
  cases verdict cfg tick with
  | none => simpa using ih
  | some breached => simp

theorem firingAfter_iff (ticks : List Tick) (t : ℕ) :
    firingAfter cfg ticks t = true ↔ lastSome ((verdicts cfg ticks).take t) = some true := by
  rw [firingAfter, firing_final, verdicts, verdicts, List.map_take]

/-- **Which ticks emit a finding, and which finding**: those with a breaching sample such that the
last one that could be taken before did not breach. -/
theorem findingAt_eq_some_iff {ticks : List Tick} {t : ℕ} {f : Finding} :
    findingAt cfg ticks t = some f ↔
      lastSome ((verdicts cfg ticks).take t) ≠ some true ∧
        ∃ tick reason, ticks[t]? = some tick ∧ Emits cfg tick reason f := by
  have hfiring := firingAfter_iff cfg ticks t
  rw [findingAt, Mealy.getElem?_outputs, ← firingAfter]
  cases htick : ticks[t]? with
  | none => simp
  | some tick =>
    rw [Option.map_some, Option.join_some, tempSpillStep_eq_some, ne_eq, ← hfiring,
      Bool.not_eq_true]
    simp

/-- A run keeps the flag set. -/
theorem RunFrom.lastSome_eq {cfg : TempSpillConfig} {ticks : List Tick} {first last : ℕ}
    (h : RunFrom cfg ticks first last) :
    ∀ t, first ≤ t → t ≤ last → lastSome ((verdicts cfg ticks).take (t + 1)) = some true := by
  intro t hfirst
  induction t, hfirst using Nat.le_induction with
  | base =>
    intro _
    rw [lastSome_take_succ, h.begins]
    rfl
  | succ t hfirst ih =>
    intro hlast
    have hnot := h.goesOn (t + 1) (by omega) hlast
    rw [lastSome_take_succ, ih (by omega)]
    rcases hv : (verdicts cfg ticks)[t + 1]? with _ | _ | _ | _
    · rfl
    · rfl
    · exact absurd hv hnot
    · rfl

/-- A tick that emits begins a run. -/
theorem runFrom_of_findingAt {ticks : List Tick} {t : ℕ} {f : Finding}
    (h : findingAt cfg ticks t = some f) : RunFrom cfg ticks t t := by
  obtain ⟨hfresh, tick, reason, htick, hemits⟩ := (findingAt_eq_some_iff cfg).mp h
  refine .self ?_ hfresh
  rw [verdicts, List.getElem?_map, htick, Option.map_some, hemits.verdict_eq]

/-- The first tick of a run emits. -/
theorem RunFrom.findingAt_first {cfg : TempSpillConfig} {ticks : List Tick} {first last : ℕ}
    (h : RunFrom cfg ticks first last) :
    ∃ tick reason f, ticks[first]? = some tick ∧ Emits cfg tick reason f ∧
      findingAt cfg ticks first = some f := by
  have hbegins := h.begins
  rw [verdicts, List.getElem?_map, Option.map_eq_some_iff] at hbegins
  obtain ⟨tick, htick, hverdict⟩ := hbegins
  obtain ⟨reason, f, hemits⟩ := exists_emits cfg hverdict
  exact ⟨tick, reason, f, htick, hemits,
    (findingAt_eq_some_iff cfg).mpr ⟨h.fresh, tick, reason, htick, hemits⟩⟩

/-- No later tick of it does. -/
theorem RunFrom.findingAt_eq_none {cfg : TempSpillConfig} {ticks : List Tick} {first last : ℕ}
    (h : RunFrom cfg ticks first last) {t : ℕ} (hfirst : first < t) (hlast : t ≤ last) :
    findingAt cfg ticks t = none := by
  obtain ⟨t, rfl⟩ := Nat.exists_eq_add_one_of_ne_zero (Nat.ne_zero_of_lt hfirst)
  rw [Option.eq_none_iff_forall_ne_some]
  intro f hf
  exact ((findingAt_eq_some_iff cfg).mp hf).1 (h.lastSome_eq t (by omega) (by omega))

/-- **The latch matches the counter**, over any ticks. The ticks that emit a finding are those at
which a `ConsecutiveBreachCounter` with `fire_after` one, fed the verdicts of the samples that could
be taken, returns `JustFired`. A run of breaching samples and failures emits one finding, at its
first sample and with that sample's reason, and the latch stays set to its end; no other tick emits
one. A sample that cannot be taken does nothing at all. -/
theorem latch_matches_counter (ticks : List Tick) :
    (∀ t, (∃ f, findingAt cfg ticks t = some f) ↔ ∃ s, FiresAt 1 (verdicts cfg ticks) t s) ∧
    (∀ first last, RunFrom cfg ticks first last →
      (∃ tick reason f, ticks[first]? = some tick ∧ Emits cfg tick reason f ∧ Carries f reason ∧
        findingAt cfg ticks first = some f) ∧
      (∀ t, first < t → t ≤ last → findingAt cfg ticks t = none) ∧
      (∀ t, first ≤ t → t ≤ last → firingAfter cfg ticks (t + 1) = true)) ∧
    (∀ t f, findingAt cfg ticks t = some f → RunFrom cfg ticks t t) ∧
    (∀ firing tick, tick.sample = none → tempSpillStep cfg firing tick = (firing, none)) := by
  refine ⟨fun t => ?_, fun first last h => ⟨?_, ?_, ?_⟩, fun t f => runFrom_of_findingAt cfg, ?_⟩
  · rw [exists_firesAt_one_iff]
    constructor
    · rintro ⟨f, hf⟩
      have hrun := runFrom_of_findingAt cfg hf
      exact ⟨hrun.begins, hrun.fresh⟩
    · rintro ⟨hbegins, hfresh⟩
      obtain ⟨-, -, f, -, -, hf⟩ := (RunFrom.self hbegins hfresh).findingAt_first
      exact ⟨f, hf⟩
  · obtain ⟨tick, reason, f, htick, hemits, hf⟩ := h.findingAt_first
    exact ⟨tick, reason, f, htick, hemits, hemits.carries, hf⟩
  · exact fun t => h.findingAt_eq_none
  · exact fun t hfirst hlast => (firingAfter_iff cfg ticks (t + 1)).mpr
      (h.lastSome_eq t hfirst hlast)
  · intro firing tick hsample
    simp [tempSpillStep, hsample]

end TempSpill

end PgSleuth
