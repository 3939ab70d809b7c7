import PgSleuth.Core.Finding
import PgSleuth.Core.Window
import PgSleuth.ForMathlib.GappedRun

/-!
# A breach counter behind a poll that may fail

The polling loops feed the breach counter the verdicts of the polls that succeed, and leave a tick
whose poll fails at once. To the counter such a tick does not exist. This file says what that makes
of the streaks it reports, for any verdicts and any failures, and then of the findings of any loop
around such a counter.

## Main definitions

* `skipStep` — one tick of such a loop, as far as the counter is concerned
* `StreaksUnbroken` — a reported streak is a streak of ticks
* `ReportsStreaks` — a loop whose findings say how long the streak was
* `EvidenceTrue` — the findings are right about it

## Main results

* `justFired_skipStep_iff` — when a tick fires
* `streaksUnbroken_iff` — streaks are unbroken exactly when no failure falls inside one
* `ReportsStreaks.evidenceTrue_iff` — and so for the findings of a loop
-/

namespace PgSleuth

namespace ConsecutiveBreachCounter

/-- One tick of a loop that feeds the counter a verdict, if there is one. -/
def skipStep (fireAfter : UInt32) (c : ConsecutiveBreachCounter) :
    Option Bool → ConsecutiveBreachCounter × Option BreachState
  | none => (c, none)
  | some breached => ((c.observe breached fireAfter).1, some (c.observe breached fireAfter).2)

/-- The tick with index `t` fires, with streak `s`. -/
def FiresAt (fireAfter : UInt32) (verdicts : List (Option Bool)) (t : ℕ) (s : UInt32) : Prop :=
  (Mealy.outputs (skipStep fireAfter) default verdicts)[t]? = some (some (.justFired s))

/-- A streak that is reported is a streak of ticks: the last `s` of them succeeded and breached. -/
def StreaksUnbroken (fireAfter : UInt32) (verdicts : List (Option Bool)) : Prop :=
  ∀ t s, FiresAt fireAfter verdicts t s →
    ∀ i < s.toNat, i ≤ t ∧ verdicts[t - i]? = some (some true)

/-- **After any ticks** the counter follows the verdicts there were. -/
theorem tracks_final_skipStep (fireAfter : UInt32) (verdicts : List (Option Bool)) :
    Tracks fireAfter verdicts.reduceOption
      (Mealy.final (skipStep fireAfter) default verdicts) := by
  refine Mealy.final_induction (P := fun verdicts c => Tracks fireAfter verdicts.reduceOption c) _
    (tracks_default fireAfter) ?_ verdicts
  intro verdicts verdict h
  rw [List.reduceOption_append]
  cases verdict with
  | none => simpa [skipStep] using h
  | some breached => exact h.observe breached

/-- **A tick fires** exactly when the verdicts so far end with a run of `max 1 fire_after` breaches,
its own included, and reports that length. -/
theorem justFired_skipStep_iff {fireAfter : UInt32} {verdicts : List (Option Bool)} {t : ℕ}
    {s : UInt32} :
    FiresAt fireAfter verdicts t s ↔
      verdicts[t]? = some (some true) ∧
        trailingRun id (verdicts.take (t + 1)).reduceOption = max 1 fireAfter.toNat ∧
        s.toNat = max 1 fireAfter.toNat := by
  have htracks := tracks_final_skipStep fireAfter (verdicts.take t)
  rw [FiresAt, Mealy.getElem?_outputs, List.take_add_one]
  cases verdicts[t]? with
  | none => simp
  | some verdict =>
    cases verdict with
    | none => simp [skipStep]
    | some breached =>
      have hfires := htracks.justFired_iff breached s
      have hred : ((verdicts.take t) ++ (some (some breached)).toList).reduceOption =
          (verdicts.take t).reduceOption ++ [breached] := by
        simp [List.reduceOption_append]
      rw [hred, Option.map_some, skipStep, Option.some.injEq, Option.some.injEq, hfires]
      cases breached with
      | true => simp
      | false =>
        simp only [trailingRun_concat, id, Bool.false_eq_true, if_false, Option.some.injEq,
          false_and, iff_false]
        omega

/-- **Streaks are unbroken** exactly when no failure comes after fewer than `max 1 fire_after`
breaches in a row and is followed by as many more as complete the streak. -/
theorem streaksUnbroken_iff (fireAfter : UInt32) (verdicts : List (Option Bool)) :
    StreaksUnbroken fireAfter verdicts ↔
      ¬ BridgesGap id (max 1 fireAfter.toNat) verdicts := by
  rw [← forall_run_iff_not_bridgesGap]
  constructor
  · intro h t breached hat hrun i hi
    have hs := UInt32.toNat_max_one fireAfter
    obtain rfl : breached = true := satisfies_of_trailingRun_pos id hat (by omega)
    obtain ⟨hit, hti⟩ := h t _ (justFired_skipStep_iff.mpr ⟨hat, hrun, hs⟩) i (by rwa [hs])
    exact ⟨hit, true, hti, rfl⟩
  · intro h t s hfires i hi
    obtain ⟨hat, hrun, hs⟩ := justFired_skipStep_iff.mp hfires
    obtain ⟨hit, b, hti, rfl⟩ := h t true hat hrun i (by rwa [← hs])
    exact ⟨hit, hti⟩

/-! ### Loops that report streaks -/

section ReportsStreaks

variable {σ ι ω : Type*} {step : σ → ι → σ × Option ω} {counter : σ → ConsecutiveBreachCounter}
  {breached : ω → Bool} {state : ω → BreachState} {finding : ω → Option Finding}
  {fireAfter : UInt32}

/-- A loop that feeds a counter the verdicts of the ticks that compute one, and whose findings
report the streaks the counter fires with. -/
structure ReportsStreaks (step : σ → ι → σ × Option ω) (counter : σ → ConsecutiveBreachCounter)
    (breached : ω → Bool) (state : ω → BreachState) (finding : ω → Option Finding)
    (fireAfter : UInt32) : Prop where
  /-- The counter sees the verdict, if there is one. -/
  observes : ∀ s i, skipStep fireAfter (counter s) ((step s i).2.map breached) =
    (counter (step s i).1, (step s i).2.map state)
  /-- When it fires, there is a finding, with the streak in its evidence. -/
  reports : ∀ s i o streak, (step s i).2 = some o → state o = .justFired streak →
    ∃ f, finding o = some f ∧ f.evidence.get? "streak_intervals" = some (.int streak.toNat)
  /-- There is no other finding. -/
  fires : ∀ s i o f, (step s i).2 = some o → finding o = some f →
    ∃ streak, state o = .justFired streak

/-- **The findings are right**: one that reports a streak comes after as many ticks, its own
included, that all succeeded and breached. -/
def EvidenceTrue (findingAt : ℕ → Option Finding) (breachedAt : ℕ → Prop) : Prop :=
  ∀ (t : ℕ) (f : Finding) (s : ℤ), findingAt t = some f →
    f.evidence.get? "streak_intervals" = some (.int s) →
      ∀ i : ℕ, i < s → i ≤ t ∧ breachedAt (t - i)

/-- The counter of a loop goes through what it would go through on the verdicts alone. -/
theorem ReportsStreaks.outputs_eq (h : ReportsStreaks step counter breached state finding fireAfter)
    (s : σ) (is : List ι) :
    (Mealy.outputs step s is).map (Option.map state) =
      Mealy.outputs (skipStep fireAfter) (counter s)
        ((Mealy.outputs step s is).map (Option.map breached)) := by
  induction is generalizing s with
  | nil => rfl
  | cons i is ih =>
    rw [Mealy.outputs_cons, List.map_cons, List.map_cons, Mealy.outputs_cons, h.observes, ih]

/-- **Exactly when the findings are right**: when no tick without a verdict comes after fewer than
`max 1 fire_after` breaches in a row and is followed by as many more as complete the streak. -/
theorem ReportsStreaks.evidenceTrue_iff
    (h : ReportsStreaks step counter breached state finding fireAfter) {s₀ : σ}
    (hs₀ : counter s₀ = default) (is : List ι) :
    EvidenceTrue (fun t => ((Mealy.outputs step s₀ is)[t]?.bind id).bind finding)
        (fun t => ∃ o, (Mealy.outputs step s₀ is)[t]? = some (some o) ∧ breached o = true) ↔
      ¬ BridgesGap id (max 1 fireAfter.toNat)
        ((Mealy.outputs step s₀ is).map (Option.map breached)) := by
  rw [← streaksUnbroken_iff]
  have houts := h.outputs_eq s₀ is
  rw [hs₀] at houts
  have hstep : ∀ {t : ℕ} {o : ω}, (Mealy.outputs step s₀ is)[t]? = some (some o) →
      ∃ s i, (step s i).2 = some o := by
    intro t o ho
    rw [Mealy.getElem?_outputs, Option.map_eq_some_iff] at ho
    obtain ⟨i, -, ho⟩ := ho
    exact ⟨_, i, ho⟩
  have hfires : ∀ {t : ℕ} {streak : UInt32},
      FiresAt fireAfter ((Mealy.outputs step s₀ is).map (Option.map breached)) t streak ↔
        ∃ o, (Mealy.outputs step s₀ is)[t]? = some (some o) ∧ state o = .justFired streak := by
    intro t streak
    rw [FiresAt, ← houts, List.getElem?_map]
    simp
  have hbreached : ∀ {t : ℕ},
      ((Mealy.outputs step s₀ is).map (Option.map breached))[t]? = some (some true) ↔
        ∃ o, (Mealy.outputs step s₀ is)[t]? = some (some o) ∧ breached o = true := by
    intro t
    rw [List.getElem?_map]
    simp
  constructor
  · intro htrue t streak hfired i hi
    obtain ⟨o, ho, hstreak⟩ := hfires.mp hfired
    obtain ⟨s, j, hsj⟩ := hstep ho
    obtain ⟨f, hf, hevidence⟩ := h.reports s j o streak hsj hstreak
    obtain ⟨hit, hb⟩ := htrue t f _ (by simp [ho, hf]) hevidence i (by exact_mod_cast hi)
    exact ⟨hit, hbreached.mpr hb⟩
  · intro hunbroken t f s hf hevidence i hi
    obtain ⟨o, ho, hfo⟩ : ∃ o, (Mealy.outputs step s₀ is)[t]? = some (some o) ∧
        finding o = some f := by simpa [Option.bind_eq_some_iff] using hf
    obtain ⟨s', j, hsj⟩ := hstep ho
    obtain ⟨streak, hstreak⟩ := h.fires s' j o f hsj hfo
    obtain ⟨f', hf', hevidence'⟩ := h.reports s' j o streak hsj hstreak
    obtain rfl : f = f' := by simpa [hfo] using hf'
    rw [hevidence, Option.some.injEq, Json.int.injEq] at hevidence'
    obtain ⟨hit, hb⟩ := hunbroken t streak (hfires.mpr ⟨o, ho, hstreak⟩) i (by omega)
    exact ⟨hit, hbreached.mp hb⟩

end ReportsStreaks

end ConsecutiveBreachCounter

end PgSleuth
