import PgSleuth.ForMathlib.Mealy
import PgSleuth.ForMathlib.Saturating
import PgSleuth.ForMathlib.TrailingRun

/-!
# The consecutive-breach counter

`ConsecutiveBreachCounter` from `pgsleuth-core/src/window.rs`: the state behind every alarm that
fires after `N` consecutive breaching intervals. The counter is a two-field state machine; what an
operator reads off it is a property of the history. This file connects the two.

## The invariant

After any inputs from the default state, with one `fire_after` throughout, the streak is the
length of the trailing run of breaches clamped at `u32::MAX`, and the fired flag is set exactly
when that run has reached `max 1 fire_after`. Both clauses are needed for either to be inductive.

## Main results

* `ConsecutiveBreachCounter.observe_cases` — everything one call can do
* `ConsecutiveBreachCounter.tracks_final` — the invariant, after every run
* `ConsecutiveBreachCounter.justFired_iff_trailingRun` — a call fires exactly when the run of
  breaches it ends is `max 1 fire_after` long
-/

namespace PgSleuth

/-- Counts consecutive evaluation intervals in which a metric breached its threshold. -/
structure ConsecutiveBreachCounter where
  streak : UInt32
  /-- True once the streak has reached `fire_after` in this run. -/
  firedThisRun : Bool
deriving DecidableEq

/-- Outcome of feeding the counter one evaluation. -/
inductive BreachState
  | building (streak : UInt32)
  | justFired (streak : UInt32)
  | stillFiring (streak : UInt32)
  | reset
deriving DecidableEq

namespace ConsecutiveBreachCounter

/-- `Default::default()`. -/
def default : ConsecutiveBreachCounter := ⟨0, false⟩

/-- Feed one interval's result. -/
def observe (c : ConsecutiveBreachCounter) (breached : Bool) (fireAfter : UInt32) :
    ConsecutiveBreachCounter × BreachState :=
  if !breached then
    (⟨0, false⟩, .reset)
  else
    let streak := c.streak.saturatingAdd 1
    if streak < fireAfter then
      (⟨streak, c.firedThisRun⟩, .building streak)
    else if c.firedThisRun then
      (⟨streak, c.firedThisRun⟩, .stillFiring streak)
    else
      (⟨streak, true⟩, .justFired streak)

/-- Everything one call can do, with the branch conditions that lead there. -/
theorem observe_cases (c : ConsecutiveBreachCounter) (breached : Bool) (fireAfter : UInt32) :
    (breached = false ∧ c.observe breached fireAfter = (⟨0, false⟩, .reset)) ∨
    (breached = true ∧ c.streak.saturatingAdd 1 < fireAfter ∧
      c.observe breached fireAfter
        = (⟨c.streak.saturatingAdd 1, c.firedThisRun⟩, .building (c.streak.saturatingAdd 1))) ∨
    (breached = true ∧ ¬ c.streak.saturatingAdd 1 < fireAfter ∧ c.firedThisRun = true ∧
      c.observe breached fireAfter
        = (⟨c.streak.saturatingAdd 1, true⟩, .stillFiring (c.streak.saturatingAdd 1))) ∨
    (breached = true ∧ ¬ c.streak.saturatingAdd 1 < fireAfter ∧ c.firedThisRun = false ∧
      c.observe breached fireAfter
        = (⟨c.streak.saturatingAdd 1, true⟩, .justFired (c.streak.saturatingAdd 1))) := by
  obtain ⟨streak, fired⟩ := c
  cases breached with
  | false => exact Or.inl ⟨rfl, rfl⟩
  | true =>
    by_cases hlt : streak.saturatingAdd 1 < fireAfter
    · exact Or.inr (Or.inl ⟨rfl, hlt, by simp [observe, hlt]⟩)
    · cases fired with
      | true => exact Or.inr (Or.inr (Or.inl ⟨rfl, hlt, rfl, by simp [observe, hlt]⟩))
      | false => exact Or.inr (Or.inr (Or.inr ⟨rfl, hlt, rfl, by simp [observe, hlt]⟩))

/-! ### What the state says about the history -/

/-- The counter reflects a history of breach verdicts when its streak is the clamped length of
the run the history ends with, and its flag says whether that run has already fired. -/
def Tracks (fireAfter : UInt32) (history : List Bool) (c : ConsecutiveBreachCounter) : Prop :=
  c.streak.toNat = min (trailingRun id history) (2 ^ 32 - 1) ∧
    (c.firedThisRun = true ↔ max 1 fireAfter.toNat ≤ trailingRun id history)

theorem tracks_default (fireAfter : UInt32) : Tracks fireAfter [] default := by
  constructor
  · rfl
  · simp [default]

/-- The streak the next breach reports, under the invariant. -/
theorem Tracks.toNat_succ {fireAfter : UInt32} {history : List Bool}
    {c : ConsecutiveBreachCounter} (h : Tracks fireAfter history c) :
    (c.streak.saturatingAdd 1).toNat = min (trailingRun id history + 1) (2 ^ 32 - 1) :=
  UInt32.toNat_saturatingAdd_one h.1

/-- Under the invariant a breach stays below `fire_after` exactly when the run does. The clamp
does not matter, since `fire_after` is itself a `u32`. -/
theorem Tracks.lt_fireAfter_iff {fireAfter : UInt32} {history : List Bool}
    {c : ConsecutiveBreachCounter} (h : Tracks fireAfter history c) :
    c.streak.saturatingAdd 1 < fireAfter ↔ trailingRun id history + 1 < fireAfter.toNat := by
  have := fireAfter.toNat_lt
  rw [UInt32.lt_iff_toNat_lt, h.toNat_succ]
  omega

/-- One step keeps the invariant. -/
theorem Tracks.observe {fireAfter : UInt32} {history : List Bool} {c : ConsecutiveBreachCounter}
    (h : Tracks fireAfter history c) (breached : Bool) :
    Tracks fireAfter (history ++ [breached]) (c.observe breached fireAfter).1 := by
  have hnext := h.toNat_succ
  have hlt := h.lt_fireAfter_iff
  have hfired := h.2
  rcases c.observe_cases breached fireAfter with ⟨rfl, heq⟩ | ⟨rfl, hbelow, heq⟩ |
    ⟨rfl, hreach, hflag, heq⟩ | ⟨rfl, hreach, hflag, heq⟩
  · rw [heq]
    constructor
    · simp
    · simp
  · rw [heq]
    rw [hlt] at hbelow
    constructor
    · simpa using hnext
    · simp only [trailingRun_concat, id, if_true, hfired]
      omega
  · rw [heq]
    rw [hflag] at hfired
    constructor
    · simpa using hnext
    · simp only [trailingRun_concat, id, if_true, true_iff]
      have := hfired.mp rfl
      omega
  · rw [heq]
    rw [hlt] at hreach
    constructor
    · simpa using hnext
    · simp only [trailingRun_concat, id, if_true, true_iff]
      omega

/-- **The invariant, after every run.** -/
theorem tracks_final (fireAfter : UInt32) (history : List Bool) :
    Tracks fireAfter history
      (Mealy.final (fun c b => observe c b fireAfter) default history) :=
  Mealy.final_induction _ (tracks_default fireAfter) (fun _ b h => h.observe b) history

/-- Under the invariant, the verdict that makes the run exactly `max 1 fire_after` long is the one
that fires, and it reports that length. -/
theorem Tracks.justFired_iff {fireAfter : UInt32} {history : List Bool}
    {c : ConsecutiveBreachCounter} (h : Tracks fireAfter history c) (breached : Bool)
    (s : UInt32) :
    (c.observe breached fireAfter).2 = .justFired s ↔
      trailingRun id (history ++ [breached]) = max 1 fireAfter.toNat ∧
        s.toNat = max 1 fireAfter.toNat := by
  have hnext := h.toNat_succ
  have hlt := h.lt_fireAfter_iff
  have hfired := h.2
  have hbound := fireAfter.toNat_lt
  rcases c.observe_cases breached fireAfter with ⟨rfl, heq⟩ | ⟨rfl, hbelow, heq⟩ |
    ⟨rfl, hreach, hflag, heq⟩ | ⟨rfl, hreach, hflag, heq⟩
  · rw [heq]
    simp only [reduceCtorEq, trailingRun_concat, id, Bool.false_eq_true, if_false, false_iff]
    omega
  · rw [heq]
    rw [hlt] at hbelow
    simp only [reduceCtorEq, trailingRun_concat, id, if_true, false_iff]
    omega
  · rw [heq]
    rw [hflag] at hfired
    have := hfired.mp rfl
    simp only [reduceCtorEq, trailingRun_concat, id, if_true, false_iff]
    omega
  · rw [heq]
    rw [hlt] at hreach
    rw [hflag] at hfired
    simp only [Bool.false_eq_true, false_iff] at hfired
    simp only [BreachState.justFired.injEq, trailingRun_concat, id, if_true,
      ← UInt32.toNat_inj, hnext]
    omega

/-- **A call fires exactly when the run of breaches it ends is `max 1 fire_after` long.** -/
theorem justFired_iff_trailingRun (fireAfter : UInt32) (history : List Bool) (breached : Bool) :
    (∃ s, (observe (Mealy.final (fun c b => observe c b fireAfter) default history) breached
        fireAfter).2 = .justFired s) ↔
      trailingRun id (history ++ [breached]) = max 1 fireAfter.toNat := by
  have h := tracks_final fireAfter history
  constructor
  · rintro ⟨s, hs⟩
    exact ((h.justFired_iff breached s).mp hs).1
  · intro hrun
    exact ⟨_, (h.justFired_iff breached _).mpr ⟨hrun, UInt32.toNat_max_one fireAfter⟩⟩

end ConsecutiveBreachCounter

end PgSleuth
