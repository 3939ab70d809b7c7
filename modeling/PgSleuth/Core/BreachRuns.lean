import PgSleuth.Core.Window

/-!
# The breach counter over whole runs

What the counter answers to any sequence of calls, where every call may bring a `fire_after` of its
own. `Core.Window` fixes one `fire_after` and reads the flag off the length of the run. That reading
is lost as soon as `fire_after` moves: a call may fire below an earlier call's threshold, and the
flag then stays up under a threshold the run has not reached.

## The invariant

The flag says that *some* call of the current run had its streak reach that call's own `fire_after`.
The first such call is the one that fires, so the flag also says that the run has fired.

## Main definitions

* `InLastRun` — the positions of the run of breaches a history ends with
* `Reaches`, `Fires` — the last call of a history has its streak reach its own `fire_after`, or
  fires

## Main results

* `follows_after` — the invariant, after every sequence of calls
* `observe_spec` — every answer, both accessors, and how often a run fires
-/

namespace PgSleuth

namespace ConsecutiveBreachCounter

/-- Whether the alarm is currently in the firing state. -/
def isFiring (c : ConsecutiveBreachCounter) : Bool := c.firedThisRun

/-- The arguments of one call of `observe`. -/
structure Call where
  breached : Bool
  fireAfter : UInt32
deriving DecidableEq

/-- One call. -/
def callStep (c : ConsecutiveBreachCounter) (call : Call) :
    ConsecutiveBreachCounter × BreachState :=
  c.observe call.breached call.fireAfter

/-- The counter after some calls from the default state. -/
def after (calls : List Call) : ConsecutiveBreachCounter := Mealy.final callStep default calls

/-- The answers to some calls from the default state. -/
def responses (calls : List Call) : List BreachState := Mealy.outputs callStep default calls

/-- The number of consecutive breaches the calls end with. -/
def runLength (calls : List Call) : ℕ := trailingRun Call.breached calls

/-- Position `j` is in the run of breaches the calls end with. -/
def InLastRun (calls : List Call) (j : ℕ) : Prop :=
  j < calls.length ∧ ∀ call ∈ calls.drop j, call.breached = true

/-- The last call had its streak reach its own `fire_after`. -/
def Reaches (calls : List Call) : Prop :=
  ∃ call, calls.getLast? = some call ∧
    call.fireAfter.toNat ≤ min (runLength calls) (2 ^ 32 - 1)

/-- The last call fired. -/
def Fires (calls : List Call) : Prop :=
  ∃ s, (responses calls).getLast? = some (.justFired s)

/-! ### One more call -/

@[simp] theorem after_concat (calls : List Call) (call : Call) :
    after (calls ++ [call]) = (callStep (after calls) call).1 := by
  simp [after]

@[simp] theorem runLength_concat (calls : List Call) (call : Call) :
    runLength (calls ++ [call]) = if call.breached then runLength calls + 1 else 0 :=
  trailingRun_concat ..

theorem reaches_concat (calls : List Call) (call : Call) :
    Reaches (calls ++ [call]) ↔
      call.fireAfter.toNat ≤ min (runLength (calls ++ [call])) (2 ^ 32 - 1) := by
  simp [Reaches]

theorem fires_concat (calls : List Call) (call : Call) :
    Fires (calls ++ [call]) ↔ ∃ s, (callStep (after calls) call).2 = .justFired s := by
  simp [Fires, responses, after]

/-- A position of the last run after one more call: there is none after a non-breach, and a breach
adds its own. -/
theorem inLastRun_concat (calls : List Call) (call : Call) (j : ℕ) :
    InLastRun (calls ++ [call]) j ↔
      call.breached = true ∧ (InLastRun calls j ∨ j = calls.length) := by
  rw [InLastRun, InLastRun, List.length_append, List.length_singleton]
  constructor
  · rintro ⟨hlt, hall⟩
    rw [List.drop_append_of_le_length (by omega)] at hall
    refine ⟨hall call (by simp), ?_⟩
    rcases Nat.lt_or_ge j calls.length with hin | hout
    · exact Or.inl ⟨hin, fun c hc => hall c (List.mem_append_left _ hc)⟩
    · exact Or.inr (by omega)
  · rintro ⟨hcall, ⟨hlt, hall⟩ | rfl⟩
    · refine ⟨by omega, ?_⟩
      intro c hc
      rw [List.drop_append_of_le_length hlt.le] at hc
      rcases List.mem_append.mp hc with hc | hc
      · exact hall c hc
      · rwa [List.mem_singleton.mp hc]
    · refine ⟨by omega, ?_⟩
      intro c hc
      rw [List.drop_left] at hc
      rwa [List.mem_singleton.mp hc]

/-- The last run with one more call, for a property of the calls up to a position. -/
theorem exists_inLastRun_concat (P : List Call → Prop) (calls : List Call) (call : Call) :
    (∃ j, InLastRun (calls ++ [call]) j ∧ P ((calls ++ [call]).take (j + 1))) ↔
      call.breached = true ∧
        ((∃ j, InLastRun calls j ∧ P (calls.take (j + 1))) ∨ P (calls ++ [call])) := by
  have htake {j : ℕ} (hj : j < calls.length) :
      (calls ++ [call]).take (j + 1) = calls.take (j + 1) :=
    List.take_append_of_le_length hj
  have hlast : (calls ++ [call]).take (calls.length + 1) = calls ++ [call] :=
    List.take_of_length_le (by simp)
  simp only [inLastRun_concat]
  constructor
  · rintro ⟨j, ⟨hcall, hj | rfl⟩, hP⟩
    · rw [htake hj.1] at hP
      exact ⟨hcall, Or.inl ⟨j, hj, hP⟩⟩
    · rw [hlast] at hP
      exact ⟨hcall, Or.inr hP⟩
  · rintro ⟨hcall, ⟨j, hj, hP⟩ | hP⟩
    · exact ⟨j, ⟨hcall, Or.inl hj⟩, by rwa [htake hj.1]⟩
    · exact ⟨calls.length, ⟨hcall, Or.inr rfl⟩, by rwa [hlast]⟩

/-! ### The invariant -/

/-- Some call of the run the calls end with had its streak reach its own `fire_after`. -/
def ReachedInRun (calls : List Call) : Prop :=
  ∃ j, InLastRun calls j ∧ Reaches (calls.take (j + 1))

/-- Some call of the run the calls end with fired. -/
def FiredInRun (calls : List Call) : Prop :=
  ∃ j, InLastRun calls j ∧ Fires (calls.take (j + 1))

/-- The counter follows the calls made so far. -/
structure Follows (calls : List Call) (c : ConsecutiveBreachCounter) : Prop where
  streak : c.streak.toNat = min (runLength calls) (2 ^ 32 - 1)
  reached : c.isFiring = true ↔ ReachedInRun calls
  fired : c.isFiring = true ↔ FiredInRun calls

theorem not_inLastRun_nil (j : ℕ) : ¬ InLastRun [] j := fun h => Nat.not_lt_zero j h.1

/-- The streak the next breach reports. -/
theorem Follows.toNat_succ {calls : List Call} {c : ConsecutiveBreachCounter}
    (h : Follows calls c) :
    (c.streak.saturatingAdd 1).toNat = min (runLength calls + 1) (2 ^ 32 - 1) :=
  UInt32.toNat_saturatingAdd_one h.streak

/-- A breach reaches its `fire_after` exactly when the code does not take the first branch. -/
theorem Follows.reaches_iff {calls : List Call} {c : ConsecutiveBreachCounter}
    (h : Follows calls c) (fireAfter : UInt32) :
    Reaches (calls ++ [⟨true, fireAfter⟩]) ↔ ¬ c.streak.saturatingAdd 1 < fireAfter := by
  rw [reaches_concat, UInt32.lt_iff_toNat_lt, h.toNat_succ]
  simp only [runLength_concat, if_true]
  omega

/-- **The invariant, after every sequence of calls.** -/
theorem follows_after (calls : List Call) : Follows calls (after calls) := by
  induction calls using List.reverseRecOn with
  | nil =>
    exact
      { streak := rfl
        reached := by simp [after, default, isFiring, ReachedInRun, not_inLastRun_nil]
        fired := by simp [after, default, isFiring, FiredInRun, not_inLastRun_nil] }
  | append_singleton calls call ih =>
    have hnext := ih.toNat_succ
    have hreached := ih.reached
    have hfired := ih.fired
    have hreachedNext := exists_inLastRun_concat Reaches calls call
    have hfiredNext := exists_inLastRun_concat Fires calls call
    rw [← ReachedInRun, ← ReachedInRun] at hreachedNext
    rw [← FiredInRun, ← FiredInRun, fires_concat] at hfiredNext
    rw [isFiring] at hreached hfired
    obtain ⟨breached, fireAfter⟩ := call
    have hreaches := ih.reaches_iff fireAfter
    -- a non-breach ends the run; below `fire_after` nothing about the run changes; past it the
    -- call reaches, and fires unless an earlier one has
    rcases (after calls).observe_cases breached fireAfter with ⟨rfl, heq⟩ | ⟨rfl, hbelow, heq⟩ |
      ⟨rfl, hreach, hflag, heq⟩ | ⟨rfl, hreach, hflag, heq⟩
    all_goals
      rw [← callStep.eq_1 _ ⟨_, fireAfter⟩] at heq
      rw [heq] at hfiredNext
    · exact
        { streak := by simp [heq]
          reached := by simp [heq, isFiring, hreachedNext]
          fired := by simp [heq, isFiring, hfiredNext] }
    · exact
        { streak := by simpa [heq] using hnext
          reached := by simp [heq, isFiring, hreachedNext, hreached, hreaches, hbelow]
          fired := by simp [heq, isFiring, hfiredNext, hfired] }
    · exact
        { streak := by simpa [heq] using hnext
          reached := by simp [heq, isFiring, hreachedNext, hreaches, hreach]
          fired := by simp [heq, isFiring, hfiredNext, ← hfired, hflag] }
    · exact
        { streak := by simpa [heq] using hnext
          reached := by simp [heq, isFiring, hreachedNext, hreaches, hreach]
          fired := by simp [heq, isFiring, hfiredNext] }

/-! ### Every answer -/

/-- **The answer to a call, from the calls before it.** -/
theorem callStep_after (calls : List Call) (call : Call) :
    let r := runLength (calls ++ [call])
    let streak := UInt32.ofNatClamp r
    let answer := (callStep (after calls) call).2
    (answer = .reset ↔ r = 0) ∧
      (r ≠ 0 →
        (answer = .building streak ↔ streak < call.fireAfter) ∧
        (answer = .justFired streak ↔ ¬ streak < call.fireAfter ∧ ¬ ReachedInRun calls) ∧
        (answer = .stillFiring streak ↔ ¬ streak < call.fireAfter ∧ ReachedInRun calls)) := by
  intro r streak answer
  have h := follows_after calls
  have hreached := h.reached
  rw [isFiring] at hreached
  obtain ⟨breached, fireAfter⟩ := call
  have hstreak (hb : breached = true) : (after calls).streak.saturatingAdd 1 = streak := by
    rw [← UInt32.toNat_inj, h.toNat_succ, UInt32.toNat_ofNatClamp]
    simp [r, hb]
  have hr : r = if breached then runLength calls + 1 else 0 := runLength_concat ..
  rcases (after calls).observe_cases breached fireAfter with ⟨rfl, heq⟩ | ⟨rfl, hbelow, heq⟩ |
    ⟨rfl, hreach, hflag, heq⟩ | ⟨rfl, hreach, hflag, heq⟩
  · simp [answer, callStep, heq, hr]
  · rw [hstreak rfl] at hbelow heq
    simp [answer, callStep, heq, hr, hbelow]
  · rw [hstreak rfl] at hreach heq
    simp [answer, callStep, heq, hr, hreach, ← hreached, hflag]
  · rw [hstreak rfl] at hreach heq
    simp [answer, callStep, heq, hr, hreach, ← hreached, hflag]

/-! ### One finding per run -/

/-- A position of the last run, in a shorter history that still reaches past it. -/
theorem InLastRun.take {calls : List Call} {i j : ℕ} (h : InLastRun calls i) (hij : i < j)
    (hj : j ≤ calls.length) : InLastRun (calls.take j) i := by
  refine ⟨by rw [List.length_take]; omega, ?_⟩
  intro call hcall
  rw [List.drop_take] at hcall
  exact h.2 call (List.mem_of_mem_take hcall)

/-- A call that fires has its streak reach its own `fire_after`, and no earlier call of the run
has. -/
theorem reaches_of_fires {calls : List Call} {call : Call} (h : Fires (calls ++ [call])) :
    Reaches (calls ++ [call]) ∧ ¬ ReachedInRun calls := by
  obtain ⟨s, hs⟩ := (fires_concat calls call).mp h
  have hfollows := follows_after calls
  have hreached := hfollows.reached
  rw [isFiring] at hreached
  obtain ⟨breached, fireAfter⟩ := call
  rcases (after calls).observe_cases breached fireAfter with ⟨rfl, heq⟩ | ⟨rfl, hbelow, heq⟩ |
    ⟨rfl, hreach, hflag, heq⟩ | ⟨rfl, hreach, hflag, heq⟩
  · simp [callStep, heq] at hs
  · simp [callStep, heq] at hs
  · simp [callStep, heq] at hs
  · exact ⟨(hfollows.reaches_iff fireAfter).mpr hreach, by simp [← hreached, hflag]⟩

theorem take_add_one_of_inLastRun {calls : List Call} {j : ℕ} (h : InLastRun calls j) :
    ∃ call, calls.take (j + 1) = calls.take j ++ [call] :=
  ⟨_, List.take_succ_eq_append_getElem h.1⟩

/-- **A run fires at most once.** -/
theorem fires_unique {calls : List Call} {i j : ℕ} (hi : InLastRun calls i)
    (hj : InLastRun calls j) (hfi : Fires (calls.take (i + 1)))
    (hfj : Fires (calls.take (j + 1))) : i = j := by
  -- the later of the two would find that the earlier one has reached
  have hlater {i j : ℕ} (hij : i < j) (hi : InLastRun calls i) (hj : InLastRun calls j)
      (hfi : Fires (calls.take (i + 1))) (hfj : Fires (calls.take (j + 1))) : False := by
    obtain ⟨call, hcall⟩ := take_add_one_of_inLastRun hj
    obtain ⟨call', hcall'⟩ := take_add_one_of_inLastRun hi
    rw [hcall] at hfj
    rw [hcall'] at hfi
    refine (reaches_of_fires hfj).2 ⟨i, hi.take hij hj.1.le, ?_⟩
    rw [List.take_take, Nat.min_eq_left hij, hcall']
    exact (reaches_of_fires hfi).1
  rcases Nat.lt_trichotomy i j with hij | rfl | hij
  · exact (hlater hij hi hj hfi hfj).elim
  · rfl
  · exact (hlater hij hj hi hfj hfi).elim

/-- **With one `fire_after` throughout, a run that is long enough fires exactly once.** -/
theorem existsUnique_fires {fireAfter : UInt32} {calls : List Call}
    (hconst : ∀ call ∈ calls, call.fireAfter = fireAfter)
    (hrun : max 1 fireAfter.toNat ≤ runLength calls) :
    ∃! j, InLastRun calls j ∧ Fires (calls.take (j + 1)) := by
  have hfired : FiredInRun calls := by
    rw [← (follows_after calls).fired, (follows_after calls).reached]
    -- the last call of the run has reached
    induction calls using List.reverseRecOn with
    | nil => simp [runLength] at hrun
    | append_singleton calls call _ =>
      have hcall : call.fireAfter = fireAfter := hconst call (by simp)
      have hbound := fireAfter.toNat_lt
      rw [ReachedInRun, exists_inLastRun_concat, reaches_concat, hcall]
      refine ⟨?_, Or.inr (by omega)⟩
      by_contra hb
      simp [hb] at hrun
  obtain ⟨j, hj, hfj⟩ := hfired
  exact ⟨j, ⟨hj, hfj⟩, fun i hi => fires_unique hi.1 hj hi.2 hfj⟩

/-- **The counter over whole runs.** From the default state, with a `fire_after` of its own for
every call: the answer to a call is read off the run of breaches it ends and off whether an earlier
call of that run reached its own `fire_after`; `streak()` is the length of the current run, up to the
largest `u32`, and `is_firing()` says that the run has fired; a run fires at most once, and exactly
once when `fire_after` never changes and the run gets that long. -/
theorem observe_spec :
    (∀ (calls : List Call) (call : Call),
      let r := runLength (calls ++ [call])
      let streak := UInt32.ofNatClamp r
      let answer := (callStep (after calls) call).2
      (answer = .reset ↔ r = 0) ∧
        (r ≠ 0 →
          (answer = .building streak ↔ streak < call.fireAfter) ∧
          (answer = .justFired streak ↔ ¬ streak < call.fireAfter ∧
            ¬ ∃ j, InLastRun calls j ∧ Reaches (calls.take (j + 1))) ∧
          (answer = .stillFiring streak ↔ ¬ streak < call.fireAfter ∧
            ∃ j, InLastRun calls j ∧ Reaches (calls.take (j + 1))))) ∧
    (∀ calls : List Call,
      (after calls).streak.toNat = min (runLength calls) (2 ^ 32 - 1) ∧
        ((after calls).isFiring = true ↔
          ∃ j, InLastRun calls j ∧ Fires (calls.take (j + 1)))) ∧
    (∀ (calls : List Call) (i j : ℕ), InLastRun calls i → InLastRun calls j →
      Fires (calls.take (i + 1)) → Fires (calls.take (j + 1)) → i = j) ∧
    (∀ (fireAfter : UInt32) (calls : List Call), (∀ call ∈ calls, call.fireAfter = fireAfter) →
      max 1 fireAfter.toNat ≤ runLength calls →
        ∃! j, InLastRun calls j ∧ Fires (calls.take (j + 1))) := by
  refine ⟨callStep_after, ?_, ?_, ?_⟩
  · intro calls
    exact ⟨(follows_after calls).streak, (follows_after calls).fired⟩
  · intro calls i j hi hj hfi hfj
    exact fires_unique hi hj hfi hfj
  · intro fireAfter calls hconst hrun
    exact existsUnique_fires hconst hrun

end ConsecutiveBreachCounter

end PgSleuth
