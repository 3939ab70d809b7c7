import PgSleuth.Cli.FailedPolls
import PgSleuth.Cli.StormEvidence
import PgSleuth.Cli.TempSpillLatch
import PgSleuth.Core.AlarmCount

/-!
# The findings of the pollers

Each poller hands its findings to the emitter, one after the other. Here they are listed over any
ticks, failed ones included: what each was built from, and how many there are.

## Main definitions

* `ConnectionStorm.findings` and its siblings — the findings of a run of a poller
* `ConnectionStorm.Supports` and its siblings — the evidence of a finding has what was measured at
  its tick, and that is beyond the threshold

## Main results

* `evidence_of_findings` — the evidence of every finding supports it
* `ConnectionStorm.length_findings` and its siblings — one finding for each long run
-/

namespace PgSleuth

namespace ConnectionStorm

variable (args : Args)

/-- The findings of a run of the loop. -/
def findings (ticks : List Tick) : List Finding :=
  (outcomes args ticks).filterMap fun o => o.bind Outcome.finding

/-- The evidence has the number of backends polled at the tick, which exceeds the threshold. -/
def Supports (tick : Tick) (f : Finding) : Prop :=
  ∃ snap, tick.poll = some snap ∧ args.backendThreshold < snap.clientBackends ∧
    f.evidence.get? "client_backends" = some (.int snap.clientBackends.toNat) ∧
    f.evidence.get? "backend_threshold" = some (.int args.backendThreshold.toNat)

/-- What a finding was built from. -/
theorem exists_of_mem_findings {ticks : List Tick} {f : Finding} (h : f ∈ findings args ticks) :
    ∃ tick ∈ ticks, ∃ snap streak, tick.poll = some snap ∧
      args.backendThreshold < snap.clientBackends ∧
      f = buildFinding tick.now args.pgInstanceId snap.clientBackends args.backendThreshold streak
        args.intervalMs := by
  obtain ⟨o, ho, hf⟩ := List.mem_filterMap.mp h
  obtain ⟨pre, tick, post, rfl, hstep⟩ := (Mealy.mem_outputs_iff _).mp ho
  refine ⟨tick, by simp, ?_⟩
  cases hpoll : tick.poll with
  | none => simp [stormStep, hpoll, ← hstep] at hf
  | some snap =>
    obtain ⟨o', ho', -, hstate, hfinding⟩ := stormStep_of_poll args _ hpoll
    rw [ho'] at hstep
    rw [← hstep] at hf
    obtain ⟨streak, hfired, rfl⟩ := (hfinding f).mp hf
    exact ⟨snap, streak, rfl,
      of_decide_eq_true (CgroupThrottle.breached_of_justFired (hstate ▸ hfired)), rfl⟩

theorem supports_of_mem_findings {ticks : List Tick} {f : Finding} (h : f ∈ findings args ticks) :
    ∃ tick ∈ ticks, f.firedAt = tick.now ∧ Supports args tick f := by
  obtain ⟨tick, htick, snap, streak, hpoll, hlt, rfl⟩ := exists_of_mem_findings args h
  refine ⟨tick, htick, rfl, snap, hpoll, hlt, ?_, ?_⟩
  · exact JsonValue.get?_ofJson_of_mem (by simp) (by simp) (Json.normalize_int_uint64 _)
  · exact JsonValue.get?_ofJson_of_mem (by simp) (by simp) (Json.normalize_int_uint64 _)

theorem length_findings (ticks : List Tick) :
    (findings args ticks).length =
      longBlocks id (max 1 args.fireAfter.toNat) (verdicts args ticks).reduceOption := by
  have hstart : id ConsecutiveBreachCounter.default = .default := rfl
  have h := (reportsStreaks args).length_findings hstart ticks
  rwa [ConsecutiveBreachCounter.loopVerdicts, ← outcomes, outcomes_breached] at h

end ConnectionStorm

namespace CgroupThrottle

variable (args : Args)

/-- The findings of a run of the loop. -/
def findings (ticks : List Tick) : List Finding :=
  (outcomes args ticks).filterMap fun o => o.bind Outcome.finding

/-- The evidence has the rate between the last read before and the one of the tick, which exceeds
the threshold, and what it was computed from. -/
def Supports (pre : List Tick) (tick : Tick) (f : Finding) : Prop :=
  ∃ prev cur b, lastSome (reads pre) = some prev ∧ tick.read = some cur ∧
    breachValue (some prev) cur args.intervalMs = some b ∧
    args.throttledMsPerSecThreshold < b.throttledMsPerSec ∧
    f.evidence.get? "throttled_ms_per_sec" = some (.int b.throttledMsPerSec.toNat) ∧
    f.evidence.get? "threshold_ms_per_sec" = some (.int args.throttledMsPerSecThreshold.toNat) ∧
    f.evidence.get? "throttled_usec_delta" = some (.int b.throttledUsecDelta.toNat) ∧
    f.evidence.get? "interval_ms" = some (.int args.intervalMs.toNat)

/-- What a finding was built from. -/
theorem exists_of_mem_findings {ticks : List Tick} {f : Finding} (h : f ∈ findings args ticks) :
    ∃ pre tick post prev cur b streak, ticks = pre ++ tick :: post ∧
      lastSome (reads pre) = some prev ∧ tick.read = some cur ∧
      breachValue (some prev) cur args.intervalMs = some b ∧
      args.throttledMsPerSecThreshold < b.throttledMsPerSec ∧
      f = buildFinding tick.now args.pgInstanceId b args.throttledMsPerSecThreshold streak
        args.intervalMs := by
  obtain ⟨o, ho, hf⟩ := List.mem_filterMap.mp h
  obtain ⟨pre, tick, post, rfl, hstep⟩ := (Mealy.mem_outputs_iff _).mp ho
  have hfinal := prev_final args pre
  generalize Mealy.final (throttleStep args) .new pre = s at hstep hfinal
  cases hread : tick.read with
  | none => simp [throttleStep, hread, ← hstep] at hf
  | some cur =>
    obtain ⟨o', ho', -, hstate, hfinding⟩ := throttleStep_of_read args s hread
    rw [ho'] at hstep
    rw [← hstep] at hf
    obtain ⟨streak, b, hfired, hb, rfl⟩ := (hfinding f).mp hf
    have hexceeds : exceeds args s.prev cur = true := breached_of_justFired (hstate ▸ hfired)
    rw [exceeds, hb, Option.any_some, decide_eq_true_eq] at hexceeds
    cases hprev : s.prev with
    | none => simp [hprev, breachValue] at hb
    | some prev => exact ⟨pre, tick, post, prev, cur, b, streak, rfl,
        hfinal.symm.trans hprev, hread, hprev ▸ hb, hexceeds, rfl⟩

theorem supports_of_mem_findings {ticks : List Tick} {f : Finding} (h : f ∈ findings args ticks) :
    ∃ pre tick post, ticks = pre ++ tick :: post ∧ f.firedAt = tick.now ∧
      Supports args pre tick f := by
  obtain ⟨pre, tick, post, prev, cur, b, streak, hticks, hprev, hread, hb, hlt, rfl⟩ :=
    exists_of_mem_findings args h
  refine ⟨pre, tick, post, hticks, rfl, prev, cur, b, hprev, hread, hb, hlt, ?_, ?_, ?_, ?_⟩ <;>
    exact JsonValue.get?_ofJson_of_mem (by simp) (by simp) (Json.normalize_int_uint64 _)

theorem length_findings (ticks : List Tick) :
    (findings args ticks).length =
      longBlocks id (max 1 args.fireAfter.toNat) (verdicts args ticks).reduceOption := by
  have h := (reportsStreaks args).length_findings (rfl : State.new.counter = .default) ticks
  rwa [ConsecutiveBreachCounter.loopVerdicts, ← outcomes, outcomes_breached] at h

end CgroupThrottle

namespace CheckpointStorm

variable (args : Args)

/-- The findings of a run of the loop. -/
def findings (ticks : List Tick) : List Finding :=
  (Mealy.outputs (stormStep args) .new ticks).filterMap fun o => o.bind Outcome.finding

/-- The buckets a run obtains, at whatever ticks. -/
def classified (ticks : List Tick) : List CheckpointBucket :=
  (Mealy.outputs (stormStep args) .new ticks).filterMap fun o => o.bind Outcome.bucket

theorem classified_concat (ticks : List Tick) (tick : Tick) :
    classified args (ticks ++ [tick]) = classified args ticks ++
      ((stormStep args (Mealy.final (stormStep args) .new ticks) tick).2.bind
        Outcome.bucket).toList := by
  rw [classified, Mealy.outputs_append, List.filterMap_append, ← classified]
  cases h : (stormStep args (Mealy.final (stormStep args) .new ticks) tick).2.bind
    Outcome.bucket <;> simp [h]

/-- The snapshots of the polls that are answered. -/
def snapshots (ticks : List Tick) : List CheckpointerSnapshot := (ticks.map Tick.poll).reduceOption

theorem snapshots_append (ticks ticks' : List Tick) :
    snapshots (ticks ++ ticks') = snapshots ticks ++ snapshots ticks' := by
  rw [snapshots, List.map_append, List.reduceOption_append, ← snapshots, ← snapshots]

/-- **The buckets of a run** are those of successive snapshots, as far as they have one. -/
theorem classified_eq (ticks : List Tick) :
    classified args ticks =
      (List.zipWith classify (snapshots ticks) (snapshots ticks).tail).reduceOption := by
  induction ticks using List.reverseRecOn with
  | nil => rfl
  | append_singleton ticks tick ih =>
    have hprev : (Mealy.final (stormStep args) .new ticks).prev = (snapshots ticks).getLast? :=
      prev_final args ticks
    obtain ⟨now, poll⟩ := tick
    rw [classified_concat, ih, snapshots_append]
    cases poll with
    | none =>
      have hnone : snapshots [⟨now, none⟩] = [] := rfl
      simp [stormStep, hnone]
    | some cur =>
      have hcur : snapshots [⟨now, some cur⟩] = [cur] := rfl
      rw [hcur, zipWith_tail_append, List.reduceOption_append, List.reduceOption_append]
      simp only [stormStep, hprev, Option.bind_some]
      cases (snapshots ticks).getLast? with
      | none => simp
      | some prev => cases h : classify prev cur <;> simp [h]

/-- **After any ticks** the streak is about the buckets obtained. -/
theorem tracksBlocks_final (ticks : List Tick) :
    DominantStreak.TracksBlocks args.fireAfter (classified args ticks)
      (Mealy.final (stormStep args) .new ticks).streak := by
  induction ticks using List.reverseRecOn with
  | nil => exact DominantStreak.tracksBlocks_default args.fireAfter
  | append_singleton ticks tick ih =>
    rw [classified_concat, Mealy.final_append, Mealy.final_cons, Mealy.final_nil]
    obtain ⟨now, poll⟩ := tick
    cases poll with
    | none => simpa [stormStep] using ih
    | some cur =>
      simp only [stormStep, Option.bind_some]
      cases (Mealy.final (stormStep args) .new ticks).prev.bind fun p => classify p cur with
      | none => simpa [DominantStreak.observe] using ih
      | some b => exact ih.observe b

/-- The evidence has the bucket the tick obtained, and the length of the block of that bucket that
the tick completes. -/
def Supports (pre : List Tick) (tick : Tick) (f : Finding) : Prop :=
  ∃ b, classified args (pre ++ [tick]) = classified args pre ++ [b] ∧
    blockLength b (classified args (pre ++ [tick])) = max 1 args.fireAfter.toNat ∧
    f.evidence.get? "bucket" = some (.string b.slug) ∧
    f.evidence.get? "streak_intervals" = some (.int (max 1 args.fireAfter.toNat : ℕ))

/-- What a finding was built from. -/
theorem exists_of_mem_findings {ticks : List Tick} {f : Finding} (h : f ∈ findings args ticks) :
    ∃ pre tick post b streak, ticks = pre ++ tick :: post ∧
      classified args (pre ++ [tick]) = classified args pre ++ [b] ∧
      blockLength b (classified args (pre ++ [tick])) = streak.toNat ∧
      streak.toNat = max 1 args.fireAfter.toNat ∧
      f = buildFinding tick.now args.pgInstanceId b streak args.intervalMs := by
  obtain ⟨o, ho, hf⟩ := List.mem_filterMap.mp h
  obtain ⟨pre, ⟨now, poll⟩, post, rfl, hstep⟩ := (Mealy.mem_outputs_iff _).mp ho
  cases poll with
  | none => simp [stormStep, ← hstep] at hf
  | some cur =>
    rw [← hstep] at hf
    obtain ⟨b, streak, hfired, rfl⟩ := (finding_stormStep_iff args _ now cur f).mp hf
    obtain ⟨hbucket, hlen, hstreak⟩ := (tracksBlocks_final args pre).justFired_iff.mp hfired
    have hconcat : classified args (pre ++ [⟨now, some cur⟩]) = classified args pre ++ [b] := by
      rw [classified_concat]
      simp [stormStep, hbucket]
    exact ⟨pre, ⟨now, some cur⟩, post, b, streak, rfl, hconcat, by rw [hconcat, hlen, hstreak],
      hstreak, rfl⟩

theorem supports_of_mem_findings {ticks : List Tick} {f : Finding} (h : f ∈ findings args ticks) :
    ∃ pre tick post, ticks = pre ++ tick :: post ∧ f.firedAt = tick.now ∧
      Supports args pre tick f := by
  obtain ⟨pre, tick, post, b, streak, hticks, hconcat, hlen, hstreak, rfl⟩ :=
    exists_of_mem_findings args h
  obtain ⟨hbucket, hevidence⟩ :=
    evidence_buildFinding tick.now args.pgInstanceId b streak args.intervalMs
  exact ⟨pre, tick, post, hticks, rfl, b, hconcat, hlen.trans hstreak, hbucket,
    by rw [hevidence, hstreak]⟩

/-- A tick has a finding exactly when it obtains a bucket and that completes a block. -/
theorem isSome_finding_iff (ticks : List Tick) (tick : Tick) :
    let o := (stormStep args (Mealy.final (stormStep args) .new ticks) tick).2
    (o.bind Outcome.finding).isSome = true ↔ ∃ b, o.bind Outcome.bucket = some b ∧
      blockLength b (classified args ticks ++ [b]) = max 1 args.fireAfter.toNat := by
  obtain ⟨now, poll⟩ := tick
  cases poll with
  | none => simp [stormStep]
  | some cur =>
    have hfinding := finding_stormStep_iff args (Mealy.final (stormStep args) .new ticks) now cur
    simp only [(tracksBlocks_final args ticks).justFired_iff] at hfinding
    constructor
    · intro hsome
      obtain ⟨f, hf⟩ := Option.isSome_iff_exists.mp hsome
      obtain ⟨b, streak, ⟨hb, hlen, -⟩, -⟩ := (hfinding f).mp hf
      exact ⟨b, hb, hlen⟩
    · rintro ⟨b, hb, hlen⟩
      have hmax := UInt32.toNat_max_one args.fireAfter
      rw [(hfinding _).mpr ⟨b, max 1 args.fireAfter, ⟨hb, hlen, hmax⟩, rfl⟩]
      rfl

theorem length_findings (ticks : List Tick) :
    (findings args ticks).length =
      longBlocks (fun _ => true) (max 1 args.fireAfter.toNat) (classified args ticks) := by
  have hk : 0 < max 1 args.fireAfter.toNat := by omega
  rw [findings, List.filterMap_eq_flatMap_toList,
    ← Mealy.outputsOn_eq_outputs (stormStep args) (fun _ => true) fun _ _ => rfl]
  refine Mealy.length_flatMap_outputsOn _ _ hk rfl (fun _ _ hp => Bool.noConfusion hp) ?_ ticks
  intro ticks tick _
  have hfinding := isSome_finding_iff args ticks tick
  simp only at hfinding
  rw [classified_concat]
  generalize (stormStep args (Mealy.final (stormStep args) .new ticks) tick).2 = o at hfinding ⊢
  cases hb : o.bind Outcome.bucket with
  | none =>
    left
    simpa [hb] using hfinding
  | some b =>
    right
    refine ⟨b, rfl, ?_⟩
    simp only [hb, Option.some.injEq, exists_eq_left', blockLength] at hfinding
    rw [if_congr ((and_iff_left rfl).trans hfinding.symm) rfl rfl]
    cases o.bind Outcome.finding <;> simp

end CheckpointStorm

namespace TempSpill

variable (cfg : TempSpillConfig)

/-- The findings of a run of the loop. -/
def findings (ticks : List Tick) : List Finding :=
  (Mealy.outputs (tempSpillStep cfg) false ticks).reduceOption

/-- The evidence has what was measured at the tick, and that is beyond the threshold it was compared
with. -/
def Supports (tick : Tick) (f : Finding) : Prop :=
  ∃ snap, tick.sample = some snap ∧
    (cfg.footprintThresholdBytes < snap.footprintBytes ∧
        f.evidence.get? "footprint_bytes" = some (.int snap.footprintBytes.toNat) ∧
        f.evidence.get? "footprint_threshold_bytes" =
          some (.int cfg.footprintThresholdBytes.toNat) ∨
      snap.freePct < cfg.freeThresholdPct ∧
        f.evidence.get? "free_pct" = some (.int snap.freePct.toNat) ∧
        f.evidence.get? "free_threshold_pct" = some (.int cfg.freeThresholdPct.toNat))

/-- What a finding was built from. -/
theorem exists_of_mem_findings {ticks : List Tick} {f : Finding} (h : f ∈ findings cfg ticks) :
    ∃ tick ∈ ticks, ∃ snap reason, tick.sample = some snap ∧ snap.breaches cfg = some reason ∧
      f = buildFinding tick.now cfg snap reason := by
  have hmem : some f ∈ Mealy.outputs (tempSpillStep cfg) false ticks :=
    List.reduceOption_mem_iff.mp h
  obtain ⟨pre, tick, post, rfl, hstep⟩ := (Mealy.mem_outputs_iff _).mp hmem
  obtain ⟨-, reason, snap, hsample, hbreach, hf⟩ := (tempSpillStep_eq_some cfg).mp hstep
  exact ⟨tick, by simp, snap, reason, hsample, hbreach, hf⟩

/-- The numbers of a reason are those of the sample and of the configuration. -/
theorem eq_of_breaches {snap : TempSpillSample} {reason : BreachReason}
    (h : snap.breaches cfg = some reason) :
    reason = .footprint snap.footprintBytes cfg.footprintThresholdBytes ∨
      reason = .freeSpace snap.freePct cfg.freeThresholdPct := by
  unfold TempSpillSample.breaches at h
  split at h
  · exact Or.inl (Option.some.inj h).symm
  · split at h
    · exact Or.inr (Option.some.inj h).symm
    · cases h

theorem supports_of_mem_findings {ticks : List Tick} {f : Finding} (h : f ∈ findings cfg ticks) :
    ∃ tick ∈ ticks, f.firedAt = tick.now ∧ Supports cfg tick f := by
  obtain ⟨tick, htick, snap, reason, hsample, hbreach, hf⟩ := exists_of_mem_findings cfg h
  have hcarries : Carries f reason := Emits.carries cfg ⟨snap, hsample, hbreach, hf⟩
  have hstrict := strict_of_breaches hbreach
  refine ⟨tick, htick, by rw [hf]; rfl, snap, hsample, ?_⟩
  rcases eq_of_breaches cfg hbreach with rfl | rfl
  · exact Or.inl ⟨hstrict, hcarries.2⟩
  · exact Or.inr ⟨hstrict, hcarries.2⟩

/-- A tick has a finding exactly when its sample begins a run of breaches. -/
theorem isSome_finding_iff (ticks : List Tick) {tick : Tick} {breached : Bool}
    (h : verdict cfg tick = some breached) :
    (tempSpillStep cfg (Mealy.final (tempSpillStep cfg) false ticks) tick).2.isSome = true ↔
      trailingRun id ((verdicts cfg ticks).reduceOption ++ [breached]) = 1 := by
  have hfiring := (firing_final cfg ticks).trans (lastSome_eq_some_true_iff _)
  have hemits : (∃ f reason, Emits cfg tick reason f) ↔ breached = true := by
    constructor
    · rintro ⟨f, reason, hf⟩
      exact Option.some.inj (h.symm.trans (hf.verdict_eq cfg))
    · rintro rfl
      obtain ⟨reason, f, hf⟩ := exists_emits cfg h
      exact ⟨f, reason, hf⟩
  rw [Option.isSome_iff_exists]
  simp only [tempSpillStep_eq_some, exists_and_left, hemits]
  rw [← Bool.not_eq_true, hfiring, trailingRun_concat]
  cases breached with
  | true =>
    simp only [id, and_true, if_true]
    omega
  | false => simp

theorem length_findings (ticks : List Tick) :
    (findings cfg ticks).length = longBlocks id 1 (verdicts cfg ticks).reduceOption := by
  have hlist : findings cfg ticks =
      (Mealy.outputs (tempSpillStep cfg) false ticks).flatMap Option.toList := by
    rw [findings, List.reduceOption, List.filterMap_eq_flatMap_toList]
    rfl
  rw [hlist, ← Mealy.outputsOn_eq_outputs (tempSpillStep cfg) (fun _ => true) fun _ _ => rfl]
  have hrule := @Mealy.length_flatMap_outputsOn Bool _ id 1 _ _ _ _ (tempSpillStep cfg)
    (fun _ => true) Option.toList false fun ticks => (verdicts cfg ticks).reduceOption
  refine hrule Nat.one_pos rfl (fun _ _ hp => Bool.noConfusion hp) ?_ ticks
  intro ticks tick _
  cases h : verdict cfg tick with
  | none =>
    left
    have hsample : tick.sample = none := Option.map_eq_none_iff.mp h
    simp [verdicts, List.reduceOption_append, tempSpillStep, h, hsample]
  | some breached =>
    right
    refine ⟨breached, by simp [verdicts, List.reduceOption_append, h], ?_⟩
    have hfinding := (isSome_finding_iff cfg ticks h).trans
      (trailingRun_id_concat_iff 1 Nat.one_pos)
    rw [if_congr hfinding.symm rfl rfl]
    cases (tempSpillStep cfg (Mealy.final (tempSpillStep cfg) false ticks) tick).2 <;> simp

end TempSpill

end PgSleuth
