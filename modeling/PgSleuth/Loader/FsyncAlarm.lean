import PgSleuth.ForMathlib.Batching
import PgSleuth.ForMathlib.ResidueWindow
import PgSleuth.Loader.Main

/-!
# When the fsync-jitter alarm fires

Two results about runs of the loader's loop. The first reads a run of inputs as a list of batches
and says that the alarm is exactly a statement about those. The second puts one writer in front of
the loop, with one write in flight at a time, and asks at which latencies the alarm goes off.

## The invariant

After any inputs the accumulator holds the samples since the last tick, and the counter has seen the
verdict on every batch before that.

## Main results

* `fsync_rule_exact` — findings are emitted exactly at the end of a run of `max 1 fire_after`
  breaching batches
* `sequentialWriter_fires_iff` — a sequential writer with latency `L` sets off the alarm exactly
  when `N * (L - I) + gcd I L ≤ L`
-/

namespace PgSleuth

/-- The batches of write and flush samples, one for each tick. -/
def fsyncBatches (inputs : List LoaderInput) : List (List UInt64) :=
  batches LoaderInput.isTick LoaderInput.writeFlushSample inputs

/-- The samples after the last tick. -/
def fsyncPending (inputs : List LoaderInput) : List UInt64 :=
  pending LoaderInput.isTick LoaderInput.writeFlushSample inputs

variable (args : Args) (discovery : Option PgDiscovery)

/-- What the loader sends out at each tick of a run. -/
def tickEffects (inputs : List LoaderInput) : List (List Effect) :=
  Mealy.outputsOn (loaderStep args discovery) LoaderInput.isTick .new inputs

/-! ### Batches -/

/-- **The invariant, after every run.** -/
theorem ruleState_final (inputs : List LoaderInput) :
    let s := (Mealy.final (loaderStep args discovery) .new inputs).ruleState
    s.writeFlushSamplesNs = fsyncPending inputs ∧
      s.counter.Tracks args.fsyncFireAfter
        ((fsyncBatches inputs).map (breaching args.fsyncThresholdMs)) := by
  refine Mealy.final_induction (P := fun inputs (s : LoaderState) =>
    s.ruleState.writeFlushSamplesNs = fsyncPending inputs ∧
      s.ruleState.counter.Tracks args.fsyncFireAfter
        ((fsyncBatches inputs).map (breaching args.fsyncThresholdMs))) _ ?_ ?_ inputs
  · constructor
    · simp [LoaderState.new, RuleState.new, fsyncPending]
    · rw [fsyncBatches, batches_nil]
      exact ConsecutiveBreachCounter.tracks_default args.fsyncFireAfter
  · rintro inputs i ⟨hsamples, hcounter⟩
    cases hi : i.isTick with
    | true =>
      obtain ⟨now, rfl⟩ := LoaderInput.eq_tick_of_isTick hi
      rw [fsyncPending, fsyncBatches, pending_concat_tick _ _ hi, batches_concat_tick _ _ hi,
        List.map_append]
      simp only [loaderStep, (ruleTick_eq args (devLabel args discovery) now _).1, hsamples]
      exact ⟨trivial, hcounter.observe _⟩
    | false =>
      rw [ruleState_loaderStep args discovery _ hi, fsyncPending, fsyncBatches,
        pending_concat _ _ hi, batches_concat _ _ hi, hsamples]
      exact ⟨rfl, hcounter⟩

/-- What comes out at a tick, in terms of the batches up to it. -/
theorem finding_mem_tickEffects {inputs : List LoaderInput} {j : ℕ} {es : List Effect}
    (hes : (tickEffects args discovery inputs)[j]? = some es) :
    ∃ now batch, (fsyncBatches inputs)[j]? = some batch ∧ ∀ f, Effect.finding f ∈ es ↔
      trailingRun (breaching args.fsyncThresholdMs) ((fsyncBatches inputs).take (j + 1)) =
          max 1 args.fsyncFireAfter.toNat ∧
        f = buildFinding now args.pgInstance (devLabel args discovery)
          ((p50Ns batch).getD 0 / 1000000) args.fsyncThresholdMs (max 1 args.fsyncFireAfter)
          args.intervalMs := by
  obtain ⟨pre, i, post, rfl, hi, rfl, rfl⟩ := (Mealy.getElem?_outputsOn ..).mp hes
  obtain ⟨now, rfl⟩ := LoaderInput.eq_tick_of_isTick hi
  obtain ⟨hsamples, hcounter⟩ := ruleState_final args discovery pre
  have hlen : (fsyncBatches pre).length = pre.countP LoaderInput.isTick := length_batches _ pre
  have hall : fsyncBatches (pre ++ .tick now :: post) =
      fsyncBatches pre ++ fsyncPending pre :: fsyncBatches post := by
    rw [fsyncBatches, batches_append_cons _ pre post hi, batches_concat_tick _ pre hi]
    simp [fsyncBatches, fsyncPending]
  have htake : (fsyncBatches (pre ++ .tick now :: post)).take
      (pre.countP LoaderInput.isTick + 1) = fsyncBatches pre ++ [fsyncPending pre] := by
    rw [hall, ← hlen, List.take_length_add_append]
    rfl
  refine ⟨now, fsyncPending pre, by simp [hall, ← hlen], ?_⟩
  intro f
  have hfires := ruleTick_fires_iff args (devLabel args discovery) now hcounter f
  have hrun := trailingRun_map id (breaching args.fsyncThresholdMs)
    (fsyncBatches pre ++ [fsyncPending pre])
  rw [List.map_append, List.map_singleton, Function.id_comp] at hrun
  rw [hsamples, hrun] at hfires
  rw [htake, ← hfires]
  simp [loaderStep]

theorem length_tickEffects (inputs : List LoaderInput) :
    (tickEffects args discovery inputs).length = (fsyncBatches inputs).length := by
  rw [fsyncBatches, length_batches]
  exact Mealy.length_outputsOn ..

theorem exists_finding_mem_tickEffects_iff {inputs : List LoaderInput} {j : ℕ} {es : List Effect}
    (hes : (tickEffects args discovery inputs)[j]? = some es) :
    (∃ f, Effect.finding f ∈ es) ↔
      trailingRun (breaching args.fsyncThresholdMs) ((fsyncBatches inputs).take (j + 1)) =
        max 1 args.fsyncFireAfter.toNat := by
  obtain ⟨now, batch, -, hmem⟩ := finding_mem_tickEffects args discovery hes
  simp [hmem]

/-- **The alarm, exactly.** Whatever the order of the inputs: there is one batch for each tick, a
finding is emitted at a tick exactly when the run of breaching batches that its batch ends is
`max 1 fire_after` long, and the finding reports that length. Every write and flush sample is in
exactly one batch or after the last tick, and leaving out the latencies of all other operations
changes nothing about any tick. -/
theorem fsync_rule_exact (inputs : List LoaderInput) :
    let fired := tickEffects args discovery inputs
    let streak := max 1 args.fsyncFireAfter.toNat
    fired.length = (fsyncBatches inputs).length ∧
      (∀ j (hj : j < fired.length), (∃ f, Effect.finding f ∈ fired[j]) ↔
        trailingRun (breaching args.fsyncThresholdMs) ((fsyncBatches inputs).take (j + 1)) =
          streak) ∧
      (∀ es ∈ fired, ∀ f, Effect.finding f ∈ es →
        f.evidence.get? "streak_intervals" = some (.int streak)) ∧
      (fsyncBatches inputs).flatten ++ fsyncPending inputs =
        inputs.filterMap LoaderInput.writeFlushSample ∧
      tickEffects args discovery (inputs.filter LoaderInput.isNotReadOrOther) = fired := by
  intro fired streak
  refine ⟨length_tickEffects args discovery inputs, ?_, ?_, ?_, ?_⟩
  · intro j hj
    exact exists_finding_mem_tickEffects_iff args discovery (List.getElem?_eq_getElem hj)
  · intro es hes f hf
    obtain ⟨j, hj⟩ := List.mem_iff_getElem?.mp hes
    obtain ⟨now, batch, -, hmem⟩ := finding_mem_tickEffects args discovery hj
    obtain ⟨-, rfl⟩ := (hmem f).mp hf
    rw [buildFinding_streakIntervals, UInt32.toNat_max_one]
  · have hsample (i : LoaderInput) (hi : i.isTick = true) : i.writeFlushSample = none :=
      LoaderInput.writeFlushSample_of_isTick hi
    exact flatten_batches_append_pending LoaderInput.writeFlushSample hsample inputs
  · have hkind (i : LoaderInput) (hi : i.isNotReadOrOther = false) : i.isTick = false := by
      cases i with
      | tick now => exact Bool.noConfusion hi
      | _ => rfl
    have hstill (s : LoaderState) (i : LoaderInput) (hi : i.isNotReadOrOther = false) :
        (loaderStep args discovery s i).1 = s := loaderStep_of_readOrOther args discovery s hi
    exact Mealy.outputsOn_filter _ _ hkind hstill _ inputs

/-- The alarm goes off somewhere in a run exactly when the batches reach a run of breaches of
`max 1 fire_after`. -/
theorem exists_finding_iff (inputs : List LoaderInput) :
    (∃ es ∈ tickEffects args discovery inputs, ∃ f, Effect.finding f ∈ es) ↔
      ∃ k ≤ (fsyncBatches inputs).length,
        trailingRun (breaching args.fsyncThresholdMs) ((fsyncBatches inputs).take k) =
          max 1 args.fsyncFireAfter.toNat := by
  have hlen := length_tickEffects args discovery inputs
  constructor
  · rintro ⟨es, hes, hf⟩
    obtain ⟨j, hj⟩ := List.mem_iff_getElem?.mp hes
    have hlt := (List.getElem?_eq_some_iff.mp hj).1
    exact ⟨j + 1, by omega, (exists_finding_mem_tickEffects_iff args discovery hj).mp hf⟩
  · rintro ⟨k, hk, hrun⟩
    cases k with
    | zero =>
      rw [List.take_zero, trailingRun_nil] at hrun
      omega
    | succ j =>
      have hj : (tickEffects args discovery inputs)[j]? = some _ :=
        List.getElem?_eq_getElem (by omega)
      exact ⟨_, List.mem_of_getElem? hj,
        (exists_finding_mem_tickEffects_iff args discovery hj).mpr hrun⟩

/-! ### One writer, one write at a time -/

/-- The writes that complete in the interval between ticks `j` and `j + 1`, when the `k`-th
completes at `k * L` and tick `j` is at `j * I`. -/
def completionsIn (I L j : ℕ) : List ℕ :=
  (List.range ((j + 1) * I + 1)).filter fun k => j * I < k * L ∧ k * L ≤ (j + 1) * I

/-- The completion of a write with latency `L`. -/
def walWrite (L : UInt64) : BlockIoLatencyEvent where
  dev := effectiveDevT args discovery
  opClass := OpClass.write.asU8
  bytes := 8192
  latencyNs := L

/-- What the loop is fed in one interval: the completions, and the tick that ends it. -/
def writerInterval (I : ℕ) (L : UInt64) (now : ℕ → DateTime) (j : ℕ) : List LoaderInput :=
  (completionsIn I L.toNat j).map (fun _ => .latencyEvent (walWrite args discovery L)) ++
    [.tick (now j)]

/-- **A sequential WAL writer**: each write is issued when the previous one completes, so the `k`-th
completes at `k * L`. This is what the loop is fed in the first `n` intervals of length `I`. -/
def sequentialWriter (I : ℕ) (L : UInt64) (now : ℕ → DateTime) (n : ℕ) : List LoaderInput :=
  (List.range n).flatMap (writerInterval args discovery I L now)

/-- Some write completes in an interval exactly when a multiple of `L` lies in it. -/
theorem completionsIn_ne_nil_iff {I L : ℕ} (hL : 0 < L) (j : ℕ) :
    completionsIn I L j ≠ [] ↔ j * I / L < (j + 1) * I / L := by
  constructor
  · intro hne
    obtain ⟨k, hk⟩ := List.exists_mem_of_ne_nil _ hne
    simp only [completionsIn, List.mem_filter, decide_eq_true_eq] at hk
    obtain ⟨-, hlow, hhigh⟩ := hk
    calc j * I / L < k := (Nat.div_lt_iff_lt_mul hL).mpr hlow
      _ ≤ (j + 1) * I / L := (Nat.le_div_iff_mul_le hL).mpr hhigh
  · intro hlt
    have hhigh : (j + 1) * I / L * L ≤ (j + 1) * I := Nat.div_mul_le_self _ _
    refine List.ne_nil_of_mem (a := (j + 1) * I / L) ?_
    simp only [completionsIn, List.mem_filter, List.mem_range, decide_eq_true_eq]
    exact ⟨Nat.lt_succ_of_le (Nat.div_le_self _ _), (Nat.div_lt_iff_lt_mul hL).mp hlt, hhigh⟩

/-- The batches of the writer: one latency, as often as a write completed. -/
theorem fsyncBatches_sequentialWriter (I : ℕ) (L : UInt64) (now : ℕ → DateTime) (n : ℕ) :
    fsyncBatches (sequentialWriter args discovery I L now n) =
        ((List.range n).map fun j => List.replicate (completionsIn I L.toNat j).length L) ∧
      fsyncPending (sequentialWriter args discovery I L now n) = [] := by
  induction n with
  | zero => exact ⟨batches_nil .., pending_nil ..⟩
  | succ n ih =>
    obtain ⟨hbatches, hpending⟩ := ih
    have hsnoc : sequentialWriter args discovery I L now (n + 1) =
        sequentialWriter args discovery I L now n ++ writerInterval args discovery I L now n := by
      simp [sequentialWriter, List.range_succ]
    rw [hsnoc, writerInterval]
    constructor
    · rw [fsyncBatches, batches_append_batch _ _ _ (by simp [LoaderInput.isTick]) rfl,
        ← fsyncBatches, ← fsyncPending, hbatches, hpending, List.range_succ]
      simp [LoaderInput.writeFlushSample, walWrite]
    · rw [fsyncPending, ← List.append_assoc, pending_concat_tick _ _ rfl]

/-- An interval of the writer breaches exactly when a write completes in it. -/
theorem breaching_completionsIn {thresholdMs L : UInt64} (I j : ℕ)
    (hL : thresholdMs.toNat * 1000000 < L.toNat) :
    breaching thresholdMs (List.replicate (completionsIn I L.toNat j).length L) = true ↔
      j * I / L.toNat < (j + 1) * I / L.toNat := by
  rw [← completionsIn_ne_nil_iff (by omega)]
  simp [breaching, List.countP_replicate, hL]
  omega

/-- The writer sets off the alarm exactly when writes complete in `N` intervals in a row. -/
theorem sequentialWriter_fires_iff_run (now : ℕ → DateTime) (I : ℕ) {L : UInt64}
    (hfire : 0 < args.fsyncFireAfter.toNat)
    (hL : args.fsyncThresholdMs.toNat * 1000000 < L.toNat) :
    (∃ n, ∃ es ∈ tickEffects args discovery (sequentialWriter args discovery I L now n),
        ∃ f, Effect.finding f ∈ es) ↔
      ∃ a, ∀ i < args.fsyncFireAfter.toNat,
        (a + i) * I / L.toNat < (a + i + 1) * I / L.toNat := by
  have hmax : max 1 args.fsyncFireAfter.toNat = args.fsyncFireAfter.toNat := by omega
  simp only [exists_finding_iff, (fsyncBatches_sequentialWriter args discovery I L now _).1,
    ← List.map_take, trailingRun_map, hmax, List.take_range, List.length_map, List.length_range]
  simp only [← breaching_completionsIn I _ hL]
  refine Iff.trans ?_ (exists_trailingRun_range_eq_iff (fun j =>
    breaching args.fsyncThresholdMs (List.replicate (completionsIn I L.toNat j).length L)) _)
  constructor
  · rintro ⟨n, k, -, hrun⟩
    exact ⟨_, hrun⟩
  · rintro ⟨m, hrun⟩
    exact ⟨m, m, Nat.le_refl m, by rwa [Nat.min_self]⟩

/-- **When a slow device sets off the alarm.** A sequential writer whose latency `L` is above the
threshold makes the alarm fire exactly when `N * (L - I) + gcd I L ≤ L`: always while a write takes
at most one interval, and never once `N - 1` writes take `N` intervals. An interval without a
completion has no P50 and counts as quiet. -/
theorem sequentialWriter_fires_iff (now : ℕ → DateTime) (I : ℕ) {L : UInt64}
    (hfire : 0 < args.fsyncFireAfter.toNat)
    (hL : args.fsyncThresholdMs.toNat * 1000000 < L.toNat) :
    (∃ n, ∃ es ∈ tickEffects args discovery (sequentialWriter args discovery I L now n),
        ∃ f, Effect.finding f ∈ es) ↔
      args.fsyncFireAfter.toNat * (L.toNat - I) + I.gcd L.toNat ≤ L.toNat := by
  rw [sequentialWriter_fires_iff_run args discovery now I hfire hL]
  exact ResidueWindow.exists_marked_run_iff (by omega) _

theorem sequentialWriter_fires_iff_default :
    0 < ({} : Args).fsyncFireAfter.toNat ∧
      ({} : Args).fsyncThresholdMs.toNat * 1000000 < (1400000000 : UInt64).toNat ∧
      ((∃ n, ∃ es ∈ tickEffects {} none
          (sequentialWriter {} none 1000000000 1400000000 (fun _ => .atSecond 0) n),
          ∃ f, Effect.finding f ∈ es) ↔
        ({} : Args).fsyncFireAfter.toNat * ((1400000000 : UInt64).toNat - 1000000000) +
          (1000000000).gcd (1400000000 : UInt64).toNat ≤ (1400000000 : UInt64).toNat) :=
  ⟨by decide, by decide, sequentialWriter_fires_iff {} none _ _ (by decide) (by decide)⟩

/-- A device that takes two seconds for every write never sets off an alarm that waits for three
breaching seconds in a row: every other second has no completion. -/
theorem not_sequentialWriter_fires :
    ¬ ∀ (args : Args) (discovery : Option PgDiscovery) (now : ℕ → DateTime) (I : ℕ) (L : UInt64),
      0 < I → 0 < args.fsyncFireAfter.toNat →
        args.fsyncThresholdMs.toNat * 1000000 < L.toNat →
          ∃ n, ∃ es ∈ tickEffects args discovery (sequentialWriter args discovery I L now n),
            ∃ f, Effect.finding f ∈ es := by
  intro h
  have hquiet : ¬ ∃ a, ∀ i < 3,
      (a + i) * 1000000000 / 2000000000 < (a + i + 1) * 1000000000 / 2000000000 := by
    rintro ⟨a, ha⟩
    have h0 := ha 0 (by decide)
    have h1 := ha 1 (by decide)
    omega
  have hfire : 0 < ({} : Args).fsyncFireAfter.toNat := by decide
  have hthreshold : ({} : Args).fsyncThresholdMs.toNat * 1000000 <
      (2000000000 : UInt64).toNat := by decide
  exact hquiet ((sequentialWriter_fires_iff_run {} none (fun _ => .atSecond 0) 1000000000 hfire
    hthreshold).mp (h {} none _ _ _ (by decide) hfire hthreshold))

end PgSleuth
