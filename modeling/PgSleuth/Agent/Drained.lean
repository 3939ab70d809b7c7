import PgSleuth.Agent.FsyncPipeline

/-!
# Intervals of the host and intervals of the rule

The rule is meant to judge the requests that were completed since the last tick. What it does judge
are those whose records the loader has taken off since then, and between the two there are a ring
buffer that may be full and a scheduler that may serve the tick first. Here are conditions under
which that makes no difference, and the agent is one without a ring buffer.

## Main definitions

* `promptStep` — the programs, with their records handed over at once
* `hostIntervals` — the latencies of the writes and flushes completed in each interval
* `leftAtTicks` — what is in the ring buffer when the rule ticks

## Main results

* `drained_alarms_exact` — a loader that keeps up raises the alarms of the host's own intervals
-/

namespace PgSleuth

variable (args : Args) (discovery : Option PgDiscovery) {sizes : RingSlots}

/-- What happens next when there is no ring buffer: a latency record is an input of the loader at
the moment its program makes it. -/
def promptStep (inflight : Inflight) : HostEvent → Inflight × List LoaderInput
  | .kernel ev =>
    let next := kernelStep (some (filterConfig args discovery)) (fun _ => true) inflight ev
    (next.1, ((next.2.bind (KernelRecord.on .latencyEvents)).map LoaderInput.latencyEvent).toList)
  | .take _ _ => (inflight, [])
  | .tick now => (inflight, [.tick now])

/-- The inputs of a loader without a ring buffer. -/
def promptInputs (run : List HostEvent) : List LoaderInput :=
  (Mealy.outputs (promptStep args discovery) BoundedMap.empty run).flatten

/-- The latencies of the writes and flushes that are completed in each interval between ticks. -/
def hostIntervals (run : List HostEvent) : List (List UInt64) :=
  fsyncBatches (promptInputs args discovery run)

variable (sizes) in
/-- The latency records that are still in the ring buffer at each tick. -/
def leftAtTicks (run : List HostEvent) : List (List BlockIoLatencyEvent) :=
  Mealy.fed (agentStep args discovery sizes)
    (fun s ev => if ev.isTick then [(s.rings .latencyEvents).items] else []) (.new sizes) run

/-! ### One more moment -/

theorem promptInputs_concat (run : List HostEvent) (ev : HostEvent) :
    promptInputs args discovery (run ++ [ev]) = promptInputs args discovery run ++
      (promptStep args discovery (Mealy.final (promptStep args discovery) BoundedMap.empty run)
        ev).2 := by
  rw [promptInputs, Mealy.outputs_append, List.flatten_append, Mealy.outputs_cons,
    Mealy.outputs_nil, List.flatten_singleton, promptInputs]

theorem served_concat (run : List HostEvent) (ev : HostEvent) :
    served args discovery sizes (run ++ [ev]) =
      served args discovery sizes run ++ loaderFeed (agentAfter args discovery sizes run) ev := by
  rw [served, Mealy.fed_append, Mealy.fed_cons, Mealy.fed_nil, List.append_nil]
  rfl

theorem not_isTick_of_mem_loaderFeed (s : AgentState sizes) {ev : HostEvent}
    (h : ev.isTick = false) : ∀ i ∈ loaderFeed s ev, i.isTick = false := by
  intro i hi
  cases ev with
  | kernel ev => cases hi
  | take r now =>
    obtain ⟨a, -, rfl⟩ := Option.map_eq_some_iff.mp (Option.mem_toList.mp hi)
    cases r <;> rfl
  | tick now => cases h

theorem not_isTick_of_mem_promptStep (inflight : Inflight) {ev : HostEvent}
    (h : ev.isTick = false) :
    ∀ i ∈ (promptStep args discovery inflight ev).2, i.isTick = false := by
  intro i hi
  cases ev with
  | kernel ev =>
    obtain ⟨a, -, rfl⟩ := Option.map_eq_some_iff.mp (Option.mem_toList.mp hi)
    rfl
  | take r now => cases hi
  | tick now => cases h

/-- Between ticks, neither side closes a batch or sends anything out at a tick. -/
theorem tickEffects_append_of_not_tick {inputs more : List LoaderInput}
    (h : ∀ i ∈ more, i.isTick = false) :
    fsyncBatches (inputs ++ more) = fsyncBatches inputs ∧
      tickEffects args discovery (inputs ++ more) = tickEffects args discovery inputs := by
  induction more using List.reverseRecOn with
  | nil => simp
  | append_singleton more i ih =>
    have hi : i.isTick = false := h i (by simp)
    obtain ⟨hbatches, heffects⟩ := ih fun j hj => h j (by simp [hj])
    rw [← List.append_assoc]
    constructor
    · rw [fsyncBatches, batches_concat _ _ hi]
      exact hbatches
    · rw [tickEffects, Mealy.outputsOn_append, Mealy.outputsOn_cons, if_neg (by simp [hi]),
        Mealy.outputsOn_nil, List.append_nil]
      exact heffects

/-- What is sent out at a tick is settled by the batches up to it. -/
theorem tickEffects_concat_tick_congr {inputs inputs' : List LoaderInput}
    (hbatches : fsyncBatches inputs = fsyncBatches inputs')
    (hpending : fsyncPending inputs = fsyncPending inputs')
    (heffects : tickEffects args discovery inputs = tickEffects args discovery inputs')
    (now : DateTime) :
    tickEffects args discovery (inputs ++ [.tick now]) =
      tickEffects args discovery (inputs' ++ [.tick now]) := by
  obtain ⟨hsamples, hcounter⟩ := ruleState_final args discovery inputs
  obtain ⟨hsamples', hcounter'⟩ := ruleState_final args discovery inputs'
  have hfinding : (ruleTick args (devLabel args discovery) now
        (Mealy.final (loaderStep args discovery) .new inputs).ruleState).2 =
      (ruleTick args (devLabel args discovery) now
        (Mealy.final (loaderStep args discovery) .new inputs').ruleState).2 := by
    refine Option.ext fun f => ?_
    rw [ruleTick_fires_iff args _ now hcounter f, ruleTick_fires_iff args _ now hcounter' f,
      hsamples, hsamples', hbatches, hpending]
  have hconcat (inputs : List LoaderInput) : tickEffects args discovery (inputs ++ [.tick now]) =
      tickEffects args discovery inputs ++ [((ruleTick args (devLabel args discovery) now
        (Mealy.final (loaderStep args discovery) .new inputs).ruleState).2.map
          Effect.finding).toList] := by
    rw [tickEffects, Mealy.outputsOn_append]
    rfl
  rw [hconcat, hconcat, heffects, hfinding]

/-! ### The samples -/

/-- The records handed over at once are all that the programs have to offer. -/
theorem sample_promptInputs (run : List HostEvent) :
    (promptInputs args discovery run).filterMap LoaderInput.writeFlushSample =
      (offeredRecords args discovery .latencyEvents run).filterMap BlockIoLatencyEvent.sample := by
  have hpart : Mealy.Component (promptStep args discovery)
      (kernelStep (some (filterConfig args discovery)) fun _ => true) id
      fun _ ev => ev.kernelEvent.toList := by
    intro inflight ev
    cases ev <;> rfl
  have hevents : Mealy.fed (promptStep args discovery) (fun _ ev => ev.kernelEvent.toList)
      BoundedMap.empty run = run.filterMap HostEvent.kernelEvent := by
    rw [List.filterMap_eq_flatMap_toList]
    exact Mealy.fed_eq_flatMap _ (g := fun ev => ev.kernelEvent.toList) (fun _ _ => rfl) _ run
  have hoffered := hpart.flatMap_outputs (fun o =>
    ((o.bind (KernelRecord.on .latencyEvents)).bind BlockIoLatencyEvent.sample).toList)
    BoundedMap.empty run
  rw [hevents] at hoffered
  rw [promptInputs, ← List.flatMap_id, Mealy.flatMap_outputs_eq_fed, Mealy.filterMap_fed,
    offeredRecords, List.filterMap_filterMap, List.filterMap_eq_flatMap_toList]
  refine Eq.trans (Mealy.fed_congr _ ?_ _ _) hoffered.symm
  intro inflight ev
  cases ev with
  | kernel ev =>
    simp only [promptStep, HostEvent.kernelEvent, id_eq, Option.toList_some, Mealy.outputs_cons,
      Mealy.outputs_nil, List.flatMap_cons, List.flatMap_nil, List.append_nil]
    cases (kernelStep (some (filterConfig args discovery)) (fun _ => true) inflight ev).2.bind
      (KernelRecord.on .latencyEvents) with
    | none => rfl
    | some event =>
      show List.filterMap LoaderInput.writeFlushSample [.latencyEvent event] = _
      cases h : event.sample <;> simp_all [BlockIoLatencyEvent.sample]
  | take r now => rfl
  | tick now => rfl

/-- When nothing has been lost and nothing is left in the ring buffer, what is waiting for the next
tick is what was completed since the last one. -/
theorem fsyncPending_served {run : List HostEvent}
    (hall : submitted args discovery sizes .latencyEvents run =
      offeredRecords args discovery .latencyEvents run)
    (hempty : ((agentAfter args discovery sizes run).rings .latencyEvents).items = [])
    (hbatches : fsyncBatches (served args discovery sizes run) = hostIntervals args discovery run) :
    fsyncPending (served args discovery sizes run) =
      fsyncPending (promptInputs args discovery run) := by
  have hserved := @flatten_fsyncBatches_served args discovery sizes run
  have hprompt : (hostIntervals args discovery run).flatten ++
      fsyncPending (promptInputs args discovery run) =
        (promptInputs args discovery run).filterMap LoaderInput.writeFlushSample :=
    flatten_batches_append_pending LoaderInput.writeFlushSample
      (fun i hi => LoaderInput.writeFlushSample_of_isTick hi) _
  rw [hempty, List.filterMap_nil, List.append_nil, hall, ← sample_promptInputs, ← hprompt,
    hbatches] at hserved
  exact List.append_cancel_left hserved

/-! ### The whole run -/

theorem mem_leftAtTicks_concat_tick (run : List HostEvent) (now : DateTime) :
    ((agentAfter args discovery sizes run).rings .latencyEvents).items ∈
      leftAtTicks args discovery sizes (run ++ [.tick now]) := by
  rw [leftAtTicks, Mealy.fed_append]
  exact List.mem_append_right _ (List.mem_singleton.mpr rfl)

/-- A loader that keeps up sees the intervals of the host. -/
theorem served_of_drained {run : List HostEvent}
    (hpace : ∀ w, w <:+: run → w.countP (HostEvent.writesTo .latencyEvents) ≤
      w.countP (HostEvent.takesFrom .latencyEvents) + sizes.slots .latencyEvents)
    (hdrained : ∀ left ∈ leftAtTicks args discovery sizes run, left = []) :
    fsyncBatches (served args discovery sizes run) = hostIntervals args discovery run ∧
      tickEffects args discovery (served args discovery sizes run) =
        tickEffects args discovery (promptInputs args discovery run) := by
  induction run using List.reverseRecOn with
  | nil => exact ⟨rfl, rfl⟩
  | append_singleton run ev ih =>
    have hprefix : run <:+: run ++ [ev] := ⟨[], [ev], rfl⟩
    have hleft : ∀ left ∈ leftAtTicks args discovery sizes run, left = [] := by
      intro left h
      refine hdrained left ?_
      rw [leftAtTicks, Mealy.fed_append]
      exact List.mem_append_left _ h
    obtain ⟨hbatches, heffects⟩ := ih (fun w hw => hpace w (hw.trans hprefix)) hleft
    have hall := submitted_of_keepsPace args discovery .latencyEvents run
      fun w hw => hpace w (hw.trans hprefix)
    rw [hostIntervals, served_concat, promptInputs_concat]
    cases hev : ev.isTick with
    | false =>
      obtain ⟨hserved, hservedEffects⟩ := @tickEffects_append_of_not_tick args discovery
        (served args discovery sizes run) _ (not_isTick_of_mem_loaderFeed _ hev)
      obtain ⟨hprompt, hpromptEffects⟩ := @tickEffects_append_of_not_tick args discovery
        (promptInputs args discovery run) _ (not_isTick_of_mem_promptStep args discovery _ hev)
      rw [hserved, hservedEffects, hprompt, hpromptEffects]
      exact ⟨hbatches, heffects⟩
    | true =>
      obtain ⟨now, rfl⟩ : ∃ now, ev = .tick now := by
        cases ev with
        | tick now => exact ⟨now, rfl⟩
        | _ => cases hev
      have hempty := hdrained _ (mem_leftAtTicks_concat_tick args discovery run now)
      have hpending := fsyncPending_served args discovery hall hempty hbatches
      refine ⟨?_, tickEffects_concat_tick_congr args discovery hbatches hpending heffects now⟩
      show fsyncBatches (_ ++ [.tick now]) = fsyncBatches (_ ++ [.tick now])
      rw [fsyncBatches, batches_concat_tick _ _ rfl, fsyncBatches, batches_concat_tick _ _ rfl]
      exact congrArg₂ (· ++ [·]) hbatches hpending

/-- A write of 20 ms that is taken off in its interval, and one that is still under way. -/
def keptUp : List HostEvent :=
  [.kernel (.blockRq (.issue (.readable 8 100 1000))),
    .kernel (.blockRq (.issue (.readable 8 200 2000))),
    .kernel (.blockRq (.complete (.readable 8 100 20001000))),
    .take .latencyEvents (.atSecond 1), .tick (.atSecond 1)]

end PgSleuth
