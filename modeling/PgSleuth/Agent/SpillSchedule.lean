import PgSleuth.Agent.Delivery
import PgSleuth.Loader.DistinctSpills

/-!
# Spills, whatever the schedule

The loader reports a spill when it gets to it. When that is depends on everything else it has to do,
and so does the time stamp of the finding. Nothing else does: as long as the ring buffer keeps up,
which spills are reported, and in which order, is settled by the file calls alone.

## Main definitions

* `Finding.undated` — a finding without its time stamp
* `undatedSpills` — the findings of the temp-spill rule in a run, without their time stamps
* `fileCalls` — the file calls of a run

## Main results

* `reportsOnce_loader` — the loader, as a machine that reports each spill once
* `undatedSpills_eq_firsts` — the findings of a run
-/

namespace PgSleuth

/-- A finding without its time stamp. -/
def Finding.undated (f : Finding) : Finding := { f with firedAt := .atSecond 0 }

/-- The event of a temporary file an input is, if it is one. -/
def LoaderInput.spillEvent : LoaderInput → Option TempFileEvent
  | .tempFileEvent _ event => if namesTempFile (pathFromEvent event.path) then some event else none
  | _ => none

/-- The file call an event is, if it is one. -/
def HostEvent.fileCall : HostEvent → Option FileCall
  | .kernel (.fileSyscall syscall proc filename) =>
    some { syscall, proc, filename, reserve := true, now := .atSecond 0 }
  | _ => none

/-- The file calls of a run. -/
def fileCalls (run : List HostEvent) : List FileCall := run.filterMap HostEvent.fileCall

variable (args : Args) (discovery : Option PgDiscovery)

/-- The finding about an event, without its time stamp. -/
def undatedFinding (event : TempFileEvent) : Finding :=
  buildTempFileFinding (.atSecond 0) args.pgInstance event.pid (commStr event.comm)
    (pathFromEvent event.path) (syscallStr event.syscall)

/-- The findings about a list of events: the first of each process and path. -/
def spillReport (events : List TempFileEvent) : List Finding :=
  ((events.filter fun event => namesTempFile (pathFromEvent event.path)).firstsBy spillKey).map
    (undatedFinding args)

/-- The findings of the temp-spill rule among some effects, without their time stamps. -/
def undatedSpills (effects : List Effect) : List Finding :=
  (effects.filterMap Effect.spillFinding).map Finding.undated

/-- What the loader does about an event of a temporary file. -/
theorem undatedSpills_tempFileEvent (s : LoaderState) (now : DateTime) (event : TempFileEvent) :
    undatedSpills (loaderStep args discovery s (.tempFileEvent now event)).2 =
      if namesTempFile (pathFromEvent event.path) = true ∧ spillKey event ∉ s.seenSpills then
        [undatedFinding args event]
      else [] := by
  have hsome := tempFileEvent_eq_some args now s.seenSpills event
  simp only [loaderStep]
  split_ifs with hnew
  · rw [(hsome _).mpr ⟨hnew.1, hnew.2, rfl⟩]
    rfl
  · have hnone : (tempFileEvent args now s.seenSpills event).2 = none := by
      refine Option.eq_none_iff_forall_ne_some.mpr fun f hf => ?_
      obtain ⟨hname, hkey, -⟩ := (hsome f).mp hf
      exact hnew ⟨hname, hkey⟩
    rw [hnone]
    rfl

/-- **The loader reports each spill once**, whatever else it is served. -/
theorem reportsOnce_loader :
    Mealy.ReportsOnce (loaderStep args discovery) LoaderInput.spillEvent spillKey
      (undatedFinding args) undatedSpills (fun s key => key ∈ s.seenSpills) where
  seen_step s i key := by
    cases i with
    | tempFileEvent now event =>
      simp only [loaderStep, mem_tempFileEvent]
      cases hname : namesTempFile (pathFromEvent event.path) <;>
        simp [LoaderInput.spillEvent, hname, eq_comm]
    | _ =>
      rw [seenSpills_other args discovery s (by simp)]
      simp [LoaderInput.spillEvent]
  silent s i hi := by
    cases i with
    | tempFileEvent now event =>
      rw [undatedSpills_tempFileEvent, if_neg]
      rintro ⟨hname, -⟩
      simp [LoaderInput.spillEvent, hname] at hi
    | _ => rw [undatedSpills, spillFinding_other args discovery s (by simp)]; rfl
  again s i event hi hseen := by
    cases i with
    | tempFileEvent now event' =>
      obtain ⟨-, heq⟩ := Option.ite_none_right_eq_some.mp hi
      obtain rfl : event' = event := Option.some.inj heq
      rw [undatedSpills_tempFileEvent, if_neg fun h => h.2 hseen]
    | _ => cases hi
  first s i event hi hseen := by
    cases i with
    | tempFileEvent now event' =>
      obtain ⟨hname, heq⟩ := Option.ite_none_right_eq_some.mp hi
      obtain rfl : event' = event := Option.some.inj heq
      rw [undatedSpills_tempFileEvent, if_pos ⟨hname, hseen⟩]
    | _ => cases hi

variable {sizes : RingSlots}

/-- The events of temporary files the loader is served are those taken off their ring buffer. -/
theorem filterMap_spillEvent_served (run : List HostEvent) :
    (served args discovery sizes run).filterMap LoaderInput.spillEvent =
      (taken args discovery sizes .tempFileEvents run).filter fun event =>
        namesTempFile (pathFromEvent event.path) := by
  rw [← filterMap_record_served, List.filter_filterMap]
  refine List.filterMap_congr fun i _ => ?_
  cases i with
  | tempFileEvent now event =>
    simp [LoaderInput.spillEvent, LoaderInput.record, Option.filter_some]
  | _ => rfl

/-- What a program submits to the ring buffer of temporary files. -/
theorem tempFileEvents_kernelStep (config : FilterConfig) (inflight : Inflight)
    (ev : KernelEvent) :
    (kernelStep (some config) (fun _ => true) inflight ev).2.bind
        (KernelRecord.on .tempFileEvents) =
      (HostEvent.kernel ev).fileCall.bind (FileCall.capture config) := by
  have hself (o : Option TempFileEvent) :
      (o.map fun e => (⟨.tempFileEvents, e⟩ : KernelRecord)).bind
        (KernelRecord.on .tempFileEvents) = o := by
    cases o with
    | none => rfl
    | some e => exact KernelRecord.on_self .tempFileEvents e
  cases ev with
  | fileSyscall call proc filename => cases call <;> exact hself _
  | vfsOpen proc =>
    rw [Option.bind_eq_none_iff.mpr]
    · rfl
    · intro rec hrec
      have hring := @ring_of_offered (some config) inflight _ _ hrec
      exact dif_neg (by rw [← hring]; simp [KernelEvent.ring])
  | blockRq ev =>
    rw [Option.bind_eq_none_iff.mpr]
    · rfl
    · intro rec hrec
      have hring := @ring_of_offered (some config) inflight _ _ hrec
      exact dif_neg (by rw [← hring]; cases ev <;> simp [KernelEvent.ring])

/-- What the file-syscall programs would submit depends on the file calls alone. -/
theorem offeredRecords_tempFileEvents (run : List HostEvent) :
    offeredRecords args discovery .tempFileEvents run =
      (fileCalls run).filterMap (FileCall.capture (filterConfig args discovery)) := by
  have hsteps := Mealy.flatMap_outputs_eq_fed
    (kernelStep (some (filterConfig args discovery)) fun _ => true)
    (fun o => (o.bind (KernelRecord.on .tempFileEvents)).toList) BoundedMap.empty
    (run.filterMap HostEvent.kernelEvent)
  rw [offeredRecords, List.filterMap_eq_flatMap_toList, hsteps,
    Mealy.fed_eq_flatMap _ (g := fun ev => ((HostEvent.kernel ev).fileCall.bind
      (FileCall.capture (filterConfig args discovery))).toList)
      (fun inflight ev => by rw [tempFileEvents_kernelStep]),
    ← List.filterMap_eq_flatMap_toList, fileCalls, List.filterMap_filterMap,
    List.filterMap_filterMap]
  refine List.filterMap_congr fun ev _ => ?_
  cases ev <;> rfl

/-- **The findings of a run.** They are about the first event of each process and path among those
taken off the ring buffer, in order. When in no stretch of the run the file calls outnumber the
events taken off by more than the ring buffer has room for, and the ring buffer is empty at the end,
they are settled by the file calls alone: how these were interleaved with everything else, and when
the loader got to them, shows in the time stamps and nowhere else. -/
theorem undatedSpills_eq_firsts (run : List HostEvent) :
    undatedSpills (sentOut args discovery sizes run) =
        spillReport args (taken args discovery sizes .tempFileEvents run) ∧
      ((∀ w, w <:+: run → w.countP (HostEvent.writesTo .tempFileEvents) ≤
          w.countP (HostEvent.takesFrom .tempFileEvents) + sizes.slots .tempFileEvents) →
        ((agentAfter args discovery sizes run).rings .tempFileEvents).items = [] →
          undatedSpills (sentOut args discovery sizes run) =
            spillReport args
              ((fileCalls run).filterMap (FileCall.capture (filterConfig args discovery)))) := by
  have hreport : undatedSpills (sentOut args discovery sizes run) =
      spillReport args (taken args discovery sizes .tempFileEvents run) := by
    have hfirsts := (reportsOnce_loader args discovery).flatMap_outputs (s := .new)
      (by simp [LoaderState.new]) (served args discovery sizes run)
    rw [filterMap_spillEvent_served] at hfirsts
    rw [spillReport, ← hfirsts, sentOut_eq, undatedSpills, List.filterMap_flatten,
      List.map_flatten, List.map_map, List.flatMap_def]
    rfl
  refine ⟨hreport, fun hpace hdrained => ?_⟩
  have hall := submitted_of_keepsPace args discovery .tempFileEvents run hpace
  rw [← taken_append_items, hdrained, List.append_nil, offeredRecords_tempFileEvents] at hall
  rw [hreport, hall]

end PgSleuth
