import PgSleuth.Agent.Host
import PgSleuth.Ebpf.RequestFates

/-!
# From the kernel programs to the loader

What a run of the whole does to the records on their way: each ring buffer hands over what was
submitted to it, once and in order, and the loader has run on what it was handed. So everything
known about runs of the loader, whatever it is served, is known about the loader on its host.

What is not submitted is lost. A ring buffer loses nothing as long as the programs that write to it
do not get further ahead of the loader than it has room for.

## Main definitions

* `submitted`, `taken`, `served`, `fired` — the records, the loader's inputs and the block programs'
  firings of a run
* `offeredRecords` — what would be submitted if there were room everywhere

## Main results

* `taken_append_items` — what has been taken off and what is left is what was submitted, in order
* `sentOut_eq` — all that is sent out is what the loader does with what it is served
* `submitted_of_keepsPace` — when nothing is lost on the way
-/

namespace PgSleuth

variable (args : Args) (discovery : Option PgDiscovery) (sizes : RingSlots)

/-- The state after a run. -/
def agentAfter (run : List HostEvent) : AgentState sizes :=
  Mealy.final (agentStep args discovery sizes) (.new sizes) run

/-- Everything sent out in a run. -/
def sentOut (run : List HostEvent) : List Effect :=
  (Mealy.outputs (agentStep args discovery sizes) (.new sizes) run).flatten

/-- What the loader is served in a run. -/
def served (run : List HostEvent) : List LoaderInput :=
  Mealy.fed (agentStep args discovery sizes) loaderFeed (.new sizes) run

/-- The firings of the block programs, with the answers of the ring buffers. -/
def fired (run : List HostEvent) : List BlockRqEvent :=
  Mealy.fed (agentStep args discovery sizes) blockRqFeed (.new sizes) run

/-- What is done to a ring buffer. -/
def ringOps (r : Ring) (run : List HostEvent) : List (BoundedQueue.Op r.Record) :=
  Mealy.fed (agentStep args discovery sizes) (ringFeed args discovery r) (.new sizes) run

/-- The records submitted to a ring buffer. -/
def submitted (r : Ring) (run : List HostEvent) : List r.Record :=
  (BoundedQueue.empty : BoundedQueue r.Record (sizes.slots r)).accepted
    (ringOps args discovery sizes r run)

/-- The records taken off a ring buffer. -/
def taken (r : Ring) (run : List HostEvent) : List r.Record :=
  (BoundedQueue.empty : BoundedQueue r.Record (sizes.slots r)).popped
    (ringOps args discovery sizes r run)

/-- The program an event fires. -/
def HostEvent.kernelEvent : HostEvent → Option KernelEvent
  | .kernel ev => some ev
  | _ => none

/-- What the programs would submit to a ring buffer if there were room everywhere. No ring buffer
and no loader has a part in it. -/
def offeredRecords (r : Ring) (run : List HostEvent) : List r.Record :=
  (Mealy.outputs (kernelStep (some (filterConfig args discovery)) fun _ => true) BoundedMap.empty
    (run.filterMap HostEvent.kernelEvent)).filterMap fun o => o.bind (KernelRecord.on r)

/-- The record the loader is served, if it is one. -/
def LoaderInput.record : LoaderInput → Option KernelRecord
  | .traceEvent event => some ⟨.events, event⟩
  | .blockEvent event => some ⟨.blockEvents, event⟩
  | .latencyEvent event => some ⟨.latencyEvents, event⟩
  | .tempFileEvent _ event => some ⟨.tempFileEvents, event⟩
  | .tick _ => none

theorem LoaderInput.record_ofRecord (now : DateTime) (rec : KernelRecord) :
    (LoaderInput.ofRecord now rec).record = some rec := by
  obtain ⟨r, a⟩ := rec
  cases r <;> rfl

variable {sizes}

/-! ### One moment -/

/-- What goes onto a ring buffer is what the program submits. -/
theorem accepted_ringFeed (r : Ring) (s : AgentState sizes) (ev : KernelEvent) :
    (s.rings r).accepted (ringFeed args discovery r s (.kernel ev)) =
      ((kernelStep (some (filterConfig args discovery)) (Rings.room s.rings) s.inflight
        ev).2.bind (KernelRecord.on r)).toList := by
  rw [(kernelStep_room ..).2, ringFeed]
  rcases offered (some (filterConfig args discovery)) s.inflight ev with _ | ⟨r', a⟩
  · rfl
  · by_cases hr : r' = r
    · subst hr
      cases hroom : (s.rings r').hasRoom <;>
        simp [Option.filter_some, Rings.room, hroom, BoundedQueue.accepted, BoundedQueue.step]
    · cases hroom : (s.rings r').hasRoom <;>
        simp [Option.filter_some, Rings.room, hroom, KernelRecord.on_of_ne hr,
          BoundedQueue.accepted]

/-- Taking records off puts nothing on. -/
theorem accepted_ringFeed_of_not_kernel (r : Ring) (s : AgentState sizes) {ev : HostEvent}
    (h : ev.kernelEvent = none) : (s.rings r).accepted (ringFeed args discovery r s ev) = [] := by
  cases ev with
  | kernel ev => simp [HostEvent.kernelEvent] at h
  | take r' now => by_cases hr : r' = r <;> simp [ringFeed, hr, BoundedQueue.accepted,
      BoundedQueue.step]
  | tick now => rfl

/-- What comes off a ring buffer is what the loader is served. -/
theorem popped_ringFeed (r : Ring) (s : AgentState sizes) (ev : HostEvent) :
    (s.rings r).popped (ringFeed args discovery r s ev) =
      (loaderFeed s ev).filterMap fun i => i.record.bind (KernelRecord.on r) := by
  cases ev with
  | kernel ev =>
    rw [ringFeed, loaderFeed]
    cases (offered (some (filterConfig args discovery)) s.inflight ev).bind (KernelRecord.on r) <;>
      rfl
  | take r' now =>
    by_cases hr : r' = r
    · subst hr
      cases h : (s.rings r').items.head? <;>
        simp [ringFeed, loaderFeed, h, BoundedQueue.popped, BoundedQueue.step,
          LoaderInput.record_ofRecord]
    · cases h : (s.rings r').items.head? <;>
        simp [ringFeed, loaderFeed, h, hr, BoundedQueue.popped, LoaderInput.record_ofRecord,
          KernelRecord.on_of_ne hr]
  | tick now => rfl

/-! ### A run -/

/-- The records taken off are those the loader is served. -/
theorem filterMap_record_served (r : Ring) (run : List HostEvent) :
    (served args discovery sizes run).filterMap (fun i => i.record.bind (KernelRecord.on r)) =
      taken args discovery sizes r run := by
  rw [served, Mealy.filterMap_fed, taken, BoundedQueue.popped, List.filterMap_eq_flatMap_toList]
  have hpart := (component_ring args discovery sizes r).flatMap_outputs
    (fun o => o.popped.toList) (.new sizes) run
  refine Eq.trans (Mealy.fed_congr _ ?_ _ _) hpart.symm
  intro s ev
  rw [← popped_ringFeed, BoundedQueue.popped, List.filterMap_eq_flatMap_toList]

/-- The records submitted are those the programs submit. -/
theorem submitted_eq_fed (r : Ring) (run : List HostEvent) :
    submitted args discovery sizes r run =
      Mealy.fed (agentStep args discovery sizes)
        (fun s ev => (s.rings r).accepted (ringFeed args discovery r s ev)) (.new sizes) run := by
  have hpart := (component_ring args discovery sizes r).flatMap_outputs
    (fun o => o.accepted.toList) (.new sizes) run
  rw [submitted, BoundedQueue.accepted, List.filterMap_eq_flatMap_toList]
  refine hpart.trans (Mealy.fed_congr _ ?_ _ _)
  intro s ev
  rw [BoundedQueue.accepted, List.filterMap_eq_flatMap_toList]

theorem on_latencyEvents (rec : RingRecord) :
    rec.toKernelRecord.on .latencyEvents = rec.latencyEvent := by
  cases rec with
  | block event => exact @KernelRecord.on_of_ne .latencyEvents .blockEvents (by simp) event
  | latency event => exact KernelRecord.on_self .latencyEvents event

/-- Only the block programs write to the latency ring. -/
theorem latencyEvents_kernelStep (s : AgentState sizes) (ev : KernelEvent) :
    ((kernelStep (some (filterConfig args discovery)) (Rings.room s.rings) s.inflight
        ev).2.bind (KernelRecord.on .latencyEvents)).toList =
      (Mealy.outputs (blockRqStep (some (filterConfig args discovery))) s.inflight
        (blockRqFeed s (.kernel ev))).flatMap fun o => (o.bind RingRecord.latencyEvent).toList := by
  have hother {r : Ring} (hr : r ≠ .latencyEvents) (o : Option r.Record) :
      (o.map fun e => (⟨r, e⟩ : KernelRecord)).bind (KernelRecord.on .latencyEvents) = none := by
    cases o with
    | none => rfl
    | some a => exact KernelRecord.on_of_ne hr a
  cases ev with
  | vfsOpen proc =>
    simp only [kernelStep, hother (r := .events) (by simp)]
    rfl
  | blockRq ev =>
    simp only [kernelStep, blockRqFeed, Mealy.outputs_cons, Mealy.outputs_nil]
    generalize (blockRqStep (some (filterConfig args discovery)) s.inflight
      (ev.reserving (Rings.room s.rings))).2 = rec
    cases rec <;> simp [on_latencyEvents]
  | fileSyscall call proc filename =>
    cases call <;> simp only [kernelStep, hother (r := .tempFileEvents) (by simp)] <;> rfl

/-- The latency records submitted in a run are those the block programs put out. -/
theorem submitted_latencyEvents (run : List HostEvent) :
    submitted args discovery sizes .latencyEvents run =
      latencyRecords (some (filterConfig args discovery)) (fired args discovery sizes run) := by
  have hpart := (component_blockRq args discovery sizes).flatMap_outputs
    (fun o => (o.bind RingRecord.latencyEvent).toList) (.new sizes) run
  rw [submitted_eq_fed, latencyRecords, List.filterMap_eq_flatMap_toList]
  refine Eq.trans (Mealy.fed_congr _ ?_ _ _) hpart.symm
  intro s ev
  cases ev with
  | kernel ev => rw [accepted_ringFeed, latencyEvents_kernelStep]
  | take r now => exact accepted_ringFeed_of_not_kernel args discovery _ s rfl
  | tick now => rfl

/-- **What has been taken off** a ring buffer and what is still in it is what was submitted to
it. -/
theorem taken_append_items (r : Ring) (run : List HostEvent) :
    taken args discovery sizes r run ++ ((agentAfter args discovery sizes run).rings r).items =
      submitted args discovery sizes r run := by
  have hring := (component_ring args discovery sizes r).final (.new sizes) run
  have hqueue := (BoundedQueue.empty : BoundedQueue r.Record (sizes.slots r)).popped_append_items
    (ringOps args discovery sizes r run)
  rw [agentAfter, hring, taken, submitted]
  exact hqueue.trans (List.nil_append _)

/-- All that is sent out is what the loader does with what it is served. -/
theorem sentOut_eq (run : List HostEvent) :
    sentOut args discovery sizes run =
      (Mealy.outputs (loaderStep args discovery) .new
        (served args discovery sizes run)).flatten := by
  have hpart := (component_loader args discovery sizes).flatMap_outputs id
    (.new sizes) run
  rw [sentOut, ← List.flatMap_id, ← List.flatMap_id, Mealy.flatMap_outputs_eq_fed, served]
  refine Eq.trans (Mealy.fed_congr _ ?_ _ _) hpart.symm
  intro s ev
  simp [effects_agentStep, List.flatMap_id]

/-! ### When nothing is lost -/

variable (sizes) in
/-- The kernel programs on ring buffers that never fill up, as a part of the whole. -/
theorem component_kernel :
    Mealy.Component (agentStep args discovery sizes)
      (kernelStep (some (filterConfig args discovery)) fun _ => true) AgentState.inflight
      fun _ ev => ev.kernelEvent.toList := by
  intro s ev
  cases ev with
  | kernel ev => exact (kernelStep_room ..).1
  | take r now =>
    cases h : (s.rings r).items.head? <;> simp [agentStep, HostEvent.kernelEvent, h]
  | tick now => rfl

variable (sizes) in
/-- What is offered to a ring buffer depends on the programs alone. -/
theorem pushed_ringOps (r : Ring) (run : List HostEvent) :
    (ringOps args discovery sizes r run).filterMap BoundedQueue.Op.pushed =
      offeredRecords args discovery r run := by
  have hpart := (component_kernel args discovery sizes).flatMap_outputs
    (fun o => (o.bind (KernelRecord.on r)).toList) (.new sizes) run
  have hevents : Mealy.fed (agentStep args discovery sizes)
      (fun _ ev => ev.kernelEvent.toList) (.new sizes) run =
        run.filterMap HostEvent.kernelEvent := by
    rw [List.filterMap_eq_flatMap_toList]
    exact Mealy.fed_eq_flatMap _ (g := fun ev => ev.kernelEvent.toList) (fun _ _ => rfl) _ run
  rw [hevents] at hpart
  rw [ringOps, Mealy.filterMap_fed, offeredRecords, List.filterMap_eq_flatMap_toList]
  refine Eq.trans (Mealy.fed_congr _ ?_ _ _) hpart.symm
  intro s ev
  cases ev with
  | kernel ev =>
    simp only [ringFeed, HostEvent.kernelEvent, Option.toList_some, Mealy.outputs_cons,
      Mealy.outputs_nil, List.flatMap_cons, List.flatMap_nil, List.append_nil, offered]
    cases ((kernelStep (some (filterConfig args discovery)) (fun _ => true) s.inflight
      ev).2.bind (KernelRecord.on r)) <;> rfl
  | take r' now => by_cases hr : r' = r <;> simp [ringFeed, hr, BoundedQueue.Op.pushed,
      HostEvent.kernelEvent]
  | tick now => rfl

/-- The ring buffer a program writes to. -/
def KernelEvent.ring : KernelEvent → Ring
  | .vfsOpen _ => .events
  | .blockRq (.issue _) => .blockEvents
  | .blockRq (.complete _) => .latencyEvents
  | .fileSyscall _ _ _ => .tempFileEvents

/-- Whether an event fires a program that writes to `r`. -/
def HostEvent.writesTo (r : Ring) : HostEvent → Bool
  | .kernel ev => ev.ring = r
  | _ => false

/-- Whether an event takes a record off `r`. -/
def HostEvent.takesFrom (r : Ring) : HostEvent → Bool
  | .take r' _ => r' = r
  | _ => false

theorem ring_of_offered {config : Option FilterConfig} {inflight : Inflight} {ev : KernelEvent}
    {rec : KernelRecord} (h : offered config inflight ev = some rec) : ev.ring = rec.1 := by
  simp only [offered] at h
  cases ev with
  | vfsOpen proc =>
    obtain ⟨e, -, rfl⟩ := Option.map_eq_some_iff.mp h
    rfl
  | blockRq ev =>
    obtain ⟨rec', hrec', rfl⟩ := Option.map_eq_some_iff.mp h
    cases ev with
    | issue ctx =>
      obtain ⟨e, -, rfl⟩ := Option.map_eq_some_iff.mp hrec'
      rfl
    | complete ctx =>
      obtain ⟨e, -, rfl⟩ := Option.map_eq_some_iff.mp hrec'
      rfl
  | fileSyscall call proc filename =>
    cases call <;> obtain ⟨e, -, rfl⟩ := Option.map_eq_some_iff.mp h <;> rfl

theorem length_ringFeed_le (r : Ring) (s : AgentState sizes) (ev : HostEvent) :
    (ringFeed args discovery r s ev).length ≤ 1 := by
  cases ev with
  | kernel ev =>
    rw [ringFeed]
    cases (offered (some (filterConfig args discovery)) s.inflight ev).bind (KernelRecord.on r) <;>
      simp
  | take r' now => by_cases hr : r' = r <;> simp [ringFeed, hr]
  | tick now => simp [ringFeed]

/-- The pushes of a stretch are at most the firings that write to the ring buffer, and its pops are
what the loader takes off. -/
theorem countP_ringFeed (r : Ring) (s : AgentState sizes) (run : List HostEvent) :
    (Mealy.fed (agentStep args discovery sizes) (ringFeed args discovery r) s run).countP
        BoundedQueue.Op.isPush ≤ run.countP (HostEvent.writesTo r) ∧
      (Mealy.fed (agentStep args discovery sizes) (ringFeed args discovery r) s run).countP
        BoundedQueue.Op.isPop = run.countP (HostEvent.takesFrom r) := by
  induction run generalizing s with
  | nil => exact ⟨Nat.le_refl _, rfl⟩
  | cons ev run ih =>
    obtain ⟨hpush, hpop⟩ := ih (agentStep args discovery sizes s ev).1
    have hev : (ringFeed args discovery r s ev).countP BoundedQueue.Op.isPush ≤
          [ev].countP (HostEvent.writesTo r) ∧
        (ringFeed args discovery r s ev).countP BoundedQueue.Op.isPop =
          [ev].countP (HostEvent.takesFrom r) := by
      cases ev with
      | kernel ev =>
        rw [ringFeed]
        cases hoff : offered (some (filterConfig args discovery)) s.inflight ev with
        | none => simp [HostEvent.takesFrom]
        | some rec =>
          have hring := ring_of_offered hoff
          by_cases hr : rec.1 = r
          · simp [KernelRecord.on, hr, HostEvent.writesTo, HostEvent.takesFrom, hring,
              BoundedQueue.Op.isPush, BoundedQueue.Op.isPop]
          · simp [KernelRecord.on, hr, HostEvent.takesFrom]
      | take r' now =>
        by_cases hr : r' = r <;> simp [ringFeed, hr, HostEvent.writesTo, HostEvent.takesFrom,
          BoundedQueue.Op.isPush, BoundedQueue.Op.isPop]
      | tick now => simp [ringFeed, HostEvent.writesTo, HostEvent.takesFrom]
    rw [Mealy.fed_cons, List.countP_append, List.countP_append,
      show ev :: run = [ev] ++ run from rfl, List.countP_append, List.countP_append]
    omega

/-- **When nothing is lost.** A ring buffer is given everything the programs have for it when no
stretch of the run has more firings of these programs than records taken off, beyond what there is
room for. -/
theorem submitted_of_keepsPace (r : Ring) (run : List HostEvent)
    (h : ∀ w, w <:+: run → w.countP (HostEvent.writesTo r) ≤
      w.countP (HostEvent.takesFrom r) + sizes.slots r) :
    submitted args discovery sizes r run = offeredRecords args discovery r run := by
  rw [← pushed_ringOps args discovery sizes, submitted]
  refine (BoundedQueue.accepted_eq_pushed_iff _).mpr fun w hw => ?_
  obtain ⟨pre, mid, post, rfl, rfl⟩ :=
    Mealy.exists_infix_of_infix_fed (length_ringFeed_le args discovery r) hw
  obtain ⟨hpush, hpop⟩ := countP_ringFeed args discovery r
    (Mealy.final (agentStep args discovery sizes) (.new sizes) pre) mid
  have := h mid ⟨pre, post, rfl⟩
  omega

end PgSleuth
