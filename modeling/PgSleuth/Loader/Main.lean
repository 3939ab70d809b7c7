import PgSleuth.Loader.FsyncRule
import PgSleuth.Loader.TempFile

/-!
# The loader's event loop

The `select!` loop of `pgsleuth-ebpf-loader/src/main.rs`. Which of the ring buffers or the tick is
served next is up to the scheduler, so a run is a list of inputs in any order, and everything proved
about runs holds for every interleaving. Two of the four ring buffers are only logged; they are here
because they are served by the same loop.

## Main definitions

* `loaderStep` — one input served
* `LoaderState.new` — the state the loop starts in
-/

namespace PgSleuth

/-- One thing the loop is woken up for. The clock reading is taken where the code takes one. -/
inductive LoaderInput
  | traceEvent (event : TraceEvent)
  | blockEvent (event : BlockEvent)
  | tempFileEvent (now : DateTime) (event : TempFileEvent)
  | latencyEvent (event : BlockIoLatencyEvent)
  | tick (now : DateTime)

/-- What the loader sends out. -/
inductive Effect
  /-- A log record. -/
  | finding (f : Finding)
  /-- `record_wal_io_latency`. -/
  | walIoLatency (latencyNs : UInt64) (device opClass : String)

/-- The variables of the loop. -/
structure LoaderState where
  ruleState : RuleState
  seenSpills : SeenSpills

/-- The state the loop starts in. -/
def LoaderState.new : LoaderState := ⟨.new, ∅⟩

/-- The label every finding and metric of the fsync-jitter rule carries. -/
def devLabel (args : Args) (discovery : Option PgDiscovery) : String :=
  s!"dev_t={effectiveDevT args discovery}"

/-- One input served. -/
def loaderStep (args : Args) (discovery : Option PgDiscovery) (s : LoaderState) :
    LoaderInput → LoaderState × List Effect
  | .traceEvent _ => (s, [])
  | .blockEvent _ => (s, [])
  | .tempFileEvent now event =>
    let next := tempFileEvent args now s.seenSpills event
    ({ s with seenSpills := next.1 }, (next.2.map Effect.finding).toList)
  | .latencyEvent event =>
    ({ s with ruleState := s.ruleState.push event },
      [.walIoLatency event.latencyNs (devLabel args discovery) (opClassStr event.opClass)])
  | .tick now =>
    let next := ruleTick args (devLabel args discovery) now s.ruleState
    ({ s with ruleState := next.1 }, (next.2.map Effect.finding).toList)

/-! ### The inputs of the fsync-jitter rule -/

namespace LoaderInput

/-- A tick of the rule. -/
def isTick : LoaderInput → Bool
  | .tick _ => true
  | _ => false

/-- The sample an input contributes to the rule: the latency of a write or a flush. -/
def writeFlushSample : LoaderInput → Option UInt64
  | .latencyEvent event =>
    if event.opClass = OpClass.write.asU8 ∨ event.opClass = OpClass.writeFlush.asU8 then
      some event.latencyNs
    else none
  | _ => none

/-- Anything but the latency of a read or of another operation. -/
def isNotReadOrOther : LoaderInput → Bool
  | .latencyEvent event =>
    event.opClass = OpClass.write.asU8 ∨ event.opClass = OpClass.writeFlush.asU8
  | _ => true

theorem eq_tick_of_isTick {i : LoaderInput} (h : i.isTick = true) : ∃ now, i = .tick now := by
  cases i with
  | tick now => exact ⟨now, rfl⟩
  | _ => exact Bool.noConfusion h

theorem writeFlushSample_of_isTick {i : LoaderInput} (h : i.isTick = true) :
    i.writeFlushSample = none := by
  obtain ⟨now, rfl⟩ := eq_tick_of_isTick h
  rfl

end LoaderInput

variable (args : Args) (discovery : Option PgDiscovery)

/-- Between ticks, an input adds its sample to the batch and leaves the counter alone. -/
theorem ruleState_loaderStep (s : LoaderState) {i : LoaderInput} (hi : i.isTick = false) :
    (loaderStep args discovery s i).1.ruleState =
      ⟨s.ruleState.writeFlushSamplesNs ++ i.writeFlushSample.toList, s.ruleState.counter⟩ := by
  cases i with
  | tick now => exact Bool.noConfusion hi
  | latencyEvent event =>
    by_cases h : event.opClass = OpClass.write.asU8 ∨ event.opClass = OpClass.writeFlush.asU8
    · simp [loaderStep, RuleState.push, LoaderInput.writeFlushSample, h]
    · simp [loaderStep, RuleState.push, LoaderInput.writeFlushSample, h]
  | traceEvent event => simp [loaderStep, LoaderInput.writeFlushSample]
  | blockEvent event => simp [loaderStep, LoaderInput.writeFlushSample]
  | tempFileEvent now event => simp [loaderStep, LoaderInput.writeFlushSample]

/-- The latency of a read or of another operation leaves the whole state alone. -/
theorem loaderStep_of_readOrOther (s : LoaderState) {i : LoaderInput}
    (hi : i.isNotReadOrOther = false) : (loaderStep args discovery s i).1 = s := by
  cases i with
  | latencyEvent event =>
    have h : ¬ (event.opClass = OpClass.write.asU8 ∨ event.opClass = OpClass.writeFlush.asU8) := by
      simpa [LoaderInput.isNotReadOrOther] using hi
    simp [loaderStep, RuleState.push, h]
  | _ => exact Bool.noConfusion hi

end PgSleuth
