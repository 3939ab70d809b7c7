import PgSleuth.Ebpf.BlockLatency
import PgSleuth.ForMathlib.BoundedQueue
import PgSleuth.ForMathlib.Components
import PgSleuth.Loader.SpillCoverage

/-!
# The agent on its host

Five kernel programs, four ring buffers, one loader. A program runs whenever something on the host
fires it; it submits a record if its ring buffer has room and loses it otherwise. The loader takes
records off, one at a time, whenever the scheduler lets it, and evaluates its rule at every tick.
Here all of that is one machine, and a run is any list of what can happen in any order.

## What is more here than in the programs

The programs were modelled with the answer of the ring buffer as an input. Now the answer is what
the ring buffer holds, and what the loader is served is what was submitted.

The loader empties a ring buffer in an inner loop before it looks at anything else. Here it may be
interrupted after any record, so every order the code can produce is a run, and more.

## Main definitions

* `Ring`, `RingSlots` — the ring buffers, and how many records they have room for
* `kernelStep` — the program that fires
* `agentStep` — the whole

## Main results

* `component_loader`, `component_ring`, `component_blockRq` — the loader, each ring buffer and the
  block programs, as parts of the whole
-/

namespace PgSleuth

/-! ### Ring buffers -/

/-- The ring buffers between the kernel programs and the loader. -/
inductive Ring
  | events
  | blockEvents
  | latencyEvents
  | tempFileEvents
deriving DecidableEq

namespace Ring

/-- What is written to a ring buffer. -/
@[reducible] def Record : Ring → Type
  | .events => TraceEvent
  | .blockEvents => BlockEvent
  | .latencyEvents => BlockIoLatencyEvent
  | .tempFileEvents => TempFileEvent

/-- The size a ring buffer is declared with, in bytes. -/
def byteSize : Ring → ℕ
  | .events => 1 <<< 12
  | .blockEvents => 1 <<< 12
  | .latencyEvents => 1 <<< 14
  | .tempFileEvents => 1 <<< 15

/-- The size of a record, in bytes. -/
def recordSize : Ring → ℕ
  | .events => 24
  | .blockEvents => 28
  | .latencyEvents => 24
  | .tempFileEvents => 168

end Ring

/-- How many records each ring buffer has room for. That is up to the kernel, which adds a header to
each record and aligns it; all that is known is that the records fit. -/
structure RingSlots where
  slots : Ring → ℕ
  fits : ∀ r, slots r * r.recordSize ≤ r.byteSize

/-- Records with a header of eight bytes, aligned to eight bytes, in a ring buffer that is never
filled to its last byte. -/
def RingSlots.aligned : RingSlots where
  slots r := (r.byteSize - 1) / (8 * ((r.recordSize + 15) / 8))
  fits r := by cases r <;> decide

/-- A record and the ring buffer it is for. -/
abbrev KernelRecord := Σ r : Ring, r.Record

/-- The record, if it is for `r`. -/
def KernelRecord.on (r : Ring) (rec : KernelRecord) : Option r.Record :=
  if h : rec.1 = r then some (h ▸ rec.2) else none

@[simp] theorem KernelRecord.on_self (r : Ring) (a : r.Record) :
    KernelRecord.on r ⟨r, a⟩ = some a := by
  simp [KernelRecord.on]

theorem KernelRecord.on_of_ne {r r' : Ring} (h : r' ≠ r) (a : r'.Record) :
    KernelRecord.on r ⟨r', a⟩ = none := by
  simp [KernelRecord.on, h]

/-! ### The kernel's side -/

/-- The same firing, with the answer of the ring buffer the program writes to. -/
def BlockRqEvent.reserving (room : Ring → Bool) : BlockRqEvent → BlockRqEvent
  | .issue ctx => .issue { ctx with reserve := room .blockEvents }
  | .complete ctx => .complete { ctx with reserve := room .latencyEvents }

/-- The ring buffer of a record of the block programs. -/
def RingRecord.toKernelRecord : RingRecord → KernelRecord
  | .block event => ⟨.blockEvents, event⟩
  | .latency event => ⟨.latencyEvents, event⟩

/-- What fires a kernel program. -/
inductive KernelEvent
  | vfsOpen (proc : Process)
  | blockRq (ev : BlockRqEvent)
  | fileSyscall (call : FileSyscall) (proc : Process) (filename : Option UserPtr)

/-- The program that fires, on ring buffers that have room as `room` says. -/
def kernelStep (config : Option FilterConfig) (room : Ring → Bool) (inflight : Inflight) :
    KernelEvent → Inflight × Option KernelRecord
  | .vfsOpen proc =>
    (inflight, (pgsleuthEbpf config proc (room .events)).2.map fun e => ⟨.events, e⟩)
  | .blockRq ev =>
    let next := blockRqStep config inflight (ev.reserving room)
    (next.1, next.2.map RingRecord.toKernelRecord)
  | .fileSyscall .openat proc filename =>
    (inflight, (pgsleuthSysEnterOpenat config proc filename (room .tempFileEvents)).map
      fun e => ⟨.tempFileEvents, e⟩)
  | .fileSyscall .unlinkat proc filename =>
    (inflight, (pgsleuthSysEnterUnlinkat config proc filename (room .tempFileEvents)).map
      fun e => ⟨.tempFileEvents, e⟩)

/-- The record a program would submit if there were room everywhere. -/
def offered (config : Option FilterConfig) (inflight : Inflight) (ev : KernelEvent) :
    Option KernelRecord :=
  (kernelStep config (fun _ => true) inflight ev).2

/-! ### The loader's side -/

/-- What the loader is served when it takes a record off a ring buffer. -/
def LoaderInput.ofRecord (now : DateTime) : KernelRecord → LoaderInput
  | ⟨.events, event⟩ => .traceEvent event
  | ⟨.blockEvents, event⟩ => .blockEvent event
  | ⟨.latencyEvents, event⟩ => .latencyEvent event
  | ⟨.tempFileEvents, event⟩ => .tempFileEvent now event

/-! ### The whole -/

/-- The ring buffers and what is in them. -/
abbrev Rings (sizes : RingSlots) := (r : Ring) → BoundedQueue r.Record (sizes.slots r)

/-- Everything that lasts from one moment to the next. -/
structure AgentState (sizes : RingSlots) where
  inflight : Inflight
  rings : Rings sizes
  loader : LoaderState

/-- The state after start-up. -/
def AgentState.new (sizes : RingSlots) : AgentState sizes :=
  ⟨BoundedMap.empty, fun _ => BoundedQueue.empty, LoaderState.new⟩

/-- What can happen next: a program fires, or the loader takes a record off, or the rule ticks. -/
inductive HostEvent
  | kernel (ev : KernelEvent)
  | take (r : Ring) (now : DateTime)
  | tick (now : DateTime)

variable (args : Args) (discovery : Option PgDiscovery) {sizes : RingSlots}

/-- Put a record on its ring buffer. -/
def Rings.submit (rings : Rings sizes) : Option KernelRecord → Rings sizes
  | none => rings
  | some ⟨r, a⟩ => Function.update rings r ((rings r).push a)

/-- Which ring buffers have room. -/
def Rings.room (rings : Rings sizes) (r : Ring) : Bool := (rings r).hasRoom

variable (sizes) in
/-- The next thing that happens. The programs run with the configuration the loader has installed
before it attached them. -/
def agentStep (s : AgentState sizes) : HostEvent → AgentState sizes × List Effect
  | .kernel ev =>
    let next := kernelStep (some (filterConfig args discovery)) (Rings.room s.rings) s.inflight ev
    ({ s with inflight := next.1, rings := Rings.submit s.rings next.2 }, [])
  | .take r now =>
    match (s.rings r).items.head? with
    | none => (s, [])
    | some a =>
      let next := loaderStep args discovery s.loader (.ofRecord now ⟨r, a⟩)
      ({ s with rings := Function.update s.rings r (s.rings r).pop, loader := next.1 }, next.2)
  | .tick now =>
    let next := loaderStep args discovery s.loader (.tick now)
    ({ s with loader := next.1 }, next.2)

/-! ### A full ring buffer costs the record and nothing else -/

theorem pgsleuthBlockRqIssue_reserve (config : Option FilterConfig) (inflight : Inflight)
    (ctx : BlockRqContext) (room : Bool) :
    pgsleuthBlockRqIssue config inflight { ctx with reserve := room } =
      ((pgsleuthBlockRqIssue config inflight { ctx with reserve := true }).1,
        (pgsleuthBlockRqIssue config inflight { ctx with reserve := true }).2.filter
          fun _ => room) := by
  simp only [pgsleuthBlockRqIssue]
  rcases config with _ | config
  · rfl
  · rcases ctx.dev with _ | dev
    · rfl
    · cases h : passDevFilter config dev <;> rcases ctx.sector with _ | sector <;>
        cases room <;> simp [h, Option.filter_some]

theorem pgsleuthBlockRqComplete_reserve (config : Option FilterConfig) (inflight : Inflight)
    (ctx : BlockRqContext) (room : Bool) :
    pgsleuthBlockRqComplete config inflight { ctx with reserve := room } =
      ((pgsleuthBlockRqComplete config inflight { ctx with reserve := true }).1,
        (pgsleuthBlockRqComplete config inflight { ctx with reserve := true }).2.filter
          fun _ => room) := by
  simp only [pgsleuthBlockRqComplete]
  rcases config with _ | config
  · rfl
  · rcases ctx.dev with _ | dev
    · rfl
    · rcases ctx.sector with _ | sector
      · cases h : passDevFilter config dev <;> simp [h]
      · cases hget : inflight.get ⟨dev, sector⟩ <;> cases h : passDevFilter config dev <;>
          cases room <;> simp [h, hget, Option.filter_some]

theorem pgsleuthEbpf_reserve (config : Option FilterConfig) (proc : Process) (room : Bool) :
    (pgsleuthEbpf config proc room).2 = (pgsleuthEbpf config proc true).2.filter fun _ => room := by
  rcases config with _ | config
  · rfl
  · simp only [pgsleuthEbpf, apply_ite Prod.snd]
    generalize (_ && _ : Bool) = rejected
    cases rejected <;> cases room <;> simp [Option.filter_some]

theorem captureFileSyscall_reserve (config : Option FilterConfig) (proc : Process)
    (filename : Option UserPtr) (room : Bool) (syscallKind : UInt8) :
    captureFileSyscall config proc filename room syscallKind =
      (captureFileSyscall config proc filename true syscallKind).filter fun _ => room := by
  rcases config with _ | config
  · rfl
  · simp only [captureFileSyscall]
    split
    · rfl
    · rcases filename with _ | _ | _ | s <;> cases room <;> rfl

/-- **A full ring buffer costs the record and nothing else**: the map is the same as if there were
room. -/
theorem kernelStep_room (config : Option FilterConfig) (room : Ring → Bool) (inflight : Inflight)
    (ev : KernelEvent) :
    (kernelStep config room inflight ev).1 = (kernelStep config (fun _ => true) inflight ev).1 ∧
      (kernelStep config room inflight ev).2 =
        (offered config inflight ev).filter fun rec => room rec.1 := by
  have hmap {r : Ring} (o : Option r.Record) :
      (o.filter fun _ => room r).map (fun e => (⟨r, e⟩ : KernelRecord)) =
        (o.map fun e => (⟨r, e⟩ : KernelRecord)).filter fun rec => room rec.1 := by
    cases o <;> cases h : room r <;> simp [Option.filter, h]
  cases ev with
  | vfsOpen proc =>
    refine ⟨rfl, ?_⟩
    simp only [kernelStep, offered]
    rw [pgsleuthEbpf_reserve, hmap]
  | blockRq ev =>
    cases ev with
    | issue ctx =>
      simp only [kernelStep, offered, blockRqStep, BlockRqEvent.reserving, Option.map_map]
      rw [pgsleuthBlockRqIssue_reserve]
      exact ⟨rfl, hmap (r := .blockEvents) _⟩
    | complete ctx =>
      simp only [kernelStep, offered, blockRqStep, BlockRqEvent.reserving, Option.map_map]
      rw [pgsleuthBlockRqComplete_reserve]
      exact ⟨rfl, hmap (r := .latencyEvents) _⟩
  | fileSyscall call proc filename =>
    cases call with
    | openat =>
      refine ⟨rfl, ?_⟩
      simp only [kernelStep, offered, pgsleuthSysEnterOpenat]
      rw [captureFileSyscall_reserve, hmap]
    | unlinkat =>
      refine ⟨rfl, ?_⟩
      simp only [kernelStep, offered, pgsleuthSysEnterUnlinkat]
      rw [captureFileSyscall_reserve, hmap]

/-! ### The parts -/

/-- What a moment feeds to the loader. -/
def loaderFeed (s : AgentState sizes) : HostEvent → List LoaderInput
  | .kernel _ => []
  | .take r now => ((s.rings r).items.head?.map fun a => .ofRecord now ⟨r, a⟩).toList
  | .tick now => [.tick now]

/-- What a moment does to the ring buffer `r`. -/
def ringFeed (r : Ring) (s : AgentState sizes) : HostEvent → List (BoundedQueue.Op r.Record)
  | .kernel ev =>
    (((offered (some (filterConfig args discovery)) s.inflight ev).bind
      (KernelRecord.on r)).map BoundedQueue.Op.push).toList
  | .take r' _ => if r' = r then [.pop] else []
  | .tick _ => []

/-- What a moment feeds to the block programs. -/
def blockRqFeed (s : AgentState sizes) : HostEvent → List BlockRqEvent
  | .kernel (.blockRq ev) => [ev.reserving (Rings.room s.rings)]
  | _ => []

variable (sizes) in
/-- The loader, as a part of the whole. -/
theorem component_loader :
    Mealy.Component (agentStep args discovery sizes) (loaderStep args discovery)
      AgentState.loader loaderFeed := by
  intro s ev
  cases ev with
  | kernel ev => rfl
  | take r now => cases h : (s.rings r).items.head? <;> simp [agentStep, loaderFeed, h]
  | tick now => rfl

/-- What a moment sends out is what the loader does. -/
theorem effects_agentStep (s : AgentState sizes) (ev : HostEvent) :
    (agentStep args discovery sizes s ev).2 =
      (Mealy.outputs (loaderStep args discovery) s.loader (loaderFeed s ev)).flatten := by
  cases ev with
  | kernel ev => rfl
  | take r now => cases h : (s.rings r).items.head? <;> simp [agentStep, loaderFeed, h]
  | tick now => simp [agentStep, loaderFeed]

/-- Submitting a record that found room is a push, whether there was room or not. -/
theorem submit_filter_room (rings : Rings sizes) (rec : Option KernelRecord) (r : Ring) :
    Rings.submit rings (rec.filter fun rec => Rings.room rings rec.1) r =
      Mealy.final BoundedQueue.step (rings r)
        ((rec.bind (KernelRecord.on r)).map BoundedQueue.Op.push).toList := by
  rcases rec with _ | ⟨r', a⟩
  · rfl
  · by_cases hr : r' = r
    · subst hr
      cases hroom : (rings r').hasRoom with
      | true => simp [Option.filter_some, Rings.room, hroom, Rings.submit, BoundedQueue.step]
      | false =>
        simp [Option.filter_some, Rings.room, hroom, Rings.submit, BoundedQueue.step,
          BoundedQueue.push_of_hasRoom_eq_false hroom]
    · cases hroom : (rings r').hasRoom <;>
        simp [Option.filter_some, Rings.room, hroom, Rings.submit, KernelRecord.on_of_ne hr,
          Function.update_of_ne (Ne.symm hr)]

variable (sizes) in
/-- A ring buffer, as a part of the whole. -/
theorem component_ring (r : Ring) :
    Mealy.Component (agentStep args discovery sizes) BoundedQueue.step
      (fun s => s.rings r) (ringFeed args discovery r) := by
  intro s ev
  cases ev with
  | kernel ev =>
    simp only [agentStep, (kernelStep_room ..).2]
    exact submit_filter_room ..
  | take r' now =>
    by_cases hr : r' = r
    · subst hr
      cases h : (s.rings r').items with
      | nil =>
        simp [agentStep, ringFeed, h, BoundedQueue.step, BoundedQueue.pop_of_items_eq_nil h]
      | cons a as => simp [agentStep, ringFeed, h, BoundedQueue.step]
    · cases h : (s.rings r').items.head? <;>
        simp [agentStep, ringFeed, h, hr, Function.update_of_ne (Ne.symm hr)]
  | tick now => rfl

theorem rings_agentStep (r : Ring) (s : AgentState sizes) (ev : HostEvent) :
    (agentStep args discovery sizes s ev).1.rings r =
      Mealy.final BoundedQueue.step (s.rings r) (ringFeed args discovery r s ev) :=
  component_ring args discovery sizes r s ev

variable (sizes) in
/-- The block programs, as a part of the whole. -/
theorem component_blockRq :
    Mealy.Component (agentStep args discovery sizes)
      (blockRqStep (some (filterConfig args discovery))) AgentState.inflight blockRqFeed := by
  intro s ev
  cases ev with
  | kernel ev =>
    cases ev with
    | vfsOpen proc => rfl
    | blockRq ev => rfl
    | fileSyscall call proc filename => cases call <;> rfl
  | take r now => cases h : (s.rings r).items.head? <;> simp [agentStep, blockRqFeed, h]
  | tick now => rfl

end PgSleuth
