import PgSleuth.Ebpf.Common
import PgSleuth.ForMathlib.BoundedMap
import PgSleuth.ForMathlib.Mealy
import PgSleuth.ForMathlib.Saturating

/-!
# The block-layer tracepoint pair

`pgsleuth_block_rq_issue` and `pgsleuth_block_rq_complete` from `pgsleuth-ebpf/src/main.rs`: the
first records an issue time under `(dev, sector)`, the second looks it up, deletes it and reports
the difference. Between them stands `INFLIGHT`, a hash map of 8192 slots.

## What a program sees

A tracepoint program reads fields at fixed offsets of its record, and every read may fail; here
each is an `Option`. The clock reading, the calling task and whether the ring buffer has room for
one more record are inputs too. Neither program can do anything about them.

## Main definitions

* `classifyRwbs`, `pgsleuthBlockRqIssue`, `pgsleuthBlockRqComplete` — the programs
* `blockRqStep` — the two as one machine over any interleaving of their events

## Main results

* `blockRqStep_of_observedKey_eq_none`, `blockRqStep_issue`, `blockRqStep_complete` — what one
  event does, in terms of the key the program gets to see
-/

namespace PgSleuth

/-- What one firing of a block tracepoint gives its program. Fields a program does not read are
ignored by it. -/
structure BlockRqContext where
  /-- Offset 8 of the record. -/
  dev : Option UInt32
  /-- Offset 16 of the record. -/
  sector : Option UInt64
  /-- Offset 24 of a completion record. -/
  nrSector : Option UInt32
  /-- Offset 28 of an issue record. -/
  bytes : Option UInt32
  /-- Offset 32 of a completion record. -/
  rwbs : Option (Vector UInt8 8)
  pid : UInt32
  /-- `bpf_get_current_comm()`. -/
  comm : Option Comm
  /-- `bpf_ktime_get_ns()`. -/
  ktimeNs : UInt64
  /-- Whether the ring buffer has room for this program's record. -/
  reserve : Bool
deriving DecidableEq

/-- Classify the `rwbs` flag string. -/
def classifyRwbs (rwbs : Vector UInt8 8) : UInt8 :=
  let first := rwbs[0]
  let isWrite := first == 87 || first == 70
  let isFlushOrFua := rwbs.toList.any fun c => c == 70 || c == 65
  if first == 82 then OpClass.read.asU8
  else if isWrite && isFlushOrFua then OpClass.writeFlush.asU8
  else if isWrite then OpClass.write.asU8
  else OpClass.other.asU8

/-- `SECTOR_SIZE_BYTES`. -/
def sectorSizeBytes : UInt32 := 512

/-- The `INFLIGHT` map: issue time by key, 8192 slots. -/
abbrev Inflight := BoundedMap RqKey UInt64 8192

/-- The test both programs make on the device before anything else. -/
def passDevFilter (config : FilterConfig) (dev : UInt32) : Bool :=
  config.devT == 0 || dev == config.devT

/-- The `block_rq_issue` program: the map afterwards and the record submitted, if any. -/
def pgsleuthBlockRqIssue (config : Option FilterConfig) (inflight : Inflight)
    (ctx : BlockRqContext) : Inflight × Option BlockEvent :=
  match config with
  | none => (inflight, none)
  | some config =>
    match ctx.dev with
    | none => (inflight, none)
    | some dev =>
      if !passDevFilter config dev then (inflight, none)
      else
        match ctx.sector with
        | none => (inflight, none)
        | some sector =>
          -- best effort: a refused insertion is dropped and this request has no sample
          let inflight := (inflight.insert ⟨dev, sector⟩ ctx.ktimeNs).getD inflight
          let event : BlockEvent :=
            { dev, pid := ctx.pid, bytes := ctx.bytes.getD 0, comm := ctx.comm.getD Comm.zero }
          (inflight, if ctx.reserve then some event else none)

/-- The `block_rq_complete` program: the map afterwards and the record submitted, if any. -/
def pgsleuthBlockRqComplete (config : Option FilterConfig) (inflight : Inflight)
    (ctx : BlockRqContext) : Inflight × Option BlockIoLatencyEvent :=
  match config with
  | none => (inflight, none)
  | some config =>
    match ctx.dev with
    | none => (inflight, none)
    | some dev =>
      if !passDevFilter config dev then (inflight, none)
      else
        match ctx.sector with
        | none => (inflight, none)
        | some sector =>
          match inflight.get ⟨dev, sector⟩ with
          | none => (inflight, none)
          | some issueTs =>
            let inflight := inflight.remove ⟨dev, sector⟩
            let event : BlockIoLatencyEvent :=
              { dev
                opClass := classifyRwbs (ctx.rwbs.getD (Vector.replicate 8 0))
                bytes := (ctx.nrSector.getD 0).saturatingMul sectorSizeBytes
                latencyNs := ctx.ktimeNs.saturatingSub issueTs }
            (inflight, if ctx.reserve then some event else none)

/-! ### The pair as one machine -/

/-- One firing of one of the two tracepoints. -/
inductive BlockRqEvent
  | issue (ctx : BlockRqContext)
  | complete (ctx : BlockRqContext)
deriving DecidableEq

/-- What the program that fired was given. -/
def BlockRqEvent.ctx : BlockRqEvent → BlockRqContext
  | .issue ctx => ctx
  | .complete ctx => ctx

/-- A record on one of the two ring buffers. -/
inductive RingRecord
  | block (event : BlockEvent)
  | latency (event : BlockIoLatencyEvent)
deriving DecidableEq

/-- Run the program that fired. -/
def blockRqStep (config : Option FilterConfig) (inflight : Inflight) :
    BlockRqEvent → Inflight × Option RingRecord
  | .issue ctx =>
    let (inflight, event) := pgsleuthBlockRqIssue config inflight ctx
    (inflight, event.map .block)
  | .complete ctx =>
    let (inflight, event) := pgsleuthBlockRqComplete config inflight ctx
    (inflight, event.map .latency)

/-- The key of the request a record is about, when both of its fields can be read. -/
def BlockRqContext.key? (ctx : BlockRqContext) : Option RqKey :=
  ctx.dev.bind fun dev => ctx.sector.map fun sector => ⟨dev, sector⟩

/-- The key a program acts on: the record's, when it passes the device filter. -/
def observedKey (config : Option FilterConfig) (ctx : BlockRqContext) : Option RqKey :=
  config.bind fun config => ctx.key?.filter fun key => passDevFilter config key.dev

theorem observedKey_some {config : FilterConfig} {ctx : BlockRqContext} {key : RqKey} :
    observedKey (some config) ctx = some key ↔
      ctx.key? = some key ∧ passDevFilter config key.dev = true := by
  simp [observedKey, Option.filter_eq_some_iff]

/-- A record a program cannot read, or that its filter rejects, leaves the map alone. -/
theorem programs_of_observedKey_eq_none {config : Option FilterConfig} {ctx : BlockRqContext}
    (h : observedKey config ctx = none) (inflight : Inflight) :
    pgsleuthBlockRqIssue config inflight ctx = (inflight, none) ∧
      pgsleuthBlockRqComplete config inflight ctx = (inflight, none) := by
  obtain ⟨dev, sector, nrSector, bytes, rwbs, pid, comm, ktimeNs, reserve⟩ := ctx
  cases config with
  | none => exact ⟨rfl, rfl⟩
  | some config =>
    cases dev with
    | none => exact ⟨rfl, rfl⟩
    | some dev =>
      cases hpass : passDevFilter config dev with
      | false => simp [pgsleuthBlockRqIssue, pgsleuthBlockRqComplete, hpass]
      | true =>
        cases sector with
        | none => simp [pgsleuthBlockRqIssue, pgsleuthBlockRqComplete, hpass]
        | some sector => simp [observedKey, BlockRqContext.key?, Option.filter, hpass] at h

/-- An event without an observed key changes nothing and says nothing. -/
theorem blockRqStep_of_observedKey_eq_none {config : Option FilterConfig} {ev : BlockRqEvent}
    (h : observedKey config ev.ctx = none) (inflight : Inflight) :
    blockRqStep config inflight ev = (inflight, none) := by
  obtain ⟨hissue, hcomplete⟩ := programs_of_observedKey_eq_none h inflight
  cases ev with
  | issue ctx =>
    rw [BlockRqEvent.ctx] at hissue
    simp [blockRqStep, hissue]
  | complete ctx =>
    rw [BlockRqEvent.ctx] at hcomplete
    simp [blockRqStep, hcomplete]

/-- What an issue does: it stores the clock under its key, unless the map refuses. It never puts
a record on the latency ring. -/
theorem blockRqStep_issue {config : Option FilterConfig} {ctx : BlockRqContext} {key : RqKey}
    (h : observedKey config ctx = some key) (inflight : Inflight) :
    (blockRqStep config inflight (.issue ctx)).1
      = (inflight.insert key ctx.ktimeNs).getD inflight := by
  obtain ⟨dev, sector, nrSector, bytes, rwbs, pid, comm, ktimeNs, reserve⟩ := ctx
  cases config with
  | none => simp [observedKey] at h
  | some config =>
    obtain ⟨hkey, hpass⟩ := observedKey_some.mp h
    simp only [BlockRqContext.key?, Option.bind_eq_some_iff, Option.map_eq_some_iff] at hkey
    obtain ⟨dev, rfl, sector, rfl, rfl⟩ := hkey
    simp only at hpass
    simp [blockRqStep, pgsleuthBlockRqIssue, hpass]

/-- What a completion does: when its key is in the map, it takes the entry out and reports the
time since, if the ring has room. When it is not, nothing happens. -/
theorem blockRqStep_complete {config : Option FilterConfig} {ctx : BlockRqContext} {key : RqKey}
    (h : observedKey config ctx = some key) (inflight : Inflight) :
    blockRqStep config inflight (.complete ctx) =
      match inflight.get key with
      | none => (inflight, none)
      | some issueTs =>
        (inflight.remove key,
          if ctx.reserve then
            some (.latency
              { dev := key.dev
                opClass := classifyRwbs (ctx.rwbs.getD (Vector.replicate 8 0))
                bytes := (ctx.nrSector.getD 0).saturatingMul sectorSizeBytes
                latencyNs := ctx.ktimeNs.saturatingSub issueTs })
          else none) := by
  obtain ⟨dev, sector, nrSector, bytes, rwbs, pid, comm, ktimeNs, reserve⟩ := ctx
  cases config with
  | none => simp [observedKey] at h
  | some config =>
    obtain ⟨hkey, hpass⟩ := observedKey_some.mp h
    simp only [BlockRqContext.key?, Option.bind_eq_some_iff, Option.map_eq_some_iff] at hkey
    obtain ⟨dev, rfl, sector, rfl, rfl⟩ := hkey
    simp only at hpass
    cases hget : inflight.get ⟨dev, sector⟩ with
    | none => simp [blockRqStep, pgsleuthBlockRqComplete, hpass, hget]
    | some issueTs => cases reserve <;> simp [blockRqStep, pgsleuthBlockRqComplete, hpass, hget]

end PgSleuth
