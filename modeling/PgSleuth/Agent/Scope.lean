import Mathlib
import PgSleuth.Agent.Causes
import PgSleuth.Loader.WalDevice

/-!
# What discovery scopes the agent to

At start-up the loader asks the Postgres extension for the WAL device and the postmaster. Two
layouts of a device number, a decimal text and a signed process number lie between the answers and
the configuration, and the configuration is all the kernel programs know. Here the answers are those
of one host, and the question is what the agent can say in a run on it.

## Main definitions

* `PgHost` — the WAL device and the postmaster of a host
* `InScope` — a record the filters let through

## Main results

* `scope_of_discovery` — the WAL device alone, and the postmaster alone
-/

namespace PgSleuth

/-- A host with a running Postgres. -/
structure PgHost where
  /-- The device of `pg_wal`. -/
  walMajor : UInt32
  walMinor : UInt32
  postmasterPid : Int32
  walMajor_lt : walMajor.toNat < 2 ^ 12
  walMinor_lt : walMinor.toNat < 2 ^ 20
  /-- No device has the number zero. -/
  wal_pos : 0 < walMinor.toNat + walMajor.toNat
  postmasterPid_pos : 0 < postmasterPid

namespace PgHost

variable (host : PgHost)

/-- What the extension's answers are to the loader. -/
def discovery (libcMajor libcMinor : UInt64 → UInt32) : PgDiscovery :=
  discoverViaPgExt (pgsleuthWalDevice libcMajor libcMinor (stDev host.walMajor host.walMinor))
    host.postmasterPid

/-- The WAL device, as the kernel numbers it in its tracepoint records. -/
def walDev : UInt32 := host.walMajor <<< 20 ||| host.walMinor

/-- The postmaster, as the kernel numbers it. -/
def pid : UInt32 := host.postmasterPid.toUInt32

/-- The label of findings and metric points about the WAL device. -/
def label : String := s!"dev_t={host.walDev}"

theorem walDev_ne_zero : host.walDev ≠ 0 := by
  intro hzero
  have hdev := toNat_kernelDevT host.walMajor_lt host.walMinor_lt
  have hpos := host.wal_pos
  rw [← walDev, hzero, UInt32.toNat_zero] at hdev
  omega

/-- A label names one device. -/
theorem eq_of_label_eq {host other : PgHost} (h : host.label = other.label) :
    host.walMajor = other.walMajor ∧ host.walMinor = other.walMinor := by
  have htext : toString host.walDev.toNat = toString other.walDev.toNat :=
    String.append_right_inj "dev_t=" |>.mp h
  have hdev := Nat.repr_injective htext
  rw [walDev, walDev, toNat_kernelDevT host.walMajor_lt host.walMinor_lt,
    toNat_kernelDevT other.walMajor_lt other.walMinor_lt] at hdev
  have hminor := host.walMinor_lt
  have hminor' := other.walMinor_lt
  rw [← UInt32.toNat_inj, ← UInt32.toNat_inj]
  omega

end PgHost

/-! ### What the filters let through -/

/-- The record is about a device, or a process, that the configuration does not exclude. The filter
of the `vfs_open` kprobe is on more than its record has. -/
def InScope (config : FilterConfig) : KernelRecord → Prop
  | ⟨.blockEvents, (event : BlockEvent)⟩ => passDevFilter config event.dev = true
  | ⟨.latencyEvents, (event : BlockIoLatencyEvent)⟩ => passDevFilter config event.dev = true
  | ⟨.tempFileEvents, (event : TempFileEvent)⟩ => config.pid = 0 ∨ event.pid = config.pid
  | ⟨.events, _⟩ => True

theorem inScope_of_blockRqStep {config : FilterConfig} {inflight : Inflight} {ev : BlockRqEvent}
    {rec : RingRecord} (h : (blockRqStep (some config) inflight ev).2 = some rec) :
    InScope config rec.toKernelRecord := by
  cases hkey : observedKey (some config) ev.ctx with
  | none =>
    rw [blockRqStep_of_observedKey_eq_none hkey] at h
    cases h
  | some key =>
    obtain ⟨hctx, hpass⟩ := observedKey_some.mp hkey
    cases ev with
    | issue ctx =>
      simp only [BlockRqEvent.ctx, BlockRqContext.key?, Option.bind_eq_some_iff,
        Option.map_eq_some_iff] at hctx
      obtain ⟨dev, hdev, sector, hsector, rfl⟩ := hctx
      simp only at hpass
      simp only [blockRqStep, pgsleuthBlockRqIssue, hdev, hpass, hsector, Bool.not_true,
        Bool.false_eq_true, if_false, Option.map_eq_some_iff, Option.ite_none_right_eq_some,
        Option.some.injEq] at h
      obtain ⟨event, ⟨-, rfl⟩, rfl⟩ := h
      exact hpass
    | complete ctx =>
      rw [BlockRqEvent.ctx] at hkey
      rw [blockRqStep_complete hkey] at h
      cases hissue : inflight.get key with
      | none =>
        rw [hissue] at h
        cases h
      | some issueTs =>
        rw [hissue] at h
        obtain ⟨-, hrec⟩ := Option.ite_none_right_eq_some.mp h
        obtain rfl := Option.some.inj hrec
        exact hpass

/-- Whatever a program submits is in scope. -/
theorem inScope_of_kernelStep {config : FilterConfig} {room : Ring → Bool} {inflight : Inflight}
    {ev : KernelEvent} {rec : KernelRecord}
    (h : (kernelStep (some config) room inflight ev).2 = some rec) : InScope config rec := by
  have hcall (call : FileSyscall) (proc : Process) (filename : Option UserPtr)
      (event : TempFileEvent)
      (h : FileCall.capture config ⟨call, proc, filename, room .tempFileEvents, .atSecond 0⟩ =
        some event) : InScope config ⟨.tempFileEvents, event⟩ := by
    obtain ⟨hpid, -, ptr, -, -, rfl⟩ := FileCall.capture_eq_some.mp h
    exact hpid
  cases ev with
  | vfsOpen proc =>
    obtain ⟨event, -, rfl⟩ := Option.map_eq_some_iff.mp h
    trivial
  | blockRq ev =>
    obtain ⟨rec, hrec, rfl⟩ := Option.map_eq_some_iff.mp h
    exact inScope_of_blockRqStep hrec
  | fileSyscall call proc filename =>
    cases call with
    | openat =>
      obtain ⟨event, hevent, rfl⟩ := Option.map_eq_some_iff.mp h
      exact hcall .openat proc filename event hevent
    | unlinkat =>
      obtain ⟨event, hevent, rfl⟩ := Option.map_eq_some_iff.mp h
      exact hcall .unlinkat proc filename event hevent

variable (args : Args) (discovery : Option PgDiscovery) {sizes : RingSlots}

/-- In every run, whatever is submitted is in scope. -/
theorem inScope_of_mem_submitted {r : Ring} {run : List HostEvent} {a : r.Record}
    (h : a ∈ submitted args discovery sizes r run) :
    InScope (filterConfig args discovery) ⟨r, a⟩ := by
  have hoffered := mem_offeredRecords_of_mem_submitted args discovery h
  obtain ⟨o, ho, hon⟩ := List.mem_filterMap.mp hoffered
  obtain ⟨⟨r', a'⟩, rfl, hrec⟩ := Option.bind_eq_some_iff.mp hon
  obtain ⟨pre, ev, post, -, hstep⟩ := (Mealy.mem_outputs_iff _).mp ho
  by_cases hr : r' = r
  · subst hr
    rw [KernelRecord.on_self] at hrec
    obtain rfl := Option.some.inj hrec
    exact inScope_of_kernelStep hstep
  · rw [KernelRecord.on_of_ne hr] at hrec
    cases hrec

/-! ### The host's own answers -/

section Discovered

variable {args} {libcMajor libcMinor : UInt64 → UInt32} (hlibc : SplitsDevT libcMajor libcMinor)
  (hdevT : args.devT = none) (hpid : args.pid = none) (hcgroup : args.cgroupId = none)
  (host : PgHost)

include hlibc hdevT

theorem filterConfig_devT_host :
    (filterConfig args (some (host.discovery libcMajor libcMinor))).devT = host.walDev :=
  filterConfig_devT_discovered hlibc host.walMajor_lt host.walMinor_lt hdevT host.postmasterPid

/-- Findings and metric points carry the label of the WAL device. -/
theorem devLabel_host :
    devLabel args (some (host.discovery libcMajor libcMinor)) = host.label := by
  have hdev := filterConfig_devT_host hlibc hdevT host
  rw [devLabel, PgHost.label, ← hdev]
  rfl

theorem passDevFilter_host {dev : UInt32} :
    passDevFilter (filterConfig args (some (host.discovery libcMajor libcMinor))) dev = true ↔
      dev = host.walDev := by
  simp [passDevFilter, filterConfig_devT_host hlibc hdevT host, host.walDev_ne_zero]

omit hlibc hdevT
include hpid hcgroup

theorem passPidFilter_host {pid : UInt32} :
    (filterConfig args (some (host.discovery libcMajor libcMinor))).pid = 0 ∨
        pid = (filterConfig args (some (host.discovery libcMajor libcMinor))).pid ↔
      pid = host.pid := by
  obtain ⟨hconfig, hne⟩ := @filterConfig_pid_discovered args
    (host.discovery libcMajor libcMinor) hpid hcgroup host.postmasterPid_pos
  rw [hconfig]
  exact or_iff_right hne

include hlibc hdevT

/-- **The scope of discovery.** On a host whose Postgres has the extension, started without flags of
its own, the agent speaks of that Postgres only, in every run:

* every request and every latency it takes note of is one of the WAL device, however much else the
  host does to other devices
* every spill it takes note of is one of the postmaster's own
* so every metric point has the label of the WAL device, and every finding is about that device or
  about the postmaster
* and no other device has that label. -/
theorem scope_of_discovery (run : List HostEvent) :
    let discovery := some (host.discovery libcMajor libcMinor)
    (∀ event ∈ submitted args discovery sizes .blockEvents run, event.dev = host.walDev) ∧
      (∀ event ∈ submitted args discovery sizes .latencyEvents run, event.dev = host.walDev) ∧
      (∀ event ∈ submitted args discovery sizes .tempFileEvents run, event.pid = host.pid) ∧
      (∀ point ∈ (sentOut args discovery sizes run).filterMap Effect.metric,
        point.2.1 = host.label) ∧
      (∀ f ∈ agentFindings args discovery sizes run,
        f.ruleId = "storage.wal.fsync.jitter" ∧
            f.evidence.get? "device" = some (.string host.label) ∨
          f.ruleId = "storage.temp_spill.attribution" ∧
            f.evidence.get? "pid" = some (.int host.pid.toNat)) ∧
      ∀ other : PgHost, other.label = host.label →
        other.walMajor = host.walMajor ∧ other.walMinor = host.walMinor := by
  intro discovery
  have hdev {dev : UInt32} (h : passDevFilter (filterConfig args discovery) dev = true) :
      dev = host.walDev := (passDevFilter_host hlibc hdevT host).mp h
  have hspill (event : TempFileEvent)
      (h : event ∈ submitted args discovery sizes .tempFileEvents run) : event.pid = host.pid :=
    (passPidFilter_host hpid hcgroup host).mp (inScope_of_mem_submitted args discovery h)
  refine ⟨fun event h => hdev (inScope_of_mem_submitted args discovery h),
    fun event h => hdev (inScope_of_mem_submitted args discovery h), hspill, ?_, ?_,
    fun other h => PgHost.eq_of_label_eq h⟩
  · intro point hpoint
    rw [metric_sentOut] at hpoint
    obtain ⟨event, -, rfl⟩ := List.mem_map.mp hpoint
    exact devLabel_host hlibc hdevT host
  · intro f hf
    rcases exists_input_of_mem_agentFindings args discovery hf with
      ⟨now, event, hserved, -, rfl⟩ | ⟨pre, now, post, -, hfires⟩
    · right
      have htaken := mem_taken_of_mem_served args discovery hserved
      rw [← hspill event (mem_submitted_of_mem_taken args discovery htaken)]
      exact ⟨rfl, buildTempFileFinding_pid ..⟩
    · left
      obtain ⟨-, hcounter⟩ := ruleState_final args discovery pre
      obtain ⟨-, hf⟩ := (ruleTick_fires_iff args _ now hcounter f).mp hfires
      rw [hf, devLabel_host hlibc hdevT host]
      exact ⟨rfl, buildFinding_device ..⟩

end Discovered

/-- A host with its WAL on a device of its own. -/
def nvmeHost : PgHost where
  walMajor := 259
  walMinor := 300
  postmasterPid := 100
  walMajor_lt := by decide
  walMinor_lt := by decide
  wal_pos := by decide
  postmasterPid_pos := by decide

/-- A request of the WAL device and one of another, both completed, and a spill of a backend. -/
def busyHost : List HostEvent :=
  [.kernel (.blockRq (.issue (.readable nvmeHost.walDev 100 1000))),
    .kernel (.blockRq (.issue (.readable 9 100 1200))),
    .kernel (.blockRq (.complete (.readable nvmeHost.walDev 100 1500))),
    .kernel (.blockRq (.complete (.readable 9 100 1600))),
    .kernel (.fileSyscall .openat backendSpill.proc (some (.string spillPath)))]

theorem scope_of_discovery_busyHost :
    SplitsDevT libcMajor libcMinor ∧
      (submitted {} (some (nvmeHost.discovery libcMajor libcMinor)) .aligned .latencyEvents
        busyHost).length = 1 ∧
      (∀ event ∈ submitted {} (some (nvmeHost.discovery libcMajor libcMinor)) .aligned
        .latencyEvents busyHost, event.dev = nvmeHost.walDev) ∧
      ∀ event ∈ submitted {} (some (nvmeHost.discovery libcMajor libcMinor)) .aligned
        .tempFileEvents busyHost, event.pid = nvmeHost.pid := by
  have hlibc : SplitsDevT libcMajor libcMinor := ⟨fun _ => rfl, fun _ => rfl⟩
  obtain ⟨-, hlatency, hspill, -⟩ :=
    @scope_of_discovery {} .aligned _ _ hlibc rfl rfl rfl nvmeHost busyHost
  exact ⟨hlibc, by decide, hlatency, hspill⟩

end PgSleuth
