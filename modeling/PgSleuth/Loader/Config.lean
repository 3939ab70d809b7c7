import PgSleuth.Ebpf.ProcessFilter

/-!
# What the loader installs

The start-up half of `pgsleuth-ebpf-loader/src/main.rs`: from the command line and whatever the
Postgres extension reported to the one `FilterConfig` all five kernel programs read.

## Main results

* `resolvePidFilter_eq_discovered` — the discovered postmaster becomes the PID filter exactly when
  neither flag is given
* `probes_agree_iff` — for every configuration the loader can install, exactly when the file-syscall
  tracepoints and the `vfs_open` kprobe agree on a process
-/

namespace PgSleuth

/-- The command line, with its defaults. The paths and endpoints only start-up I/O uses are left
out. -/
structure Args where
  /-- Process name to filter for. -/
  name : String := ""
  /-- PID to filter for. -/
  pid : Option UInt32 := none
  /-- Cgroup to filter for. -/
  cgroupId : Option UInt64 := none
  /-- Kernel-encoded `dev_t`, overriding the discovered one. -/
  devT : Option UInt32 := none
  pgInstance : String := "fixture-pg"
  fsyncThresholdMs : UInt64 := 10
  fsyncFireAfter : UInt32 := 3
  intervalMs : UInt64 := 1000

/-- Result of the start-up query against the Postgres extension. -/
structure PgDiscovery where
  postmasterPid : Int32
  walDevT : Option UInt32

/-- The PID filter: an explicit PID, else nothing if there is a cgroup, else the postmaster. -/
def resolvePidFilter (explicitPid : Option UInt32) (explicitCgroupId : Option UInt64)
    (discovery : Option PgDiscovery) : Option UInt32 :=
  match explicitPid with
  | some pid => some pid
  | none =>
    if explicitCgroupId.isSome then none
    else discovery.bind fun d => if 0 ≤ d.postmasterPid then some d.postmasterPid.toUInt32 else none

/-- The device filter, zero when there is none. -/
def effectiveDevT (args : Args) (discovery : Option PgDiscovery) : UInt32 :=
  (args.devT.or (discovery.bind PgDiscovery.walDevT)).getD 0

/-- The name as the kernel compares it: at most fifteen bytes, and zeros after them. -/
def filterName (name : String) : Vector UInt8 16 :=
  Vector.ofFn fun i => (name.toUTF8.data.toList.take 15).getD i 0

/-- The configuration the loader writes into the map. -/
def filterConfig (args : Args) (discovery : Option PgDiscovery) : FilterConfig where
  pid := (resolvePidFilter args.pid args.cgroupId discovery).getD 0
  cgroupId := args.cgroupId.getD 0
  name := filterName args.name
  devT := effectiveDevT args discovery

/-- Without flags, a discovered PID that is a PID becomes the filter, unchanged. -/
theorem resolvePidFilter_eq_discovered {d : PgDiscovery} (hd : 0 < d.postmasterPid) :
    resolvePidFilter none none (some d) = some d.postmasterPid.toUInt32 := by
  have hle : 0 ≤ d.postmasterPid := Int32.le_of_lt hd
  simp [resolvePidFilter, hle]

/-- **The tracepoints filter on the PID alone, and what follows for their agreement with the
kprobe.** Whatever was installed, a file syscall of a process is reported exactly when no PID filter
is in effect or the process has that PID. So the two probes agree on a process exactly when neither
a cgroup nor a name is configured, or a PID is and the process has it or meets neither of the
others, or no PID is and the process meets one of them. -/
theorem probes_agree_iff (args : Args) (discovery : Option PgDiscovery) (proc : Process)
    {ptr : UserPtr} (hptr : ptr ≠ .null) (syscallKind : UInt8) :
    let config := filterConfig args discovery
    let traced := (captureFileSyscall (some config) proc (some ptr) true syscallKind).isSome
    let probed := (pgsleuthEbpf (some config) proc true).2.isSome
    (traced = true ↔ config.pid = 0 ∨ proc.pid = config.pid) ∧
      ((traced = true ↔ probed = true) ↔
        OnlyPid config ∨
          (config.pid ≠ 0 ∧ (proc.pid = config.pid ∨ ¬ OtherCriterion config proc)) ∨
          (config.pid = 0 ∧ OtherCriterion config proc)) := by
  intro config traced probed
  constructor
  · exact captureFileSyscall_isSome config proc hptr syscallKind
  · exact probes_agree_iff_criteria config proc hptr syscallKind

/-- A process outside the one configured cgroup. -/
def outsideCgroup : Process := { pid := 10, cgroupId := 8, comm := some Comm.zero }

/-- The bytes of `"base/pgsql_tmp/t"`. -/
def spillPath : CString :=
  ⟨[98, 97, 115, 101, 47, 112, 103, 115, 113, 108, 95, 116, 109, 112, 47, 116], by decide⟩

theorem probes_agree_iff_outsideCgroup :
    UserPtr.string spillPath ≠ .null ∧
      let config := filterConfig { cgroupId := some 7 } none
      let traced := (captureFileSyscall (some config) outsideCgroup
        (some (.string spillPath)) true 0).isSome
      let probed := (pgsleuthEbpf (some config) outsideCgroup true).2.isSome
      (traced = true ↔ config.pid = 0 ∨ outsideCgroup.pid = config.pid) ∧
        ((traced = true ↔ probed = true) ↔
          OnlyPid config ∨
            (config.pid ≠ 0 ∧
              (outsideCgroup.pid = config.pid ∨ ¬ OtherCriterion config outsideCgroup)) ∨
            (config.pid = 0 ∧ OtherCriterion config outsideCgroup)) :=
  ⟨by simp, probes_agree_iff _ _ _ (by simp) _⟩

/-- The two probes do not always agree: with only a cgroup configured, a file syscall of a process
in another cgroup is reported and the same process opening a file is not. -/
theorem not_probes_agree :
    ¬ ∀ (args : Args) (discovery : Option PgDiscovery) (proc : Process) (ptr : UserPtr),
      ptr ≠ .null → ∀ syscallKind : UInt8,
        ((captureFileSyscall (some (filterConfig args discovery)) proc (some ptr) true
            syscallKind).isSome = true ↔
          (pgsleuthEbpf (some (filterConfig args discovery)) proc true).2.isSome = true) := by
  intro h
  have hagree := h { cgroupId := some 7 } none outsideCgroup (.string spillPath) (by simp) 0
  have htraced : (captureFileSyscall (some (filterConfig { cgroupId := some 7 } none))
      outsideCgroup (some (.string spillPath)) true 0).isSome = true := by decide
  have hprobed : (pgsleuthEbpf (some (filterConfig { cgroupId := some 7 } none))
      outsideCgroup true).2.isSome = false := by decide
  rw [hagree.mp htraced] at hprobed
  exact Bool.noConfusion hprobed

end PgSleuth
