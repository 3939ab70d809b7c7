import PgSleuth.Ebpf.Common

/-!
# The process filter, twice

The `vfs_open` kprobe and the two file-syscall tracepoints of `pgsleuth-ebpf/src/main.rs` read one
`FilterConfig` and decide separately whether the calling process is of interest. The kprobe takes
any of three criteria; the tracepoints look at the PID alone.

## Main definitions

* `nameMatches` — the kprobe's comparison loop
* `pgsleuthEbpf`, `captureFileSyscall` — the programs
* `OtherCriterion` — a criterion only the kprobe applies

## Main results

* `pgsleuthEbpf_isSome`, `captureFileSyscall_eq_some` — what each program lets through
* `probes_agree_iff_criteria` — for one configuration and one process, exactly when the two agree
-/

namespace PgSleuth

/-- The task a program fires in: PID, cgroup, and the result of `bpf_get_current_comm`. -/
structure Process where
  pid : UInt32
  cgroupId : UInt64
  comm : Option Comm
deriving DecidableEq

/-! ### The kprobe -/

/-- The byte loop of the name criterion: compare up to the first NUL of the configured name. -/
def nameMatches : List UInt8 → List UInt8 → Bool
  | n :: ns, c :: cs => if n == 0 then true else if c != n then false else nameMatches ns cs
  | _, _ => true

/-- The `vfs_open` kprobe: its return value and the record submitted, if any. -/
def pgsleuthEbpf (config : Option FilterConfig) (proc : Process) (reserve : Bool) :
    UInt32 × Option TraceEvent :=
  match config with
  | none => (1, none)
  | some config =>
    let comm := proc.comm.getD Comm.zero
    -- each criterion is tried while nothing has matched, and counts as met once it is tried
    let (matched, criteriaMet) :=
      if config.cgroupId != 0 then (proc.cgroupId == config.cgroupId, 1) else (false, 0)
    let (matched, criteriaMet) :=
      if !matched && config.pid != 0 then (proc.pid == config.pid, criteriaMet + 1)
      else (matched, criteriaMet)
    let (matched, criteriaMet) :=
      if !matched && config.name[0] != 0 then
        (nameMatches config.name.toList comm.toList, criteriaMet + 1)
      else (matched, criteriaMet)
    if criteriaMet > 0 && !matched then (1, none)
    else (0, if reserve then some { pid := proc.pid, port := 0, comm } else none)

/-- A criterion that the kprobe applies and the file-syscall tracepoints do not: the process is in
the configured cgroup, or has the configured name. -/
def OtherCriterion (config : FilterConfig) (proc : Process) : Prop :=
  (config.cgroupId ≠ 0 ∧ proc.cgroupId = config.cgroupId) ∨
    (config.name[0] ≠ 0 ∧
      nameMatches config.name.toList (proc.comm.getD Comm.zero).toList = true)

/-- Neither criterion that only the kprobe applies is configured. -/
def OnlyPid (config : FilterConfig) : Prop := config.cgroupId = 0 ∧ config.name[0] = 0

/-- Given room on the ring buffer, the kprobe reports a process exactly when no criterion is
configured or one of the configured ones holds. -/
theorem pgsleuthEbpf_isSome (config : FilterConfig) (proc : Process) :
    (pgsleuthEbpf (some config) proc true).2.isSome = true ↔
      (config.cgroupId = 0 ∧ config.pid = 0 ∧ config.name[0] = 0) ∨
        (config.pid ≠ 0 ∧ proc.pid = config.pid) ∨ OtherCriterion config proc := by
  unfold OtherCriterion
  -- the first criterion that holds decides; when none does, the count of those tried does
  by_cases hcg : config.cgroupId ≠ 0 ∧ proc.cgroupId = config.cgroupId
  · simp [pgsleuthEbpf, hcg]
  · by_cases hpid : config.pid ≠ 0 ∧ proc.pid = config.pid
    · by_cases h : config.cgroupId = 0 <;> simp_all [pgsleuthEbpf]
    · by_cases hname : config.name[0] ≠ 0 ∧
        nameMatches config.name.toList (proc.comm.getD Comm.zero).toList = true
      · by_cases h : config.cgroupId = 0 <;> by_cases h' : config.pid = 0 <;>
          simp_all [pgsleuthEbpf]
      · by_cases h : config.cgroupId = 0 <;> by_cases h' : config.pid = 0 <;>
          by_cases h'' : config.name[0] = 0 <;> simp_all [pgsleuthEbpf]

/-! ### The file-syscall tracepoints -/

/-- The bytes of a C string, up to its terminating NUL. -/
structure CString where
  bytes : List UInt8
  /-- The terminator is the first NUL. -/
  noNul : (0 : UInt8) ∉ bytes

/-- What a filename argument points to. -/
inductive UserPtr
  | null
  /-- Memory the kernel helper cannot read. -/
  | fault
  | string (s : CString)

/-- `bpf_probe_read_user_str_bytes` into the zeroed path buffer: as much of the string as leaves
room for a terminator, and nothing at all when the read faults. -/
def readUserStr : UserPtr → Vector UInt8 fileEventPathLen
  | .string s => Vector.ofFn fun i => (s.bytes.take (fileEventPathLen - 1)).getD i 0
  | _ => Vector.replicate fileEventPathLen 0

/-- The body shared by the `openat` and `unlinkat` tracepoints: the record submitted, if any.
`filename` is the result of reading the pointer out of the record. -/
def captureFileSyscall (config : Option FilterConfig) (proc : Process)
    (filename : Option UserPtr) (reserve : Bool) (syscallKind : UInt8) : Option TempFileEvent :=
  match config with
  | none => none
  | some config =>
    if config.pid != 0 && proc.pid != config.pid then none
    else
      match filename with
      | none => none
      | some .null => none
      | some ptr =>
        if reserve then
          some
            { pid := proc.pid
              syscall := syscallKind
              bytes := 0
              queryHash := 0
              comm := proc.comm.getD Comm.zero
              path := readUserStr ptr }
        else none

/-- `syscalls:sys_enter_openat`. -/
def pgsleuthSysEnterOpenat (config : Option FilterConfig) (proc : Process)
    (filename : Option UserPtr) (reserve : Bool) : Option TempFileEvent :=
  captureFileSyscall config proc filename reserve 0

/-- `syscalls:sys_enter_unlinkat`. -/
def pgsleuthSysEnterUnlinkat (config : Option FilterConfig) (proc : Process)
    (filename : Option UserPtr) (reserve : Bool) : Option TempFileEvent :=
  captureFileSyscall config proc filename reserve 1

/-- What reaches the ring buffer, and what it says. -/
theorem captureFileSyscall_eq_some {config : FilterConfig} {proc : Process}
    {filename : Option UserPtr} {reserve : Bool} {syscallKind : UInt8} {e : TempFileEvent} :
    captureFileSyscall (some config) proc filename reserve syscallKind = some e ↔
      (config.pid = 0 ∨ proc.pid = config.pid) ∧ reserve = true ∧
        ∃ ptr, filename = some ptr ∧ ptr ≠ .null ∧
          e = { pid := proc.pid
                syscall := syscallKind
                bytes := 0
                queryHash := 0
                comm := proc.comm.getD Comm.zero
                path := readUserStr ptr } := by
  by_cases hpid : config.pid != 0 && proc.pid != config.pid
  · have hcon : ¬ (config.pid = 0 ∨ proc.pid = config.pid) := by simpa using hpid
    simp [captureFileSyscall, hpid, hcon]
  · have hpass : config.pid = 0 ∨ proc.pid = config.pid := by
      simp only [Bool.and_eq_true, bne_iff_ne, not_and, not_not] at hpid
      by_cases h0 : config.pid = 0
      · exact Or.inl h0
      · exact Or.inr (hpid h0)
    rw [and_iff_right hpass]
    rcases filename with _ | _ | _ | s <;> cases reserve <;>
      simp [captureFileSyscall, hpid, eq_comm]

/-- Given a pointer to read and room on the ring buffer, the tracepoints report a process exactly
when no PID is configured or it has the configured one. -/
theorem captureFileSyscall_isSome (config : FilterConfig) (proc : Process) {ptr : UserPtr}
    (hptr : ptr ≠ .null) (syscallKind : UInt8) :
    (captureFileSyscall (some config) proc (some ptr) true syscallKind).isSome = true ↔
      config.pid = 0 ∨ proc.pid = config.pid := by
  simp [Option.isSome_iff_exists, captureFileSyscall_eq_some, hptr]

/-! ### Where the two agree -/

/-- **For one configuration and one process, exactly when the two filters agree**: only the PID is
ever configured, or a PID is configured and the process has it or meets neither other criterion,
or no PID is configured and the process meets one of the others. -/
theorem probes_agree_iff_criteria (config : FilterConfig) (proc : Process) {ptr : UserPtr}
    (hptr : ptr ≠ .null) (syscallKind : UInt8) :
    ((captureFileSyscall (some config) proc (some ptr) true syscallKind).isSome = true ↔
      (pgsleuthEbpf (some config) proc true).2.isSome = true) ↔
      OnlyPid config ∨
        (config.pid ≠ 0 ∧ (proc.pid = config.pid ∨ ¬ OtherCriterion config proc)) ∨
        (config.pid = 0 ∧ OtherCriterion config proc) := by
  have hnone : OnlyPid config → ¬ OtherCriterion config proc := by
    rintro ⟨hcg, hname⟩ (⟨h, -⟩ | ⟨h, -⟩)
    · exact h hcg
    · exact h hname
  have hidle : (config.cgroupId = 0 ∧ config.pid = 0 ∧ config.name[0] = 0) ↔
      config.pid = 0 ∧ OnlyPid config := and_left_comm
  rw [captureFileSyscall_isSome config proc hptr, pgsleuthEbpf_isSome, hidle]
  by_cases h0 : config.pid = 0
  · -- without a PID the tracepoints report everything
    simp [h0]
  · by_cases hpid : proc.pid = config.pid
    · simp [h0, hpid]
    · -- the tracepoints are silent, and so is the kprobe unless another criterion holds
      simpa [h0, hpid] using hnone

end PgSleuth
