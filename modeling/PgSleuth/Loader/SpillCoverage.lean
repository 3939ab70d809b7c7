import Mathlib.Logic.Relation
import PgSleuth.ForMathlib.Mealy
import PgSleuth.Loader.Main

/-!
# What the temp-spill alarm covers

The whole path of a spill: a process opens or unlinks a file, the kernel program filters on the PID
the loader chose, the loader filters on the path and reports each process and text once. The
promise is about the postmaster and everything forked from it; the filter is one PID, and backends
have their own.

## Main definitions

* `spillStep` — one call, through the kernel program and the loader
* `Spills` — the calls the promise is about
* `SpillsCovered` — the promise, for one run
* `OnlyPostmasterSpills` — a condition on the calls of a run

## Main results

* `mem_seenSpills_final` — what the loader remembers after any run
* `spillsCovered_iff` — the promise is kept in a run exactly when the condition holds
-/

namespace PgSleuth

/-- The two traced syscalls. -/
inductive FileSyscall
  | openat
  | unlinkat

/-- One traced call: who makes it, what its filename argument is, whether the ring buffer has room,
and the loader's clock when it takes the event off. -/
structure FileCall where
  syscall : FileSyscall
  proc : Process
  filename : Option UserPtr
  reserve : Bool
  now : DateTime

/-- The event a call puts on the ring buffer. -/
def FileCall.capture (config : FilterConfig) (c : FileCall) : Option TempFileEvent :=
  match c.syscall with
  | .openat => pgsleuthSysEnterOpenat (some config) c.proc c.filename c.reserve
  | .unlinkat => pgsleuthSysEnterUnlinkat (some config) c.proc c.filename c.reserve

/-- One call, through the kernel program and the loader: the event delivered, and what the loader
sends out. -/
def spillStep (args : Args) (discovery : Option PgDiscovery) (s : LoaderState) (c : FileCall) :
    LoaderState × Option TempFileEvent × List Effect :=
  match c.capture (filterConfig args discovery) with
  | none => (s, none, [])
  | some event =>
    let next := loaderStep args discovery s (.tempFileEvent c.now event)
    (next.1, some event, next.2)

/-- The process `pid` is `root` or descends from it. -/
def InTree (parent : UInt32 → Option UInt32) (root pid : UInt32) : Prop :=
  Relation.ReflTransGen (fun p q => parent p = some q) pid root

/-- A call the alarm is meant to catch: a process of the tree names a temporary file by a path that
can be read and that fits, and there is room on the ring buffer. -/
structure Spills (parent : UInt32 → Option UInt32) (root : UInt32) (c : FileCall) (s : CString) :
    Prop where
  inTree : InTree parent root c.proc.pid
  filename : c.filename = some (.string s)
  length_le : s.bytes.length ≤ fileEventPathLen - 1
  marker : pgsqlTmpBytes <:+: s.bytes
  reserve : c.reserve = true

/-- **The promise, for one run.** Every such call is delivered, and the first one of each process
and path leads to a finding about that process. -/
def SpillsCovered (args : Args) (discovery : Option PgDiscovery)
    (parent : UInt32 → Option UInt32) (root : UInt32) (calls : List FileCall) : Prop :=
  ∀ pre c post s, calls = pre ++ c :: post → Spills parent root c s →
    let out := (spillStep args discovery (Mealy.final (spillStep args discovery) .new pre) c).2
    (∃ e, out.1 = some e ∧ e.pid = c.proc.pid ∧ e.path = readUserStr (.string s)) ∧
      ((∀ c' ∈ pre, c'.proc.pid = c.proc.pid → ¬ Spills parent root c' s) →
        ∃ f, Effect.finding f ∈ out.2 ∧ f.evidence.get? "pid" = some (.int c.proc.pid.toNat))

/-- Every such call is made by the root of the tree itself, and none comes after a call whose path
reads the same once it is cut off and decoded, unless its own path had been used before. -/
def OnlyPostmasterSpills (parent : UInt32 → Option UInt32) (root : UInt32)
    (calls : List FileCall) : Prop :=
  ∀ pre c post s, calls = pre ++ c :: post → Spills parent root c s →
    c.proc.pid = root ∧
      ∀ c' ∈ pre, ∀ s', c'.proc.pid = root → c'.reserve = true →
        c'.filename = some (.string s') →
        Utf8.fromUtf8Lossy (s'.bytes.take (fileEventPathLen - 1)) = Utf8.fromUtf8Lossy s.bytes →
          ∃ c'' ∈ pre, c''.proc.pid = root ∧ Spills parent root c'' s

/-- What a call puts on the ring buffer, and when it does. -/
theorem FileCall.capture_eq_some {config : FilterConfig} {c : FileCall} {e : TempFileEvent} :
    c.capture config = some e ↔
      (config.pid = 0 ∨ c.proc.pid = config.pid) ∧ c.reserve = true ∧
        ∃ ptr, c.filename = some ptr ∧ ptr ≠ .null ∧
          e = { pid := c.proc.pid
                syscall := match c.syscall with | .openat => 0 | .unlinkat => 1
                bytes := 0
                queryHash := 0
                comm := c.proc.comm.getD Comm.zero
                path := readUserStr ptr } := by
  cases hcall : c.syscall <;>
    simp only [FileCall.capture, hcall, pgsleuthSysEnterOpenat, pgsleuthSysEnterUnlinkat,
      captureFileSyscall_eq_some]

variable (args : Args) (discovery : Option PgDiscovery)

/-! ### The loader's memory -/

theorem mem_seenSpills_spillStep (s : LoaderState) (c : FileCall) (key : UInt32 × String) :
    key ∈ (spillStep args discovery s c).1.seenSpills ↔
      key ∈ s.seenSpills ∨ ∃ e, c.capture (filterConfig args discovery) = some e ∧
        namesTempFile (pathFromEvent e.path) = true ∧ key = spillKey e := by
  cases h : c.capture (filterConfig args discovery) with
  | none => simp [spillStep, h]
  | some e => simp [spillStep, h, loaderStep, mem_tempFileEvent]

/-- **What the loader remembers after any run**: the process and text of every event delivered so
far that named a temporary file. -/
theorem mem_seenSpills_final (calls : List FileCall) (key : UInt32 × String) :
    key ∈ (Mealy.final (spillStep args discovery) .new calls).seenSpills ↔
      ∃ c ∈ calls, ∃ e, c.capture (filterConfig args discovery) = some e ∧
        namesTempFile (pathFromEvent e.path) = true ∧ key = spillKey e := by
  refine Mealy.final_induction (P := fun calls (s : LoaderState) => key ∈ s.seenSpills ↔
    ∃ c ∈ calls, ∃ e, c.capture (filterConfig args discovery) = some e ∧
      namesTempFile (pathFromEvent e.path) = true ∧ key = spillKey e) _ ?_ ?_ calls
  · simp [LoaderState.new]
  · intro calls c ih
    rw [mem_seenSpills_spillStep, ih]
    simp [or_and_right, exists_or]

/-- A call leads to a finding exactly when its event names a temporary file that is new. -/
theorem finding_mem_spillStep (s : LoaderState) (c : FileCall) (f : Finding) :
    Effect.finding f ∈ (spillStep args discovery s c).2.2 ↔
      ∃ e, c.capture (filterConfig args discovery) = some e ∧
        (tempFileEvent args c.now s.seenSpills e).2 = some f := by
  cases h : c.capture (filterConfig args discovery) with
  | none => simp [spillStep, h]
  | some e => simp [spillStep, h, loaderStep]

theorem delivered_spillStep (s : LoaderState) (c : FileCall) :
    (spillStep args discovery s c).2.1 = c.capture (filterConfig args discovery) := by
  cases h : c.capture (filterConfig args discovery) <;> simp [spillStep, h]

/-- The text the loader works with, for a path that fits. -/
theorem Spills.text {parent : UInt32 → Option UInt32} {root : UInt32} {c : FileCall} {s : CString}
    (h : Spills parent root c s) :
    pathFromEvent (readUserStr (.string s)) = Utf8.fromUtf8Lossy s.bytes := by
  rw [pathFromEvent_readUserStr, List.take_of_length_le h.length_le]

/-! ### The filter the loader installs -/

section Postmaster

variable {args} {d : PgDiscovery} (hpid : args.pid = none) (hcgroup : args.cgroupId = none)
  (hd : 0 < d.postmasterPid)

include hpid hcgroup hd

/-- Without flags, the installed PID is the postmaster's, and it is a filter. -/
theorem filterConfig_pid_discovered :
    (filterConfig args (some d)).pid = d.postmasterPid.toUInt32 ∧
      d.postmasterPid.toUInt32 ≠ 0 := by
  constructor
  · simp [filterConfig, hpid, hcgroup, resolvePidFilter_eq_discovered hd]
  · intro hzero
    have hpostmaster : d.postmasterPid = 0 := by simpa using congrArg UInt32.toInt32 hzero
    rw [hpostmaster] at hd
    exact absurd hd (by decide)

/-- A call puts an event on the ring buffer exactly when the postmaster itself makes it, with a
filename and with room. -/
theorem capture_eq_some_iff {c : FileCall} {e : TempFileEvent} :
    c.capture (filterConfig args (some d)) = some e ↔
      c.proc.pid = d.postmasterPid.toUInt32 ∧ c.reserve = true ∧
        ∃ ptr, c.filename = some ptr ∧ ptr ≠ .null ∧
          e = { pid := c.proc.pid
                syscall := match c.syscall with | .openat => 0 | .unlinkat => 1
                bytes := 0
                queryHash := 0
                comm := c.proc.comm.getD Comm.zero
                path := readUserStr ptr } := by
  obtain ⟨hconfig, hne⟩ := filterConfig_pid_discovered hpid hcgroup hd
  rw [FileCall.capture_eq_some, hconfig, or_iff_right hne]

/-- A call of the postmaster with a readable path is delivered. -/
theorem exists_capture_of_string {c : FileCall} {s : CString}
    (hroot : c.proc.pid = d.postmasterPid.toUInt32) (hreserve : c.reserve = true)
    (hfilename : c.filename = some (.string s)) :
    ∃ e, c.capture (filterConfig args (some d)) = some e ∧ e.pid = c.proc.pid ∧
      e.path = readUserStr (.string s) :=
  ⟨_, (capture_eq_some_iff hpid hcgroup hd).mpr ⟨hroot, hreserve, _, hfilename, by simp, rfl⟩,
    rfl, rfl⟩

/-- An event that names a temporary file comes from a call of the postmaster with a readable
path. -/
theorem exists_string_of_capture {c : FileCall} {e : TempFileEvent}
    (he : c.capture (filterConfig args (some d)) = some e)
    (hname : namesTempFile (pathFromEvent e.path) = true) :
    c.proc.pid = d.postmasterPid.toUInt32 ∧ c.reserve = true ∧
      ∃ s, c.filename = some (.string s) ∧ e.pid = c.proc.pid ∧
        e.path = readUserStr (.string s) := by
  obtain ⟨hroot, hreserve, ptr, hfilename, hptr, rfl⟩ :=
    (capture_eq_some_iff hpid hcgroup hd).mp he
  refine ⟨hroot, hreserve, ?_⟩
  cases ptr with
  | null => exact absurd rfl hptr
  | fault =>
    rw [pathFromEvent_readUserStr_fault] at hname
    exact absurd hname (by decide)
  | string s => exact ⟨s, hfilename, rfl, rfl⟩

/-- **Exactly when the promise is kept in a run**: when the postmaster itself makes every call the
promise is about, and no two of their paths get confused. A backend is forked from the postmaster
and has a PID of its own, so a run with a spill by a backend always breaks it. -/
theorem spillsCovered_iff (parent : UInt32 → Option UInt32) (calls : List FileCall) :
    SpillsCovered args (some d) parent d.postmasterPid.toUInt32 calls ↔
      OnlyPostmasterSpills parent d.postmasterPid.toUInt32 calls := by
  constructor
  · intro hcov pre c post s heq hsp
    obtain ⟨⟨e, he, hepid, hepath⟩, hfirst⟩ := hcov pre c post s heq hsp
    rw [delivered_spillStep] at he
    have hroot := ((capture_eq_some_iff hpid hcgroup hd).mp he).1
    refine ⟨hroot, ?_⟩
    intro c' hc' s' hroot' hreserve' hfilename' htext
    by_contra hno
    -- without an earlier call of the same path there is a finding, yet the text is not new
    obtain ⟨f, hf, -⟩ := hfirst fun c'' hc'' hpid'' hsp'' =>
      hno ⟨c'', hc'', hpid''.trans hroot, hsp''⟩
    obtain ⟨e₁, he₁, hsome⟩ := (finding_mem_spillStep ..).mp hf
    obtain rfl : e = e₁ := Option.some.inj (he.symm.trans he₁)
    obtain ⟨hname, hnew, -⟩ := (tempFileEvent_eq_some ..).mp hsome
    obtain ⟨e', he', hepid', hepath'⟩ :=
      exists_capture_of_string hpid hcgroup hd hroot' hreserve' hfilename'
    have hsame : pathFromEvent e'.path = pathFromEvent e.path := by
      rw [hepath', hepath, pathFromEvent_readUserStr, hsp.text, htext]
    refine hnew ((mem_seenSpills_final ..).mpr ⟨c', hc', e', he', hsame ▸ hname, ?_⟩)
    rw [spillKey, spillKey, hsame, hepid', hepid, hroot', hroot]
  · intro hcond pre c post s heq hsp
    obtain ⟨hroot, hconfused⟩ := hcond pre c post s heq hsp
    obtain ⟨e, he, hepid, hepath⟩ :=
      exists_capture_of_string hpid hcgroup hd hroot hsp.reserve hsp.filename
    refine ⟨⟨e, (delivered_spillStep ..).trans he, hepid, hepath⟩, ?_⟩
    intro hno
    have hname : namesTempFile (pathFromEvent e.path) = true := by
      rw [hepath, hsp.text]
      exact pgsqlTmp_infix_fromUtf8Lossy hsp.marker
    refine ⟨_, (finding_mem_spillStep ..).mpr
      ⟨e, he, (tempFileEvent_eq_some ..).mpr ⟨hname, fun hseen => ?_, rfl⟩⟩, ?_⟩
    · -- whatever put the key there would be an earlier call of the same path
      obtain ⟨c', hc', e', he', hname', hkey⟩ := (mem_seenSpills_final ..).mp hseen
      obtain ⟨hroot', hreserve', s', hfilename', hepid', hepath'⟩ :=
        exists_string_of_capture hpid hcgroup hd he' hname'
      have htext := congrArg Prod.snd hkey
      simp only [spillKey, hepath, hepath', pathFromEvent_readUserStr s', hsp.text] at htext
      obtain ⟨c'', hc'', hroot'', hsp''⟩ :=
        hconfused c' hc' s' hroot' hreserve' hfilename' htext.symm
      exact hno c'' hc'' (hroot''.trans hroot.symm) hsp''
    · rw [buildTempFileFinding_pid, hepid]

end Postmaster

/-! ### A spill by a backend -/

/-- A backend, 101, forked from the postmaster, 100. -/
def forkTree : UInt32 → Option UInt32
  | 101 => some 100
  | _ => none

def backendSpill : FileCall where
  syscall := .openat
  proc := { pid := 101, cgroupId := 7, comm := some Comm.zero }
  filename := some (.string spillPath)
  reserve := true
  now := .atSecond 0

theorem spillsCovered_iff_backendSpill :
    ({} : Args).pid = none ∧ ({} : Args).cgroupId = none ∧
      0 < (⟨100, none⟩ : PgDiscovery).postmasterPid ∧
      (SpillsCovered {} (some ⟨100, none⟩) forkTree
          (⟨100, none⟩ : PgDiscovery).postmasterPid.toUInt32 [backendSpill] ↔
        OnlyPostmasterSpills forkTree
          (⟨100, none⟩ : PgDiscovery).postmasterPid.toUInt32 [backendSpill]) :=
  ⟨rfl, rfl, by decide, spillsCovered_iff rfl rfl (by decide) _ _⟩

theorem spills_backendSpill : Spills forkTree 100 backendSpill spillPath where
  inTree := Relation.ReflTransGen.single rfl
  filename := rfl
  length_le := by decide
  marker := by decide
  reserve := rfl

/-- The promise is not always kept: nothing is delivered for a backend. -/
theorem not_spillsCovered :
    ¬ ∀ (args : Args) (d : PgDiscovery) (parent : UInt32 → Option UInt32) (calls : List FileCall),
      args.pid = none → args.cgroupId = none → 0 < d.postmasterPid →
        SpillsCovered args (some d) parent d.postmasterPid.toUInt32 calls := by
  intro h
  obtain ⟨⟨e, he, -⟩, -⟩ := h {} ⟨100, none⟩ forkTree [backendSpill] rfl rfl (by decide) []
    backendSpill [] spillPath rfl spills_backendSpill
  rw [delivered_spillStep] at he
  have hnone : backendSpill.capture (filterConfig {} (some ⟨100, none⟩)) = none := by decide
  rw [hnone] at he
  cases he

end PgSleuth
