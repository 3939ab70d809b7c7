import PgSleuth.ForMathlib.NulTerminated
import PgSleuth.Loader.Config

/-!
# The name criterion of the process filter

The loader copies at most fifteen bytes of `--name` into the configuration and the kprobe compares
them with the name of the calling task. The comparison stops at the end of the configured name, so
it never finds out whether the task's name ends there too.

## Main definitions

* `TaskName` — the name of a task, as the kernel keeps it
* `filterNameBytes` — the bytes of the configured name that reach the kernel
* `LongerName` — the tasks the criterion takes for the configured one by mistake

## Main results

* `nameMatches_padded` — the comparison loop is a prefix test
* `pgsleuthEbpf_isSome_iff_prefix` — what the filter lets through, for every configuration
* `vfsOpen_filter_exact_iff` — exactly when that is what the three criteria say
-/

namespace PgSleuth

/-- The name of a task: at most fifteen bytes, closed by a NUL. -/
structure TaskName where
  bytes : List UInt8
  noNul : (0 : UInt8) ∉ bytes
  length_le : bytes.length ≤ 15

/-- What `bpf_get_current_comm` writes for a task of this name. -/
def TaskName.comm (task : TaskName) : Comm := Vector.ofFn fun i => task.bytes.getD i 0

/-- The bytes of a configured name that reach the kernel. -/
def filterNameBytes (name : String) : List UInt8 := name.toUTF8.data.toList.take 15

/-- No criterion is configured. -/
def NoCriterion (config : FilterConfig) (name : String) : Prop :=
  config.cgroupId = 0 ∧ config.pid = 0 ∧ name = ""

/-- The cgroup or the PID is configured and is the process's own. -/
def CgroupOrPid (config : FilterConfig) (proc : Process) : Prop :=
  (config.cgroupId ≠ 0 ∧ proc.cgroupId = config.cgroupId) ∨
    (config.pid ≠ 0 ∧ proc.pid = config.pid)

/-- A name is configured and it is the task's. -/
def SameName (name : String) (task : TaskName) : Prop :=
  name ≠ "" ∧ task.bytes = filterNameBytes name

/-- A name is configured and the task's is longer, but starts with it. -/
def LongerName (name : String) (task : TaskName) : Prop :=
  name ≠ "" ∧ filterNameBytes name <+: task.bytes ∧ filterNameBytes name ≠ task.bytes

/-! ### The comparison loop -/

/-- **The loop is a prefix test** on names closed by a NUL. -/
theorem nameMatches_padded : ∀ {name comm : List UInt8}, (0 : UInt8) ∉ name →
    ∀ t t' : List UInt8, nameMatches (name ++ 0 :: t) (comm ++ 0 :: t') = true ↔ name <+: comm
  | [], [], _, _, _ => by simp [nameMatches]
  | [], _ :: _, _, _, _ => by simp [nameMatches]
  | n :: name, [], hname, t, t' => by
    -- the task's name ends first, and the NUL is not a byte of the configured one
    have hn : ¬ 0 = n := fun h => hname (h ▸ List.mem_cons_self ..)
    simp [nameMatches, hn, Ne.symm hn]
  | n :: name, c :: comm, hname, t, t' => by
    have hn : ¬ n = 0 := fun h => hname (h ▸ List.mem_cons_self ..)
    have htail : (0 : UInt8) ∉ name := fun h => hname (List.mem_cons_of_mem _ h)
    have ih : nameMatches _ (comm ++ 0 :: t') = true ↔ _ := nameMatches_padded htail t t'
    rw [List.cons_prefix_cons, ← ih]
    by_cases hc : c = n
    · simp [nameMatches, hn, hc]
    · simp [nameMatches, hn, hc, Ne.symm hc]

/-- A short name in its buffer of sixteen bytes is closed by a NUL. -/
theorem toList_padded {l : List UInt8} (h : l.length ≤ 15) :
    (Vector.ofFn fun i : Fin 16 => l.getD i 0).toList
      = l ++ 0 :: List.replicate (15 - l.length) 0 := by
  rw [Vector.toList_ofFn_getD (by omega), show 16 - l.length = 15 - l.length + 1 by omega,
    List.replicate_succ]

theorem length_filterNameBytes (name : String) : (filterNameBytes name).length ≤ 15 := by
  rw [filterNameBytes, List.length_take]
  exact Nat.min_le_left ..

/-- The criterion as the kprobe evaluates it, for a name without a NUL. -/
theorem nameMatches_filterName {name : String} (hname : (0 : UInt8) ∉ name.toUTF8.data.toList)
    (task : TaskName) :
    nameMatches (filterName name).toList task.comm.toList = true ↔
      filterNameBytes name <+: task.bytes := by
  have h0 : (0 : UInt8) ∉ filterNameBytes name := fun h => hname (List.mem_of_mem_take h)
  rw [show filterName name = Vector.ofFn fun i => (filterNameBytes name).getD i 0 from rfl,
    TaskName.comm, toList_padded task.length_le, toList_padded (length_filterNameBytes name)]
  exact nameMatches_padded h0 ..

/-- The kprobe takes a name as configured exactly when there is one. -/
theorem filterName_head_eq_zero {name : String} (hname : (0 : UInt8) ∉ name.toUTF8.data.toList) :
    (filterName name).head = 0 ↔ name = "" := by
  constructor
  · intro h
    have hnil : name.toUTF8.data.toList = [] := by
      cases hbytes : name.toUTF8.data.toList with
      | nil => rfl
      | cons b bytes =>
        simp only [Vector.head, filterName, hbytes, Vector.getElem_ofFn] at h
        have hb : b = 0 := h
        rw [hbytes, hb] at hname
        exact absurd (List.mem_cons_self ..) hname
    rw [← String.toByteArray_inj, ← String.toUTF8_eq_toByteArray]
    exact ByteArray.ext (Array.toList_inj.mp hnil)
  · rintro rfl
    rfl

/-! ### What the filter lets through -/

/-- **What the kprobe reports**, given room on the ring buffer: every process when nothing is
configured, else those in the cgroup, those with the PID, and those whose name *starts with* the
configured one. -/
theorem pgsleuthEbpf_isSome_iff_prefix (args : Args) (discovery : Option PgDiscovery)
    (hname : (0 : UInt8) ∉ args.name.toUTF8.data.toList) (pid : UInt32) (cgroupId : UInt64)
    (task : TaskName) :
    let config := filterConfig args discovery
    let proc : Process := { pid, cgroupId, comm := some task.comm }
    (pgsleuthEbpf (some config) proc true).2.isSome = true ↔
      NoCriterion config args.name ∨ CgroupOrPid config proc ∨
        (args.name ≠ "" ∧ filterNameBytes args.name <+: task.bytes) := by
  intro config proc
  have hhead : config.name[0] = 0 ↔ args.name = "" := filterName_head_eq_zero hname
  have hloop : nameMatches config.name.toList (proc.comm.getD Comm.zero).toList = true ↔
      filterNameBytes args.name <+: task.bytes := nameMatches_filterName hname task
  have hname' : config.name[0] ≠ 0 ↔ args.name ≠ "" := not_congr hhead
  rw [pgsleuthEbpf_isSome, OtherCriterion, hloop, hhead, hname']
  unfold NoCriterion CgroupOrPid
  rw [or_assoc, or_left_comm (a := config.pid ≠ 0 ∧ _)]

/-- **Exactly when the filter does what its three criteria say.** A process is reported if and only
if no criterion is configured, or the cgroup or the PID is and is the process's own, or a name is
and its first fifteen bytes are the process's name; except for a process that meets neither of the
first two and whose name is longer than the configured one and starts with it. -/
theorem vfsOpen_filter_exact_iff (args : Args) (discovery : Option PgDiscovery)
    (hname : (0 : UInt8) ∉ args.name.toUTF8.data.toList) (pid : UInt32) (cgroupId : UInt64)
    (task : TaskName) :
    let config := filterConfig args discovery
    let proc : Process := { pid, cgroupId, comm := some task.comm }
    ((pgsleuthEbpf (some config) proc true).2.isSome = true ↔
        NoCriterion config args.name ∨ CgroupOrPid config proc ∨ SameName args.name task) ↔
      ¬ (LongerName args.name task ∧ ¬ CgroupOrPid config proc) := by
  intro config proc
  have hprefix : (args.name ≠ "" ∧ filterNameBytes args.name <+: task.bytes) ↔
      SameName args.name task ∨ LongerName args.name task := by
    constructor
    · rintro ⟨hne, hpre⟩
      by_cases heq : filterNameBytes args.name = task.bytes
      · exact Or.inl ⟨hne, heq.symm⟩
      · exact Or.inr ⟨hne, hpre, heq⟩
    · rintro (⟨hne, heq⟩ | ⟨hne, hpre, -⟩)
      · exact ⟨hne, heq ▸ List.prefix_refl _⟩
      · exact ⟨hne, hpre⟩
  have hnone : LongerName args.name task → ¬ NoCriterion config args.name :=
    fun hlong h => hlong.1 h.2.2
  have hsame : LongerName args.name task → ¬ SameName args.name task :=
    fun hlong h => hlong.2.2 h.2.symm
  have hreported : (pgsleuthEbpf (some config) proc true).2.isSome = true ↔ _ :=
    pgsleuthEbpf_isSome_iff_prefix args discovery hname pid cgroupId task
  rw [hreported, hprefix]
  constructor
  · rintro hexact ⟨hlong, hno⟩
    rcases hexact.mp (Or.inr (Or.inr (Or.inr hlong))) with h | h | h
    · exact hnone hlong h
    · exact hno h
    · exact hsame hlong h
  · intro hrare
    constructor
    · rintro (h | h | h | hlong)
      · exact Or.inl h
      · exact Or.inr (Or.inl h)
      · exact Or.inr (Or.inr h)
      · exact Or.inr (Or.inl (by_contra fun hno => hrare ⟨hlong, hno⟩))
    · rintro (h | h | h)
      · exact Or.inl h
      · exact Or.inr (Or.inl h)
      · exact Or.inr (Or.inr (Or.inl h))

/-- The bytes of `"postgres_export"`: what the kernel keeps of `postgres_exporter`. -/
def exporterName : TaskName :=
  ⟨[112, 111, 115, 116, 103, 114, 101, 115, 95, 101, 120, 112, 111, 114, 116], by decide,
    by decide⟩

/-- The bytes of `"postgres"`. -/
def postgresName : TaskName := ⟨[112, 111, 115, 116, 103, 114, 101, 115], by decide, by decide⟩

theorem vfsOpen_filter_exact_iff_postgres :
    (0 : UInt8) ∉ ({ name := "postgres" } : Args).name.toUTF8.data.toList ∧
      let config := filterConfig { name := "postgres" } none
      let proc : Process := { pid := 7, cgroupId := 1, comm := some postgresName.comm }
      ((pgsleuthEbpf (some config) proc true).2.isSome = true ↔
          NoCriterion config "postgres" ∨ CgroupOrPid config proc ∨
            SameName "postgres" postgresName) ↔
        ¬ (LongerName "postgres" postgresName ∧ ¬ CgroupOrPid config proc) :=
  ⟨by decide, vfsOpen_filter_exact_iff { name := "postgres" } none (by decide) 7 1 postgresName⟩

/-- The filter is not exact: with only the name `postgres` configured, a process that is called
`postgres_export` is reported. -/
theorem not_vfsOpen_filter_exact :
    ¬ ∀ (args : Args) (discovery : Option PgDiscovery),
      (0 : UInt8) ∉ args.name.toUTF8.data.toList →
        ∀ (pid : UInt32) (cgroupId : UInt64) (task : TaskName),
          let config := filterConfig args discovery
          let proc : Process := { pid, cgroupId, comm := some task.comm }
          (pgsleuthEbpf (some config) proc true).2.isSome = true ↔
            NoCriterion config args.name ∨ CgroupOrPid config proc ∨ SameName args.name task := by
  intro h
  have hexact := h { name := "postgres" } none (by decide) 7 1 exporterName
  have hreported : (pgsleuthEbpf (some (filterConfig { name := "postgres" } none))
      { pid := 7, cgroupId := 1, comm := some exporterName.comm } true).2.isSome = true := by
    decide
  rcases hexact.mp hreported with ⟨-, -, h⟩ | (⟨h, -⟩ | ⟨h, -⟩) | ⟨-, h⟩
  · exact absurd h (by decide)
  · exact h rfl
  · exact h rfl
  · exact absurd h (by decide)

end PgSleuth
