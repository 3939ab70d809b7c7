import Mathlib.Data.Finset.Insert
import Mathlib.Data.List.DropRight
import Mathlib.Data.List.Infix
import PgSleuth.Core.Finding
import PgSleuth.Ebpf.ProcessFilter
import PgSleuth.ForMathlib.NulTerminated
import PgSleuth.ForMathlib.Utf8Lossy
import PgSleuth.Loader.Config

/-!
# The temp-spill rule

What the loader does with a file-syscall event: decode the path, keep it if it names a temporary
file, and emit one finding for each process and path. The kernel side has truncated the path and
the decoder replaces what is not UTF-8, so the text the loader remembers is not always the path.

## Main results

* `pathFromEvent_readUserStr` — the text the loader sees, in terms of the string in user memory
* `pgsqlTmp_infix_fromUtf8Lossy` — a path that contains the marker still does after decoding
* `tempFileEvent_eq_some`, `mem_tempFileEvent` — a finding is emitted exactly for a temporary file
  whose process and text are new, and these are then remembered
-/

namespace PgSleuth

/-- The path in an event buffer: up to the first NUL, decoded lossily. -/
def pathFromEvent (buf : Vector UInt8 fileEventPathLen) : String :=
  Utf8.fromUtf8Lossy (buf.toList.takeWhile (· ≠ 0))

/-- A process name as text, without the padding. -/
def commStr (comm : Comm) : String :=
  let nul (c : Char) : Bool := c = Char.ofNat 0
  let text := (Utf8.fromUtf8 comm.toList).getD "unknown"
  String.ofList ((text.toList.dropWhile nul).rdropWhile nul)

/-- The label of a `syscall` byte. -/
def syscallStr (syscall : UInt8) : String :=
  if syscall = 0 then "openat" else if syscall = 1 then "unlinkat" else "other"

/-- The finding of the temp-spill rule. -/
def buildTempFileFinding (firedAt : DateTime) (pgInstance : String) (pid : UInt32)
    (comm path syscall : String) : Finding where
  schemaVersion := findingSchemaVersion
  ruleId := "storage.temp_spill.attribution"
  ruleVersion := 1
  tier := .deep
  severity := .medium
  firedAt := firedAt
  pgInstance := { id := pgInstance, dbName := none, role := .unknown }
  summary := s!"Temp-file spill detected on PID {pid} ({comm}) via {syscall}: {path}"
  evidence := .ofJson (.object
    [("pid", .int pid.toNat), ("comm", .string comm), ("path", .string path),
      ("syscall", .string syscall), ("bytes_spilled", .null), ("query_hash", .null),
      ("attribution_layer", .string "syscall_only")])
  remediation :=
    { text := "Identify the backend's running query (pg_stat_activity.pid) and raise " ++
        "work_mem for that session, or rewrite the query to avoid the spill. " ++
        "When the BufFileCreateTemp uprobe layer ships, the Finding will carry " ++
        "the offending query_hash directly."
      knobs := ["work_mem", "temp_file_limit"] }
  otelAttributes :=
    .ofList [("pgsleuth.spill.attribution_layer", AttributeValue.string "syscall_only")]

/-- The process a finding is about. -/
theorem buildTempFileFinding_pid (firedAt : DateTime) (pgInstance : String) (pid : UInt32)
    (comm path syscall : String) :
    (buildTempFileFinding firedAt pgInstance pid comm path syscall).evidence.get? "pid" =
      some (.int pid.toNat) := by
  rw [buildTempFileFinding]
  exact JsonValue.get?_ofJson_of_mem (by simp) (by simp) (Json.normalize_int_uint32 pid)

/-- The call a finding is about. -/
theorem buildTempFileFinding_call (firedAt : DateTime) (pgInstance : String) (pid : UInt32)
    (comm path syscall : String) :
    let evidence := (buildTempFileFinding firedAt pgInstance pid comm path syscall).evidence
    evidence.get? "path" = some (.string path) ∧
      evidence.get? "syscall" = some (.string syscall) := by
  constructor
  · exact JsonValue.get?_ofJson_of_mem (by simp) (by simp) (Json.normalize_string path)
  · exact JsonValue.get?_ofJson_of_mem (by simp) (by simp) (Json.normalize_string syscall)

/-- The marker, `"pgsql_tmp"`, as characters. -/
def pgsqlTmp : List Char := "pgsql_tmp".toList

/-- `path.contains("pgsql_tmp")`. -/
def namesTempFile (path : String) : Bool := pgsqlTmp <:+: path.toList

/-- The spills already reported: process and path. -/
abbrev SeenSpills := Finset (UInt32 × String)

/-- One event taken off the temp-file ring buffer. -/
def tempFileEvent (args : Args) (now : DateTime) (seenSpills : SeenSpills)
    (event : TempFileEvent) : SeenSpills × Option Finding :=
  let path := pathFromEvent event.path
  if !namesTempFile path then (seenSpills, none)
  else if (event.pid, path) ∈ seenSpills then (seenSpills, none)
  else
    (insert (event.pid, path) seenSpills,
      some (buildTempFileFinding now args.pgInstance event.pid (commStr event.comm) path
        (syscallStr event.syscall)))

/-! ### What the loader sees of a path -/

/-- **The text the loader works with**: of the string in user memory, as many bytes as fit, decoded
lossily. -/
theorem pathFromEvent_readUserStr (s : CString) :
    pathFromEvent (readUserStr (.string s)) =
      Utf8.fromUtf8Lossy (s.bytes.take (fileEventPathLen - 1)) := by
  have h0 : (0 : UInt8) ∉ s.bytes.take (fileEventPathLen - 1) :=
    fun h => s.noNul (List.mem_of_mem_take h)
  have hlen : (s.bytes.take (fileEventPathLen - 1)).length ≤ fileEventPathLen := by
    rw [List.length_take]
    omega
  rw [pathFromEvent, readUserStr, Vector.takeWhile_ofFn_getD hlen h0]

/-- A read that faults leaves the empty path, which names no temporary file. -/
theorem pathFromEvent_readUserStr_fault : pathFromEvent (readUserStr .fault) = "" := by
  simp [pathFromEvent, readUserStr]
  rfl

/-- The bytes of the marker. -/
def pgsqlTmpBytes : List UInt8 := [112, 103, 115, 113, 108, 95, 116, 109, 112]

/-- A path that contains the marker still does after a lossy decode. -/
theorem pgsqlTmp_infix_fromUtf8Lossy {bytes : List UInt8} (h : pgsqlTmpBytes <:+: bytes) :
    namesTempFile (Utf8.fromUtf8Lossy bytes) = true := by
  obtain ⟨pre, post, rfl⟩ := h
  have hascii : ∀ x ∈ pgsqlTmpBytes, x < 0x80 := by simp [pgsqlTmpBytes]
  have hne : pgsqlTmpBytes ≠ [] := List.cons_ne_nil _ _
  have hmarker : pgsqlTmpBytes.map (fun x => Char.ofNat x.toNat) = pgsqlTmp := rfl
  have hdecode := Utf8.lossyChars_append_ascii hascii hne pre post
  rw [hmarker] at hdecode
  simp only [namesTempFile, Utf8.fromUtf8Lossy, decide_eq_true_eq, String.toList_ofList, hdecode]
  exact ⟨_, _, rfl⟩

/-! ### One finding for each process and text -/

/-- The process and text of an event. -/
def spillKey (event : TempFileEvent) : UInt32 × String := (event.pid, pathFromEvent event.path)

/-- **When an event leads to a finding, and to which.** -/
theorem tempFileEvent_eq_some (args : Args) (now : DateTime) (seenSpills : SeenSpills)
    (event : TempFileEvent) (f : Finding) :
    (tempFileEvent args now seenSpills event).2 = some f ↔
      namesTempFile (pathFromEvent event.path) = true ∧ spillKey event ∉ seenSpills ∧
        f = buildTempFileFinding now args.pgInstance event.pid (commStr event.comm)
          (pathFromEvent event.path) (syscallStr event.syscall) := by
  cases hname : namesTempFile (pathFromEvent event.path) <;>
    by_cases hseen : (event.pid, pathFromEvent event.path) ∈ seenSpills <;>
    simp [tempFileEvent, spillKey, hname, hseen, eq_comm]

/-- What an event adds to the spills already reported. -/
theorem mem_tempFileEvent (args : Args) (now : DateTime) (seenSpills : SeenSpills)
    (event : TempFileEvent) (key : UInt32 × String) :
    key ∈ (tempFileEvent args now seenSpills event).1 ↔
      key ∈ seenSpills ∨
        (namesTempFile (pathFromEvent event.path) = true ∧ key = spillKey event) := by
  cases hname : namesTempFile (pathFromEvent event.path) <;>
    by_cases hseen : (event.pid, pathFromEvent event.path) ∈ seenSpills <;>
    simp [tempFileEvent, spillKey, hname, hseen, or_comm]
  rintro rfl
  exact hseen

end PgSleuth
