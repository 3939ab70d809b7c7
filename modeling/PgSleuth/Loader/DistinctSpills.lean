import PgSleuth.ForMathlib.FirstOccurrences
import PgSleuth.Loader.SpillCoverage

/-!
# Each spill is reported once, as it was

For calls that pass the PID filter, find room on the ring buffer and name their file by a text that
fits, nothing is lost on the way: the text comes out of the event as it went in, so the loader's
memory tells apart exactly the processes and paths that differ. The findings of the temp-spill rule
are then the first occurrences, whatever else the loader is served in between.

## Main definitions

* `TextCall` — a call that passes the filter, with a path that is text and fits
* `SpillInput` — such a call, or any other input of the loader
* `spillFindings` — the findings of the rule in a run

## Main results

* `TextCall.pathFromEvent_event` — the path, through the wire
* `reportsOnce_spillInput` — one input, through the kernel program and the loader
* `spillFindings_eq_firsts` — the findings of a run
-/

namespace PgSleuth

/-- The name of a traced syscall. -/
def FileSyscall.name : FileSyscall → String
  | .openat => "openat"
  | .unlinkat => "unlinkat"

/-- A call that passes the PID filter, with a path that is text without a NUL and fits into an
event. It finds room on the ring buffer. -/
structure TextCall (config : FilterConfig) where
  syscall : FileSyscall
  proc : Process
  path : String
  /-- The loader's clock when it takes the event off. -/
  now : DateTime
  passes : config.pid = 0 ∨ proc.pid = config.pid
  noNul : (0 : UInt8) ∉ path.toUTF8.data.toList
  length_le : path.toUTF8.data.toList.length ≤ fileEventPathLen - 1

namespace TextCall

variable {config : FilterConfig} (c : TextCall config)

/-- The path in user memory. -/
def userPath : CString := ⟨c.path.toUTF8.data.toList, c.noNul⟩

/-- The call as the kernel program sees it. -/
def fileCall : FileCall where
  syscall := c.syscall
  proc := c.proc
  filename := some (.string c.userPath)
  reserve := true
  now := c.now

/-- What makes a spill a new one. -/
def key : UInt32 × String := (c.proc.pid, c.path)

/-- The finding about a call. -/
def finding (args : Args) : Finding :=
  buildTempFileFinding c.now args.pgInstance c.proc.pid (commStr (c.proc.comm.getD Comm.zero))
    c.path c.syscall.name

end TextCall

/-- What the loader is served: a file call's event, or anything that does not come from the ring
buffer of temporary files. -/
inductive SpillInput (config : FilterConfig)
  | call (c : TextCall config)
  | other (i : LoaderInput) (h : ∀ now event, i ≠ .tempFileEvent now event)

/-- The call an input makes on a temporary file, if it does. -/
def SpillInput.tempFileCall {config : FilterConfig} : SpillInput config → Option (TextCall config)
  | .call c => if namesTempFile c.path then some c else none
  | .other _ _ => none

theorem SpillInput.tempFileCall_eq_some {config : FilterConfig} {i : SpillInput config}
    {c : TextCall config} :
    i.tempFileCall = some c ↔ namesTempFile c.path = true ∧ i = .call c := by
  cases i with
  | call c' =>
    constructor
    · intro h
      obtain ⟨hname, hc⟩ := Option.ite_none_right_eq_some.mp h
      obtain rfl : c' = c := Option.some.inj hc
      exact ⟨hname, rfl⟩
    · rintro ⟨hname, heq⟩
      cases heq
      exact if_pos hname
  | other i h => simp [tempFileCall]

/-- The finding of the temp-spill rule that an effect is, if it is one. -/
def Effect.spillFinding : Effect → Option Finding
  | .finding f => if f.ruleId = "storage.temp_spill.attribution" then some f else none
  | .walIoLatency _ _ _ => none

variable (args : Args) (discovery : Option PgDiscovery)

/-- One input, a call through the kernel program and the loader. -/
def spillInputStep (s : LoaderState) :
    SpillInput (filterConfig args discovery) → LoaderState × List Effect
  | .call c =>
    let next := spillStep args discovery s c.fileCall
    (next.1, next.2.2)
  | .other i _ => loaderStep args discovery s i

/-- The findings of the temp-spill rule in a run, in order. -/
def spillFindings (inputs : List (SpillInput (filterConfig args discovery))) : List Finding :=
  (Mealy.outputs (spillInputStep args discovery) .new inputs).flatMap
    fun effects => effects.filterMap Effect.spillFinding

/-! ### Through the wire -/

namespace TextCall

variable {config : FilterConfig} (c : TextCall config)

/-- The event a call puts on the ring buffer. -/
def event : TempFileEvent where
  pid := c.proc.pid
  syscall := match c.syscall with | .openat => 0 | .unlinkat => 1
  bytes := 0
  queryHash := 0
  comm := c.proc.comm.getD Comm.zero
  path := readUserStr (.string c.userPath)

theorem capture_fileCall : c.fileCall.capture config = some c.event :=
  FileCall.capture_eq_some.mpr ⟨c.passes, rfl, _, rfl, by simp, rfl⟩

/-- **The path comes out as it went in.** -/
theorem pathFromEvent_event : pathFromEvent c.event.path = c.path := by
  have hfits : c.userPath.bytes.take (fileEventPathLen - 1) = c.path.toUTF8.data.toList :=
    List.take_of_length_le c.length_le
  show pathFromEvent (readUserStr (.string c.userPath)) = _
  rw [pathFromEvent_readUserStr, hfits, Utf8.fromUtf8Lossy_toUTF8]

theorem syscallStr_event : syscallStr c.event.syscall = c.syscall.name := by
  cases hcall : c.syscall <;> simp [event, hcall, syscallStr, FileSyscall.name]

theorem spillKey_event : spillKey c.event = c.key := by
  rw [spillKey, pathFromEvent_event]
  rfl

end TextCall

/-! ### One input -/

/-- A call is the loader's business through its event alone. -/
theorem spillInputStep_call (s : LoaderState) (c : TextCall (filterConfig args discovery)) :
    spillInputStep args discovery s (.call c) =
      loaderStep args discovery s (.tempFileEvent c.now c.event) := by
  have hcapture : c.fileCall.capture (filterConfig args discovery) = some c.event :=
    c.capture_fileCall
  have hnow : c.fileCall.now = c.now := rfl
  simp only [spillInputStep, spillStep, hcapture, hnow]

/-- What a call leads to: its finding, if it is on a temporary file and new. -/
theorem spillFinding_call (s : LoaderState) (c : TextCall (filterConfig args discovery)) :
    (spillInputStep args discovery s (.call c)).2.filterMap Effect.spillFinding =
      if namesTempFile c.path = true ∧ c.key ∉ s.seenSpills then [c.finding args] else [] := by
  have hsome := tempFileEvent_eq_some args c.now s.seenSpills c.event
  simp only [c.pathFromEvent_event, c.spillKey_event, c.syscallStr_event] at hsome
  simp only [spillInputStep_call, loaderStep]
  split_ifs with hnew
  · rw [(hsome (c.finding args)).mpr ⟨hnew.1, hnew.2, rfl⟩]
    rfl
  · have hnone : (tempFileEvent args c.now s.seenSpills c.event).2 = none := by
      refine Option.eq_none_iff_forall_ne_some.mpr fun f hf => ?_
      obtain ⟨hname, hkey, -⟩ := (hsome f).mp hf
      exact hnew ⟨hname, hkey⟩
    rw [hnone]
    rfl

/-- Nothing else leads to a finding of the rule. -/
theorem spillFinding_other (s : LoaderState) {i : LoaderInput}
    (h : ∀ now event, i ≠ .tempFileEvent now event) :
    (loaderStep args discovery s i).2.filterMap Effect.spillFinding = [] := by
  cases i with
  | traceEvent event => rfl
  | blockEvent event => rfl
  | tempFileEvent now event => exact absurd rfl (h now event)
  | latencyEvent event => rfl
  | tick now =>
    show ((ruleTick args (devLabel args discovery) now s.ruleState).2.map
      Effect.finding).toList.filterMap Effect.spillFinding = _
    cases hout : (ruleTick args (devLabel args discovery) now s.ruleState).2 with
    | none => rfl
    | some f =>
      -- the other rule's findings carry its own identifier
      obtain ⟨streak, -, rfl⟩ := ((ruleTick_eq ..).2 f).mp hout
      rfl

/-- Nothing else changes what the loader remembers. -/
theorem seenSpills_other (s : LoaderState) {i : LoaderInput}
    (h : ∀ now event, i ≠ .tempFileEvent now event) :
    (loaderStep args discovery s i).1.seenSpills = s.seenSpills := by
  cases i with
  | tempFileEvent now event => exact absurd rfl (h now event)
  | _ => rfl

/-- **One input, through the kernel program and the loader.** -/
theorem reportsOnce_spillInput :
    Mealy.ReportsOnce (spillInputStep args discovery) SpillInput.tempFileCall TextCall.key
      (fun c => c.finding args) (fun effects => effects.filterMap Effect.spillFinding)
      (fun s key => key ∈ s.seenSpills) where
  seen_step s i key := by
    cases i with
    | call c =>
      simp only [spillInputStep_call, loaderStep, mem_tempFileEvent, c.pathFromEvent_event,
        c.spillKey_event]
      cases hname : namesTempFile c.path <;> simp [SpillInput.tempFileCall, hname, eq_comm]
    | other i h =>
      show key ∈ (loaderStep args discovery s i).1.seenSpills ↔ _
      rw [seenSpills_other args discovery s h]
      simp [SpillInput.tempFileCall]
  silent s i hi := by
    cases i with
    | call c =>
      have hname : ¬ namesTempFile c.path = true := by
        intro hname
        simp [SpillInput.tempFileCall, hname] at hi
      rw [spillFinding_call, if_neg fun h => hname h.1]
    | other i h => exact spillFinding_other args discovery s h
  again s i c hi hseen := by
    obtain ⟨hname, rfl⟩ := SpillInput.tempFileCall_eq_some.mp hi
    rw [spillFinding_call, if_neg fun h => h.2 hseen]
  first s i c hi hseen := by
    obtain ⟨hname, rfl⟩ := SpillInput.tempFileCall_eq_some.mp hi
    rw [spillFinding_call, if_pos ⟨hname, hseen⟩]

/-! ### A run -/

/-- **The findings of a run are the distinct spills.** They are about the first call of each process
and path among the calls on temporary files, in order, and each carries its call's PID, path and
syscall. Calls on other files, and everything else the loader is served, might as well not have
happened. -/
theorem spillFindings_eq_firsts (inputs : List (SpillInput (filterConfig args discovery))) :
    spillFindings args discovery inputs =
        ((inputs.filterMap SpillInput.tempFileCall).firstsBy TextCall.key).map
          (fun c => c.finding args) ∧
      (∀ c : TextCall (filterConfig args discovery),
        (c.finding args).evidence.get? "pid" = some (.int c.proc.pid.toNat) ∧
          (c.finding args).evidence.get? "path" = some (.string c.path) ∧
          (c.finding args).evidence.get? "syscall" = some (.string c.syscall.name)) ∧
      spillFindings args discovery inputs =
        spillFindings args discovery (inputs.filter fun i => i.tempFileCall.isSome) := by
  have hrun (inputs : List (SpillInput (filterConfig args discovery))) :
      spillFindings args discovery inputs =
        ((inputs.filterMap SpillInput.tempFileCall).firstsBy TextCall.key).map
          (fun c => c.finding args) :=
    (reportsOnce_spillInput args discovery).flatMap_outputs (by simp [LoaderState.new]) inputs
  refine ⟨hrun inputs, ?_, ?_⟩
  · intro c
    exact ⟨buildTempFileFinding_pid .., buildTempFileFinding_call ..⟩
  · rw [hrun, hrun, List.filterMap_filter]
    congr 3
    funext i
    cases i.tempFileCall <;> rfl

end PgSleuth
